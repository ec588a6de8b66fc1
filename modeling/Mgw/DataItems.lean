import Mathlib.Data.List.Lex
import Mathlib.Data.List.Sort
import Mathlib.Order.Basic

/-!
# The items of an `mgw_data`

A list of named items in the order of their names, for any contents. `strcmp` is the
order of the names.
-/

namespace Mgw.DataItems

set_option autoImplicit false

/-- A string of C, without the byte that ends it. -/
structure Name where
  bytes : List UInt8
  ended : 0 ∉ bytes
  deriving DecidableEq

def Name.codes (name : Name) : List Nat := name.bytes.map UInt8.toNat

theorem codes_injective : Function.Injective Name.codes := by
  intro left right same
  have bytes := List.map_injective_iff.mpr (fun _ _ => UInt8.toNat_inj.mp) same
  cases left
  cases right
  simp_all

instance : LinearOrder Name := LinearOrder.lift' Name.codes codes_injective

variable {V : Type*}

def getItem (name : Name) : List (Name × V) → Option V
  | [] => none
  | item :: rest => if item.1 = name then some item.2 else getItem name rest

/-- `prev` and the items before and behind it. -/
structure Place (V : Type*) where
  passed : List (Name × V)
  prev : Name × V
  next : List (Name × V)

/-- The loop of `set_item_data`. -/
def findPlace (name : Name) (passed : List (Name × V)) (prev : Name × V) :
    List (Name × V) → Place V
  | [] => { passed := passed, prev := prev, next := [] }
  | next :: rest =>
      if name < next.1 then { passed := passed, prev := prev, next := next :: rest }
      else findPlace name (passed ++ [prev]) next rest

/-- The new item of `set_item_data`. Where it becomes the first one, what is before
`prev` is not in the list any more. -/
def linkItem (new : Name × V) : List (Name × V) → List (Name × V)
  | [] => [new]
  | first :: rest =>
      let place := findPlace new.1 [] first rest
      if place.prev.1 < new.1 then place.passed ++ place.prev :: new :: place.next
      else new :: place.prev :: place.next

/-- The item with a name is changed where it is. -/
def replaceItem (name : Name) (contents : V) : List (Name × V) → List (Name × V)
  | [] => []
  | item :: rest =>
      if item.1 = name then (name, contents) :: rest else item :: replaceItem name contents rest

/-- `get_item_prev_next` and `mgw_data_item_detach`. -/
def detachItem (name : Name) : List (Name × V) → List (Name × V)
  | [] => []
  | item :: rest => if item.1 = name then rest else item :: detachItem name rest

def Sorted (items : List (Name × V)) : Prop := items.Pairwise (·.1 < ·.1)

theorem sorted_cons {item : Name × V} {items : List (Name × V)} :
    Sorted (item :: items) ↔ (∀ other ∈ items, item.1 < other.1) ∧ Sorted items :=
  List.pairwise_cons

theorem get_absent {name : Name} {items : List (Name × V)} :
    getItem name items = none ↔ ∀ item ∈ items, item.1 ≠ name := by
  induction items with
  | nil => simp [getItem]
  | cons item items ih =>
      rw [getItem]
      split_ifs with same
      · simp [same]
      · simp [ih, same]

theorem get_member {name : Name} {contents : V} {items : List (Name × V)}
    (found : getItem name items = some contents) : (name, contents) ∈ items := by
  induction items with
  | nil => contradiction
  | cons item items ih =>
      rw [getItem] at found
      split_ifs at found with same
      · rw [← same, ← Option.some.inj found]
        exact List.mem_cons_self
      · exact List.mem_cons_of_mem _ (ih found)

theorem get_of_nodup {name : Name} {contents : V} {items : List (Name × V)}
    (nodup : (items.map Prod.fst).Nodup) (member : (name, contents) ∈ items) :
    getItem name items = some contents := by
  induction items with
  | nil => contradiction
  | cons item items ih =>
      obtain ⟨fresh, rest⟩ := List.nodup_cons.mp nodup
      rw [getItem]
      rcases List.mem_cons.mp member with first | later
      · rw [← first, if_pos rfl]
      · have other : item.1 ≠ name := by
          intro same
          apply fresh
          rw [same]
          exact List.mem_map_of_mem later
        rw [if_neg other, ih rest later]

theorem sorted_nodup {items : List (Name × V)} (sorted : Sorted items) :
    (items.map Prod.fst).Nodup :=
  List.pairwise_map.mpr (sorted.imp ne_of_lt)

theorem get_of_member {name : Name} {contents : V} {items : List (Name × V)}
    (sorted : Sorted items) (member : (name, contents) ∈ items) :
    getItem name items = some contents :=
  get_of_nodup (sorted_nodup sorted) member

/-- The items in order are known by what is found of them. -/
theorem sorted_ext {left right : List (Name × V)} (sorted : Sorted left)
    (sorted' : Sorted right) (same : ∀ name, getItem name left = getItem name right) :
    left = right := by
  have : Std.Antisymm fun left right : Name × V => left.1 < right.1 :=
    ⟨fun _ _ less greater => absurd less (lt_asymm greater)⟩
  have : Std.Irrefl fun left right : Name × V => left.1 < right.1 := ⟨fun item => lt_irrefl item.1⟩
  refine sorted.eq_of_mem_iff sorted' fun item => ⟨fun member => ?_, fun member => ?_⟩
  · apply get_member
    rw [← same]
    exact get_of_member sorted member
  · apply get_member
    rw [same]
    exact get_of_member sorted' member

theorem get_append {name : Name} {left right : List (Name × V)} :
    getItem name (left ++ right) = (getItem name left).or (getItem name right) := by
  induction left with
  | nil => rfl
  | cons item left ih =>
      rw [List.cons_append, getItem, getItem]
      split_ifs with same
      · rfl
      · exact ih

/-- Where the loop stops. -/
theorem find_place {name : Name} {passed : List (Name × V)} {prev : Name × V}
    {rest : List (Name × V)} (early : ∀ item ∈ passed, item.1 < name)
    (sorted : Sorted (prev :: rest)) (absent : ∀ item ∈ prev :: rest, item.1 ≠ name) :
    passed ++ prev :: rest = (findPlace name passed prev rest).passed ++
        (findPlace name passed prev rest).prev :: (findPlace name passed prev rest).next ∧
      (∀ item ∈ (findPlace name passed prev rest).passed, item.1 < name) ∧
      (∀ item ∈ (findPlace name passed prev rest).next, name < item.1) ∧
      ((findPlace name passed prev rest).prev.1 < name ∨
        findPlace name passed prev rest = { passed := passed, prev := prev, next := rest }) := by
  induction rest generalizing passed prev with
  | nil => exact ⟨rfl, early, nofun, Or.inr rfl⟩
  | cons next rest ih =>
      obtain ⟨least, later⟩ := sorted_cons.mp sorted
      rw [findPlace]
      split_ifs with past
      · refine ⟨rfl, early, ?_, Or.inr rfl⟩
        intro item member
        rcases List.mem_cons.mp member with first | further
        · rw [first]
          exact past
        · exact lt_trans past ((sorted_cons.mp later).1 item further)
      · have before : next.1 < name :=
          lt_of_le_of_ne (not_lt.mp past) (absent next (by simp))
        have place := @ih (passed ++ [prev]) next ?_ later
          fun item member => absent item (List.mem_cons_of_mem _ member)
        · rw [← List.append_cons] at place
          obtain ⟨same, passedBefore, nextPast, stop⟩ := place
          refine ⟨same, passedBefore, nextPast, Or.inl ?_⟩
          rcases stop with prevBefore | start
          · exact prevBefore
          · rw [start]
            exact before
        · intro item member
          rcases List.mem_append.mp member with old | last
          · exact early item old
          · rw [List.mem_singleton.mp last]
            exact lt_trans (least next List.mem_cons_self) before

/-- A new item is linked in between the smaller names and the larger ones. -/
theorem link_split {new : Name × V} {items : List (Name × V)} (sorted : Sorted items)
    (absent : getItem new.1 items = none) :
    ∃ before after, items = before ++ after ∧ linkItem new items = before ++ new :: after ∧
      (∀ item ∈ before, item.1 < new.1) ∧ ∀ item ∈ after, new.1 < item.1 := by
  cases items with
  | nil => exact ⟨[], [], rfl, rfl, nofun, nofun⟩
  | cons first rest =>
      obtain ⟨same, early, past, stop⟩ :=
        @find_place V new.1 [] first rest nofun sorted (get_absent.mp absent)
      rw [List.nil_append] at same
      rw [linkItem]
      split_ifs with before
      · refine ⟨(findPlace new.1 [] first rest).passed ++ [(findPlace new.1 [] first rest).prev],
          (findPlace new.1 [] first rest).next, ?_, ?_, ?_, past⟩
        · rw [← List.append_cons]
          exact same
        · rw [← List.append_cons]
        · intro item member
          rcases List.mem_append.mp member with old | last
          · exact early item old
          · rw [List.mem_singleton.mp last]
            exact before
      · have start := stop.resolve_left before
        rw [start] at before ⊢
        have smallest : new.1 < first.1 :=
          lt_of_le_of_ne (not_lt.mp before) fun equal =>
            get_absent.mp absent first List.mem_cons_self equal.symm
        refine ⟨[], first :: rest, rfl, rfl, nofun, ?_⟩
        intro item member
        rcases List.mem_cons.mp member with head | later
        · rw [head]
          exact smallest
        · exact lt_trans smallest ((sorted_cons.mp sorted).1 item later)

theorem sorted_link {new : Name × V} {items : List (Name × V)} (sorted : Sorted items)
    (absent : getItem new.1 items = none) : Sorted (linkItem new items) := by
  obtain ⟨before, after, split, linked, early, past⟩ := link_split sorted absent
  rw [split] at sorted
  obtain ⟨left, right, across⟩ := List.pairwise_append.mp sorted
  rw [linked]
  refine List.pairwise_append.mpr ⟨left, List.pairwise_cons.mpr ⟨past, right⟩, ?_⟩
  intro item member other later
  rcases List.mem_cons.mp later with last | further
  · rw [last]
    exact early item member
  · exact across item member other further

theorem get_link {new : Name × V} {items : List (Name × V)} (sorted : Sorted items)
    (absent : getItem new.1 items = none) (name : Name) :
    getItem name (linkItem new items) = if name = new.1 then some new.2 else getItem name items := by
  obtain ⟨before, after, split, linked, -⟩ := link_split sorted absent
  rw [linked, split, get_append, get_append, getItem]
  split_ifs with same other other
  · rw [split, get_append, Option.or_eq_none_iff] at absent
    rw [other, absent.1, Option.none_or]
  · exact absurd same.symm other
  · exact absurd other.symm same
  · rfl

theorem member_link {new : Name × V} {items : List (Name × V)} (sorted : Sorted items)
    (absent : getItem new.1 items = none) : (linkItem new items).Perm (new :: items) := by
  obtain ⟨before, after, split, linked, -⟩ := link_split sorted absent
  rw [linked, split]
  exact List.perm_middle

theorem get_replace {name : Name} {contents old : V} {items : List (Name × V)}
    (found : getItem name items = some old) (other : Name) :
    getItem other (replaceItem name contents items) =
      if other = name then some contents else getItem other items := by
  induction items with
  | nil => contradiction
  | cons item items ih =>
      rw [getItem] at found
      rw [replaceItem]
      split_ifs at found with here
      · rw [if_pos here, getItem, getItem, here]
        by_cases same : other = name
        · rw [if_pos same.symm, if_pos same]
        · rw [if_neg (Ne.symm same), if_neg same, if_neg (Ne.symm same)]
      · rw [if_neg here, getItem, getItem, ih found]
        by_cases same : other = name
        · rw [same, if_neg here, if_pos rfl, if_pos rfl]
        · rw [if_neg same, if_neg same]

theorem names_replace (name : Name) (contents : V) (items : List (Name × V)) :
    (replaceItem name contents items).map Prod.fst = items.map Prod.fst := by
  induction items with
  | nil => rfl
  | cons item items ih =>
      rw [replaceItem]
      split_ifs with here
      · rw [List.map_cons, List.map_cons, here]
      · rw [List.map_cons, List.map_cons, ih]

theorem sorted_names {items : List (Name × V)} :
    Sorted items ↔ (items.map Prod.fst).Pairwise (· < ·) := List.pairwise_map.symm

theorem sorted_replace {items : List (Name × V)} (sorted : Sorted items) (name : Name)
    (contents : V) : Sorted (replaceItem name contents items) := by
  rw [sorted_names, names_replace]
  exact sorted_names.mp sorted

theorem get_detach {items : List (Name × V)} (sorted : Sorted items) (name other : Name) :
    getItem other (detachItem name items) = if other = name then none else getItem other items := by
  induction items with
  | nil => simp [detachItem, getItem]
  | cons item items ih =>
      obtain ⟨least, rest⟩ := sorted_cons.mp sorted
      rw [detachItem]
      split_ifs with here same same
      · apply get_absent.mpr
        intro later member
        rw [same, ← here]
        exact ne_of_gt (least later member)
      · rw [getItem, if_neg fun equal => same (equal.symm.trans here)]
      · rw [getItem, if_neg fun equal => here (equal.trans same), ih rest, if_pos same]
      · rw [getItem, getItem, ih rest, if_neg same]

theorem detach_sublist (name : Name) (items : List (Name × V)) :
    (detachItem name items).Sublist items := by
  induction items with
  | nil => exact List.Sublist.refl _
  | cons item items ih =>
      rw [detachItem]
      split_ifs
      · exact List.sublist_cons_self _ _
      · exact ih.cons_cons item

theorem sorted_detach {items : List (Name × V)} (sorted : Sorted items) (name : Name) :
    Sorted (detachItem name items) :=
  List.Pairwise.sublist (detach_sublist name items) sorted

/-- Where the item with a name is, and what its change and its removal leave. -/
theorem found_split {name : Name} {old : V} {items : List (Name × V)}
    (found : getItem name items = some old) :
    ∃ left right, items = left ++ (name, old) :: right ∧ (∀ item ∈ left, item.1 ≠ name) ∧
      (∀ contents, replaceItem name contents items = left ++ (name, contents) :: right) ∧
      detachItem name items = left ++ right := by
  induction items with
  | nil => contradiction
  | cons item items ih =>
      rw [getItem] at found
      split_ifs at found with here
      · refine ⟨[], items, ?_, nofun, ?_, ?_⟩
        · rw [← here, ← Option.some.inj found, List.nil_append]
        · intro contents
          rw [replaceItem, if_pos here, List.nil_append]
        · rw [detachItem, if_pos here, List.nil_append]
      · obtain ⟨left, right, parts, before, replaced, detached⟩ := ih found
        refine ⟨item :: left, right, ?_, ?_, ?_, ?_⟩
        · rw [parts, List.cons_append]
        · intro other member
          rcases List.mem_cons.mp member with same | later
          · rw [same]
            exact here
          · exact before other later
        · intro contents
          rw [replaceItem, if_neg here, replaced, List.cons_append]
        · rw [detachItem, if_neg here, detached, List.cons_append]

/-- A loop that sets what it makes of each entry, of which no two have one name. -/
theorem get_foldl {W : Type*} {step : List (Name × W) → Name × V → List (Name × W)}
    {Valid : List (Name × W) → Prop} {made : Name → V → Option W}
    (keeps : ∀ items entry, Valid items → Valid (step items entry))
    (sets : ∀ items entry name, Valid items → getItem name (step items entry) =
      if name = entry.1 then (made name entry.2).or (getItem name items) else getItem name items)
    {entries : List (Name × V)} (nodup : (entries.map Prod.fst).Nodup)
    {items : List (Name × W)} (valid : Valid items) :
    Valid (entries.foldl step items) ∧ ∀ name, getItem name (entries.foldl step items) =
      ((getItem name entries).bind (made name)).or (getItem name items) := by
  induction entries generalizing items with
  | nil => exact ⟨valid, fun name => rfl⟩
  | cons entry entries ih =>
      obtain ⟨fresh, rest⟩ := List.nodup_cons.mp nodup
      obtain ⟨final, found⟩ := ih rest (keeps items entry valid)
      refine ⟨final, fun name => ?_⟩
      rw [List.foldl_cons, found name, sets items entry name valid, getItem]
      by_cases same : name = entry.1
      · have absent : getItem name entries = none := by
          apply get_absent.mpr
          intro item member equal
          apply fresh
          rw [← same, ← equal]
          exact List.mem_map_of_mem member
        rw [if_pos same, if_pos same.symm, absent, Option.bind_none, Option.none_or,
          Option.bind_some]
      · rw [if_neg same, if_neg (Ne.symm same)]

end Mgw.DataItems
