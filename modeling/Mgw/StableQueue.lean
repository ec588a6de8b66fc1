import Mathlib.Data.List.Sort
import Mathlib.Order.Basic

/-!
A queue that is ordered by a key and keeps the order of arrival among equal keys.
Items enter behind every pending item whose key is not greater and leave at the
front. As long as no item enters below one that has left, everything that ever
entered is, in the order it left or will leave, the stable sort of the arrivals.
-/

namespace Mgw.StableQueue

set_option autoImplicit false

variable {Item Key : Type*} [LinearOrder Key] (key : Item → Key)

/-- Insertion behind all items whose key is at most that of the new one. -/
def insertBy (item : Item) : List Item → List Item
  | [] => [item]
  | head :: rest =>
      if key head ≤ key item then head :: insertBy item rest else item :: head :: rest

/-- The list is in the order of the keys. -/
def Ordered (items : List Item) : Prop := items.Pairwise fun left right => key left ≤ key right

section Insertion

variable {key}

@[simp] theorem insert_by_nil (item : Item) : insertBy key item [] = [item] := rfl

theorem insert_by_behind {item head : Item} {rest : List Item} (le : key head ≤ key item) :
    insertBy key item (head :: rest) = head :: insertBy key item rest := by
  rw [insertBy, if_pos le]

theorem insert_by_before {item head : Item} {rest : List Item} (lt : key item < key head) :
    insertBy key item (head :: rest) = item :: head :: rest := by
  rw [insertBy, if_neg (not_le.mpr lt)]

theorem insert_by_end {item : Item} {items : List Item} (le : ∀ other ∈ items, key other ≤ key item) :
    insertBy key item items = items ++ [item] := by
  induction items with
  | nil => rfl
  | cons head rest ih =>
      rw [insert_by_behind (le head List.mem_cons_self),
        ih fun other member => le other (List.mem_cons_of_mem head member), List.cons_append]

variable (key) in
theorem insert_by_perm (item : Item) (items : List Item) :
    (insertBy key item items).Perm (item :: items) := by
  induction items with
  | nil => exact List.Perm.refl _
  | cons head rest ih =>
      rw [insertBy]
      split_ifs
      · exact (ih.cons head).trans (List.Perm.swap item head rest)
      · exact List.Perm.refl _

variable (key) in
theorem insert_by_length (item : Item) (items : List Item) :
    (insertBy key item items).length = items.length + 1 :=
  (insert_by_perm key item items).length_eq

theorem insert_by_ne_nil (item : Item) (items : List Item) : insertBy key item items ≠ [] := by
  intro empty
  have count := insert_by_length key item items
  rw [empty] at count
  contradiction

/-- The new item stands between those that stay before it and the greater ones. -/
theorem insert_by_split (item : Item) {items : List Item} (ordered : Ordered key items) :
    ∃ left right, items = left ++ right ∧ insertBy key item items = left ++ item :: right ∧
      (∀ other ∈ left, key other ≤ key item) ∧ ∀ other ∈ right, key item < key other := by
  induction items with
  | nil => exact ⟨[], [], rfl, rfl, by simp, by simp⟩
  | cons head rest ih =>
      rw [Ordered, List.pairwise_cons] at ordered
      rcases le_or_gt (key head) (key item) with le | lt
      · obtain ⟨left, right, parts, inserted, below, above⟩ := ih ordered.2
        refine ⟨head :: left, right, ?_, ?_, ?_, above⟩
        · rw [parts, List.cons_append]
        · rw [insert_by_behind le, inserted, List.cons_append]
        · intro other member
          rcases List.mem_cons.mp member with first | later
          · rwa [first]
          · exact below other later
      · refine ⟨[], head :: rest, rfl, ?_, by simp, ?_⟩
        · rw [insert_by_before lt, List.nil_append]
        · intro other member
          rcases List.mem_cons.mp member with first | later
          · rwa [first]
          · exact lt_of_lt_of_le lt (ordered.1 other later)

/-- The item in front after an insertion is the new one or the one in front before. -/
theorem insert_by_first {item first : Item} {items rest : List Item}
    (shape : insertBy key item items = first :: rest) :
    (first = item ∧ ∀ head ∈ items.head?, key item < key head) ∨
      (items.head? = some first ∧ key first ≤ key item) := by
  cases items with
  | nil =>
      rw [insert_by_nil] at shape
      exact Or.inl ⟨(List.cons.inj shape).1.symm, by simp⟩
  | cons head others =>
      rcases le_or_gt (key head) (key item) with le | lt
      · rw [insert_by_behind le] at shape
        rw [← (List.cons.inj shape).1]
        exact Or.inr ⟨rfl, le⟩
      · rw [insert_by_before lt] at shape
        refine Or.inl ⟨(List.cons.inj shape).1.symm, ?_⟩
        intro other same
        rwa [← Option.some.inj same]

theorem insert_by_last {item last : Item} {items : List Item} (ordered : Ordered key items)
    (isLast : (insertBy key item items).getLast? = some last) :
    (last = item ∧ ∀ other ∈ items, key other ≤ key item) ∨
      (items.getLast? = some last ∧ key item < key last) := by
  obtain ⟨left, right, parts, inserted, below, above⟩ := insert_by_split item ordered
  rw [inserted, List.getLast?_append_cons] at isLast
  cases right with
  | nil =>
      rw [List.getLast?_singleton] at isLast
      rw [List.append_nil] at parts
      rw [parts]
      exact Or.inl ⟨(Option.some.inj isLast).symm, below⟩
  | cons head others =>
      rw [List.getLast?_cons_cons] at isLast
      rw [parts, List.getLast?_append_cons]
      exact Or.inr ⟨isLast, above last (List.mem_of_getLast? isLast)⟩

theorem insert_by_map {Image : Type*} {keyImage : Image → Key} {image : Item → Image}
    (same : ∀ item, keyImage (image item) = key item) (item : Item) (items : List Item) :
    (insertBy key item items).map image =
      insertBy keyImage (image item) (items.map image) := by
  induction items with
  | nil => rfl
  | cons head rest ih =>
      simp only [insertBy, List.map_cons, same]
      split_ifs
      · rw [List.map_cons, ih]
      · rfl

end Insertion

/-- `sorted` holds the arrivals in the order of their keys, equal keys as they arrived. -/
def Arranges (sorted arrivals : List Item) : Prop :=
  Ordered key sorted ∧ ∀ value : Key,
    sorted.filter (fun item => key item = value) = arrivals.filter (fun item => key item = value)

section Arranging

variable {key} {sorted arrivals : List Item}

theorem arranges_nil : Arranges key ([] : List Item) [] := ⟨List.Pairwise.nil, fun _ => rfl⟩

/-- One arrival that enters behind everything not greater than it. -/
theorem arranges_insert {left right : List Item} (item : Item)
    (arranged : Arranges key (left ++ right) arrivals)
    (below : ∀ other ∈ left, key other ≤ key item)
    (above : ∀ other ∈ right, key item < key other) :
    Arranges key (left ++ item :: right) (arrivals ++ [item]) := by
  obtain ⟨ordered, same⟩ := arranged
  rw [Ordered, List.pairwise_append] at ordered
  constructor
  · rw [Ordered, List.pairwise_append, List.pairwise_cons]
    refine ⟨ordered.1, ⟨fun other member => le_of_lt (above other member), ordered.2.1⟩, ?_⟩
    intro first firstMember second secondMember
    rcases List.mem_cons.mp secondMember with new | old
    · rw [new]
      exact below first firstMember
    · exact ordered.2.2 first firstMember second old
  · intro value
    have before := same value
    rw [List.filter_append] at before
    rw [List.filter_append, List.filter_append, List.filter_cons, List.filter_singleton, ← before]
    by_cases equal : key item = value
    · have none : right.filter (fun other => key other = value) = [] := by
        rw [List.filter_eq_nil_iff]
        intro other member
        have greater := above other member
        rw [equal] at greater
        simpa using ne_of_gt greater
      simp only [equal, decide_true, if_true, none, List.append_nil, Bool.cond_true]
    · simp only [equal, decide_false, Bool.false_eq_true, if_false, Bool.cond_false,
        List.append_nil]

theorem insert_by_ordered (item : Item) {items : List Item} (ordered : Ordered key items) :
    Ordered key (insertBy key item items) := by
  obtain ⟨left, right, parts, inserted, below, above⟩ := insert_by_split item ordered
  rw [parts] at ordered
  rw [inserted]
  exact (arranges_insert item ⟨ordered, fun _ => rfl⟩ below above).1

theorem key_le_trans (first second third : Item) (one : decide (key first ≤ key second) = true)
    (two : decide (key second ≤ key third) = true) : decide (key first ≤ key third) = true := by
  simp only [decide_eq_true_eq] at one two ⊢
  exact le_trans one two

theorem key_le_total (first second : Item) :
    (decide (key first ≤ key second) || decide (key second ≤ key first)) = true := by
  simp only [Bool.or_eq_true, decide_eq_true_eq]
  exact le_total _ _

/-- Sorting keeps the items of one key as they are. -/
theorem filter_key_merge_sort (arrivals : List Item) (value : Key) :
    (arrivals.mergeSort fun left right => key left ≤ key right).filter
        (fun item => key item = value) =
      arrivals.filter (fun item => key item = value) := by
  have constant : (arrivals.filter fun item => key item = value).Pairwise
      fun left right => decide (key left ≤ key right) = true := by
    apply List.Pairwise.imp_of_mem (R := fun _ _ => True)
    · intro left right leftMember rightMember _
      simp only [List.mem_filter, decide_eq_true_eq] at leftMember rightMember ⊢
      rw [leftMember.2, rightMember.2]
    · exact List.pairwise_of_forall fun _ _ => trivial
  have sublist := List.sublist_mergeSort key_le_trans key_le_total constant List.filter_sublist
  have within := sublist.filter fun item => key item = value
  rw [List.filter_filter] at within
  simp only [Bool.and_self] at within
  refine (within.eq_of_length ?_).symm
  exact ((List.mergeSort_perm arrivals _).filter _).length_eq.symm

/-- Two ordered lists that agree on the items of each key are the same. -/
theorem ordered_unique {left right : List Item} (leftOrdered : Ordered key left)
    (rightOrdered : Ordered key right)
    (same : ∀ value : Key, left.filter (fun item => key item = value) =
      right.filter (fun item => key item = value)) : left = right := by
  induction left generalizing right with
  | nil =>
      cases right with
      | nil => rfl
      | cons head rest =>
          have wrong := same (key head)
          simp at wrong
  | cons head rest ih =>
      cases right with
      | nil =>
          have wrong := same (key head)
          simp at wrong
      | cons other others =>
          rw [Ordered, List.pairwise_cons] at leftOrdered rightOrdered
          have headIn : head ∈ other :: others := by
            have member : head ∈ (other :: others).filter (fun item => key item = key head) := by
              rw [← same (key head)]
              simp
            exact List.mem_of_mem_filter member
          have otherIn : other ∈ head :: rest := by
            have member : other ∈ (head :: rest).filter (fun item => key item = key other) := by
              rw [same (key other)]
              simp
            exact List.mem_of_mem_filter member
          have equalKeys : key head = key other := by
            apply le_antisymm
            · rcases List.mem_cons.mp otherIn with first | later
              · rw [first]
              · exact leftOrdered.1 other later
            · rcases List.mem_cons.mp headIn with first | later
              · rw [first]
              · exact rightOrdered.1 head later
          have heads : head = other := by
            have first := same (key head)
            simp only [List.filter_cons, equalKeys, decide_true, if_true] at first
            exact (List.cons.inj first).1
          subst heads
          rw [ih leftOrdered.2 rightOrdered.2]
          intro value
          have tails := same value
          simp only [List.filter_cons] at tails
          split_ifs at tails with equal
          · exact (List.cons.inj tails).2
          · exact tails

theorem arranges_eq_merge_sort (arranged : Arranges key sorted arrivals) :
    sorted = arrivals.mergeSort fun left right => key left ≤ key right := by
  apply ordered_unique arranged.1
  · have pairwise := List.pairwise_mergeSort (@key_le_trans _ _ _ key) key_le_total arrivals
    exact pairwise.imp fun le => by simpa using le
  · intro value
    rw [filter_key_merge_sort]
    exact arranged.2 value

end Arranging

/-- The items that have left the queue and those that are still in it. -/
structure Queue (Item : Type*) where
  out : List Item
  pending : List Item

namespace Queue

def empty : Queue Item := { out := [], pending := [] }

def put (item : Item) (queue : Queue Item) : Queue Item :=
  { queue with pending := insertBy key item queue.pending }

/-- The first `count` pending items leave. -/
def take (count : Nat) (queue : Queue Item) : Queue Item :=
  { out := queue.out ++ queue.pending.take count, pending := queue.pending.drop count }

def all (queue : Queue Item) : List Item := queue.out ++ queue.pending

@[simp] theorem take_zero (queue : Queue Item) : queue.take 0 = queue := by
  simp [take]

@[simp] theorem all_take (count : Nat) (queue : Queue Item) : (queue.take count).all = queue.all := by
  rw [all, all, take, List.append_assoc, List.take_append_drop]

theorem put_perm (item : Item) (queue : Queue Item) :
    (queue.put key item).all.Perm (queue.all ++ [item]) := by
  rw [all, all, put, List.append_assoc]
  apply List.Perm.append_left
  exact (insert_by_perm key item queue.pending).trans (List.perm_append_singleton item _).symm

variable {key}

/-- An item that is not below any that has left keeps the whole arranged. -/
theorem put_arranges {queue : Queue Item} {arrivals : List Item} {item : Item}
    (arranged : Arranges key queue.all arrivals) (after : ∀ other ∈ queue.out, key other ≤ key item) :
    Arranges key (queue.put key item).all (arrivals ++ [item]) := by
  have ordered : Ordered key queue.pending := (List.pairwise_append.mp arranged.1).2.1
  obtain ⟨left, right, parts, inserted, below, above⟩ := insert_by_split item ordered
  rw [all, parts, ← List.append_assoc] at arranged
  have result := arranges_insert item arranged (by
    intro other member
    rcases List.mem_append.mp member with gone | waiting
    · exact after other gone
    · exact below other waiting) above
  rwa [all, put, inserted, ← List.append_assoc]

end Queue

end Mgw.StableQueue
