import Mgw.DataNodesCursors

/-!
# The counts of objects and arrays

What is in memory is described by the lists and arrays of a heap. Every object and array
is counted once for each variable, each item and each entry of an array that refers to
it, and what is released to the last reference takes no other list with it.
-/

namespace Mgw.DataNodes

open DataItems DataValues LinkedCells PackedItem RefCounts

set_option autoImplicit false

inductive Holding where
  | data (items : Entries)
  | array (objects : List Nat)

abbrev Heap := Nat → Holding

namespace Holding

def refs : Holding → List Nat
  | .data items => items.flatMap fun item => pointees item.2.value
  | .array objects => objects

def isData : Holding → Bool
  | .data _ => true
  | .array _ => false

/-- The object or array is in memory as the heap says. -/
def Shown (state : State) (id : Nat) : Holding → Prop
  | .data items => Listed state id items
  | .array objects => state.contents id = .array objects

end Holding

/-- What a value refers to is of its kind. -/
def HasKind (kinds : Nat → Bool) : Value → Prop
  | .object obj => obj = 0 ∨ kinds obj.toNat = true
  | .array arr => arr = 0 ∨ kinds arr.toNat = false
  | _ => True

def Holding.Typed (kinds : Nat → Bool) : Holding → Prop
  | .data items => ∀ item ∈ items, HasKind kinds item.2.value
  | .array objects => ∀ obj ∈ objects, kinds obj = true

def kindsOf (heap : Heap) (id : Nat) : Bool := (heap id).isData

def outOf (heap : Heap) (id : Nat) : Option (List Nat) := some (heap id).refs

/-- The memory is that of the heap, and the counts are right but for `work` and `debt`. -/
structure Good (state : State) (heap : Heap) (work debt : List Nat) : Prop where
  balanced : Balanced (outOf heap) state.ref state.count state.held work debt
  shown : ∀ id, state.ref id ≠ 0 → (heap id).Shown state id
  typed : ∀ id, state.ref id ≠ 0 → (heap id).Typed (kindsOf heap)
  bounded : Bounded state
  null : state.ref 0 = 0
  small : state.count ≤ 2 ^ 64

section Heaps

variable {heap : Heap} {data : Nat} {holding : Holding}

theorem out_update (heap : Heap) (data : Nat) (holding : Holding) :
    outOf (Function.update heap data holding) =
      Function.update (outOf heap) data (some holding.refs) := by
  funext id
  by_cases same : id = data
  · rw [same, Function.update_self, outOf, Function.update_self]
  · rw [Function.update_of_ne same, outOf, Function.update_of_ne same, outOf]

theorem kinds_update (same : holding.isData = (heap data).isData) :
    kindsOf (Function.update heap data holding) = kindsOf heap := by
  funext id
  by_cases here : id = data
  · rw [here, kindsOf, Function.update_self, same, kindsOf]
  · rw [kindsOf, Function.update_of_ne here, kindsOf]

theorem destroy_cells {items : Entries} (each : ∀ item ∈ items, Represents data item) :
    destroyItems (cellsOf items) = some (items.flatMap fun item => pointees item.2.value) := by
  induction items with
  | nil => rfl
  | cons item rest ih =>
      have represents := each item List.mem_cons_self
      change destroyItems ((item.2.addr, item.2.node) :: cellsOf rest) = _
      rw [destroyItems, if_pos represents.ref, holds_destroy_references represents.holds,
        Option.bind_some, ih fun other member => each other (List.mem_cons_of_mem _ member)]
      rfl

/-- Only the contents and the items are looked at. -/
theorem shown_same {state after : State} {id : Nat} (shown : holding.Shown state id)
    (contents : after.contents id = state.contents id) (nodes : after.nodes = state.nodes) :
    holding.Shown after id := by
  cases holding with
  | data items =>
      have listed : Listed state id items := shown
      refine ⟨contents.trans listed.first, ?_, listed.sorted, listed.each⟩
      rw [nodes]
      exact listed.chained
  | array objects => exact contents.trans shown

theorem out_shown {state : State} (bounded : Bounded state) (shown : (heap data).Shown state data) :
    state.out data = outOf heap data := by
  unfold State.out outOf
  cases found : heap data with
  | data items =>
      rw [found] at shown
      have listed : Listed state data items := shown
      rw [listed.first]
      dsimp only
      rw [walk_chained listed.chained (listed_length bounded listed), Option.bind_some,
        destroy_cells listed.each]
      rfl
  | array objects =>
      rw [found] at shown
      have same : state.contents data = .array objects := shown
      rw [same]
      rfl

end Heaps

section Releasing

variable {state after : State} {heap : Heap} {work debt : List Nat}

/-- What is left when references are given up. -/
structure Released (state after : State) : Prop where
  live : ∀ id, after.ref id ≠ 0 → state.ref id ≠ 0
  stays : ∀ id, 0 < state.held id → state.ref id ≠ 0 → after.ref id ≠ 0
  held : after.held = state.held
  contents : after.contents = state.contents
  count : after.count = state.count
  nodes : ∀ addr cell data, state.nodes addr = some cell → cell.held.parent = some data →
    after.ref data ≠ 0 → after.nodes addr = some cell

theorem shown_released (released : Released state after) {id : Nat} (live : after.ref id ≠ 0)
    {holding : Holding} (shown : holding.Shown state id) : holding.Shown after id := by
  cases holding with
  | data items =>
      have listed : Listed state id items := shown
      refine ⟨?_, ?_, listed.sorted, listed.each⟩
      · rw [released.contents]
        exact listed.first
      · apply chained_frame listed.chained
        intro cell member
        obtain ⟨item, itemMember, same⟩ := List.mem_map.mp member
        obtain ⟨next, here⟩ := listed_cell listed itemMember
        rw [← same]
        exact (released.nodes _ _ id here (listed.each item itemMember).parent live).trans here.symm
  | array objects =>
      have same : state.contents id = .array objects := shown
      change after.contents id = .array objects
      rw [released.contents, same]

theorem release_good (good : Good state heap work debt)
    (owed : Owed (outOf heap) state.ref state.held debt) :
    ∃ after, state.release work = .done after ∧ Good after heap [] debt ∧ Released state after := by
  have same : ∀ id, state.ref id ≠ 0 → state.out id = outOf heap id :=
    fun id live => out_shown good.bounded (good.shown id live)
  obtain ⟨ref, released, balanced, survives, stays⟩ := release_balanced
    (work.length + RefCounts.load (outOf heap) state.ref state.count) good.balanced owed (le_refl _)
  rw [← release_refs_congr _ same, ← load_out_congr same] at released
  have result : state.release work = .done { state with
      ref := ref
      nodes := fun addr => (state.nodes addr).filter fun cell =>
        cell.held.parent.all fun data => ref data ≠ 0 } := by
    rw [State.release, released]
    rfl
  have left : Released state { state with
      ref := ref
      nodes := fun addr => (state.nodes addr).filter fun cell =>
        cell.held.parent.all fun data => ref data ≠ 0 } := by
    refine ⟨survives, stays, rfl, rfl, rfl, ?_⟩
    intro addr cell data here parent live
    change (state.nodes addr).filter _ = some cell
    rw [here, Option.filter_some, if_pos]
    rw [parent]
    exact decide_eq_true live
  refine ⟨_, result, ⟨balanced, ?_, ?_, ?_, ?_, good.small⟩, left⟩
  · intro id live
    exact shown_released left live (good.shown id (survives id live))
  · intro id live
    exact good.typed id (survives id live)
  · intro addr cell here
    have kept : (state.nodes addr).filter _ = some cell := here
    obtain ⟨before, -⟩ := Option.filter_eq_some_iff.mp kept
    exact good.bounded addr cell before
  · by_contra live
    exact survives 0 live good.null

end Releasing

section Changing

variable {state after : State} {heap : Heap} {work debt work' debt' : List Nat} {data : Nat}
  {items items' : Entries} {name : Name} {entry : Entry}

def refsIn (items : Entries) : List Nat := (Holding.data items).refs

theorem good_congr (good : Good state heap work debt)
    (same : ∀ id, debt'.count id + work.count id = debt.count id + work'.count id) :
    Good state heap work' debt' :=
  ⟨balanced_congr good.balanced same, good.shown, good.typed, good.bounded, good.null, good.small⟩

theorem good_listed (good : Good state heap work debt) (live : state.ref data ≠ 0)
    (isData : heap data = .data items) : Listed state data items := by
  have shown := good.shown data live
  rw [isData] at shown
  exact shown

theorem good_kinds (good : Good state heap work debt) (live : state.ref data ≠ 0)
    (isData : heap data = .data items) :
    ∀ item ∈ items, HasKind (kindsOf heap) item.2.value := by
  have typed := good.typed data live
  rw [isData] at typed
  exact typed

/-- The list of one object is another one. -/
theorem relisted_good (good : Good state heap work debt) (live : state.ref data ≠ 0)
    (isData : heap data = .data items) (relisted : Relisted state after data items')
    (kinds : ∀ item ∈ items', HasKind (kindsOf heap) item.2.value)
    (change : ∀ id, debt'.count id + work.count id + (refsIn items).count id =
      debt.count id + work'.count id + (refsIn items').count id) :
    Good after (Function.update heap data (.data items')) work' debt' := by
  have sameKinds : kindsOf (Function.update heap data (.data items')) = kindsOf heap := by
    apply kinds_update
    rw [isData]
    rfl
  have own : refsOf (outOf heap) data = refsIn items := by
    change (heap data).refs = _
    rw [isData]
    rfl
  refine ⟨?_, ?_, ?_, relisted.bounded, ?_, ?_⟩
  · rw [out_update, relisted.frame.ref, relisted.frame.count, relisted.frame.held]
    apply replaced_balanced good.balanced live
    rw [own]
    exact change
  · intro id there
    rw [relisted.frame.ref] at there
    by_cases here : id = data
    · rw [here, Function.update_self]
      exact relisted.listed
    · rw [Function.update_of_ne here]
      have shown := good.shown id there
      cases holding : heap id with
      | data others =>
          rw [holding] at shown
          exact listed_frame relisted.frame here shown
      | array objects =>
          rw [holding] at shown
          exact (relisted.frame.contents id here).trans shown
  · intro id there
    rw [relisted.frame.ref] at there
    rw [sameKinds]
    by_cases here : id = data
    · rw [here, Function.update_self]
      exact kinds
    · rw [Function.update_of_ne here]
      exact good.typed id there
  · rw [relisted.frame.ref]
    exact good.null
  · rw [relisted.frame.count]
    exact good.small

theorem counted_good {ids : List Nat} (good : Good state heap work (ids ++ debt))
    (live : ∀ id ∈ ids, state.ref id ≠ 0) :
    Good { state with ref := addRefs state.ref ids } heap work debt := by
  have survives : ∀ id, addRefs state.ref ids id ≠ 0 → state.ref id ≠ 0 := by
    intro id there
    by_cases member : id ∈ ids
    · exact live id member
    · rw [add_refs_other ids member] at there
      exact there
  refine ⟨add_refs_balanced ids good.balanced live, ?_, ?_, good.bounded, ?_, good.small⟩
  · intro id there
    exact shown_same (good.shown id (survives id there)) rfl rfl
  · intro id there
    exact good.typed id (survives id there)
  · by_contra there
    exact survives 0 there good.null

section Counts

variable (id : Nat)

theorem refs_parts (left right : Entries) (item : Name × Entry) :
    (refsIn (left ++ item :: right)).count id =
      (refsIn (left ++ right)).count id + (pointees item.2.value).count id := by
  change (List.flatMap _ _).count id = (List.flatMap _ _).count id + _
  rw [List.flatMap_append, List.flatMap_append, List.flatMap_cons, List.count_append,
    List.count_append, List.count_append]
  omega

theorem refs_replaced (found : getItem name items = some entry) (new : Entry) :
    (refsIn (replaceItem name new items)).count id + (pointees entry.value).count id =
      (refsIn items).count id + (pointees new.value).count id := by
  obtain ⟨left, right, parts, -, replaced, -⟩ := found_split found
  rw [replaced, parts, refs_parts, refs_parts]
  dsimp only
  omega

theorem refs_detached (found : getItem name items = some entry) :
    (refsIn (detachItem name items)).count id + (pointees entry.value).count id =
      (refsIn items).count id := by
  obtain ⟨left, right, parts, -, -, detached⟩ := found_split found
  rw [detached, parts, refs_parts]

theorem refs_linked (sorted : Sorted items) (absent : getItem name items = none) (new : Entry) :
    (refsIn (linkItem (name, new) items)).count id =
      (refsIn items).count id + (pointees new.value).count id := by
  obtain ⟨before, after, parts, linked, -⟩ := @link_split _ (name, new) items sorted absent
  rw [linked, parts, refs_parts]

end Counts

end Changing

section Setting

variable {state after : State} {heap : Heap} {data : Nat} {items : Entries} {name : Name}
  {entry : Entry} {value : Value}

/-- What a call that sets a value leaves. -/
structure SetDone (state after : State) (heap : Heap) (data : Nat) (items items' : Entries)
    (name : Name) (value : Value) : Prop where
  good : Good after (Function.update heap data (.data items')) [] []
  held : after.held = state.held
  live : ∀ id, after.ref id ≠ 0 → state.ref id ≠ 0
  found : ∀ other, (getItem other items').map Entry.value =
    if other = name then some value else (getItem other items).map Entry.value
  created : getItem name items = none → after.ref = addRefs state.ref (pointees value)

theorem held_not_null (good : Good state heap [] []) (held : 0 < state.held data) : data ≠ 0 := by
  intro null
  apply owned_live good.balanced held
  rw [null]
  exact good.null

theorem get_entry (good : Good state heap [] []) (held : 0 < state.held data)
    (isData : heap data = .data items) (name : Name) :
    state.getItem data name = .done ((getItem name items).map Entry.addr) :=
  get_item good.bounded (held_not_null good held) (owned_live good.balanced held)
    (good_listed good (owned_live good.balanced held) isData) name

theorem set_absent (alloc : Allocator) (good : Good state heap [] []) (held : 0 < state.held data)
    (isData : heap data = .data items) (absent : getItem name items = none)
    (owned : ∀ id ∈ pointees value, 0 < state.held id) (kind : HasKind (kindsOf heap) value) :
    (state.insertItem alloc data name value.bytes value.type).Returns False fun after =>
      ∃ items', SetDone state after heap data items items' name value := by
  have live := owned_live good.balanced held
  have listed := good_listed good live isData
  have counted : ∀ id ∈ pointees value, state.ref id ≠ 0 :=
    fun id member => owned_live good.balanced (owned id member)
  apply Attempt.returns_mono (insert_item alloc good.bounded live listed absent value counted)
  rintro after ⟨new, rfl, relisted⟩
  have twice : Good state heap (pointees new.value) (pointees new.value ++ []) :=
    good_congr good fun id => by rw [List.append_nil, List.count_nil]; omega
  have added := counted_good twice counted
  refine ⟨linkItem (name, new) items, ?_, relisted.frame.held, ?_, ?_, fun _ => relisted.frame.ref⟩
  · apply relisted_good added (add_refs_live _ live) isData relisted
    · intro item member
      rcases List.mem_cons.mp ((member_link listed.sorted absent).mem_iff.mp member)
        with same | old
      · rw [same]
        exact kind
      · exact good_kinds good live isData item old
    · intro id
      rw [refs_linked id listed.sorted absent]
      simp only [List.count_nil]
      omega
  · intro id there
    have there' : addRefs state.ref (pointees new.value) id ≠ 0 := by
      rw [relisted.frame.ref] at there
      exact there
    by_cases member : id ∈ pointees new.value
    · exact counted id member
    · rw [add_refs_other _ member] at there'
      exact there'
  · intro other
    rw [get_link listed.sorted absent]
    split_ifs
    · rfl
    · rfl

/-- The packed item with the new value is put in the place of the old one. -/
theorem set_placed (alloc : Allocator) (good : Good state heap [] (pointees entry.value))
    (live : state.ref data ≠ 0) (isData : heap data = .data items)
    (found : getItem name items = some entry) {cell : Cell Nat Node}
    (here : state.nodes entry.addr = some cell) {item : Item} (holds : Holds item value)
    (kind : HasKind (kindsOf heap) value) :
    (state.itemEnsureCapacity alloc entry.addr cell item).Returns False fun placed =>
      ∃ new : Entry, new.value = value ∧ placed.ref = state.ref ∧ placed.held = state.held ∧
        Good placed (Function.update heap data (.data (replaceItem name new items))) []
          (pointees value) := by
  have listed := good_listed good live isData
  have placed : ∀ after new, new.value = value →
      Relisted state after data (replaceItem name new items) →
      Good after (Function.update heap data (.data (replaceItem name new items))) []
        (pointees value) := by
    intro after new same relisted
    apply relisted_good good live isData relisted
    · intro other member
      have sorted := relisted.listed.sorted
      have value' := get_of_member sorted member
      rw [get_replace found] at value'
      split_ifs at value' with own
      · rw [← Option.some.inj value', same]
        exact kind
      · exact good_kinds good live isData other (get_member value')
    · intro id
      have replaced := refs_replaced id found new
      rw [same] at replaced
      rw [List.count_nil]
      omega
  unfold State.itemEnsureCapacity
  split_ifs
  · obtain ⟨after, modified, relisted⟩ := item_placed good.bounded listed found holds
    rw [modified]
    exact ⟨_, rfl, relisted.frame.ref, relisted.frame.held, placed after _ rfl relisted⟩
  · apply Attempt.returns_bind (item_moved alloc good.bounded live listed found here holds)
    intro moved relisted
    exact ⟨_, rfl, relisted.frame.ref, relisted.frame.held, placed moved.1 _ rfl relisted⟩

theorem set_present (alloc : Allocator) (good : Good state heap [] []) (held : 0 < state.held data)
    (isData : heap data = .data items) (found : getItem name items = some entry)
    (owned : ∀ id ∈ pointees value, 0 < state.held id) (kind : HasKind (kindsOf heap) value) :
    (state.itemSetdata alloc entry.addr value.bytes value.type).Returns False fun after =>
      ∃ items', SetDone state after heap data items items' name value := by
  have live := owned_live good.balanced held
  have listed := good_listed good live isData
  obtain ⟨next, here⟩ := listed_cell listed (get_member found)
  have represents := listed.each _ (get_member found)
  have releasing : Good state heap (pointees entry.value) (pointees entry.value) :=
    good_congr good fun id => by rw [List.count_nil]; omega
  have own : refsOf (outOf heap) data = refsIn items := by
    change (heap data).refs = _
    rw [isData]
    rfl
  have owed : Owed (outOf heap) state.ref state.held (pointees entry.value) := by
    refine Or.inr ⟨data, held, live, fun id => ?_⟩
    have detached := refs_detached id found
    rw [own]
    omega
  obtain ⟨released, result, good', left⟩ := release_good releasing owed
  have stillLive := left.stays data held live
  have stays := left.nodes _ _ data here represents.parent stillLive
  obtain ⟨item, written, holds⟩ :=
    setdata_holds represents.holds (alloc.fresh released) value
  have filled : value.bytes.length ≠ 0 :=
    fun empty => value_bytes_filled value (List.length_eq_zero_iff.mp empty)
  rw [State.itemSetdata, load_here here, Attempt.bind_done, State.itemDataRelease,
    holds_data_references represents.holds, Attempt.read_some, Attempt.bind_done, result,
    Attempt.bind_done, load_here stays, Attempt.bind_done, written, Attempt.read_some,
    Attempt.bind_done]
  apply Attempt.returns_bind (set_placed alloc good' stillLive isData found stays holds kind)
  rintro placed ⟨new, same, refs, heldSame, placedGood⟩
  have counted : ∀ id ∈ pointees value, placed.ref id ≠ 0 := by
    intro id member
    rw [refs]
    exact left.stays id (owned id member) (owned_live good.balanced (owned id member))
  have debt : Good placed (Function.update heap data (.data (replaceItem name new items))) []
      (pointees value ++ []) := by
    rw [List.append_nil]
    exact placedGood
  rw [if_neg filled, State.itemDataAddref, holds_references holds, Attempt.read_some,
    Attempt.bind_done, addref_live counted]
  refine ⟨_, counted_good debt counted, heldSame.trans left.held, ?_, ?_, ?_⟩
  · intro id there
    by_cases member : id ∈ pointees value
    · exact owned_live good.balanced (owned id member)
    · change addRefs placed.ref _ id ≠ 0 at there
      rw [add_refs_other _ member, refs] at there
      exact left.live id there
  · intro other
    rw [get_replace found]
    split_ifs
    · rw [Option.map_some, same]
    · rfl
  · intro absent
    rw [absent] at found
    contradiction

/-- A value that the caller holds is set, whatever the name had before. -/
theorem data_set (alloc : Allocator) (good : Good state heap [] []) (held : 0 < state.held data)
    (isData : heap data = .data items) (name : Name)
    (owned : ∀ id ∈ pointees value, 0 < state.held id) (kind : HasKind (kindsOf heap) value) :
    (state.dataSet alloc data name value).Returns False fun after =>
      ∃ items', SetDone state after heap data items items' name value := by
  rw [State.dataSet, State.setItem, if_neg (held_not_null good held), get_entry good held isData,
    Attempt.bind_done]
  cases found : getItem name items with
  | none => exact set_absent alloc good held isData found owned kind
  | some entry => exact set_present alloc good held isData found owned kind

end Setting

end Mgw.DataNodes
