import Mgw.DataNodesCounts

/-!
# The other calls on objects and arrays

Each of them leaves memory that a heap describes, with every count right: an item that is
erased, an object or array that is created or given up, an entry that is pushed.
-/

namespace Mgw.DataNodes

open DataItems DataValues LinkedCells PackedItem RefCounts

set_option autoImplicit false

variable {state after : State} {heap : Heap} {work debt work' debt' : List Nat} {data id : Nat}
  {items : Entries} {name : Name} {entry : Entry}

section Erasing

/-- An item that is in no list is freed. -/
theorem freed_good (good : Good state heap work debt) {addr : Nat} {cell : Cell Nat Node}
    (here : state.nodes addr = some cell) (parent : cell.held.parent = some data)
    (isData : heap data = .data items) (outside : ∀ item ∈ items, item.2.addr ≠ addr) :
    Good { state with nodes := Function.update state.nodes addr none } heap work debt := by
  refine ⟨good.balanced, ?_, good.typed, ?_, good.null, good.small⟩
  · intro other there
    have shown := good.shown other there
    cases holding : heap other with
    | data others =>
        rw [holding] at shown
        have listed : Listed state other others := shown
        refine ⟨listed.first, ?_, listed.sorted, listed.each⟩
        apply chained_frame listed.chained
        intro cell' member
        obtain ⟨item, itemMember, same⟩ := List.mem_map.mp member
        rw [← same]
        apply Function.update_of_ne
        intro equal
        change item.2.addr = addr at equal
        obtain ⟨next, found⟩ := listed_cell listed itemMember
        rw [equal, here] at found
        have owner := (listed.each item itemMember).parent
        rw [Option.some.inj found] at parent
        have sameObject : other = data := Option.some.inj (owner.symm.trans parent)
        rw [sameObject, isData] at holding
        exact outside item (Holding.data.inj holding ▸ itemMember) equal
    | array objects =>
        rw [holding] at shown
        exact shown
  · intro other cell' there
    by_cases same : other = addr
    · rw [same]
      exact good.bounded addr cell here
    · exact good.bounded other cell' ((Function.update_of_ne same ..).symm.trans there)

/-- What `mgw_data_erase` leaves. -/
structure EraseDone (state after : State) (heap : Heap) (data : Nat) (items items' : Entries)
    (name : Name) : Prop where
  good : Good after (Function.update heap data (.data items')) [] []
  held : after.held = state.held
  found : ∀ other, getItem other items' = if other = name then none else getItem other items

theorem data_erase (good : Good state heap [] []) (held : 0 < state.held data)
    (isData : heap data = .data items) (name : Name) :
    ∃ after items', state.dataErase data name = .done after ∧
      EraseDone state after heap data items items' name := by
  have live := owned_live good.balanced held
  have listed := good_listed good live isData
  rw [State.dataErase, get_entry good held isData, Attempt.bind_done]
  cases found : getItem name items with
  | none =>
      refine ⟨state, items, rfl, ?_, rfl, ?_⟩
      · rw [← isData, Function.update_eq_self]
        exact good
      · intro other
        split_ifs with same
        · rw [same, found]
        · rfl
  | some entry =>
      have represents := listed.each _ (get_member found)
      obtain ⟨detached, result, relisted, stays⟩ := item_detach good.bounded live listed found
      have good' : Good detached (Function.update heap data (.data (detachItem name items)))
          (pointees entry.value) [] := by
        apply relisted_good good live isData relisted
        · intro item member
          exact good_kinds good live isData item ((detach_sublist name items).mem member)
        · intro id
          have count := refs_detached id found
          simp only [List.count_nil]
          omega
      have heldStill : 0 < detached.held data := by
        rw [relisted.frame.held]
        exact held
      have liveStill : detached.ref data ≠ 0 := by
        rw [relisted.frame.ref]
        exact live
      obtain ⟨released, releases, good'', left⟩ := release_good good' (Or.inl rfl)
      have there := left.nodes _ _ data stays represents.parent (left.stays data heldStill liveStill)
      have isData' : Function.update heap data (.data (detachItem name items)) data =
          .data (detachItem name items) := Function.update_self ..
      have liveLast := left.stays data heldStill liveStill
      have listed' := good_listed good'' liveLast isData'
      have outside : ∀ item ∈ detachItem name items, item.2.addr ≠ entry.addr := by
        intro item member same
        obtain ⟨next, here⟩ := listed_cell listed' member
        rw [same, there] at here
        have node : entry.node = item.2.node := congrArg Cell.held (Option.some.inj here)
        have equal : name = item.1 :=
          represents.name.symm.trans ((congrArg Node.name node).trans (listed'.each item member).name)
        have absent := get_detach listed.sorted name name
        rw [if_pos rfl] at absent
        exact get_absent.mp absent item member equal.symm
      have notFound : released.itemDetach entry.addr = .done released := by
        rw [State.itemDetach, load_here there, Attempt.bind_done, represents.parent,
          State.getItemPrevNext, first_item liveLast listed', Attempt.bind_done, firstAddr,
          find_no_slot .head listed'.chained _ (listed_length good''.bounded listed')]
        · rfl
        · intro cell member
          obtain ⟨item, itemMember, same⟩ := List.mem_map.mp member
          rw [← same]
          exact outside item itemMember
      refine ⟨_, detachItem name items, ?_, freed_good good'' there represents.parent isData'
        outside, ?_, get_detach listed.sorted name⟩
      · change (state.itemDetach entry.addr >>= _) = _
        rw [result, Attempt.bind_done, State.itemRelease, load_here stays, Attempt.bind_done,
          represents.ref, if_neg one_ne_zero, if_pos rfl, State.itemDestroy, load_here stays,
          Attempt.bind_done, holds_destroy_references represents.holds, Attempt.read_some,
          Attempt.bind_done, releases, Attempt.bind_done, notFound, Attempt.bind_done]
        rfl
      · exact left.held.trans relisted.frame.held

end Erasing

section Variables

/-- A reference of a variable is about to be given up. -/
theorem dropped_good (good : Good state heap work debt) (held : 0 < state.held id) :
    Good { state with held := Function.update state.held id (state.held id - 1) } heap
      (id :: work) debt :=
  ⟨dropped_balanced good.balanced held, fun other there => shown_same (good.shown other there) rfl rfl,
    good.typed, good.bounded, good.null, good.small⟩

/-- A reference that is counted comes to be held by a variable. -/
theorem taken_good (good : Good state heap (id :: work) debt) :
    Good { state with held := Function.update state.held id (state.held id + 1) } heap work debt :=
  ⟨taken_balanced good.balanced, fun other there => shown_same (good.shown other there) rfl rfl,
    good.typed, good.bounded, good.null, good.small⟩

theorem give_back (good : Good state heap [] []) (held : 0 < state.held id) :
    ∃ after, state.giveBack id = .done after ∧ Good after heap [] [] ∧
      after.held = Function.update state.held id (state.held id - 1) ∧
      (∀ other, after.ref other ≠ 0 → state.ref other ≠ 0) ∧
      (1 < state.ref id → after.ref = Function.update state.ref id (state.ref id - 1)) := by
  obtain ⟨after, result, good', left⟩ := release_good (dropped_good good held) (Or.inl rfl)
  refine ⟨after, result, good', left.held, left.live, ?_⟩
  intro shared
  have single : state.giveBack id = .done after := result
  unfold State.giveBack State.release at single
  dsimp only at single
  rw [List.length_singleton, Nat.add_comm, releaseRefs, if_neg (by omega), if_neg (by omega),
    releaseRefs] at single
  rw [← Attempt.done.inj single]

theorem hand_out (good : Good state heap [] []) (live : id = 0 ∨ state.ref id ≠ 0) :
    ∃ after, state.handOut id = .done after ∧ Good after heap [] [] ∧
      (∀ other, state.held other ≤ after.held other) := by
  unfold State.handOut
  split_ifs with null
  · exact ⟨state, rfl, good, fun _ => le_refl _⟩
  · have there := live.resolve_left null
    have counted : ∀ other ∈ [id], state.ref other ≠ 0 := by
      intro other member
      rw [List.mem_singleton.mp member]
      exact there
    have owed : Good state heap [id] ([id] ++ []) :=
      good_congr good fun other => by rw [List.append_nil, List.count_nil]; omega
    rw [addref_live counted]
    refine ⟨_, rfl, taken_good (counted_good owed counted), ?_⟩
    intro other
    by_cases same : other = id
    · rw [same]
      change state.held id ≤ Function.update state.held id (state.held id + 1) id
      rw [Function.update_self]
      omega
    · change state.held other ≤ Function.update state.held id (state.held id + 1) other
      rw [Function.update_of_ne same]

end Variables

section Creating

theorem kind_congr {kinds kinds' : Nat → Bool} {value : Value} (kind : HasKind kinds value)
    (same : ∀ id ∈ pointees value, kinds' id = kinds id) : HasKind kinds' value := by
  cases value with
  | string val => trivial
  | number num padding => trivial
  | boolean val => trivial
  | object obj =>
      by_cases null : obj = 0
      · exact Or.inl null
      · refine Or.inr ((same obj.toNat ?_).trans (kind.resolve_left null))
        rw [pointees, if_neg null]
        exact List.mem_singleton_self _
  | array arr =>
      by_cases null : arr = 0
      · exact Or.inl null
      · refine Or.inr ((same arr.toNat ?_).trans (kind.resolve_left null))
        rw [pointees, if_neg null]
        exact List.mem_singleton_self _

theorem typed_congr {kinds kinds' : Nat → Bool} {holding : Holding}
    (typed : holding.Typed kinds) (same : ∀ id ∈ holding.refs, kinds' id = kinds id) :
    holding.Typed kinds' := by
  cases holding with
  | data items =>
      intro item member
      apply kind_congr (typed item member)
      exact fun id inside => same id (List.mem_flatMap.mpr ⟨item, member, inside⟩)
  | array objects =>
      intro obj member
      exact (same obj member).trans (typed obj member)

/-- What is created: an address that was not in use, with one reference of a variable. -/
structure Created (state after : State) (heap : Heap) (id : Nat) (holding : Holding) : Prop where
  good : Good after (Function.update heap id holding) [] []
  unused : state.ref id = 0
  unheld : state.held id = 0
  positive : 0 < id
  small : id < 2 ^ 64
  ref : after.ref = Function.update state.ref id 1
  held : after.held = Function.update state.held id 1

theorem create_object (alloc : Allocator) (good : Good state heap [] []) {contents : Contents}
    {holding : Holding} (empty : holding.refs = []) (typed : ∀ kinds, holding.Typed kinds)
    (shown : ∀ (after : State) (id : Nat), after.contents id = contents → holding.Shown after id) :
    (state.createObject alloc contents).Returns False fun created =>
      Created state created.1 heap created.2 holding := by
  have granted : (Attempt.demand (alloc.object state)).Returns False
      fun id => 0 < id ∧ id < 2 ^ 64 ∧ state.ref id = 0 := by
    apply Attempt.returns_demand
    exact alloc.object_new state
  apply Attempt.returns_bind granted
  intro id new
  obtain ⟨positive, small, unused⟩ := new
  obtain ⟨unheld, balanced⟩ := created_balanced good.balanced unused
  have others : ∀ other, Function.update state.ref id 1 other ≠ 0 → other ≠ id →
      state.ref other ≠ 0 := by
    intro other there different
    rw [Function.update_of_ne different] at there
    exact there
  refine ⟨⟨?_, ?_, ?_, good.bounded, ?_, ?_⟩, unused, unheld, positive, small, rfl, rfl⟩
  · rw [out_update, empty]
    exact balanced
  · intro other there
    by_cases same : other = id
    · rw [same, Function.update_self]
      exact shown _ id (Function.update_self ..)
    · rw [Function.update_of_ne same]
      exact shown_same (good.shown other (others other there same))
        (Function.update_of_ne same ..) rfl
  · intro other there
    by_cases same : other = id
    · rw [same, Function.update_self]
      exact typed _
    · rw [Function.update_of_ne same]
      apply typed_congr (good.typed other (others other there same))
      intro referenced member
      have live := referenced_live good.balanced (others other there same) member
      have different : referenced ≠ id := fun equal => live (equal ▸ unused)
      rw [kindsOf, Function.update_of_ne different, kindsOf]
  · change Function.update state.ref id 1 0 = 0
    rw [Function.update_of_ne (by omega)]
    exact good.null
  · change max state.count (id + 1) ≤ 2 ^ 64
    exact max_le good.small small

end Creating

section Pushing

variable {array obj : Nat} {objects : List Nat}

theorem objects_here (good : Good state heap work debt) (live : state.ref array ≠ 0)
    (isArray : heap array = .array objects) : state.objects array = .done objects := by
  have shown := good.shown array live
  rw [isArray] at shown
  have same : state.contents array = .array objects := shown
  rw [State.objects, if_neg live, same]

theorem array_push_back (good : Good state heap [] []) (live : state.ref array ≠ 0)
    (isArray : heap array = .array objects) (there : state.ref obj ≠ 0)
    (kind : kindsOf heap obj = true) :
    ∃ after, state.arrayPushBack array obj = .done after ∧
      Good after (Function.update heap array (.array (objects ++ [obj]))) [] [] ∧
      after.held = state.held ∧ after.ref = addRefs state.ref [obj] := by
  have notNull : ¬(array = 0 ∨ obj = 0) := by
    rintro (null | null)
    · rw [null] at live
      exact live good.null
    · rw [null] at there
      exact there good.null
  have counted : ∀ other ∈ [obj], state.ref other ≠ 0 := by
    intro other member
    rw [List.mem_singleton.mp member]
    exact there
  have owed : Good state heap [obj] ([obj] ++ []) :=
    good_congr good fun other => by rw [List.append_nil, List.count_nil]; omega
  have added := counted_good owed counted
  have liveStill : addRefs state.ref [obj] array ≠ 0 := add_refs_live _ live
  have sameKinds : kindsOf (Function.update heap array (.array (objects ++ [obj]))) =
      kindsOf heap := by
    apply kinds_update
    rw [isArray]
    rfl
  have own : refsOf (outOf heap) array = objects := by
    change (heap array).refs = _
    rw [isArray]
    rfl
  rw [State.arrayPushBack, if_neg notNull, addref_live counted, Attempt.bind_done,
    objects_here added liveStill isArray, Attempt.bind_done]
  refine ⟨_, rfl, ⟨?_, ?_, ?_, added.bounded, added.null, added.small⟩, rfl, rfl⟩
  · rw [out_update]
    apply replaced_balanced added.balanced liveStill
    intro id
    rw [own]
    change _ = _ + (objects ++ [obj]).count id
    rw [List.count_append, List.count_nil]
    omega
  · intro id live'
    by_cases here : id = array
    · rw [here, Function.update_self]
      exact Function.update_self ..
    · rw [Function.update_of_ne here]
      exact shown_same (added.shown id live') (Function.update_of_ne here ..) rfl
  · intro id live'
    rw [sameKinds]
    by_cases here : id = array
    · rw [here, Function.update_self]
      have typed := added.typed array liveStill
      rw [isArray] at typed
      intro entry member
      rcases List.mem_append.mp member with old | last
      · exact typed entry old
      · rw [List.mem_singleton.mp last]
        exact kind
    · rw [Function.update_of_ne here]
      exact added.typed id live'

end Pushing

end Mgw.DataNodes
