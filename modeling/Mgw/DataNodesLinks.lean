import Mgw.DataNodesLists

/-!
# Changing the list of an object

An item that is taken out, replaced or moved, and a new item that is linked in where the
two cursors of `set_item_data` stand: the items are then those of the sorted list after
the same change.
-/

namespace Mgw.DataNodes

open DataItems DataValues LinkedCells PackedItem
open DoublyLinked (first)

set_option autoImplicit false

/-- The list of one object is another one, and nothing else changed. -/
structure Relisted (state after : State) (data : Nat) (items : Entries) : Prop where
  listed : Listed after data items
  bounded : Bounded after
  frame : Frame state after data

section Splicing

variable {state : State} {data : Nat} {items left right : Entries} {name : Name} {entry : Entry}
  {stop' : Option Nat} {cells : List (Nat × Node)}

theorem redirect_allocated {nodes : Cells Nat Node} {head target : Option Nat} {slot : Slot Nat}
    {addr : Nat} {cell : Cell Nat Node}
    (allocated : (redirect nodes head slot target).2 addr = some cell) :
    ∃ before, nodes addr = some before := by
  cases slot with
  | head => exact ⟨cell, allocated⟩
  | next changed =>
      by_cases same : addr = changed
      · rw [same]
        rw [same] at allocated
        change Function.update nodes changed _ changed = some cell at allocated
        rw [Function.update_self] at allocated
        obtain ⟨before, here, -⟩ := Option.map_eq_some_iff.mp allocated
        exact ⟨before, here⟩
      · exact ⟨cell, (set_next_other target same).symm.trans allocated⟩

/-- What is written through a slot that is found behind the left part of a list. -/
theorem store_splice (live : state.ref data ≠ 0)
    (begins : state.contents data = .data (first (cellsOf left) stop'))
    (before : Chained state.nodes (cellsOf left) stop') (behind : Chained state.nodes cells none)
    (apart : ((cellsOf left ++ cells).map Prod.fst).Nodup) :
    ∃ nodes, state.storePrevNext (data, slotBehind .head (cellsOf left)) (first cells none) =
        .done { state with
          contents := Function.update state.contents data
            (.data (first (cellsOf left ++ cells) none))
          nodes := nodes } ∧
      Chained nodes (cellsOf left ++ cells) none ∧
      (∀ addr, (∀ cell ∈ cellsOf left, cell.1 ≠ addr) → nodes addr = state.nodes addr) ∧
      ∀ addr cell, nodes addr = some cell → ∃ before, state.nodes addr = some before := by
  obtain ⟨head, chained, outside⟩ := splice before behind apart
  refine ⟨_, ?_, chained, outside, fun addr cell allocated => redirect_allocated allocated⟩
  rw [State.storePrevNext, State.firstItem, if_neg live, begins, Attempt.bind_done, ← head]
  rfl

/-- Where the items of other objects are. -/
theorem frame_nodes (listed : Listed state data items) {nodes : Cells Nat Node}
    (outside : ∀ addr cell, state.nodes addr = some cell → cell.held.parent ≠ none →
      cell.held.parent ≠ some data → (∀ item ∈ items, item.2.addr ≠ addr) →
      nodes addr = some cell)
    (addr : Nat) (cell : Cell Nat Node) (other : Nat) (here : state.nodes addr = some cell)
    (parent : cell.held.parent = some other) (different : other ≠ data) :
    nodes addr = some cell := by
  apply outside addr cell here (by simp [parent]) (by simpa [parent] using different)
  intro item member same
  obtain ⟨next, there⟩ := listed_cell listed member
  rw [same, here] at there
  apply different
  have owner := (listed.each item member).parent
  rw [Option.some.inj there] at parent
  exact Option.some.inj (parent.symm.trans owner)

theorem slot_found (live : state.ref data ≠ 0)
    (begins : state.contents data = .data (first (cellsOf left) (some entry.addr)))
    (before : Chained state.nodes (cellsOf left) (some entry.addr))
    (apart : ∀ cell ∈ cellsOf left, cell.1 ≠ entry.addr)
    (enough : (cellsOf left).length < state.space) :
    state.getItemPrevNext (some data) entry.addr =
      .done (some (data, slotBehind .head (cellsOf left))) := by
  rw [State.getItemPrevNext, State.firstItem, if_neg live, begins, Attempt.bind_done,
    find_slot .head before apart enough]
  rfl

end Splicing

section Found

variable {state : State} {data : Nat} {items : Entries} {name : Name} {entry : Entry}

/-- An item of the list with what is before and behind it. -/
structure Around (state : State) (data : Nat) (items left right : Entries) (name : Name)
    (entry : Entry) : Prop where
  parts : items = left ++ (name, entry) :: right
  begins : state.contents data = .data (first (cellsOf left) (some entry.addr))
  before : Chained state.nodes (cellsOf left) (some entry.addr)
  here : state.nodes entry.addr = some ⟨entry.node, first (cellsOf right) none⟩
  behind : Chained state.nodes (cellsOf right) none
  apart : ((cellsOf left ++ cellsOf right).map Prod.fst).Nodup
  others : ∀ cell ∈ cellsOf left ++ cellsOf right, cell.1 ≠ entry.addr
  short : (cellsOf left).length < state.space

theorem listed_around (bounded : Bounded state) (listed : Listed state data items)
    {left right : Entries} (parts : items = left ++ (name, entry) :: right) :
    Around state data items left right name entry := by
  have begins := listed.first
  have chained := listed.chained
  have apart := listed_apart listed
  have short := listed_length bounded listed
  rw [parts, cells_append] at begins chained apart short
  change Chained state.nodes (cellsOf left ++ (entry.addr, entry.node) :: cellsOf right) none
    at chained
  change ((cellsOf left ++ (entry.addr, entry.node) :: cellsOf right).map Prod.fst).Nodup at apart
  change (cellsOf left ++ (entry.addr, entry.node) :: cellsOf right).length ≤ state.space at short
  obtain ⟨before, here, behind⟩ := chained_append.mp chained
  rw [List.map_append, List.map_cons, List.nodup_middle, List.nodup_cons, ← List.map_append]
    at apart
  rw [first_append] at begins
  rw [List.length_append, List.length_cons] at short
  refine ⟨parts, begins, before, here, behind, apart.2, ?_, by omega⟩
  intro cell member same
  apply apart.1
  change entry.addr ∈ _
  rw [← same]
  exact List.mem_map_of_mem member

theorem item_detach (bounded : Bounded state) (live : state.ref data ≠ 0)
    (listed : Listed state data items) (found : getItem name items = some entry) :
    ∃ after, state.itemDetach entry.addr = .done after ∧
      Relisted state after data (detachItem name items) ∧
      after.nodes entry.addr = some ⟨entry.node, none⟩ := by
  obtain ⟨left, right, parts, -, -, detached⟩ := found_split found
  have around := listed_around bounded listed parts
  have represents := listed.each (name, entry) (by rw [parts]; simp)
  obtain ⟨nodes, stored, chained, outside, allocated⟩ :=
    store_splice live around.begins around.before around.behind around.apart
  have stays : nodes entry.addr = some ⟨entry.node, first (cellsOf right) none⟩ := by
    rw [outside entry.addr fun cell member => around.others cell (List.mem_append_left _ member)]
    exact around.here
  refine ⟨{ state with
    contents := Function.update state.contents data
      (.data (first (cellsOf left ++ cellsOf right) none))
    nodes := setNext nodes entry.addr none }, ?_, ⟨?_, ?_, ?_⟩, set_next_self _ stays⟩
  · rw [State.itemDetach, load_here around.here, Attempt.bind_done, represents.parent, slot_found live around.begins around.before
        (fun cell member => around.others cell (List.mem_append_left _ member)) around.short,
      Attempt.bind_done]
    change (state.storePrevNext _ (first (cellsOf right) none) >>= _) = _
    rw [stored, Attempt.bind_done]
    exact store_next_here stays none
  · rw [detached]
    constructor
    · rw [cells_append]
      exact Function.update_self ..
    · rw [cells_append]
      apply chained_frame chained
      intro cell member
      exact set_next_other _ (around.others cell member)
    · rw [← detached]
      exact sorted_detach listed.sorted name
    · intro item member
      apply listed.each
      rw [parts]
      rcases List.mem_append.mp member with old | later
      · simp [old]
      · simp [later]
  · intro addr cell here
    by_cases same : addr = entry.addr
    · rw [same]
      exact bounded _ _ around.here
    · obtain ⟨old, before⟩ := allocated addr cell ((set_next_other _ same).symm.trans here)
      exact bounded _ _ before
  · refine ⟨rfl, rfl, rfl, fun other different => Function.update_of_ne different .., ?_⟩
    apply frame_nodes listed
    intro addr cell here _ _ absent
    have notHere : addr ≠ entry.addr := Ne.symm (absent (name, entry) (by rw [parts]; simp))
    refine (set_next_other _ notHere).trans ?_
    rw [outside]
    · exact here
    · intro old member
      obtain ⟨item, itemMember, same⟩ := List.mem_map.mp member
      rw [← same]
      exact absent item (by rw [parts]; simp [itemMember])

/-- What an item is when its contents are replaced. -/
def Entry.replaced (entry : Entry) (addr : Nat) (item : Item) (value : Value) : Entry where
  addr := addr
  node := { entry.node with item := item }
  value := value

theorem each_replaced {item : Item} {value : Value} (listed : Listed state data items)
    {left right : Entries} (parts : items = left ++ (name, entry) :: right)
    (holds : Holds item value) (addr : Nat) :
    ∀ other ∈ left ++ (name, entry.replaced addr item value) :: right, Represents data other := by
  intro other member
  have old := listed.each (name, entry) (by rw [parts]; simp)
  rcases List.mem_append.mp member with early | behind
  · exact listed.each other (by rw [parts]; simp [early])
  · rcases List.mem_cons.mp behind with same | late
    · rw [same]
      exact ⟨old.ref, old.parent, old.name, holds⟩
    · exact listed.each other (by rw [parts]; simp [late])

theorem item_placed (bounded : Bounded state) (listed : Listed state data items)
    (found : getItem name items = some entry) {item : Item} {value : Value}
    (holds : Holds item value) :
    ∃ after, state.modify entry.addr (fun node => { node with item := item }) = .done after ∧
      Relisted state after data
        (replaceItem name (entry.replaced entry.addr item value) items) := by
  obtain ⟨left, right, parts, -, replaced, -⟩ := found_split found
  have around := listed_around bounded listed parts
  have chained := listed.chained
  have apart := listed_apart listed
  rw [parts, cells_append] at chained apart
  have changed := chained_set_held (fun node => { node with item := item }) chained apart
  refine ⟨_, modify_here around.here _, ⟨⟨?_, ?_, ?_, ?_⟩, ?_, ?_⟩⟩
  · rw [replaced, cells_append, first_append]
    exact around.begins
  · rw [replaced, cells_append]
    exact changed
  · exact sorted_replace listed.sorted name _
  · rw [replaced]
    exact each_replaced listed parts holds entry.addr
  · intro addr cell here
    by_cases same : addr = entry.addr
    · rw [same]
      exact bounded _ _ around.here
    · exact bounded _ _ ((Function.update_of_ne same ..).symm.trans here)
  · refine ⟨rfl, rfl, rfl, fun _ _ => rfl, ?_⟩
    apply frame_nodes listed
    intro addr cell here _ _ absent
    have notHere : addr ≠ entry.addr := Ne.symm (absent (name, entry) (by rw [parts]; simp))
    exact (Function.update_of_ne notHere ..).trans here

/-- The item is found by its old address, and its new one is put in the place of it. -/
theorem item_moved (alloc : Allocator) (bounded : Bounded state) (live : state.ref data ≠ 0)
    (listed : Listed state data items) (found : getItem name items = some entry)
    {cell : Cell Nat Node} (here : state.nodes entry.addr = some cell) {item : Item} {value : Value}
    (holds : Holds item value) :
    (state.itemMove alloc entry.addr cell item).Returns False fun after =>
      Relisted state after.1 data
        (replaceItem name (entry.replaced after.2 item value) items) := by
  obtain ⟨left, right, parts, -, replaced, -⟩ := found_split found
  have around := listed_around bounded listed parts
  have represents := listed.each (name, entry) (by rw [parts]; simp)
  have same := Option.some.inj (around.here.symm.trans here)
  rw [← same]
  have granted : (Attempt.demand (alloc.moved state entry.addr)).Returns False
      fun addr => addr = entry.addr ∨ state.nodes addr = none := by
    apply Attempt.returns_demand
    intro addr answer
    exact alloc.moved_new state entry.addr addr answer
  apply Attempt.returns_bind granted
  · intro addr new
    have notOthers : ∀ cell ∈ cellsOf left ++ cellsOf right, cell.1 ≠ addr := by
      intro cell member equal
      rcases new with stays | unused
      · exact around.others cell member (equal.trans stays)
      · have chained : ∃ next, state.nodes cell.1 = some ⟨cell.2, next⟩ := by
          rcases List.mem_append.mp member with early | late
          · exact chained_cell around.before early
          · exact chained_cell around.behind late
        obtain ⟨next, there⟩ := chained
        rw [equal, unused] at there
        contradiction
    let node : Node := { entry.node with item := item }
    let nodes := Function.update (Function.update state.nodes entry.addr none) addr
      (some ⟨node, first (cellsOf right) none⟩)
    have outside : ∀ cell ∈ cellsOf left ++ cellsOf right, nodes cell.1 = state.nodes cell.1 :=
      fun cell member => (Function.update_of_ne (notOthers cell member) ..).trans
        (Function.update_of_ne (around.others cell member) ..)
    have apart : ((cellsOf left ++ (addr, node) :: cellsOf right).map Prod.fst).Nodup := by
      rw [List.map_append, List.map_cons, List.nodup_middle, List.nodup_cons, ← List.map_append]
      refine ⟨?_, around.apart⟩
      intro member
      obtain ⟨cell, cellMember, equal⟩ := List.mem_map.mp member
      exact notOthers cell cellMember equal
    let moved : State := { state with nodes := nodes, space := max state.space (addr + 1) }
    have before : Chained moved.nodes (cellsOf left) (some entry.addr) :=
      chained_frame around.before fun cell member => outside cell (List.mem_append_left _ member)
    have behind : Chained moved.nodes ((addr, node) :: cellsOf right) none :=
      ⟨Function.update_self .., chained_frame around.behind fun cell member =>
        outside cell (List.mem_append_right _ member)⟩
    obtain ⟨final, stored, chained, kept, allocated⟩ :=
      @store_splice moved data left (some entry.addr) ((addr, node) :: cellsOf right) live
        around.begins before behind apart
    have short : (cellsOf left).length < moved.space :=
      lt_of_lt_of_le around.short (le_max_left _ _)
    have slot := @slot_found moved data left entry live around.begins before
      (fun cell member => around.others cell (List.mem_append_left _ member)) short
    have reattached : moved.itemReattach entry.addr addr = .done { moved with
        contents := Function.update state.contents data
          (.data (first (cellsOf left ++ (addr, node) :: cellsOf right) none))
        nodes := final } := by
      rw [State.itemReattach, load_here (Function.update_self ..), Attempt.bind_done]
      change (moved.getItemPrevNext entry.node.parent entry.addr >>= _) = _
      rw [represents.parent, slot, Attempt.bind_done]
      exact stored
    change ((moved.itemReattach entry.addr addr) >>= _ : Attempt (State × Nat)).Returns _ _
    rw [reattached]
    refine ⟨⟨?_, ?_, ?_, ?_⟩, ?_, ?_⟩
    · rw [replaced, cells_append]
      exact Function.update_self ..
    · rw [replaced, cells_append]
      exact chained
    · exact sorted_replace listed.sorted name _
    · rw [replaced]
      exact each_replaced listed parts holds addr
    · intro other cell there
      obtain ⟨old, wasThere⟩ := allocated other cell there
      change other < max state.space (addr + 1)
      by_cases isNew : other = addr
      · rw [isNew]
        exact lt_of_lt_of_le (Nat.lt_succ_self addr) (le_max_right _ _)
      · by_cases isOld : other = entry.addr
        · rw [isOld]
          exact lt_of_lt_of_le (bounded _ _ around.here) (le_max_left _ _)
        · have unchanged : nodes other = state.nodes other :=
            (Function.update_of_ne isNew ..).trans (Function.update_of_ne isOld ..)
          exact lt_of_lt_of_le (bounded _ _ (unchanged.symm.trans wasThere)) (le_max_left _ _)
    · refine ⟨rfl, rfl, rfl, fun other different => Function.update_of_ne different .., ?_⟩
      apply frame_nodes listed
      intro other cell there _ _ absent
      have isOld : other ≠ entry.addr := Ne.symm (absent (name, entry) (by rw [parts]; simp))
      have isNew : other ≠ addr := by
        intro equal
        rcases new with stays | unused
        · exact isOld (equal.trans stays)
        · rw [equal, unused] at there
          contradiction
      change final other = some cell
      rw [kept]
      · exact ((Function.update_of_ne isNew ..).trans (Function.update_of_ne isOld ..)).trans there
      · intro old member
        obtain ⟨listItem, itemMember, equal⟩ := List.mem_map.mp member
        rw [← equal]
        exact absent listItem (by rw [parts]; simp [itemMember])

end Found

end Mgw.DataNodes
