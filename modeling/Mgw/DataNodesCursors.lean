import Mgw.DataNodesLinks

/-!
# The cursors of an insertion

Two cursors walk along the list, and each counts the item that it stands on. They end at
the place of the new name in the sorted list, and when they are given up every item is
counted as before.
-/

namespace Mgw.DataNodes

open DataItems DataValues LinkedCells PackedItem RefCounts
open DoublyLinked (first)

set_option autoImplicit false

/-- An item with the cursors that stand on it. -/
def stoodOn (cursors : List Nat) (addr : Nat) (cell : Cell Nat Node) : Cell Nat Node :=
  { cell with held := { cell.held with ref := cell.held.ref + cursors.count addr } }

@[simp] theorem stood_on_name (cursors : List Nat) (addr : Nat) (cell : Cell Nat Node) :
    (stoodOn cursors addr cell).held.name = cell.held.name := rfl

@[simp] theorem stood_on_next (cursors : List Nat) (addr : Nat) (cell : Cell Nat Node) :
    (stoodOn cursors addr cell).next = cell.next := rfl

/-- The state in which cursors stand on these items besides. -/
def State.withCursors (state : State) (cursors : List Nat) : State :=
  { state with nodes := fun addr => (state.nodes addr).map (stoodOn cursors addr) }

section Cursors

variable {state after : State} {data addr : Nat} {cell : Cell Nat Node} {cursors : List Nat}

theorem without_cursors : state.withCursors [] = state := by
  have nodes : (state.withCursors []).nodes = state.nodes := by
    funext addr
    change (state.nodes addr).map _ = state.nodes addr
    cases state.nodes addr with
    | none => rfl
    | some cell => rfl
  calc
    state.withCursors [] = { state with nodes := (state.withCursors []).nodes } := rfl
    _ = state := by rw [nodes]

theorem cursors_apply (state : State) (cursors : List Nat) (addr : Nat) :
    (state.withCursors cursors).nodes addr = (state.nodes addr).map (stoodOn cursors addr) := rfl

theorem cursors_perm {others : List Nat} (perm : cursors.Perm others) :
    state.withCursors cursors = state.withCursors others := by
  unfold State.withCursors stoodOn
  simp only [perm.count_eq]

theorem cursors_cell (here : state.nodes addr = some cell) (cursors : List Nat) :
    (state.withCursors cursors).nodes addr = some (stoodOn cursors addr cell) := by
  rw [cursors_apply, here, Option.map_some]

theorem stood_on_other {other : Nat} (different : other ≠ addr) :
    stoodOn (addr :: cursors) other = stoodOn cursors other := by
  funext cell
  rw [stoodOn, stoodOn, List.count_cons_of_ne (Ne.symm different)]

/-- A cursor comes to an item. -/
theorem cursor_counted (here : state.nodes addr = some cell) (cursors : List Nat) :
    (state.withCursors cursors).modify addr (fun node => { node with ref := node.ref + 1 }) =
      .done (state.withCursors (addr :: cursors)) := by
  have nodes : setHeld (state.withCursors cursors).nodes addr
      (fun node => { node with ref := node.ref + 1 }) =
        (state.withCursors (addr :: cursors)).nodes := by
    funext other
    by_cases same : other = addr
    · rw [same, setHeld, Function.update_self, cursors_cell here, cursors_cell here, stoodOn, stoodOn,
        List.count_cons_self]
      rfl
    · refine (Function.update_of_ne same ..).trans ?_
      rw [cursors_apply, cursors_apply, stood_on_other same]
  rw [modify_here (cursors_cell here cursors), nodes]
  rfl

/-- A cursor leaves an item that is counted besides. -/
theorem cursor_released (here : state.nodes addr = some cell) (counted : cell.held.ref ≠ 0)
    (cursors : List Nat) :
    (state.withCursors (addr :: cursors)).itemRelease (some addr) =
      .done (state.withCursors cursors) := by
  have standing := cursors_cell here (addr :: cursors)
  have nodes : setHeld (state.withCursors (addr :: cursors)).nodes addr
      (fun node => { node with ref := node.ref - 1 }) = (state.withCursors cursors).nodes := by
    funext other
    by_cases same : other = addr
    · rw [same, setHeld, Function.update_self, standing, cursors_cell here, stoodOn, stoodOn,
        List.count_cons_self]
      rfl
    · refine (Function.update_of_ne same ..).trans ?_
      rw [cursors_apply, cursors_apply, stood_on_other same]
  rw [State.itemRelease, load_here standing, Attempt.bind_done, stoodOn, List.count_cons_self]
  rw [if_neg (by dsimp only; omega), if_neg (by dsimp only; omega), modify_here standing, nodes]
  rfl

/-- A cursor goes to the next item, or behind the last one. -/
theorem cursor_next {next : Option Nat} (here : state.nodes addr = some cell)
    (counted : cell.held.ref ≠ 0) (behind : cell.next = next)
    (there : ∀ other ∈ next, ∃ cell, state.nodes other = some cell) (cursors : List Nat) :
    (state.withCursors (addr :: cursors)).itemNext (some addr) =
      .done (state.withCursors (next.toList ++ cursors), next) := by
  rw [State.itemNext, load_here (cursors_cell here _), Attempt.bind_done,
    cursor_released here counted, Attempt.bind_done]
  rw [stood_on_next, behind]
  cases next with
  | none => rfl
  | some other =>
      obtain ⟨cell', present⟩ := there other rfl
      dsimp only
      rw [cursor_counted present, Attempt.bind_done]
      rfl

theorem cursor_first {start : Option Nat} (begins : state.firstItem data = .done start)
    (there : ∀ other ∈ start, ∃ cell, state.nodes other = some cell) (cursors : List Nat) :
    (state.withCursors cursors).itemFirst data =
      .done (state.withCursors (start.toList ++ cursors), start) := by
  have same : (state.withCursors cursors).firstItem data = state.firstItem data := rfl
  rw [State.itemFirst, same, begins, Attempt.bind_done]
  cases start with
  | none => rfl
  | some other =>
      obtain ⟨cell', present⟩ := there other rfl
      dsimp only
      rw [cursor_counted present, Attempt.bind_done]
      rfl

theorem cursor_given_up {cursor : Option Nat}
    (there : ∀ addr ∈ cursor, ∃ cell, state.nodes addr = some cell ∧ cell.held.ref ≠ 0)
    (cursors : List Nat) :
    (state.withCursors (cursor.toList ++ cursors)).itemRelease cursor =
      .done (state.withCursors cursors) := by
  cases cursor with
  | none => rfl
  | some addr =>
      obtain ⟨cell, here, counted⟩ := there addr rfl
      exact cursor_released here counted cursors

end Cursors

section Seeking

variable {state : State} {name : Name} {prev : Name × Entry} {passed rest : Entries}

theorem first_addr_member {items : Entries} {addr : Nat} (start : addr ∈ firstAddr items) :
    ∃ item ∈ items, item.2.addr = addr := by
  cases items with
  | nil => contradiction
  | cons item rest => exact ⟨item, List.mem_cons_self, Option.some.inj start⟩

/-- The cursors go the way of the loop over the sorted list. -/
theorem seek_place {rounds : Nat} (chained : Chained state.nodes (cellsOf (prev :: rest)) none)
    (kept : ∀ item ∈ prev :: rest, item.2.node.name = item.1 ∧ item.2.node.ref ≠ 0)
    (enough : rest.length < rounds) :
    State.seek name rounds (state.withCursors (prev.2.addr :: (firstAddr rest).toList))
        (some prev.2.addr) (firstAddr rest) =
      .done (state.withCursors ((findPlace name passed prev rest).prev.2.addr ::
          (firstAddr (findPlace name passed prev rest).next).toList),
        some (findPlace name passed prev rest).prev.2.addr,
        firstAddr (findPlace name passed prev rest).next) := by
  induction rest generalizing passed prev rounds with
  | nil =>
      cases rounds with
      | zero => contradiction
      | succ rounds => rfl
  | cons next rest ih =>
      cases rounds with
      | zero => contradiction
      | succ rounds =>
          have here : state.nodes prev.2.addr = some ⟨prev.2.node, some next.2.addr⟩ := chained.1
          have further : Chained state.nodes (cellsOf (next :: rest)) none := chained.2
          have there : state.nodes next.2.addr = some ⟨next.2.node, firstAddr rest⟩ := further.1
          obtain ⟨nextName, nextCounted⟩ := kept next (by simp)
          change State.seek name (rounds + 1) (state.withCursors [prev.2.addr, next.2.addr])
            (some prev.2.addr) (some next.2.addr) = _
          rw [State.seek, load_here (cursors_cell there _), Attempt.bind_done, findPlace]
          simp only [stood_on_name, nextName]
          split_ifs with past
          · rfl
          · have present : ∀ addr ∈ firstAddr rest, ∃ cell, state.nodes addr = some cell := by
              intro addr start
              obtain ⟨item, member, same⟩ := first_addr_member start
              obtain ⟨behind, found⟩ := chained_cell further.2
                (List.mem_map_of_mem (f := fun item => (item.2.addr, item.2.node)) member)
              rw [← same]
              exact ⟨_, found⟩
            have isNext : ∀ addr ∈ some next.2.addr, ∃ cell, state.nodes addr = some cell := by
              intro addr same
              rw [← Option.some.inj same]
              exact ⟨_, there⟩
            rw [cursor_next here (kept prev List.mem_cons_self).2 rfl isNext, Attempt.bind_done]
            change ((state.withCursors [next.2.addr, next.2.addr]).itemNext (some next.2.addr) >>= _) = _
            rw [cursor_next there nextCounted rfl present, Attempt.bind_done,
              cursors_perm (List.perm_append_comm.trans (List.Perm.refl _))]
            exact ih further (fun item member => kept item (List.mem_cons_of_mem _ member))
              (Nat.lt_of_succ_lt_succ enough)

end Seeking

section Linking

variable {state : State} {data addr new : Nat} {items : Entries} {name : Name} {entry : Entry}

theorem cursors_store_next {cell : Cell Nat Node} (here : state.nodes addr = some cell)
    (next : Option Nat) (cursors : List Nat) :
    (state.withCursors cursors).storeNext addr next =
      .done ({ state with nodes := setNext state.nodes addr next }.withCursors cursors) := by
  have nodes : setNext (state.withCursors cursors).nodes addr next =
      ({ state with nodes := setNext state.nodes addr next }.withCursors cursors).nodes := by
    funext other
    rw [cursors_apply]
    dsimp only
    by_cases same : other = addr
    · rw [same, setNext, setNext, Function.update_self, Function.update_self, cursors_cell here,
        here]
      rfl
    · rw [set_next_other _ same, set_next_other _ same, cursors_apply]
  rw [store_next_here (cursors_cell here cursors), nodes]
  rfl

theorem cursors_parent {cell : Cell Nat Node} (here : state.nodes addr = some cell) (data : Nat)
    (cursors : List Nat) :
    (state.withCursors cursors).modify addr (fun node => { node with parent := some data }) =
      .done ({ state with
        nodes := setHeld state.nodes addr fun node => { node with parent := some data }
        }.withCursors cursors) := by
  have nodes : setHeld (state.withCursors cursors).nodes addr
      (fun node => { node with parent := some data }) = ({ state with
        nodes := setHeld state.nodes addr fun node => { node with parent := some data }
        }.withCursors cursors).nodes := by
    funext other
    rw [cursors_apply]
    dsimp only
    by_cases same : other = addr
    · rw [same, setHeld, setHeld, Function.update_self, Function.update_self, cursors_cell here,
        here]
      rfl
    · rw [setHeld, setHeld, Function.update_of_ne same, Function.update_of_ne same, cursors_apply]
  rw [modify_here (cursors_cell here cursors), nodes]
  rfl

/-- The items at the place of a name, which the cursors end at. -/
def cursorsAt (name : Name) : Entries → Option Nat × Option Nat
  | [] => (none, none)
  | first :: rest =>
      (some (findPlace name [] first rest).prev.2.addr,
        firstAddr (findPlace name [] first rest).next)

/-- What is allocated is below `space`, also after links are changed. -/
theorem bounded_nodes {nodes : Cells Nat Node} {contents : Nat → Contents} (bounded : Bounded state)
    (allocated : ∀ addr cell, nodes addr = some cell → ∃ before, state.nodes addr = some before) :
    Bounded { state with contents := contents, nodes := nodes } := by
  intro addr cell here
  obtain ⟨before, there⟩ := allocated addr cell here
  exact bounded addr before there

theorem set_next_allocated {nodes : Cells Nat Node} {next : Option Nat} {other : Nat}
    {cell : Cell Nat Node} (allocated : setNext nodes addr next other = some cell) :
    ∃ before, nodes other = some before :=
  @redirect_allocated nodes none next (.next addr) other cell allocated

/-- A new item that belongs to the object, and is not yet in its list. -/
structure Unlinked (state : State) (data : Nat) (items : Entries) (name : Name) (entry : Entry) :
    Prop where
  here : ∃ next, state.nodes entry.addr = some ⟨entry.node, next⟩
  represents : Represents data (name, entry)
  fresh : ∀ item ∈ items, item.2.addr ≠ entry.addr
  absent : getItem name items = none

theorem each_linked (listed : Listed state data items)
    (unlinked : Unlinked state data items name entry) :
    Sorted (linkItem (name, entry) items) ∧
      ∀ item ∈ linkItem (name, entry) items, Represents data item := by
  refine ⟨sorted_link listed.sorted unlinked.absent, ?_⟩
  intro item member
  rcases List.mem_cons.mp ((member_link listed.sorted unlinked.absent).mem_iff.mp member)
    with same | old
  · rw [same]
    exact unlinked.represents
  · exact listed.each item old

/-- The frame of a change of the links of the new item and of the listed ones. -/
theorem linked_frame (listed : Listed state data items)
    (unlinked : Unlinked state data items name entry) {nodes : Cells Nat Node}
    (first_item : Option Nat)
    (outside : ∀ addr, addr ≠ entry.addr → (∀ item ∈ items, item.2.addr ≠ addr) →
      nodes addr = state.nodes addr) (contents : Nat → Contents)
    (same : contents = state.contents ∨
      contents = Function.update state.contents data (.data first_item)) :
    Frame state { state with contents := contents, nodes := nodes } data := by
  refine ⟨rfl, rfl, rfl, ?_, ?_⟩
  · intro other different
    rcases same with unchanged | begun
    · exact congrFun unchanged other
    · exact (congrFun begun other).trans (Function.update_of_ne different ..)
  · apply frame_nodes listed
    intro addr cell here _ notOwn absent
    refine (outside addr ?_ absent).trans here
    intro equal
    obtain ⟨next, there⟩ := unlinked.here
    rw [equal, there] at here
    apply notOwn
    rw [← Option.some.inj here]
    exact unlinked.represents.parent

/-- The new item is linked in at the cursors as it is in the sorted list. -/
theorem link_between (bounded : Bounded state) (listed : Listed state data items)
    (unlinked : Unlinked state data items name entry) (cursors : List Nat) :
    ∃ linked, (state.withCursors cursors).linkBetween data name entry.addr
          (cursorsAt name items).1 (cursorsAt name items).2 = .done (linked.withCursors cursors) ∧
      Relisted state linked data (linkItem (name, entry) items) := by
  obtain ⟨next, here⟩ := unlinked.here
  obtain ⟨sorted, each⟩ := each_linked listed unlinked
  cases items with
  | nil =>
      refine ⟨{ state.storeFirst data (some entry.addr) with
        nodes := setNext state.nodes entry.addr none }, ?_, ⟨⟨?_, ?_, sorted, each⟩, ?_, ?_⟩⟩
      · exact @cursors_store_next (state.storeFirst data (some entry.addr)) entry.addr _ here none
          cursors
      · exact Function.update_self ..
      · exact ⟨set_next_self _ here, trivial⟩
      · exact bounded_nodes bounded fun _ _ => set_next_allocated
      · exact linked_frame listed unlinked (some entry.addr) (fun addr notNew _ => set_next_other _ notNew) _
          (Or.inr rfl)
  | cons head rest =>
      obtain ⟨parts, -⟩ := @find_place _ name [] head rest nofun listed.sorted
        (get_absent.mp unlinked.absent)
      rw [List.nil_append] at parts
      rw [linkItem] at sorted each ⊢
      dsimp only [cursorsAt] at sorted each ⊢
      generalize findPlace name [] head rest = place at parts sorted each ⊢
      have member : place.prev ∈ head :: rest := by rw [parts]; simp
      obtain ⟨behind, there⟩ := listed_cell listed member
      have chained := listed.chained
      have apart := listed_apart listed
      rw [parts, cells_append] at chained apart
      have notNew : ∀ cell ∈ cellsOf (head :: rest), cell.1 ≠ entry.addr := by
        intro cell cellMember
        obtain ⟨item, itemMember, same⟩ := List.mem_map.mp cellMember
        rw [← same]
        exact unlinked.fresh item itemMember
      rw [parts, cells_append] at notNew
      unfold State.linkBetween
      dsimp only
      rw [load_here (cursors_cell there cursors), Attempt.bind_done]
      simp only [stood_on_name, (listed.each _ member).name]
      split_ifs at sorted each ⊢ with before
      · have linked := chained_insert (entry.addr, entry.node) chained apart notNew here
        have stays : setNext state.nodes place.prev.2.addr (some entry.addr) entry.addr =
            some ⟨entry.node, next⟩ :=
          (set_next_other _ (Ne.symm (unlinked.fresh _ member))).trans here
        refine ⟨{ state with
          nodes := setNext (setNext state.nodes place.prev.2.addr (some entry.addr)) entry.addr
            (firstAddr place.next) }, ?_, ⟨⟨?_, ?_, sorted, each⟩, ?_, ?_⟩⟩
        · rw [cursors_store_next there, Attempt.bind_done]
          exact @cursors_store_next { state with
            nodes := setNext state.nodes place.prev.2.addr (some entry.addr) } entry.addr _ stays
            (firstAddr place.next) cursors
        · have begins := listed.first
          rw [parts, cells_append, first_append] at begins
          rw [cells_append, first_append]
          exact begins
        · rw [cells_append]
          exact linked
        · exact bounded_nodes bounded fun addr cell allocated => by
            obtain ⟨_, once⟩ := set_next_allocated allocated
            exact set_next_allocated once
        · apply linked_frame listed unlinked none _ _ (Or.inl rfl)
          intro addr isNew absent
          exact (set_next_other _ isNew).trans (set_next_other _ (Ne.symm (absent _ member)))
      · refine ⟨{ state.storeFirst data (some entry.addr) with
          nodes := setNext state.nodes entry.addr (some place.prev.2.addr) }, ?_,
          ⟨⟨?_, ?_, sorted, each⟩, ?_, ?_⟩⟩
        · exact @cursors_store_next (state.storeFirst data (some entry.addr)) entry.addr _ here
            (some place.prev.2.addr) cursors
        · exact Function.update_self ..
        · refine ⟨set_next_self _ here, chained_frame (chained_append.mp chained).2 ?_⟩
          intro cell cellMember
          exact set_next_other _ (notNew cell (List.mem_append_right _ cellMember))
        · exact bounded_nodes bounded fun _ _ => set_next_allocated
        · exact linked_frame listed unlinked (some entry.addr) (fun addr isNew _ => set_next_other _ isNew) _
            (Or.inr rfl)

theorem first_addr_here (listed : Listed state data items) :
    ∀ addr ∈ firstAddr items, ∃ cell, state.nodes addr = some cell := by
  intro addr start
  obtain ⟨item, member, same⟩ := first_addr_member start
  obtain ⟨next, here⟩ := listed_cell listed member
  rw [← same]
  exact ⟨_, here⟩

theorem seek_place_cursors (bounded : Bounded state) (live : state.ref data ≠ 0)
    (listed : Listed state data items) (name : Name) :
    state.seekPlace data name = .done (state.withCursors
        ((cursorsAt name items).1.toList ++ (cursorsAt name items).2.toList), cursorsAt name items) := by
  have start := cursor_first (first_item live listed) (first_addr_here listed) []
  have again := cursor_first (first_item live listed) (first_addr_here listed)
    ((firstAddr items).toList ++ [])
  have enough := listed_length bounded listed
  rw [without_cursors] at start
  rw [State.seekPlace, start, Attempt.bind_done]
  dsimp only
  rw [again, Attempt.bind_done]
  cases items with
  | nil =>
      change State.seek name (state.space + 1) (state.withCursors []) none none = _
      rfl
  | cons head rest =>
      have here : state.nodes head.2.addr = some ⟨head.2.node, firstAddr rest⟩ := listed.chained.1
      have counted : head.2.node.ref ≠ 0 := by
        rw [(listed.each head List.mem_cons_self).ref]
        exact one_ne_zero
      have present : ∀ addr ∈ firstAddr rest, ∃ cell, state.nodes addr = some cell := by
        intro addr begins
        obtain ⟨item, member, same⟩ := first_addr_member begins
        obtain ⟨next, there⟩ := listed_cell listed (List.mem_cons_of_mem _ member)
        rw [← same]
        exact ⟨_, there⟩
      have kept : ∀ item ∈ head :: rest, item.2.node.name = item.1 ∧ item.2.node.ref ≠ 0 := by
        intro item member
        have represents := listed.each item member
        rw [represents.ref]
        exact ⟨represents.name, one_ne_zero⟩
      have longer : rest.length < state.space + 1 := by
        change (cellsOf (head :: rest)).length ≤ state.space at enough
        rw [cellsOf, List.length_map, List.length_cons] at enough
        omega
      change ((state.withCursors [head.2.addr, head.2.addr]).itemNext (some head.2.addr) >>= _) = _
      rw [cursor_next here counted rfl present, Attempt.bind_done, cursors_perm List.perm_append_comm]
      exact seek_place listed.chained kept longer

/-- A new cell does not touch what is allocated. -/
theorem created_listed (bounded : Bounded state) (listed : Listed state data items)
    (ref : Nat → Nat) (unused : state.nodes addr = none) (cell : Cell Nat Node) :
    Listed { state with
        ref := ref
        nodes := Function.update state.nodes addr (some cell)
        space := max state.space (addr + 1) } data items ∧
      Bounded { state with
        ref := ref
        nodes := Function.update state.nodes addr (some cell)
        space := max state.space (addr + 1) } := by
  refine ⟨⟨listed.first, ?_, listed.sorted, listed.each⟩, ?_⟩
  · apply chained_frame listed.chained
    intro other member
    obtain ⟨next, here⟩ := chained_cell listed.chained member
    apply Function.update_of_ne
    intro same
    rw [same, unused] at here
    contradiction
  · intro other allocated here
    change other < max state.space (addr + 1)
    by_cases same : other = addr
    · rw [same]
      exact lt_of_lt_of_le (Nat.lt_succ_self addr) (le_max_right _ _)
    · exact lt_of_lt_of_le (bounded _ _ ((Function.update_of_ne same ..).symm.trans here))
        (le_max_left _ _)

theorem item_create (alloc : Allocator) (name : Name) (value : Value)
    (counted : ∀ id ∈ pointees value, state.ref id ≠ 0) :
    (state.itemCreate alloc name value.bytes value.type).Returns False fun created =>
      ∃ item, Holds item value ∧ state.nodes created.2 = none ∧
        created.1 = { state with
          ref := addRefs state.ref (pointees value)
          nodes := Function.update state.nodes created.2 (some
            { held := { ref := 1, parent := none, name := name, item := item }, next := none })
          space := max state.space (created.2 + 1) } := by
  obtain ⟨item, made, holds⟩ := created_holds value
  rw [State.itemCreate, made, Attempt.read_some, Attempt.bind_done]
  have granted : (Attempt.demand (alloc.node state)).Returns False
      fun addr => state.nodes addr = none := by
    apply Attempt.returns_demand
    exact alloc.node_new state
  apply Attempt.returns_bind granted
  · intro addr unused
    let made : State := { state with
      nodes := Function.update state.nodes addr (some
        { held := { ref := 1, parent := none, name := name, item := item }, next := none })
      space := max state.space (addr + 1) }
    have added : made.addref (pointees value) =
        .done { made with ref := addRefs state.ref (pointees value) } := addref_live counted
    change (made.itemDataAddref item >>= _ : Attempt (State × Nat)).Returns _ _
    rw [State.itemDataAddref, holds_references holds, Attempt.read_some, Attempt.bind_done, added,
      Attempt.bind_done]
    exact ⟨item, holds, unused, rfl⟩

theorem cursors_members (listed : Listed state data items) (absent : getItem name items = none) :
    (∀ addr ∈ (cursorsAt name items).1, ∃ item ∈ items, item.2.addr = addr) ∧
      ∀ addr ∈ (cursorsAt name items).2, ∃ item ∈ items, item.2.addr = addr := by
  cases items with
  | nil => exact ⟨nofun, nofun⟩
  | cons head rest =>
      obtain ⟨parts, -⟩ := @find_place _ name [] head rest nofun listed.sorted
        (get_absent.mp absent)
      rw [List.nil_append] at parts
      constructor
      · intro addr same
        refine ⟨(findPlace name [] head rest).prev, ?_, Option.some.inj same⟩
        rw [parts]
        simp
      · intro addr start
        obtain ⟨item, member, same⟩ := first_addr_member start
        refine ⟨item, ?_, same⟩
        rw [parts]
        simp [member]

theorem insert_item (alloc : Allocator) (bounded : Bounded state) (live : state.ref data ≠ 0)
    (listed : Listed state data items) (absent : getItem name items = none) (value : Value)
    (counted : ∀ id ∈ pointees value, state.ref id ≠ 0) :
    (state.insertItem alloc data name value.bytes value.type).Returns False fun after =>
      ∃ entry, entry.value = value ∧
        Relisted { state with ref := addRefs state.ref (pointees value) } after data
          (linkItem (name, entry) items) := by
  apply Attempt.returns_bind (item_create alloc name value counted)
  intro created made
  obtain ⟨base, new⟩ := created
  obtain ⟨item, holds, unused, same⟩ := made
  dsimp only at unused same ⊢
  let ref := addRefs state.ref (pointees value)
  let cell : Cell Nat Node :=
    { held := { ref := 1, parent := none, name := name, item := item }, next := none }
  obtain ⟨listedBase, boundedBase⟩ := created_listed bounded listed ref unused cell
  rw [← same] at listedBase boundedBase
  have liveBase : base.ref data ≠ 0 := by
    rw [same]
    exact add_refs_live _ live
  have here : base.nodes new = some cell := by
    rw [same]
    exact Function.update_self ..
  rw [seek_place_cursors boundedBase liveBase listedBase name, Attempt.bind_done]
  dsimp only
  rw [cursors_parent here, Attempt.bind_done]
  let entry : Entry :=
    { addr := new, node := { ref := 1, parent := some data, name, item }, value := value }
  let owned : State := { base with
    nodes := setHeld base.nodes new fun node => { node with parent := some data } }
  have elsewhere : ∀ addr, addr ≠ new → owned.nodes addr = state.nodes addr := by
    intro addr different
    refine (Function.update_of_ne different ..).trans ?_
    rw [same]
    exact Function.update_of_ne different ..
  have own : owned.nodes new = some ⟨entry.node, none⟩ := by
    refine (Function.update_self ..).trans ?_
    rw [here]
    rfl
  have fresh : ∀ item ∈ items, item.2.addr ≠ new := by
    intro other member equal
    obtain ⟨next, there⟩ := listed_cell listed member
    rw [equal, unused] at there
    contradiction
  have unlinked : Unlinked owned data items name entry :=
    ⟨⟨none, own⟩, ⟨rfl, rfl, rfl, holds⟩, fresh, absent⟩
  have listedOwned : Listed owned data items := by
    refine ⟨listedBase.first, ?_, listed.sorted, listed.each⟩
    apply chained_frame listed.chained
    intro cell member
    obtain ⟨other, otherMember, equal⟩ := List.mem_map.mp member
    rw [← equal]
    exact elsewhere _ (fresh other otherMember)
  have boundedOwned : Bounded owned := by
    intro addr allocated there
    by_cases equal : addr = new
    · rw [equal]
      exact boundedBase new cell here
    · exact boundedBase addr allocated ((Function.update_of_ne equal ..).symm.trans there)
  obtain ⟨members, members'⟩ := cursors_members listed absent
  obtain ⟨linked, links, relisted⟩ := link_between boundedOwned listedOwned unlinked
    ((cursorsAt name items).1.toList ++ (cursorsAt name items).2.toList)
  have standing : ∀ addr, (∃ item ∈ items, item.2.addr = addr) →
      ∃ cell, linked.nodes addr = some cell ∧ cell.held.ref ≠ 0 := by
    rintro addr ⟨other, member, equal⟩
    have listedStill : other ∈ linkItem (name, entry) items :=
      (member_link listed.sorted absent).mem_iff.mpr (List.mem_cons_of_mem _ member)
    obtain ⟨next, there⟩ := listed_cell relisted.listed listedStill
    rw [← equal]
    refine ⟨_, there, ?_⟩
    rw [(listed.each other member).ref]
    exact one_ne_zero
  have last := cursor_given_up (fun addr start => standing addr (members' addr start)) []
  rw [List.append_nil, without_cursors] at last
  rw [links, Attempt.bind_done,
    cursor_given_up (fun addr start => standing addr (members addr start)), Attempt.bind_done, last]
  refine ⟨entry, rfl, relisted.listed, relisted.bounded, frame_trans ?_ relisted.frame⟩
  have refs : base.ref = ref := by rw [same]
  have held : base.held = state.held := by rw [same]
  have count : base.count = state.count := by rw [same]
  have contents : base.contents = state.contents := by rw [same]
  refine ⟨refs, held, count, fun other _ => congrFun contents other, ?_⟩
  · intro addr cell other there parent _
    refine (elsewhere addr ?_).trans there
    intro equal
    rw [equal, unused] at there
    contradiction

end Linking

end Mgw.DataNodes
