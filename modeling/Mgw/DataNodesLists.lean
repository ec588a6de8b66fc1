import Mgw.DataNodes
import Mathlib.Data.List.Perm.Subperm

/-!
# The lists of items in memory

The items of an object are the cells that are linked from its first one, in the order of
their names. Each of them names the object as its parent and holds one user value. What
is done to the list of one object leaves the lists of the others as they are.
-/

namespace Mgw.DataNodes

open DataItems DataValues LinkedCells PackedItem RefCounts
open DoublyLinked (first)

set_option autoImplicit false

/-- What a value counts. -/
def pointees : Value → List Nat
  | .object obj => if obj = 0 then [] else [obj.toNat]
  | .array arr => if arr = 0 then [] else [arr.toNat]
  | _ => []

/-- A packed item with a user value and no other one. -/
structure Holds (item : Item) (value : Value) : Prop where
  laid : Laid item
  type : item.type = value.type
  layer : item.layer = Function.update (fun _ => none) .user (some value.bytes)

/-- An item of a list: where it is, and the value that it holds. -/
structure Entry where
  addr : Nat
  node : Node
  value : Value

abbrev Entries := List (Name × Entry)

def cellsOf (items : Entries) : List (Nat × Node) :=
  items.map fun item => (item.2.addr, item.2.node)

def firstAddr (items : Entries) : Option Nat := first (cellsOf items) none

structure Represents (data : Nat) (item : Name × Entry) : Prop where
  ref : item.2.node.ref = 1
  parent : item.2.node.parent = some data
  name : item.2.node.name = item.1
  holds : Holds item.2.node.item item.2.value

structure Listed (state : State) (data : Nat) (items : Entries) : Prop where
  first : state.contents data = .data (first (cellsOf items) none)
  chained : Chained state.nodes (cellsOf items) none
  sorted : Sorted items
  each : ∀ item ∈ items, Represents data item

def Bounded (state : State) : Prop := ∀ addr cell, state.nodes addr = some cell → addr < state.space

/-- Nothing but the list of one object changes, besides items that have no parent. -/
structure Frame (state after : State) (data : Nat) : Prop where
  ref : after.ref = state.ref
  held : after.held = state.held
  count : after.count = state.count
  contents : ∀ other, other ≠ data → after.contents other = state.contents other
  nodes : ∀ addr cell other, state.nodes addr = some cell → cell.held.parent = some other →
    other ≠ data → after.nodes addr = some cell

section Accesses

variable {state : State} {addr : Nat} {cell : Cell Nat Node}

theorem load_here (here : state.nodes addr = some cell) : state.load addr = .done cell := by
  rw [State.load, here, Attempt.read_some]

theorem store_next_here (here : state.nodes addr = some cell) (next : Option Nat) :
    state.storeNext addr next = .done { state with nodes := setNext state.nodes addr next } := by
  rw [State.storeNext, load_here here, Attempt.bind_done, Attempt.pure_done]

theorem modify_here (here : state.nodes addr = some cell) (change : Node → Node) :
    state.modify addr change = .done { state with nodes := setHeld state.nodes addr change } := by
  rw [State.modify, load_here here, Attempt.bind_done, Attempt.pure_done]

theorem addref_live {ids : List Nat} (live : ∀ id ∈ ids, state.ref id ≠ 0) :
    state.addref ids = .done { state with ref := addRefs state.ref ids } := by
  induction ids generalizing state with
  | nil => rfl
  | cons id rest ih =>
      rw [State.addref, if_neg (live id List.mem_cons_self), addRefs, ih]
      intro other member
      exact update_live (live other (List.mem_cons_of_mem _ member))

end Accesses

section Values

variable {item : Item} {value : Value}

theorem holds_sizes (holds : Holds item value) :
    item.data_size ≠ 0 ∧ item.default_size = 0 ∧ item.autoselect_size = 0 := by
  have user := congrFun holds.layer .user
  have default := congrFun holds.layer .default
  have autoselect := congrFun holds.layer .autoselect
  unfold Item.layer at user default autoselect
  refine ⟨?_, ?_, ?_⟩
  · intro empty
    rw [if_pos (show item.size .user = 0 from empty), Function.update_self] at user
    contradiction
  · by_contra filled
    rw [if_neg (show item.size .default ≠ 0 from filled)] at default
    contradiction
  · by_contra filled
    rw [if_neg (show item.size .autoselect ≠ 0 from filled)] at autoselect
    contradiction

theorem holds_pointer (holds : Holds item value) : item.getItemData = some 0 :=
  item_data_pointer (holds_sizes holds).1

theorem holds_stored (holds : Holds item value) : Stored item 0 value.bytes := by
  have user : item.layer .user = some value.bytes := by
    rw [holds.layer, Function.update_self]
  exact layer_stored holds.laid user

theorem holds_length (holds : Holds item value) : value.bytes.length = item.data_size := by
  have user := congrFun holds.layer .user
  have filled : item.size .user ≠ 0 := (holds_sizes holds).1
  rw [Function.update_self, Item.layer, if_neg filled] at user
  rw [← Option.some.inj user]
  exact ByteArea.take_bytes_length ..

theorem holds_references (holds : Holds item value) :
    references item item.getItemData = some (pointees value) := by
  have stored := holds_stored holds
  unfold references
  rw [holds_pointer holds, holds.type]
  cases value with
  | string val => rfl
  | number num padding => rfl
  | boolean val => rfl
  | object obj =>
      change (readPointer item 0).map _ = _
      rw [read_pointer_stored stored]
      rfl
  | array arr =>
      change (readPointer item 0).map _ = _
      rw [read_pointer_stored stored]
      rfl

theorem no_references (item : Item) : references item none = some [] := by
  unfold references
  split_ifs <;> rfl

theorem holds_data_references (holds : Holds item value) :
    dataReferences item = some (pointees value) := by
  rw [dataReferences, if_neg (holds_sizes holds).1, holds_references holds]

theorem holds_destroy_references (holds : Holds item value) :
    destroyReferences item = some (pointees value) := by
  obtain ⟨-, default, autoselect⟩ := holds_sizes holds
  have noDefault : item.getItemDefaultData = none := if_pos default
  have noAutoselect : item.getItemAutoselectData = none := if_pos autoselect
  rw [destroyReferences, holds_data_references holds, noDefault, noAutoselect, no_references]
  change some (pointees value ++ [] ++ []) = some (pointees value)
  rw [List.append_nil, List.append_nil]

/-- What a getter returns for the item. -/
theorem holds_answer {α : Type} (getter : Getter α) (holds : Holds item value) :
    dataItemGet getter.type getter.nothing getter.read Item.getItemData (some item) =
      some (if value.type = getter.type then getter.payload value else getter.nothing) := by
  rw [dataItemGet, holds.type, holds_pointer holds]
  split_ifs with same
  · exact getter.reads item 0 value same (holds_stored holds)
  · rfl

theorem created_holds (value : Value) :
    ∃ item, create value.bytes value.type .user = some item ∧ Holds item value := by
  obtain ⟨item, made, laid, type, layer⟩ :=
    create_layers (value_bytes_filled value) value.type .user
  exact ⟨item, made, laid, type, layer⟩

theorem setdata_holds {old : Value} (holds : Holds item old) (fresh : ByteArea.Bytes)
    (value : Value) :
    ∃ item', item.setdata fresh value.bytes value.type = some item' ∧ Holds item' value := by
  obtain ⟨item', made, laid, type, layer⟩ :=
    setdata_layers holds.laid fresh (value_bytes_filled value) value.type
  refine ⟨item', made, laid, type, ?_⟩
  rw [layer, holds.layer, Function.update_idem]

end Values

section Lists

variable {state after : State} {data : Nat} {items left right : Entries} {name : Name}
  {entry : Entry}

theorem cells_append (left right : Entries) : cellsOf (left ++ right) = cellsOf left ++ cellsOf right :=
  List.map_append

theorem listed_cell (listed : Listed state data items) {item : Name × Entry}
    (member : item ∈ items) : ∃ next, state.nodes item.2.addr = some ⟨item.2.node, next⟩ :=
  chained_cell listed.chained (List.mem_map_of_mem (f := fun item => (item.2.addr, item.2.node)) member)

/-- One address is not two items: it has one name. -/
theorem listed_apart (listed : Listed state data items) :
    ((cellsOf items).map Prod.fst).Nodup := by
  rw [cellsOf, List.map_map]
  apply List.pairwise_map.mpr
  apply List.Pairwise.imp_of_mem _ listed.sorted
  intro item other member member' less same
  obtain ⟨next, here⟩ := listed_cell listed member
  obtain ⟨next', there⟩ := listed_cell listed member'
  change item.2.addr = other.2.addr at same
  rw [same, there] at here
  have node : other.2.node = item.2.node := congrArg Cell.held (Option.some.inj here)
  have names : other.1 = item.1 := by
    rw [← (listed.each other member').name, ← (listed.each item member).name, node]
  rw [names] at less
  exact lt_irrefl _ less

theorem listed_length (bounded : Bounded state) (listed : Listed state data items) :
    (cellsOf items).length ≤ state.space := by
  have inside : (cellsOf items).map Prod.fst ⊆ List.range state.space := by
    intro addr member
    obtain ⟨cell, cellMember, same⟩ := List.mem_map.mp member
    obtain ⟨next, here⟩ := chained_cell listed.chained cellMember
    rw [← same]
    exact List.mem_range.mpr (bounded _ _ here)
  have short := (List.subperm_of_subset (listed_apart listed) inside).length_le
  rw [List.length_map, List.length_range] at short
  exact short

theorem first_item (live : state.ref data ≠ 0) (listed : Listed state data items) :
    state.firstItem data = .done (firstAddr items) := by
  rw [State.firstItem, if_neg live, listed.first]
  rfl

theorem get_item (bounded : Bounded state) (present : data ≠ 0) (live : state.ref data ≠ 0)
    (listed : Listed state data items) (name : Name) :
    state.getItem data name = .done ((getItem name items).map Entry.addr) := by
  have enough := listed_length bounded listed
  rw [State.getItem, if_neg present, first_item live listed, Attempt.bind_done, firstAddr]
  cases found : getItem name items with
  | none =>
      rw [find_absent listed.chained _ enough]
      · rfl
      · intro cell member
        obtain ⟨item, itemMember, same⟩ := List.mem_map.mp member
        apply decide_eq_false
        rw [← same, (listed.each item itemMember).name]
        exact get_absent.mp found item itemMember
  | some entry =>
      obtain ⟨left, right, parts, before, -⟩ := found_split found
      have chained := listed.chained
      rw [parts, cells_append] at chained enough ⊢
      rw [List.length_append] at enough
      change Chained state.nodes (cellsOf left ++ (entry.addr, entry.node) :: cellsOf right) none
        at chained
      change (cellsOf left).length + ((cellsOf right).length + 1) ≤ state.space at enough
      change Attempt.read (find _ _ _ (first
        (cellsOf left ++ (entry.addr, entry.node) :: cellsOf right) none)) = _
      rw [find_present chained _ _ (by omega)]
      · rfl
      · intro cell member
        obtain ⟨item, itemMember, same⟩ := List.mem_map.mp member
        apply decide_eq_false
        rw [← same, (listed.each item (by rw [parts]; simp [itemMember])).name]
        exact before item itemMember
      · apply decide_eq_true
        exact (listed.each (name, entry) (by rw [parts]; simp)).name

/-- The items of another object are not in the way. -/
theorem listed_frame (frame : Frame state after data) {other : Nat} (different : other ≠ data)
    (listed : Listed state other items) : Listed after other items where
  first := by
    rw [frame.contents other different]
    exact listed.first
  chained := by
    apply chained_frame listed.chained
    intro cell member
    obtain ⟨item, itemMember, same⟩ := List.mem_map.mp member
    obtain ⟨next, here⟩ := listed_cell listed itemMember
    rw [← same, frame.nodes _ _ other here (listed.each item itemMember).parent different]
    exact here.symm
  sorted := listed.sorted
  each := listed.each

theorem frame_trans {middle : State} (before : Frame state middle data)
    (behind : Frame middle after data) : Frame state after data where
  ref := behind.ref.trans before.ref
  held := behind.held.trans before.held
  count := behind.count.trans before.count
  contents := fun other different =>
    (behind.contents other different).trans (before.contents other different)
  nodes := fun addr cell other here parent different =>
    behind.nodes addr cell other (before.nodes addr cell other here parent different) parent different

end Lists

end Mgw.DataNodes
