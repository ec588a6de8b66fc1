import Mgw.DataLayers
import Mgw.LinkedCells
import Mgw.Attempt
import Mgw.RefCounts

/-!
# Objects and their items in memory

The items of an `mgw_data` are linked by their addresses and counted by the cursors that
stand on them. An item that outgrows its allocation may move. What is read or written
where nothing is allocated has no meaning, and a failed allocation or an exhausted stack
ends the process.
-/

namespace Mgw.DataNodes

open DataItems DataValues LinkedCells PackedItem RefCounts

set_option autoImplicit false

/-- The fields of `struct mgw_data_item` before the sizes, its name and the rest of the
allocation. `next` is kept by the cell. -/
structure Node where
  ref : Nat
  parent : Option Nat
  name : Name
  item : Item

/-- `struct mgw_data` or `struct mgw_data_array`. -/
inductive Contents where
  | data (first_item : Option Nat)
  | array (objects : List Nat)

/-- Objects and arrays by their addresses, with a reference count of zero for those that
are not there, and items by theirs. All addresses in use are below `count` and `space`.
`held` are the references that variables of the program have. -/
structure State where
  ref : Nat → Nat
  contents : Nat → Contents
  nodes : Cells Nat Node
  held : Nat → Nat
  count : Nat
  space : Nat

def initial : State where
  ref := fun _ => 0
  contents := fun _ => .array []
  nodes := fun _ => none
  held := fun _ => 0
  count := 0
  space := 0

/-- What the allocator answers during a call, and how deep calls may nest. `brealloc`
leaves an item where it is or moves it, with the bytes of `fresh` behind the old ones. -/
structure Allocator where
  stack : Nat
  object : State → Option Nat
  node : State → Option Nat
  moved : State → Nat → Option Nat
  fresh : State → ByteArea.Bytes
  object_new : ∀ state id, object state = some id → 0 < id ∧ id < 2 ^ 64 ∧ state.ref id = 0
  node_new : ∀ state addr, node state = some addr → state.nodes addr = none
  moved_new : ∀ state old addr, moved state old = some addr → addr = old ∨ state.nodes addr = none

/-- What is counted for the pointer of an item, by the type of the item. -/
def references (item : Item) (ptr : Option Nat) : Option (List Nat) :=
  if item.type = .object ∨ item.type = .array then
    match ptr with
    | none => some []
    | some ptr =>
        (readPointer item ptr).map fun pointer => if pointer = 0 then [] else [pointer.toNat]
  else some []

/-- What `item_data_release` releases. -/
def dataReferences (item : Item) : Option (List Nat) :=
  if item.data_size = 0 then some [] else references item item.getItemData

/-- What `mgw_data_item_destroy` releases. -/
def destroyReferences (item : Item) : Option (List Nat) := do
  let user ← dataReferences item
  let default ← references item item.getItemDefaultData
  let autoselect ← references item item.getItemAutoselectData
  return user ++ default ++ autoselect

/-- What `mgw_data_destroy` releases, where nothing else refers to the items. -/
def destroyItems : List (Nat × Node) → Option (List Nat)
  | [] => some []
  | (_, node) :: rest =>
      if node.ref = 1 then
        (destroyReferences node.item).bind fun own => (destroyItems rest).map (own ++ ·)
      else none

namespace State

variable (state : State)

def load (addr : Nat) : Attempt (Cell Nat Node) := .read (state.nodes addr)

/-- A field of an item is written. -/
def modify (addr : Nat) (change : Node → Node) : Attempt State := do
  let _ ← state.load addr
  return { state with nodes := setHeld state.nodes addr change }

def storeNext (addr : Nat) (next : Option Nat) : Attempt State := do
  let _ ← state.load addr
  return { state with nodes := setNext state.nodes addr next }

def firstItem (data : Nat) : Attempt (Option Nat) :=
  if state.ref data = 0 then .stuck
  else
    match state.contents data with
    | .data first_item => .done first_item
    | .array _ => .stuck

def storeFirst (data : Nat) (first_item : Option Nat) : State :=
  { state with contents := Function.update state.contents data (.data first_item) }

def objects (array : Nat) : Attempt (List Nat) :=
  if state.ref array = 0 then .stuck
  else
    match state.contents array with
    | .data _ => .stuck
    | .array objects => .done objects

/-- `mgw_data_addref` and `mgw_data_array_addref`, one after the other. -/
def addref (state : State) : List Nat → Attempt State
  | [] => .done state
  | id :: rest =>
      if state.ref id = 0 then .stuck
      else addref { state with ref := Function.update state.ref id (state.ref id + 1) } rest

/-- What `mgw_data_destroy` and `mgw_data_array_destroy` release. -/
def out (id : Nat) : Option (List Nat) :=
  match state.contents id with
  | .data first_item => (walk state.nodes state.space first_item).bind destroyItems
  | .array objects => some objects

/-- `mgw_data_release` and `mgw_data_array_release`, one after the other. The items of an
object that is destroyed are freed. -/
def release (ids : List Nat) : Attempt State :=
  .read ((releaseRefs state.out (ids.length + RefCounts.load state.out state.ref state.count)
    state.ref ids).map fun ref =>
      { state with
        ref := ref
        nodes := fun addr => (state.nodes addr).filter fun cell =>
          cell.held.parent.all fun data => ref data ≠ 0 })

def getItem (data : Nat) (name : Name) : Attempt (Option Nat) :=
  if data = 0 then .done none
  else do
    let first_item ← state.firstItem data
    .read (find state.nodes (fun node => node.name = name) state.space first_item)

/-- The object and the slot of its list that points at `current`. -/
def getItemPrevNext (data : Option Nat) (current : Nat) : Attempt (Option (Nat × Slot Nat)) :=
  match data with
  | none => .done none
  | some data => do
      let first_item ← state.firstItem data
      let slot ← Attempt.read (findSlot state.nodes current state.space .head first_item)
      return slot.map fun slot => (data, slot)

/-- `*prev_next = item`. -/
def storePrevNext (prev_next : Nat × Slot Nat) (item : Option Nat) : Attempt State := do
  let first_item ← state.firstItem prev_next.1
  let redirected := redirect state.nodes first_item prev_next.2 item
  return { state with
    contents := Function.update state.contents prev_next.1 (.data redirected.1)
    nodes := redirected.2 }

def itemDetach (item : Nat) : Attempt State := do
  let cell ← state.load item
  let prev_next ← state.getItemPrevNext cell.held.parent item
  match prev_next with
  | none => return state
  | some prev_next => do
      let bypassed ← state.storePrevNext prev_next cell.next
      bypassed.storeNext item none

def itemReattach (old_ptr new_ptr : Nat) : Attempt State := do
  let cell ← state.load new_ptr
  let prev_next ← state.getItemPrevNext cell.held.parent old_ptr
  match prev_next with
  | none => return state
  | some prev_next => state.storePrevNext prev_next (some new_ptr)

/-- `item_data_release`. -/
def itemDataRelease (item : Item) : Attempt State := do
  let ids ← Attempt.read (dataReferences item)
  state.release ids

/-- `item_data_addref`. -/
def itemDataAddref (item : Item) : Attempt State := do
  let ids ← Attempt.read (references item item.getItemData)
  state.addref ids

def itemDestroy (item : Nat) : Attempt State := do
  let cell ← state.load item
  let ids ← Attempt.read (destroyReferences cell.held.item)
  let released ← state.release ids
  let detached ← released.itemDetach item
  return { detached with nodes := Function.update detached.nodes item none }

/-- `mgw_data_item_release`. -/
def itemRelease (item : Option Nat) : Attempt State :=
  match item with
  | none => .done state
  | some item => do
      let cell ← state.load item
      if cell.held.ref = 0 then .stuck
      else if cell.held.ref = 1 then state.itemDestroy item
      else state.modify item fun node => { node with ref := node.ref - 1 }

/-- `mgw_data_first`, for the item that the object begins with. -/
def itemFirst (data : Nat) : Attempt (State × Option Nat) := do
  let first_item ← state.firstItem data
  match first_item with
  | none => return (state, none)
  | some item => do
      let counted ← state.modify item fun node => { node with ref := node.ref + 1 }
      return (counted, some item)

def itemNext (item : Option Nat) : Attempt (State × Option Nat) :=
  match item with
  | none => .done (state, none)
  | some item => do
      let cell ← state.load item
      let released ← state.itemRelease (some item)
      match cell.next with
      | none => return (released, none)
      | some next => do
          let counted ← released.modify next fun node => { node with ref := node.ref + 1 }
          return (counted, some next)

/-- `mgw_data_item_create` of a user value. -/
def itemCreate (alloc : Allocator) (name : Name) (data : List UInt8) (type : DataType) :
    Attempt (State × Nat) := do
  let item ← Attempt.read (create data type .user)
  let addr ← Attempt.demand (alloc.node state)
  let made : State := { state with
    nodes := Function.update state.nodes addr
      (some { held := { ref := 1, parent := none, name := name, item := item }, next := none })
    space := max state.space (addr + 1) }
  let counted ← made.itemDataAddref item
  return (counted, addr)

/-- The packed item grew beyond its allocation: `brealloc` and `mgw_data_item_reattach`. -/
def itemMove (alloc : Allocator) (old : Nat) (cell : Cell Nat Node) (item : Item) :
    Attempt (State × Nat) := do
  let addr ← Attempt.demand (alloc.moved state old)
  let moved : State := { state with
    nodes := Function.update (Function.update state.nodes old none) addr
      (some { cell with held := { cell.held with item := item } })
    space := max state.space (addr + 1) }
  let attached ← moved.itemReattach old addr
  return (attached, addr)

/-- What `mgw_data_item_ensure_capacity` makes of the item: a larger one is reallocated. -/
def itemEnsureCapacity (alloc : Allocator) (item : Nat) (cell : Cell Nat Node) (packed : Item) :
    Attempt State :=
  if packed.capacity = cell.held.item.capacity then
    state.modify item fun node => { node with item := packed }
  else do
    let moved ← state.itemMove alloc item cell packed
    return moved.1

/-- `mgw_data_item_setdata`, with the copies inside of the allocation made by the packed
item. -/
def itemSetdata (alloc : Allocator) (p_item : Nat) (data : List UInt8) (type : DataType) :
    Attempt State := do
  let old ← state.load p_item
  let released ← state.itemDataRelease old.held.item
  let cell ← released.load p_item
  let item ← Attempt.read (cell.held.item.setdata (alloc.fresh released) data type)
  let placed ← released.itemEnsureCapacity alloc p_item cell item
  if data.length = 0 then return placed else placed.itemDataAddref item

/-- The loop of `set_item_data` over its two cursors. -/
def seek (name : Name) : Nat → State → Option Nat → Option Nat →
    Attempt (State × Option Nat × Option Nat)
  | 0, _, _, _ => .stuck
  | rounds + 1, state, prev, next =>
      match prev, next with
      | some prev, some next => do
          let cell ← state.load next
          if name < cell.held.name then return (state, some prev, some next)
          else do
            let afterPrev ← state.itemNext (some prev)
            let afterNext ← afterPrev.1.itemNext (some next)
            seek name rounds afterNext.1 afterPrev.2 afterNext.2
      | prev, next => return (state, prev, next)

/-- The cursors of `set_item_data` at the place of a new name. -/
def seekPlace (data : Nat) (name : Name) : Attempt (State × Option Nat × Option Nat) := do
  let prev ← state.itemFirst data
  let first ← prev.1.itemFirst data
  let next ← first.1.itemNext first.2
  seek name (next.1.space + 1) next.1 prev.2 next.2

/-- The links of a new item between the cursors. -/
def linkBetween (data : Nat) (name : Name) (new_item : Nat) (prev next : Option Nat) :
    Attempt State :=
  match prev with
  | none => (state.storeFirst data (some new_item)).storeNext new_item none
  | some prev => do
      let cell ← state.load prev
      if cell.held.name < name then do
        let linked ← state.storeNext prev (some new_item)
        linked.storeNext new_item next
      else (state.storeFirst data (some new_item)).storeNext new_item (some prev)

/-- `set_item_data` of a name that has no item. -/
def insertItem (alloc : Allocator) (data : Nat) (name : Name) (ptr : List UInt8)
    (type : DataType) : Attempt State := do
  let created ← state.itemCreate alloc name ptr type
  let place ← created.1.seekPlace data name
  let owned ← place.1.modify created.2 fun node => { node with parent := some data }
  let linked ← owned.linkBetween data name created.2 place.2.1 place.2.2
  let released ← linked.itemRelease place.2.1
  released.itemRelease place.2.2

/-- `set_item`, with the branches of `set_item_data` that it takes. -/
def setItem (alloc : Allocator) (data : Nat) (name : Name) (ptr : List UInt8)
    (type : DataType) : Attempt State :=
  if data = 0 then .done state
  else do
    let actual_item ← state.getItem data name
    match actual_item with
    | none => state.insertItem alloc data name ptr type
    | some item => state.itemSetdata alloc item ptr type

/-- `mgw_data_set_string` and the other setters. -/
def dataSet (alloc : Allocator) (data : Nat) (name : Name) (value : Value) : Attempt State :=
  state.setItem alloc data name value.bytes value.type

def dataErase (data : Nat) (name : Name) : Attempt State := do
  let item ← state.getItem data name
  match item with
  | none => return state
  | some item => do
      let detached ← state.itemDetach item
      detached.itemRelease (some item)

/-- `mgw_data_create` and `mgw_data_array_create`. -/
def createObject (alloc : Allocator) (contents : Contents) : Attempt (State × Nat) := do
  let id ← Attempt.demand (alloc.object state)
  return ({ state with
    ref := Function.update state.ref id 1
    contents := Function.update state.contents id contents
    held := Function.update state.held id 1
    count := max state.count (id + 1) }, id)

/-- A variable of the program gives up its reference. -/
def giveBack (id : Nat) : Attempt State :=
  { state with held := Function.update state.held id (state.held id - 1) }.release [id]

/-- `mgw_data_array_push_back`. -/
def arrayPushBack (array obj : Nat) : Attempt State :=
  if array = 0 ∨ obj = 0 then .done state
  else do
    let counted ← state.addref [obj]
    let objects ← counted.objects array
    return { counted with
      contents := Function.update counted.contents array (.array (objects ++ [obj])) }

section Apply

-- `mgw_data_apply` as its recursive calls see it.
variable (apply : State → Nat → Nat → Attempt State) (alloc : Allocator)

/-- `mgw_data_create` and `mgw_data_apply` to what was created. -/
def copyOf (obj : Nat) : Attempt (State × Nat) := do
  let new_obj ← state.createObject alloc (.data none)
  let applied ← apply new_obj.1 new_obj.2 obj
  return (applied, new_obj.2)

def copyObj (data : Nat) (name : Name) (obj : Nat) : Attempt State :=
  if obj = 0 then .done state
  else do
    let new_obj ← state.copyOf apply alloc obj
    let set ← new_obj.1.dataSet alloc data name (.object (UInt64.ofNat new_obj.2))
    set.giveBack new_obj.2

/-- The loop of `copy_array`. -/
def copyObjects (array new_array : Nat) : Nat → Nat → State → Attempt State
  | 0, _, _ => .stuck
  | rounds + 1, index, state => do
      let objects ← state.objects array
      match objects[index]? with
      | none => return state
      | some obj => do
          let new_obj ← state.copyOf apply alloc obj
          let pushed ← new_obj.1.arrayPushBack new_array new_obj.2
          let released ← pushed.giveBack new_obj.2
          copyObjects array new_array rounds (index + 1) released

def copyArray (data : Nat) (name : Name) (array : Nat) : Attempt State :=
  if array = 0 then .done state
  else do
    let objects ← state.objects array
    let new_array ← state.createObject alloc (.array [])
    let copied ← copyObjects apply alloc array new_array.2 (objects.length + 1) 0 new_array.1
    let set ← copied.dataSet alloc data name (.array (UInt64.ofNat new_array.2))
    set.giveBack new_array.2

/-- The pointer of an item with a user value. -/
def userPointer (item : Item) : Attempt Nat := do
  let ptr ← Attempt.read item.getItemData
  let pointer ← Attempt.read (readPointer item ptr)
  return pointer.toNat

def copyItem (target item : Nat) : Attempt State := do
  let cell ← state.load item
  let packed := cell.held.item
  if packed.data_size = 0 then return state
  else if packed.type = .object then do
    let obj ← userPointer packed
    state.copyObj apply alloc target cell.held.name obj
  else if packed.type = .array then do
    let array ← userPointer packed
    state.copyArray apply alloc target cell.held.name array
  else do
    let ptr ← Attempt.read packed.getItemData
    let bytes ← Attempt.read (readBytes packed ptr packed.data_size)
    state.setItem alloc target cell.held.name bytes packed.type

/-- The loop of `mgw_data_apply`. -/
def copyItems (target : Nat) : Nat → State → Option Nat → Attempt State
  | _, state, none => .done state
  | 0, _, some _ => .stuck
  | rounds + 1, state, some item => do
      let copied ← state.copyItem apply alloc target item
      let cell ← copied.load item
      copyItems target rounds copied cell.next

end Apply

/-- `mgw_data_apply`, with what is left of the stack. -/
def dataApply (alloc : Allocator) : Nat → State → Nat → Nat → Attempt State
  | 0, _, _, _ => .aborted
  | stack + 1, state, target, apply_data =>
      if target = 0 ∨ apply_data = 0 ∨ target = apply_data then .done state
      else do
        let first_item ← state.firstItem apply_data
        copyItems (dataApply alloc stack) alloc target state.space state first_item

/-- `mgw_data_get_string` and the other getters, without the reference that those of
objects and arrays hand out. -/
def dataGet {α : Type} (getter : Getter α) (data : Nat) (name : Name) : Attempt α := do
  let item ← state.getItem data name
  match item with
  | none => return getter.nothing
  | some item => do
      let cell ← state.load item
      .read (dataItemGet getter.type getter.nothing getter.read Item.getItemData
        (some cell.held.item))

/-- The reference that a getter hands out. -/
def handOut (id : Nat) : Attempt State :=
  if id = 0 then .done state
  else do
    let counted ← state.addref [id]
    return { counted with held := Function.update counted.held id (counted.held id + 1) }

/-- `mgw_data_get_obj` and `mgw_data_get_array`, with the reference. -/
def getReference (getter : Getter UInt64) (data : Nat) (name : Name) : Attempt State := do
  let pointer ← state.dataGet getter data name
  state.handOut pointer.toNat

/-- `mgw_data_array_item`. -/
def arrayItem (array idx : Nat) : Attempt State :=
  if array = 0 then .done state
  else do
    let objects ← state.objects array
    state.handOut (objects[idx]?.getD 0)

end State

end Mgw.DataNodes
