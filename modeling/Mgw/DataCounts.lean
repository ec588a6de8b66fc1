import Mgw.DataItems
import Mgw.PackedItem
import Mgw.RefCounts

/-!
# The reference counts of objects and arrays

The items of an object have one type and three values, of which objects and arrays are
counted by the item. A value that is read as an object or an array and is none has no
result, and so has every access to an object or array that was destroyed.
-/

namespace Mgw.DataCounts

open DataItems PackedItem RefCounts

set_option autoImplicit false

/-- The types without a reference. -/
inductive Scalar where
  | string | number | boolean
  deriving DecidableEq

/-- Pointers may be null. -/
inductive Held where
  | scalar (type : Scalar)
  | object (obj : Option Nat)
  | array (arr : Option Nat)
  deriving DecidableEq

namespace Held

def type : Held → DataType
  | .scalar .string => .string
  | .scalar .number => .number
  | .scalar .boolean => .boolean
  | .object _ => .object
  | .array _ => .array

def pointer : Held → Option Nat
  | .scalar _ => none
  | .object obj => obj
  | .array arr => arr

end Held

/-- An item as its type and its values (what the packed item shows). -/
structure Item where
  type : DataType
  value : Layer → Option Held

/-- An object or an array. -/
inductive Contents where
  | data (items : List (Name × Item))
  | array (objects : List Nat)

/-- A count of zero is an object or array that is not there. `held` are the references
of the callers. -/
structure State where
  ref : Nat → Nat
  contents : Nat → Contents
  count : Nat
  held : Nat → Nat

def initial : State where
  ref := fun _ => 0
  contents := fun _ => .array []
  count := 0
  held := fun _ => 0

namespace Item

variable (item : Item)

/-- The first of the three values, behind `get_item_data`. -/
def getItemData : Option Held :=
  (item.value .user).or ((item.value .default).or (item.value .autoselect))

/-- A value as the pointer that the type of the item makes of it: `some none` for no
pointer. -/
def readPointer (value : Option Held) : Option (Option Nat) :=
  match item.type, value with
  | .object, some (.object obj) => some obj
  | .object, some _ => none
  | .array, some (.array arr) => some arr
  | .array, some _ => none
  | _, _ => some none

/-- `item_data_release`, `item_default_data_release` and `item_autoselect_data_release`:
what they release. -/
def dataRelease (layer : Layer) : Option (List Nat) :=
  (item.readPointer (item.value layer)).map Option.toList

/-- What `mgw_data_item_destroy` releases. -/
def destroy : Option (List Nat) := do
  let user ← item.dataRelease .user
  let default ← item.dataRelease .default
  let autoselect ← item.dataRelease .autoselect
  return user ++ default ++ autoselect

end Item

/-- What `mgw_data_destroy` releases, item by item. -/
def destroyItems : List (Name × Item) → Option (List Nat)
  | [] => some []
  | item :: rest => do
      let own ← item.2.destroy
      let others ← destroyItems rest
      return own ++ others

/-- What `mgw_data_destroy` and `mgw_data_array_destroy` release. -/
def Contents.destroy : Contents → Option (List Nat)
  | .data items => destroyItems items
  | .array objects => some objects

namespace State

variable (state : State)

def out (id : Nat) : Option (List Nat) := (state.contents id).destroy

/-- `mgw_data_release` and `mgw_data_array_release`, one after the other. What is
destroyed counts as not there before it releases what it holds. -/
def release (ids : List Nat) : Option State :=
  (releaseRefs state.out (ids.length + load state.out state.ref state.count) state.ref ids).map
    fun ref => { state with ref := ref }

/-- `mgw_data_addref` and `mgw_data_array_addref`. -/
def addref : Option Nat → Option State
  | none => some state
  | some id =>
      if state.ref id = 0 then none
      else some { state with ref := Function.update state.ref id (state.ref id + 1) }

def setContents (id : Nat) (contents : Contents) : State :=
  { state with contents := Function.update state.contents id contents }

def create (contents : Contents) : State :=
  { ref := Function.update state.ref state.count 1
    contents := Function.update state.contents state.count contents
    count := state.count + 1
    held := Function.update state.held state.count 1 }

/-- The items of an object that is there. -/
def items (id : Nat) : Option (List (Name × Item)) :=
  if state.ref id = 0 then none
  else
    match state.contents id with
    | .data items => some items
    | .array _ => none

def objects (id : Nat) : Option (List Nat) :=
  if state.ref id = 0 then none
  else
    match state.contents id with
    | .data _ => none
    | .array objects => some objects

/-- An item of an object is put in the place of the one of its name. -/
def putItem (id : Nat) (name : Name) (item : Item) : Option State :=
  (state.items id).map fun items => state.setContents id (.data (replaceItem name item items))

/-- `mgw_data_item_setdata`, `mgw_data_item_set_default_data` and
`mgw_data_item_set_autoselect_data`. A default value is counted only beside a user value. -/
def setLayer (id : Nat) (name : Name) (item : Item) (layer : Layer) (value : Held) :
    Option State := do
  let old ← item.dataRelease layer
  let released ← state.release old
  let written ← released.putItem id name
    { type := value.type, value := Function.update item.value layer (some value) }
  if layer = .default ∧ item.value .user = none then return written
  else written.addref value.pointer

/-- `mgw_data_item_create` and the links of `set_item_data`. -/
def createItem (id : Nat) (name : Name) (layer : Layer) (value : Held) : Option State := do
  let counted ← state.addref value.pointer
  let items ← counted.items id
  return counted.setContents id (.data (linkItem
    (name, { type := value.type, value := Function.update (fun _ => none) layer (some value) })
    items))

/-- `set_item`, `set_item_def` and `set_item_auto`. -/
def setItem (id : Nat) (name : Name) (layer : Layer) (value : Held) : Option State := do
  let items ← state.items id
  match getItem name items with
  | none => state.createItem id name layer value
  | some item =>
      if layer = .default ∧ item.type ≠ value.type then return state
      else state.setLayer id name item layer value

/-- `mgw_data_item_unset_user_value`, the two others and `clear_item`. -/
def unsetItem (id : Nat) (name : Name) (item : Item) (layer : Layer) : Option State :=
  if item.value layer = none then some state
  else do
    let old ← item.dataRelease layer
    let released ← state.release old
    released.putItem id name { item with value := Function.update item.value layer none }

def unsetValue (id : Nat) (name : Name) (layer : Layer) : Option State := do
  let items ← state.items id
  match getItem name items with
  | none => return state
  | some item => state.unsetItem id name item layer

/-- The loop of `mgw_data_clear` over the names of the items. -/
def clearItems (state : State) (id : Nat) : List Name → Option State
  | [] => some state
  | name :: rest => do
      let items ← state.items id
      let item ← getItem name items
      let cleared ← state.unsetItem id name item .user
      cleared.clearItems id rest

def clear (id : Nat) : Option State := do
  let items ← state.items id
  state.clearItems id (items.map Prod.fst)

/-- `mgw_data_erase`: the item is detached, then destroyed. -/
def erase (id : Nat) (name : Name) : Option State := do
  let items ← state.items id
  match getItem name items with
  | none => return state
  | some item =>
      let refs ← item.destroy
      (state.setContents id (.data (detachItem name items))).release refs

/-- The reference that a getter hands out. -/
def handOut (pointer : Option Nat) : Option State :=
  (state.addref pointer).map fun counted =>
    match pointer with
    | none => counted
    | some id => { counted with held := Function.update counted.held id (counted.held id + 1) }

/-- The getters of objects and arrays, by the type that is asked for. Those of default
values read the same value as those of user values. -/
def getPointer (id : Nat) (name : Name) (layer : Layer) (type : DataType) : Option State := do
  let items ← state.items id
  match getItem name items with
  | none => return state
  | some item =>
      if item.type = type then
        let value := if layer = .autoselect then item.value .autoselect else item.getItemData
        let pointer ← item.readPointer value
        state.handOut pointer
      else return state

/-- `mgw_data_release` and `mgw_data_array_release` of a reference of the caller. -/
def giveBack (id : Nat) : Option State :=
  { state with held := Function.update state.held id (state.held id - 1) }.release [id]

/-- `mgw_data_addref` and `mgw_data_array_addref` of the caller. -/
def take (id : Nat) : Option State := state.handOut (some id)

/-- `mgw_data_array_push_back` and `mgw_data_array_insert`. -/
def arrayInsert (id : Nat) (idx : Nat) (obj : Option Nat) : Option State :=
  match obj with
  | none => some state
  | some entry => do
      let counted ← state.addref (some entry)
      let objects ← counted.objects id
      if idx ≤ objects.length then
        return counted.setContents id (.array (objects.insertIdx idx entry))
      else none

/-- The entry is released before it is taken out. -/
def arrayErase (id : Nat) (idx : Nat) : Option State := do
  let objects ← state.objects id
  let entry ← objects[idx]?
  let released ← state.release [entry]
  return released.setContents id (.array (objects.eraseIdx idx))

def arrayItem (id : Nat) (idx : Nat) : Option State := do
  let objects ← state.objects id
  state.handOut objects[idx]?

end State

/-- The calls. An array's `push_back` is an insertion at its end. -/
inductive Call where
  | createData
  | createArray
  | addref (id : Nat)
  | release (id : Nat)
  | set (id : Nat) (name : Name) (layer : Layer) (value : Held)
  | get (id : Nat) (name : Name) (layer : Layer) (type : DataType)
  | unset (id : Nat) (name : Name) (layer : Layer)
  | clear (id : Nat)
  | erase (id : Nat) (name : Name)
  | arrayInsert (id : Nat) (idx : Nat) (obj : Option Nat)
  | arrayErase (id : Nat) (idx : Nat)
  | arrayItem (id : Nat) (idx : Nat)

def next (state : State) : Call → Option State
  | .createData => some (state.create (.data []))
  | .createArray => some (state.create (.array []))
  | .addref id => state.take id
  | .release id => state.giveBack id
  | .set id name layer value => state.setItem id name layer value
  | .get id name layer type => state.getPointer id name layer type
  | .unset id name layer => state.unsetValue id name layer
  | .clear id => state.clear id
  | .erase id name => state.erase id name
  | .arrayInsert id idx obj => state.arrayInsert id idx obj
  | .arrayErase id idx => state.arrayErase id idx
  | .arrayItem id idx => state.arrayItem id idx

end Mgw.DataCounts
