import Mgw.ByteArea

/-!
# `struct mgw_data_item`

One allocation holds the user value, the default value and the autoselect value of an
item behind each other. Pointers are counted from the end of the name. A copy that
would leave the allocation has no result. The reference counts of objects and arrays
are not kept here.
-/

namespace Mgw.PackedItem

open ByteArea

set_option autoImplicit false

/-- `enum mgw_data_type`. -/
inductive DataType where
  | null | string | number | boolean | object | array
  deriving DecidableEq

inductive Layer where
  | user | default | autoselect
  deriving DecidableEq

/-- What a pointer to these bytes reads. -/
def bytesOf (data : List UInt8) : Bytes := fun index => data.getD index 0

/-- `area` and `capacity` are those behind the name. -/
structure Item where
  type : DataType
  data_len : Nat
  data_size : Nat
  default_len : Nat
  default_size : Nat
  autoselect_size : Nat
  capacity : Nat
  area : Bytes

/-- `base_get_alignment()` is 32. -/
def getAlignSize (size : Nat) : Nat := (size + 31) / 32 * 32

namespace Item

variable (item : Item)

def getDefaultDataPtr : Nat := item.data_len

def getAutoselectDataPtr : Nat := item.getDefaultDataPtr + item.default_len

def getItemData : Option Nat :=
  if item.data_size = 0 ∧ item.default_size = 0 ∧ item.autoselect_size = 0 then none else some 0

def getItemDefaultData : Option Nat :=
  if item.default_size = 0 then none else some item.getDefaultDataPtr

def getItemAutoselectData : Option Nat :=
  if item.autoselect_size = 0 then none else some item.getAutoselectDataPtr

def totalSize : Nat := item.data_len + item.default_len + item.autoselect_size

def memcpy (dest : Nat) (data : List UInt8) : Option Item :=
  if dest + data.length ≤ item.capacity then
    some { item with area := copyIn item.area dest (bytesOf data) data.length }
  else none

def memmove (dest src length : Nat) : Option Item :=
  if dest + length ≤ item.capacity ∧ src + length ≤ item.capacity then
    some { item with area := copyIn item.area dest (advance item.area src) length }
  else none

/-- `fresh` are the bytes that `brealloc` finds behind the old ones. -/
def ensureCapacity (fresh : Bytes) : Item :=
  if item.totalSize ≤ item.capacity then item
  else { item with
    area := fun index => if index < item.capacity then item.area index else fresh index
    capacity := item.totalSize }

def setdata (fresh : Bytes) (data : List UInt8) (type : DataType) : Option Item := do
  let old_default_data_pos := item.getDefaultDataPtr
  let others := item.default_size ≠ 0 ∨ item.autoselect_size ≠ 0
  let resized := ensureCapacity { item with
    data_size := data.length
    type := type
    data_len := if others then getAlignSize data.length else data.length } fresh
  let moved ←
    if others then
      resized.memmove resized.getDefaultDataPtr old_default_data_pos
        (resized.default_len + resized.autoselect_size)
    else some resized
  if data.length = 0 then return moved
  else moved.getItemData.bind fun dest => moved.memcpy dest data

def setDefaultData (fresh : Bytes) (data : List UInt8) (type : DataType) : Option Item := do
  let old_autoselect_data := item.getAutoselectDataPtr
  let resized := ensureCapacity { item with
    type := type
    default_size := data.length
    default_len := if item.autoselect_size ≠ 0 then getAlignSize data.length else data.length
    data_len := if item.data_size ≠ 0 then getAlignSize item.data_size else 0 } fresh
  let moved ←
    if resized.autoselect_size ≠ 0 then
      resized.memmove resized.getAutoselectDataPtr old_autoselect_data resized.autoselect_size
    else some resized
  if data.length = 0 then return moved
  else moved.getItemDefaultData.bind fun dest => moved.memcpy dest data

def setAutoselectData (fresh : Bytes) (data : List UInt8) (type : DataType) : Option Item :=
  let resized := ensureCapacity { item with
    autoselect_size := data.length
    type := type
    data_len := if item.data_size ≠ 0 then getAlignSize item.data_size else 0
    default_len := if item.default_size ≠ 0 then getAlignSize item.default_size else 0 } fresh
  if data.length = 0 then some resized
  else resized.getItemAutoselectData.bind fun dest => resized.memcpy dest data

def unsetUserValue : Option Item :=
  if item.data_size = 0 then some item
  else
    let old_non_user_data := item.getDefaultDataPtr
    let emptied := { item with data_size := 0, data_len := 0 }
    if emptied.default_size ≠ 0 ∨ emptied.autoselect_size ≠ 0 then
      emptied.memmove emptied.getDefaultDataPtr old_non_user_data
        (emptied.default_len + emptied.autoselect_size)
    else some emptied

def unsetDefaultValue : Option Item :=
  if item.default_size = 0 then some item
  else
    let old_autoselect_data := item.getAutoselectDataPtr
    let emptied := { item with default_size := 0, default_len := 0 }
    if emptied.autoselect_size ≠ 0 then
      emptied.memmove emptied.getAutoselectDataPtr old_autoselect_data emptied.autoselect_size
    else some emptied

def unsetAutoselectValue : Option Item :=
  if item.autoselect_size = 0 then some item else some { item with autoselect_size := 0 }

/-- `clear_item`. -/
def clear : Option Item :=
  if item.data_len = 0 then some item
  else do
    let size := item.default_len + item.autoselect_size
    let moved ←
      if size ≠ 0 then
        item.getItemData.bind fun ptr => item.memmove ptr (ptr + item.data_len) size
      else some item
    return { moved with data_size := 0, data_len := 0 }

end Item

/-- `mgw_data_item_create`, zeroed by `bzalloc`. -/
def create (data : List UInt8) (type : DataType) (layer : Layer) : Option Item :=
  let item : Item :=
    { type := type
      data_len := if layer = .user then data.length else 0
      data_size := if layer = .user then data.length else 0
      default_len := if layer = .default then data.length else 0
      default_size := if layer = .default then data.length else 0
      autoselect_size := if layer = .autoselect then data.length else 0
      capacity := data.length
      area := fun _ => 0 }
  item.getItemData.bind fun dest => item.memcpy dest data

end Mgw.PackedItem
