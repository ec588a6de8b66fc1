import Mgw.BigEndian
import Mgw.DataItems
import Mgw.PackedItemLayout

/-!
# The values of an `mgw_data` item

What the typed setters store, and what the typed getters read at a pointer into an
item. A read behind the end of the allocation has no result.
-/

namespace Mgw.DataValues

open BigEndian ByteArea DataItems PackedItem

set_option autoImplicit false

/-- `struct mgw_data_number`; a `double` by its bits. -/
inductive MgwDataNumber where
  | int (int_val : Int64)
  | double (double_val : UInt64)
  deriving DecidableEq

/-- The values that are set. `padding` is behind the type of a number, which lies on the
stack; objects and arrays are pointers. -/
inductive Value where
  | string (val : Name)
  | number (num : MgwDataNumber) (padding : UInt32)
  | boolean (val : Bool)
  | object (obj : UInt64)
  | array (arr : UInt64)
  deriving DecidableEq

def leBytes (width value : Nat) : List UInt8 := (beBytes width value).reverse

def leValue (bytes : List UInt8) : Nat := beValue bytes.reverse

def MgwDataNumber.bytes (padding : UInt32) : MgwDataNumber → List UInt8
  | .int int_val => leBytes 4 1 ++ leBytes 4 padding.toNat ++ leBytes 8 int_val.toUInt64.toNat
  | .double double_val => leBytes 4 2 ++ leBytes 4 padding.toNat ++ leBytes 8 double_val.toNat

namespace Value

def type : Value → DataType
  | .string _ => .string
  | .number _ _ => .number
  | .boolean _ => .boolean
  | .object _ => .object
  | .array _ => .array

def bytes : Value → List UInt8
  | .string val => val.bytes ++ [0]
  | .number num padding => num.bytes padding
  | .boolean val => [if val then 1 else 0]
  | .object obj => leBytes 8 obj.toNat
  | .array arr => leBytes 8 arr.toNat

end Value

section Reads

variable (item : Item) (ptr : Nat)

def readBytes (size : Nat) : Option (List UInt8) :=
  if ptr + size ≤ item.capacity then some (takeBytes (advance item.area ptr) size) else none

/-- The characters up to the end of the string. -/
def readString : Option (List UInt8) :=
  (readBytes item ptr (item.capacity - ptr)).bind fun bytes =>
    if 0 ∈ bytes then some (bytes.takeWhile (· ≠ 0)) else none

/-- Whatever is not `MGW_DATA_NUM_INT` is read as a `double`. -/
def readNumber : Option MgwDataNumber :=
  (readBytes item ptr 16).map fun bytes =>
    let payload := UInt64.ofNat (leValue (bytes.drop 8))
    if leValue (bytes.take 4) = 1 then .int payload.toInt64 else .double payload

def readBool : Option Bool := (readBytes item ptr 1).map fun bytes => bytes ≠ [0]

def readPointer : Option UInt64 :=
  (readBytes item ptr 8).map fun bytes => UInt64.ofNat (leValue bytes)

end Reads

/-- `item_int` and `item_double`, by the conversions of the two kinds of numbers. -/
def MgwDataNumber.asInt (toInt : UInt64 → Int64) : MgwDataNumber → Int64
  | .int int_val => int_val
  | .double double_val => toInt double_val

def MgwDataNumber.asDouble (toDouble : Int64 → UInt64) : MgwDataNumber → UInt64
  | .int int_val => toDouble int_val
  | .double double_val => double_val

/-- The getters of all types have one form: nothing is returned for an item that is not
there or has another type, or where there is no pointer. -/
def dataItemGet {α : Type} (type : DataType) (nothing : α) (read : Item → Nat → Option α)
    (getData : Item → Option Nat) (item : Option Item) : Option α :=
  match item with
  | none => some nothing
  | some item =>
      if item.type = type then
        match getData item with
        | none => some nothing
        | some ptr => read item ptr
      else some nothing

theorem le_bytes_length (width value : Nat) : (leBytes width value).length = width := by
  rw [leBytes, List.length_reverse, be_bytes_length]

theorem le_value_bytes {width value : Nat} (bound : value < 256 ^ width) :
    leValue (leBytes width value) = value := by
  rw [leValue, leBytes, List.reverse_reverse, be_value_of_lt bound]

theorem number_bytes_length (num : MgwDataNumber) (padding : UInt32) :
    (num.bytes padding).length = 16 := by
  cases num with
  | int int_val => simp [MgwDataNumber.bytes, le_bytes_length]
  | double double_val => simp [MgwDataNumber.bytes, le_bytes_length]

theorem value_bytes_filled (value : Value) : value.bytes ≠ [] := by
  intro empty
  have length := congrArg List.length empty
  cases value with
  | string val => simp [Value.bytes] at length
  | number num padding => simp [Value.bytes, number_bytes_length] at length
  | boolean val => simp [Value.bytes] at length
  | object obj => simp [Value.bytes, le_bytes_length] at length
  | array arr => simp [Value.bytes, le_bytes_length] at length

/-- The bytes of the value are behind the pointer. -/
def Stored (item : Item) (ptr : Nat) (bytes : List UInt8) : Prop :=
  ptr + bytes.length ≤ item.capacity ∧ takeBytes (advance item.area ptr) bytes.length = bytes

section Stored

variable {item : Item} {ptr : Nat}

theorem read_stored {bytes : List UInt8} {size : Nat} (length : bytes.length = size)
    (stored : Stored item ptr bytes) : readBytes item ptr size = some bytes := by
  rw [readBytes, ← length, if_pos stored.1, stored.2]

theorem read_string_stored {val : Name} (stored : Stored item ptr (val.bytes ++ [0])) :
    readString item ptr = some val.bytes := by
  obtain ⟨inside, bytes⟩ := stored
  have split : item.capacity - ptr =
      (val.bytes ++ [0]).length + (item.capacity - ptr - (val.bytes ++ [0]).length) := by omega
  rw [readString, readBytes, if_pos (by omega), Option.bind_some, split, take_bytes_add, bytes,
    if_pos (by simp), List.append_assoc]
  have text : ∀ byte ∈ val.bytes, decide (byte ≠ 0) = true := by
    intro byte member
    apply decide_eq_true
    intro zero
    rw [zero] at member
    exact val.ended member
  rw [List.takeWhile_append_of_pos text, List.singleton_append,
    List.takeWhile_cons_of_neg (by simp), List.append_nil]

theorem number_fields (tag padding value : Nat) :
    (leBytes 4 tag ++ leBytes 4 padding ++ leBytes 8 value).drop 8 = leBytes 8 value :=
  List.drop_left' (by rw [List.length_append, le_bytes_length, le_bytes_length])

theorem number_type (tag padding value : Nat) :
    (leBytes 4 tag ++ leBytes 4 padding ++ leBytes 8 value).take 4 = leBytes 4 tag := by
  rw [List.append_assoc]
  exact List.take_left' (le_bytes_length 4 tag)

theorem read_number_stored {num : MgwDataNumber} {padding : UInt32}
    (stored : Stored item ptr (num.bytes padding)) : readNumber item ptr = some num := by
  rw [readNumber, read_stored (number_bytes_length num padding) stored, Option.map_some]
  apply congrArg some
  cases num with
  | int int_val =>
      rw [MgwDataNumber.bytes, number_fields, number_type, le_value_bytes (UInt64.toNat_lt _),
        le_value_bytes (by decide), UInt64.ofNat_toNat]
      exact congrArg MgwDataNumber.int (Int64.toInt64_toUInt64 int_val)
  | double double_val =>
      rw [MgwDataNumber.bytes, number_fields, number_type, le_value_bytes (UInt64.toNat_lt _),
        le_value_bytes (by decide), UInt64.ofNat_toNat]
      rfl

theorem read_bool_stored {val : Bool} (stored : Stored item ptr [if val then 1 else 0]) :
    readBool item ptr = some val := by
  have bytes : readBytes item ptr 1 = some [if val then 1 else 0] := read_stored rfl stored
  rw [readBool, bytes, Option.map_some]
  cases val with
  | false => rfl
  | true => rfl

theorem read_pointer_stored {pointer : UInt64}
    (stored : Stored item ptr (leBytes 8 pointer.toNat)) :
    readPointer item ptr = some pointer := by
  rw [readPointer, read_stored (le_bytes_length _ _) stored, Option.map_some,
    le_value_bytes pointer.toNat_lt, UInt64.ofNat_toNat]

/-- A layer is stored where its pointer says. -/
theorem layer_stored (laid : Laid item) {layer : Layer} {bytes : List UInt8}
    (found : item.layer layer = some bytes) : Stored item (item.pointer layer) bytes := by
  unfold Item.layer at found
  split_ifs at found
  have same := Option.some.inj found
  have length : bytes.length = item.size layer := by
    rw [← same, take_bytes_length]
  constructor
  · have fits := laid.fits
    have user := laid.user
    have default := laid.default
    unfold Item.totalSize at fits
    rw [length]
    cases layer with
    | user =>
        change 0 + item.data_size ≤ item.capacity
        omega
    | default =>
        change item.data_len + item.default_size ≤ item.capacity
        omega
    | autoselect =>
        change item.data_len + item.default_len + item.autoselect_size ≤ item.capacity
        omega
  · rw [length]
    exact same

end Stored

/-- A typed getter: its type, what it returns for nothing, how it reads a pointer and
what it returns for a value of its type. -/
structure Getter (α : Type) where
  type : DataType
  nothing : α
  read : Item → Nat → Option α
  payload : Value → α
  reads : ∀ item ptr value, value.type = type → Stored item ptr value.bytes →
    read item ptr = some (payload value)

/-- `data_item_get_string`. -/
def stringGetter : Getter (List UInt8) where
  type := .string
  nothing := []
  read := readString
  payload
    | .string val => val.bytes
    | _ => []
  reads := by
    intro item ptr value type stored
    cases value with
    | string val => exact read_string_stored stored
    | number num padding => contradiction
    | boolean val => contradiction
    | object obj => contradiction
    | array arr => contradiction

/-- `data_item_get_int` and `data_item_get_double`, by what they do with the number. -/
def numberGetter {α : Type} (nothing : α) (convert : MgwDataNumber → α) : Getter α where
  type := .number
  nothing := nothing
  read item ptr := (readNumber item ptr).map convert
  payload
    | .number num _ => convert num
    | _ => nothing
  reads := by
    intro item ptr value type stored
    cases value with
    | string val => contradiction
    | number num padding => rw [read_number_stored stored, Option.map_some]
    | boolean val => contradiction
    | object obj => contradiction
    | array arr => contradiction

def intGetter (toInt : UInt64 → Int64) : Getter Int64 :=
  numberGetter 0 (MgwDataNumber.asInt toInt)

def doubleGetter (toDouble : Int64 → UInt64) : Getter UInt64 :=
  numberGetter 0 (MgwDataNumber.asDouble toDouble)

/-- `data_item_get_bool`. -/
def boolGetter : Getter Bool where
  type := .boolean
  nothing := false
  read := readBool
  payload
    | .boolean val => val
    | _ => false
  reads := by
    intro item ptr value type stored
    cases value with
    | string val => contradiction
    | number num padding => contradiction
    | boolean val => exact read_bool_stored stored
    | object obj => contradiction
    | array arr => contradiction

/-- `data_item_get_obj`, with the null pointer for nothing. -/
def objGetter : Getter UInt64 where
  type := .object
  nothing := 0
  read := readPointer
  payload
    | .object obj => obj
    | _ => 0
  reads := by
    intro item ptr value type stored
    cases value with
    | string val => contradiction
    | number num padding => contradiction
    | boolean val => contradiction
    | object obj => exact read_pointer_stored stored
    | array arr => contradiction

/-- `data_item_get_array`. -/
def arrayGetter : Getter UInt64 where
  type := .array
  nothing := 0
  read := readPointer
  payload
    | .array arr => arr
    | _ => 0
  reads := by
    intro item ptr value type stored
    cases value with
    | string val => contradiction
    | number num padding => contradiction
    | boolean val => contradiction
    | object obj => contradiction
    | array arr => exact read_pointer_stored stored

end Mgw.DataValues
