import Mgw.DataItems

/-!
# JSON values and the data made of them

A JSON value keeps the members of its objects in the order of their insertion, as jansson
iterates over them. A new `mgw_data` has one owner, so that it is a tree of items here.
-/

namespace Mgw.DataJson

open DataItems

set_option autoImplicit false

/-- Integers have 64 bits; a real is a `double` by its bits. -/
inductive Json where
  | object (members : List (Name × Json))
  | array (elements : List Json)
  | string (value : Name)
  | integer (value : Int64)
  | real (value : UInt64)
  | boolean (value : Bool)
  | null

/-- `struct mgw_data_number`. -/
inductive Number where
  | int (val : Int64)
  | double (val : UInt64)
  deriving DecidableEq

/-- An item by its type and its user value. -/
inductive Item where
  | string (val : Name)
  | number (num : Number)
  | boolean (val : Bool)
  | object (obj : List (Name × Item))
  | array (objects : List (List (Name × Item)))
  | unset

abbrev Members := List (Name × Json)

abbrev Data := List (Name × Item)

/-- `mgw_data_create`. -/
def mgwDataCreate : Data := []

/-- `set_item`: `get_item`, then `set_item_data`. -/
def setItem (data : Data) (name : Name) (item : Item) : Data :=
  match getItem name data with
  | none => linkItem (name, item) data
  | some _ => replaceItem name item data

mutual

def mgwDataAddJsonObjectData (data : Data) : Members → Data
  | [] => data
  | (itemKey, jitem) :: rest =>
      mgwDataAddJsonObjectData (mgwDataAddJsonItem data itemKey jitem) rest

/-- The loop of `mgw_data_add_json_array`. -/
def addJsonElements (array : List Data) : List Json → List Data
  | [] => array
  | .object members :: rest =>
      addJsonElements (array ++ [mgwDataAddJsonObjectData mgwDataCreate members]) rest
  | _ :: rest => addJsonElements array rest

/-- With `mgw_data_add_json_object` and `mgw_data_add_json_array`. -/
def mgwDataAddJsonItem (data : Data) (key : Name) : Json → Data
  | .object members =>
      setItem data key (.object (mgwDataAddJsonObjectData mgwDataCreate members))
  | .array elements => setItem data key (.array (addJsonElements [] elements))
  | .string value => setItem data key (.string value)
  | .integer value => setItem data key (.number (.int value))
  | .real value => setItem data key (.number (.double value))
  | .boolean true => setItem data key (.boolean true)
  | .boolean false => setItem data key (.boolean false)
  | .null => data

end

def Utf8 (name : Name) : Prop := name.bytes.toByteArray.IsValidUTF8

instance (name : Name) : Decidable (Utf8 name) :=
  inferInstanceAs (Decidable name.bytes.toByteArray.IsValidUTF8)

/-- Neither an infinity nor a NaN. -/
def Finite (value : UInt64) : Prop := (value >>> 52) &&& 0x7FF ≠ 0x7FF

instance (value : UInt64) : Decidable (Finite value) :=
  inferInstanceAs (Decidable (_ ≠ _))

/-- `json_string`, null for what is not UTF-8. -/
def jsonString (value : Name) : Option Json :=
  if Utf8 value then some (.string value) else none

/-- `json_real`, null for what is not finite. -/
def jsonReal (value : UInt64) : Option Json :=
  if Finite value then some (.real value) else none

/-- `json_object_set_new`, which fails for a null value and for a key that is not UTF-8. -/
def jsonObjectSetNew (json : Members) (key : Name) : Option Json → Members
  | none => json
  | some value =>
      if Utf8 key then
        match getItem key json with
        | none => json ++ [(key, value)]
        | some _ => replaceItem key value json
      else json

def setJsonString (json : Members) (name : Name) (val : Name) : Members :=
  jsonObjectSetNew json name (jsonString val)

def setJsonNumber (json : Members) (name : Name) : Number → Members
  | .int val => jsonObjectSetNew json name (some (.integer val))
  | .double val => jsonObjectSetNew json name (jsonReal val)

def setJsonBool (json : Members) (name : Name) (val : Bool) : Members :=
  jsonObjectSetNew json name (some (.boolean val))

mutual

/-- The loop of `mgw_data_to_json`. -/
def toJsonItems (json : Members) : Data → Members
  | [] => json
  | (name, item) :: rest => toJsonItems (setJsonItem json name item) rest

/-- With `set_json_obj` and `set_json_array`. -/
def setJsonItem (json : Members) (name : Name) : Item → Members
  | .string val => setJsonString json name val
  | .number num => setJsonNumber json name num
  | .boolean val => setJsonBool json name val
  | .object obj => jsonObjectSetNew json name (some (.object (toJsonItems [] obj)))
  | .array objects => jsonObjectSetNew json name (some (.array (setJsonElements [] objects)))
  | .unset => json

/-- The loop of `set_json_array`. -/
def setJsonElements (jarray : List Json) : List Data → List Json
  | [] => jarray
  | obj :: rest => setJsonElements (jarray ++ [.object (toJsonItems [] obj)]) rest

end

def mgwDataToJson (data : Data) : Members := toJsonItems [] data

/-- A JSON object becomes an `mgw_data` and a JSON object again. -/
def roundTrip (members : Members) : Members :=
  mgwDataToJson (mgwDataAddJsonObjectData mgwDataCreate members)

end Mgw.DataJson
