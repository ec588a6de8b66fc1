import Mgw.BigEndian

/-!
# The action message format

`AMF_Encode` and `AMF_Decode` of `amf.c` with what they call. An encoder has so much room
left in its buffer. A decoder has the bytes from its pointer on, of which it is told how
many are its own. A number is the bits of a `double`.
-/

namespace Mgw.Amf

open BigEndian

set_option autoImplicit false

def AMF_NUMBER : UInt8 := 0
def AMF_BOOLEAN : UInt8 := 1
def AMF_STRING : UInt8 := 2
def AMF_OBJECT : UInt8 := 3
def AMF_NULL : UInt8 := 5
def AMF_UNDEFINED : UInt8 := 6
def AMF_ECMA_ARRAY : UInt8 := 8
def AMF_OBJECT_END : Nat := 9
def AMF_STRICT_ARRAY : UInt8 := 10
def AMF_DATE : UInt8 := 11
def AMF_LONG_STRING : UInt8 := 12
def AMF_UNSUPPORTED : UInt8 := 13
def AMF_XML_DOC : UInt8 := 15
def AMF_AVMPLUS : UInt8 := 17

mutual

/-- A value of `p_type` with its part of `p_vu`. -/
inductive Value where
  | number (p_number : UInt64)
  | boolean (p_number : Bool)
  | string (p_aval : List UInt8)
  | null
  | object (p_object : Object)
  | ecmaArray (p_object : Object)
  | strictArray (p_object : Object)
  | date (p_number : UInt64) (p_UTCoffset : UInt16)
  | xmlDoc (p_aval : List UInt8)
  | invalid

/-- The properties in `o_props`, first one first. -/
inductive Object where
  | empty
  | prop (p_name : List UInt8) (p_vu : Value) (others : Object)

end

/-- `AMFObjectProperty`. -/
structure Property where
  p_name : List UInt8
  p_vu : Value

/-- `o_num`. -/
def Object.o_num : Object → Nat
  | .empty => 0
  | .prop _ _ others => others.o_num + 1

section Encoding

/-- `AMF_EncodeInt16`, `AMF_EncodeInt24` and `AMF_EncodeInt32`. -/
def encodeInt (width room nVal : Nat) : Option (List UInt8) :=
  if room < width then none else some (beBytes width nVal)

def encodeString (room : Nat) (bv : List UInt8) : Option (List UInt8) :=
  if bv.length < 65536 ∧ room < 1 + 2 + bv.length ∨ room < 1 + 4 + bv.length then none
  else if bv.length < 65536 then
    (encodeInt 2 (room - 1) bv.length).map fun length => AMF_STRING :: length ++ bv
  else (encodeInt 4 (room - 1) bv.length).map fun length => AMF_LONG_STRING :: length ++ bv

def encodeNumber (room : Nat) (dVal : UInt64) : Option (List UInt8) :=
  if room < 1 + 8 then none else some (AMF_NUMBER :: beBytes 8 dVal.toNat)

def encodeBoolean (room : Nat) (bVal : Bool) : Option (List UInt8) :=
  if room < 2 then none else some [AMF_BOOLEAN, if bVal then 1 else 0]

/-- The name, which a null property does not have. -/
def encodeName (p_name : List UInt8) : Value → List UInt8
  | .null => []
  | _ => if p_name.length = 0 then [] else beBytes 2 p_name.length ++ p_name

/-- Whether there is room for the name, of a property that is not null. -/
def nameRoom (room : Nat) (p_name : List UInt8) : Value → Bool
  | .null => true
  | _ => p_name.length + 2 + 1 < room

/-- The loop over the properties, with what is in front of it and behind it. A property
that cannot be encoded ends the loop. -/
def encodeObject (room : Nat) (before : List UInt8) (props : Nat → List UInt8) (marked : Bool) :
    Option (List UInt8) :=
  if room ≤ 4 then none
  else
    let encoded := before ++ props (room - before.length)
    if marked then
      if room - encoded.length ≤ 3 then none else some (encoded ++ beBytes 3 AMF_OBJECT_END)
    else some encoded

mutual

/-- The value behind the name, in `AMFProp_Encode`. -/
def encodeValue (room : Nat) : Value → Option (List UInt8)
  | .number p_number => encodeNumber room p_number
  | .boolean p_number => encodeBoolean room p_number
  | .string p_aval => encodeString room p_aval
  | .null => if room ≤ 1 then none else some [AMF_NULL]
  | .object p_object => encodeObject room [AMF_OBJECT] (encodeProps · p_object) true
  | .ecmaArray p_object =>
      encodeObject room (AMF_ECMA_ARRAY :: beBytes 4 p_object.o_num) (encodeProps · p_object) true
  | .strictArray p_object =>
      encodeObject room (AMF_STRICT_ARRAY :: beBytes 4 p_object.o_num) (encodeProps · p_object) false
  | .date _ _ => none
  | .xmlDoc _ => none
  | .invalid => none

/-- `AMFProp_Encode` of one property after another, as long as it has a result. -/
def encodeProps (room : Nat) : Object → List UInt8
  | .empty => []
  | .prop p_name p_vu others =>
      if nameRoom room p_name p_vu then
        let name := encodeName p_name p_vu
        match encodeValue (room - name.length) p_vu with
        | none => []
        | some value =>
            name ++ value ++ encodeProps (room - (name ++ value).length) others
      else []

end

/-- A name and a value behind it. -/
def encodeNamed (room : Nat) (strName : List UInt8) (value : Value) : Option (List UInt8) :=
  if room < 2 + strName.length then none
  else
    (encodeInt 2 room strName.length).bind fun length =>
      (encodeValue (room - 2 - strName.length) value).map (length ++ strName ++ ·)

def encodeNamedString (room : Nat) (strName strValue : List UInt8) : Option (List UInt8) :=
  encodeNamed room strName (.string strValue)

def encodeNamedNumber (room : Nat) (strName : List UInt8) (dVal : UInt64) : Option (List UInt8) :=
  encodeNamed room strName (.number dVal)

def encodeNamedBoolean (room : Nat) (strName : List UInt8) (bVal : Bool) : Option (List UInt8) :=
  encodeNamed room strName (.boolean bVal)

/-- `AMF_Encode`. -/
def encode (obj : Object) (room : Nat) : Option (List UInt8) := encodeValue room (.object obj)

/-- `AMF_EncodeEcmaArray`. -/
def encodeEcmaArray (obj : Object) (room : Nat) : Option (List UInt8) :=
  encodeValue room (.ecmaArray obj)

end Encoding

section Decoding

/-- A return of `-1`, a read behind the buffer, or a bound on the calls that is too low. -/
inductive DecodeError where
  | failed
  | overrun
  | unfinished
  deriving DecidableEq

/-- Bytes that are looked at before their count is checked. -/
def bytesAt (count : Nat) (pBuffer : List UInt8) : Except DecodeError (List UInt8) :=
  if count ≤ pBuffer.length then .ok (pBuffer.take count) else .error .overrun

/-- `AMF_DecodeInt16`, `AMF_DecodeInt24` and `AMF_DecodeInt32`. -/
def decodeInt (width : Nat) (pBuffer : List UInt8) : Except DecodeError Nat :=
  (bytesAt width pBuffer).map beValue

def decodeNumber (pBuffer : List UInt8) : Except DecodeError UInt64 :=
  (decodeInt 8 pBuffer).map UInt64.ofNat

/-- `AMF_DecodeString` and `AMF_DecodeLongString` with the check of the size, and the size
with what is behind. -/
def decodeString (width : Nat) (pBuffer : List UInt8) (nSize : Int) :
    Except DecodeError (List UInt8 × Int) := do
  let nStringSize ← decodeInt width pBuffer
  if nSize < nStringSize + width then .error .failed
  else do
    let bytes ← bytesAt nStringSize (pBuffer.drop width)
    return (bytes, nSize - (nStringSize + width))

/-- `AMF3_Decode`, with the object and what it returns. -/
abbrev Amf3 := List UInt8 → Int → Except DecodeError (Object × Int)

/-- The name of a property, with what is behind it. -/
def decodeName (bDecodeName : Bool) (pBuffer : List UInt8) (nSize : Int) :
    Except DecodeError (List UInt8 × List UInt8 × Int) :=
  if bDecodeName then
    if nSize < 4 then .error .failed
    else do
      let nNameSize ← decodeInt 2 pBuffer
      if nSize - 2 < nNameSize then .error .failed
      else do
        let name ← bytesAt nNameSize (pBuffer.drop 2)
        return (name, pBuffer.drop (2 + nNameSize), nSize - (2 + nNameSize))
  else .ok ([], pBuffer, nSize)

/-- Whether the end mark is next. -/
def atEnd (pBuffer : List UInt8) (nSize : Int) : Except DecodeError Bool :=
  if 3 ≤ nSize then (decodeInt 3 pBuffer).map (decide <| · = AMF_OBJECT_END) else .ok false

variable (amf3Decode : Amf3)

mutual

/-- The value of a property, with the size that is left behind it. -/
def decodeValue (rounds : Nat) (p_type : UInt8) (pBuffer : List UInt8) (nSize : Int) :
    Except DecodeError (Value × Int) :=
  match rounds with
  | 0 => .error .unfinished
  | rounds + 1 =>
      if p_type = AMF_NUMBER then
        if nSize < 8 then .error .failed
        else (decodeNumber pBuffer).map fun p_number => (.number p_number, nSize - 8)
      else if p_type = AMF_BOOLEAN then
        if nSize < 1 then .error .failed
        else (bytesAt 1 pBuffer).map fun data => (.boolean (data.headD 0 != 0), nSize - 1)
      else if p_type = AMF_STRING then
        (decodeString 2 pBuffer nSize).map fun (p_aval, nSize) => (.string p_aval, nSize)
      else if p_type = AMF_OBJECT then
        (decodeProps rounds pBuffer nSize true).map fun (p_object, left) =>
          (.object p_object, left)
      else if p_type = AMF_NULL ∨ p_type = AMF_UNDEFINED ∨ p_type = AMF_UNSUPPORTED then
        .ok (.null, nSize)
      else if p_type = AMF_ECMA_ARRAY then
        (decodeProps rounds (pBuffer.drop 4) (nSize - 4) true).map fun (p_object, left) =>
          (.ecmaArray p_object, left)
      else if p_type = AMF_STRICT_ARRAY then do
        let nArrayLen ← decodeInt 4 pBuffer
        let (p_object, left) ← decodeArray rounds (UInt32.ofNat nArrayLen).toInt32.toInt.toNat
          (pBuffer.drop 4) (nSize - 4)
        return (.strictArray p_object, left)
      else if p_type = AMF_DATE then
        if nSize < 10 then .error .failed
        else do
          let p_number ← decodeNumber pBuffer
          let p_UTCoffset ← decodeInt 2 (pBuffer.drop 8)
          return (.date p_number (UInt16.ofNat p_UTCoffset), nSize - 10)
      else if p_type = AMF_LONG_STRING then
        (decodeString 4 pBuffer nSize).map fun (p_aval, nSize) => (.string p_aval, nSize)
      else if p_type = AMF_XML_DOC then
        (decodeString 4 pBuffer nSize).map fun (p_aval, nSize) => (.xmlDoc p_aval, nSize)
      else if p_type = AMF_AVMPLUS then
        (amf3Decode pBuffer nSize).map fun (p_object, nRes) => (.object p_object, nSize - nRes)
      else .error .failed

/-- `AMFProp_Decode`, with the property and what it returns. -/
def decodeProp (rounds : Nat) (pBuffer : List UInt8) (nSize : Int) (bDecodeName : Bool) :
    Except DecodeError (Property × Int) :=
  match rounds with
  | 0 => .error .unfinished
  | rounds + 1 =>
      if nSize = 0 then .error .failed
      else do
        let (p_name, afterName, left) ← decodeName bDecodeName pBuffer nSize
        if left = 0 then .error .failed
        else do
          let type ← bytesAt 1 afterName
          let (p_vu, last) ← decodeValue rounds (type.headD 0) (afterName.drop 1) (left - 1)
          return ({ p_name := p_name, p_vu := p_vu }, nSize - last)

/-- `AMF_Decode`, with the object and the size that is left. An error ends the loop, so that
the search for the end mark behind an error is never begun. -/
def decodeProps (rounds : Nat) (pBuffer : List UInt8) (nSize : Int) (bDecodeName : Bool) :
    Except DecodeError (Object × Int) :=
  match rounds with
  | 0 => .error .unfinished
  | rounds + 1 =>
      if nSize ≤ 0 then .ok (.empty, nSize)
      else do
        let ended ← atEnd pBuffer nSize
        if ended then return (.empty, nSize - 3)
        else do
          let (prop, nRes) ← decodeProp rounds pBuffer nSize bDecodeName
          if nSize - nRes < 0 then .error .failed
          else do
            let (others, left) ←
              decodeProps rounds (pBuffer.drop nRes.toNat) (nSize - nRes) bDecodeName
            return (.prop prop.p_name prop.p_vu others, left)

/-- `AMF_DecodeArray` without names. -/
def decodeArray (rounds nArrayLen : Nat) (pBuffer : List UInt8) (nSize : Int) :
    Except DecodeError (Object × Int) :=
  match rounds, nArrayLen with
  | 0, _ => .error .unfinished
  | _ + 1, 0 => .ok (.empty, nSize)
  | rounds + 1, nArrayLen + 1 =>
      if nSize ≤ 0 then .error .failed
      else do
        let (prop, nRes) ← decodeProp rounds pBuffer nSize false
        let (others, left) ← decodeArray rounds nArrayLen (pBuffer.drop nRes.toNat) (nSize - nRes)
        return (.prop prop.p_name prop.p_vu others, left)

end

end Decoding

end Mgw.Amf
