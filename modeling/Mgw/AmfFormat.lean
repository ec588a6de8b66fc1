import Mgw.Amf
import Mathlib.Tactic.SplitIfs

/-!
# The bytes of values in the action message format

With room to spare an encoder writes the bytes that stand for a value, and a decoder makes
the value of them.
-/

namespace Mgw.Amf

open BigEndian

set_option autoImplicit false

section Format

/-- The type in front of a value. -/
def Value.typeByte : Value → UInt8
  | .number _ => AMF_NUMBER
  | .boolean _ => AMF_BOOLEAN
  | .string p_aval => if p_aval.length < 65536 then AMF_STRING else AMF_LONG_STRING
  | .null => AMF_NULL
  | .object _ => AMF_OBJECT
  | .ecmaArray _ => AMF_ECMA_ARRAY
  | .strictArray _ => AMF_STRICT_ARRAY
  | .date _ _ => AMF_DATE
  | .xmlDoc _ => AMF_XML_DOC
  | .invalid => 255

mutual

/-- The bytes of a value behind its type. -/
def Value.content : Value → List UInt8
  | .number p_number => beBytes 8 p_number.toNat
  | .boolean p_number => [if p_number then 1 else 0]
  | .string p_aval =>
      if p_aval.length < 65536 then beBytes 2 p_aval.length ++ p_aval
      else beBytes 4 p_aval.length ++ p_aval
  | .object p_object => p_object.bytes ++ beBytes 3 AMF_OBJECT_END
  | .ecmaArray p_object =>
      beBytes 4 p_object.o_num ++ (p_object.bytes ++ beBytes 3 AMF_OBJECT_END)
  | .strictArray p_object => beBytes 4 p_object.o_num ++ p_object.bytes
  | _ => []

def Object.bytes : Object → List UInt8
  | .empty => []
  | .prop p_name p_vu others =>
      encodeName p_name p_vu ++ (p_vu.typeByte :: p_vu.content) ++ others.bytes

end

def Value.bytes (value : Value) : List UInt8 := value.typeByte :: value.content

mutual

/-- A value that can be encoded, and told apart when it is read. -/
def Value.Fits : Value → Prop
  | .number _ => True
  | .boolean _ => True
  | .string p_aval => p_aval.length < 4294967296
  | .null => True
  | .object p_object => p_object.Fits true
  | .ecmaArray p_object => p_object.o_num < 4294967296 ∧ p_object.Fits true
  | .strictArray p_object => p_object.o_num < 2147483648 ∧ p_object.Fits false
  | _ => False

/-- Properties that all have names, and are then not null, or all have none. -/
def Object.Fits (named : Bool) : Object → Prop
  | .empty => True
  | .prop p_name p_vu others =>
      (if named then (0 < p_name.length ∧ p_name.length < 65536) ∧ p_vu ≠ .null else p_name = []) ∧
        p_vu.Fits ∧ others.Fits named

end

end Format

section Encoding

theorem encode_string_eq {room : Nat} {bv : List UInt8}
    (enough : (Value.string bv).bytes.length + 3 < room) :
    encodeString room bv = some (Value.string bv).bytes := by
  unfold encodeString encodeInt
  rw [Value.bytes, Value.typeByte, Value.content] at enough ⊢
  by_cases short : bv.length < 65536
  · simp only [if_pos short, List.length_cons, List.length_append, be_bytes_length] at enough ⊢
    rw [if_neg (by omega), if_neg (by omega)]
    rfl
  · simp only [if_neg short, List.length_cons, List.length_append, be_bytes_length] at enough ⊢
    rw [if_neg (by omega), if_neg (by omega)]
    rfl

theorem name_room {room : Nat} {p_name : List UInt8} {p_vu : Value}
    (enough : (encodeName p_name p_vu).length + p_vu.bytes.length + 3 < room) :
    nameRoom room p_name p_vu = true := by
  have length : p_vu ≠ .null → p_name.length + 3 < room := by
    intro some
    have name : encodeName p_name p_vu =
        if p_name.length = 0 then [] else beBytes 2 p_name.length ++ p_name := by
      cases p_vu <;> first | rfl | contradiction
    rw [name] at enough
    split_ifs at enough with none
    · omega
    · rw [List.length_append, be_bytes_length] at enough
      omega
  cases p_vu <;> first | rfl | exact decide_eq_true (length (by simp))

/-- An object with its end mark, behind the bytes in front of its properties. -/
theorem encode_object_marked {room : Nat} {before bytes : List UInt8} {props : Nat → List UInt8}
    (encoded : props (room - before.length) = bytes) (begun : 0 < before.length)
    (enough : before.length + bytes.length + 3 < room) :
    encodeObject room before props true = some (before ++ bytes ++ beBytes 3 AMF_OBJECT_END) := by
  rw [encodeObject, if_neg (by omega), encoded]
  dsimp only
  rw [if_pos rfl, if_neg (by rw [List.length_append]; omega)]

theorem encode_object_unmarked {room : Nat} {before bytes : List UInt8} {props : Nat → List UInt8}
    (encoded : props (room - before.length) = bytes) (enough : 4 < room) :
    encodeObject room before props false = some (before ++ bytes) := by
  rw [encodeObject, if_neg (by omega), encoded]
  rfl

mutual

theorem encode_value_eq : (value : Value) → value.Fits → (room : Nat) →
    value.bytes.length + 3 < room → encodeValue room value = some value.bytes
  | .number p_number, _, room, enough => by
      have length : (Value.number p_number).bytes.length = 9 := by
        simp [Value.bytes, Value.content]
      rw [encodeValue, encodeNumber, if_neg (by omega)]
      rfl
  | .boolean p_number, _, room, enough => by
      have length : (Value.boolean p_number).bytes.length = 2 := rfl
      rw [encodeValue, encodeBoolean, if_neg (by omega)]
      rfl
  | .string p_aval, _, room, enough => by
      rw [encodeValue]
      exact encode_string_eq enough
  | .null, _, room, enough => by
      rw [encodeValue, if_neg (by omega)]
      rfl
  | .object p_object, fits, room, enough => by
      have length : (Value.object p_object).bytes.length = p_object.bytes.length + 4 := by
        simp [Value.bytes, Value.content]
      have before : [AMF_OBJECT].length = 1 := rfl
      rw [encodeValue, encode_object_marked (encode_props_eq p_object true fits _ (by omega))
        (by omega) (by omega)]
      simp [Value.bytes, Value.content, Value.typeByte]
  | .ecmaArray p_object, fits, room, enough => by
      have length : (Value.ecmaArray p_object).bytes.length = p_object.bytes.length + 8 := by
        simp [Value.bytes, Value.content]
        omega
      have before : (AMF_ECMA_ARRAY :: beBytes 4 p_object.o_num).length = 5 := by simp
      rw [encodeValue, encode_object_marked (encode_props_eq p_object true fits.2 _ (by omega))
        (by omega) (by omega)]
      simp [Value.bytes, Value.content, Value.typeByte]
  | .strictArray p_object, fits, room, enough => by
      have length : (Value.strictArray p_object).bytes.length = p_object.bytes.length + 5 := by
        simp [Value.bytes, Value.content]
        omega
      have before : (AMF_STRICT_ARRAY :: beBytes 4 p_object.o_num).length = 5 := by simp
      rw [encodeValue, encode_object_unmarked (encode_props_eq p_object false fits.2 _ (by omega))
        (by omega)]
      simp [Value.bytes, Value.content, Value.typeByte]

theorem encode_props_eq : (obj : Object) → (named : Bool) → obj.Fits named → (room : Nat) →
    obj.bytes.length + 3 < room → encodeProps room obj = obj.bytes
  | .empty, _, _, _, _ => by
      rw [encodeProps]
      rfl
  | .prop p_name p_vu others, named, fits, room, enough => by
      have length : (Object.prop p_name p_vu others).bytes.length =
          (encodeName p_name p_vu).length + p_vu.bytes.length + others.bytes.length := by
        rw [Object.bytes, List.length_append, List.length_append]
        rfl
      have front : (encodeName p_name p_vu ++ p_vu.bytes).length =
          (encodeName p_name p_vu).length + p_vu.bytes.length := List.length_append
      rw [encodeProps, if_pos (name_room (by omega))]
      dsimp only
      rw [encode_value_eq p_vu fits.2.1 _ (by omega)]
      dsimp only
      rw [encode_props_eq others named fits.2.2 _ (by omega)]
      rfl

end

end Encoding

section Reads

theorem bytes_at_append (bytes rest : List UInt8) :
    bytesAt bytes.length (bytes ++ rest) = .ok bytes := by
  rw [bytesAt, if_pos (by rw [List.length_append]; omega), List.take_left]

theorem decode_int_append {width value : Nat} (small : value < 256 ^ width) (rest : List UInt8) :
    decodeInt width (beBytes width value ++ rest) = .ok value := by
  have taken := bytes_at_append (beBytes width value) rest
  rw [be_bytes_length] at taken
  rw [decodeInt, taken]
  exact congrArg Except.ok (be_value_of_lt small)

theorem decode_number_append (p_number : UInt64) (rest : List UInt8) :
    decodeNumber (beBytes 8 p_number.toNat ++ rest) = .ok p_number := by
  rw [decodeNumber, decode_int_append (show p_number.toNat < 256 ^ 8 from p_number.toNat_lt)]
  exact congrArg Except.ok UInt64.ofNat_toNat

theorem decode_string_append {width : Nat} {p_aval : List UInt8}
    (small : p_aval.length < 256 ^ width) {nSize : Int}
    (enough : (p_aval.length : Int) + width ≤ nSize) (rest : List UInt8) :
    decodeString width (beBytes width p_aval.length ++ p_aval ++ rest) nSize =
      .ok (p_aval, nSize - (p_aval.length + width)) := by
  have behind : (beBytes width p_aval.length ++ (p_aval ++ rest)).drop width = p_aval ++ rest :=
    List.drop_left' (be_bytes_length width _)
  rw [List.append_assoc, decodeString, decode_int_append small]
  change (if nSize < (p_aval.length : Int) + width then _ else _) = _
  rw [if_neg (by omega), behind, bytes_at_append]
  rfl

theorem decode_name_append {p_name : List UInt8} (small : p_name.length < 65536) {nSize : Int}
    (enough : (p_name.length : Int) + 2 ≤ nSize) (least : 4 ≤ nSize) (rest : List UInt8) :
    decodeName true (beBytes 2 p_name.length ++ p_name ++ rest) nSize =
      .ok (p_name, rest, nSize - (2 + p_name.length)) := by
  have behind : (beBytes 2 p_name.length ++ (p_name ++ rest)).drop 2 = p_name ++ rest :=
    List.drop_left' (be_bytes_length 2 _)
  have after : (beBytes 2 p_name.length ++ (p_name ++ rest)).drop (2 + p_name.length) = rest := by
    rw [← List.drop_drop, behind, List.drop_left]
  rw [List.append_assoc, decodeName, if_pos rfl, if_neg (by omega), decode_int_append small]
  change (if nSize - 2 < (p_name.length : Int) then _ else _) = _
  rw [if_neg (by omega), behind, bytes_at_append, after]
  rfl

end Reads

section Decoding

variable (amf3Decode : Amf3)

/-- A property is decoded when its value is. -/
theorem decode_prop {rounds : Nat} {bDecodeName : Bool} {p_name name content rest : List UInt8}
    {type : UInt8} {p_vu : Value} {nSize left last : Int}
    (named : decodeName bDecodeName (name ++ (type :: content ++ rest)) nSize =
      .ok (p_name, type :: content ++ rest, left))
    (some : nSize ≠ 0) (behind : left ≠ 0)
    (value : decodeValue amf3Decode rounds type (content ++ rest) (left - 1) = .ok (p_vu, last)) :
    decodeProp amf3Decode (rounds + 1) (name ++ (type :: content ++ rest)) nSize bDecodeName =
      .ok (⟨p_name, p_vu⟩, nSize - last) := by
  have first : bytesAt 1 (type :: content ++ rest) = .ok [type] :=
    bytes_at_append [type] (content ++ rest)
  rw [decodeProp, if_neg some, named]
  change (if left = 0 then _ else _) = _
  rw [if_neg behind, first]
  change (decodeValue amf3Decode rounds type (content ++ rest) (left - 1)).bind _ = _
  rw [value]
  rfl

theorem decode_props_end {rounds : Nat} {nSize : Int} (enough : 3 ≤ nSize) (rest : List UInt8)
    (bDecodeName : Bool) :
    decodeProps amf3Decode (rounds + 1) (beBytes 3 AMF_OBJECT_END ++ rest) nSize bDecodeName =
      .ok (.empty, nSize - 3) := by
  rw [decodeProps, if_neg (by omega), atEnd, if_pos enough,
    decode_int_append (show AMF_OBJECT_END < 256 ^ 3 by decide)]
  rfl

theorem decode_props_prop {rounds nMark : Nat} {pBuffer : List UInt8} {nSize nRes : Int}
    {bDecodeName : Bool} {prop : Property} (some : 0 < nSize)
    (mark : 3 ≤ nSize → decodeInt 3 pBuffer = .ok nMark) (goes : nMark ≠ AMF_OBJECT_END)
    (first : decodeProp amf3Decode rounds pBuffer nSize bDecodeName = .ok (prop, nRes))
    (within : nRes ≤ nSize) :
    decodeProps amf3Decode (rounds + 1) pBuffer nSize bDecodeName =
      (decodeProps amf3Decode rounds (pBuffer.drop nRes.toNat) (nSize - nRes) bDecodeName).map
        fun (others, left) => (.prop prop.p_name prop.p_vu others, left) := by
  have ended : atEnd pBuffer nSize = .ok false := by
    rw [atEnd]
    split_ifs with enough
    · rw [mark enough]
      exact congrArg Except.ok (decide_eq_false goes)
    · rfl
  rw [decodeProps, if_neg (by omega), ended]
  change (decodeProp amf3Decode rounds pBuffer nSize bDecodeName).bind _ = _
  rw [first]
  change (if nSize - nRes < 0 then _ else _) = _
  rw [if_neg (by omega)]
  cases decodeProps amf3Decode rounds (pBuffer.drop nRes.toNat) (nSize - nRes) bDecodeName <;> rfl

theorem object_bytes (p_name : List UInt8) (p_vu : Value) (others : Object) :
    (Object.prop p_name p_vu others).bytes =
      encodeName p_name p_vu ++ p_vu.bytes ++ others.bytes := by
  rw [Object.bytes]
  rfl

theorem encode_name_eq {p_name : List UInt8} {p_vu : Value} (some : 0 < p_name.length)
    (notNull : p_vu ≠ .null) : encodeName p_name p_vu = beBytes 2 p_name.length ++ p_name := by
  have there : ¬p_name.length = 0 := by omega
  cases p_vu <;> first | exact if_neg there | contradiction

theorem encode_name_nil (p_vu : Value) : encodeName [] p_vu = [] := by
  cases p_vu <;> rfl

/-- No name starts like the end mark. -/
theorem name_mark {p_name : List UInt8} (some : 0 < p_name.length) (small : p_name.length < 65536)
    (rest : List UInt8) :
    ∃ nMark, decodeInt 3 (beBytes 2 p_name.length ++ p_name ++ rest) = .ok nMark ∧
      nMark ≠ AMF_OBJECT_END := by
  obtain ⟨first, others, rfl⟩ := List.exists_cons_of_length_pos some
  have length : (beBytes 2 (first :: others).length ++ [first]).length = 3 := by simp
  have front : beBytes 2 (first :: others).length ++ first :: others ++ rest =
      (beBytes 2 (first :: others).length ++ [first]) ++ (others ++ rest) := by
    simp
  have taken := bytes_at_append (beBytes 2 (first :: others).length ++ [first]) (others ++ rest)
  rw [length] at taken
  refine ⟨_, by rw [decodeInt, front, taken]; rfl, ?_⟩
  rw [be_value_append, be_value_of_lt small]
  simp only [AMF_OBJECT_END, List.length_cons]
  omega

/-- The count of an array with names is not looked at. -/
theorem decode_counted {rounds : Nat} {count bytes : List UInt8} {nSize left : Int} {obj : Object}
    (length : count.length = 4)
    (props : decodeProps amf3Decode rounds bytes (nSize - 4) true = .ok (obj, left)) :
    decodeValue amf3Decode (rounds + 1) AMF_ECMA_ARRAY (count ++ bytes) nSize =
      .ok (.ecmaArray obj, left) := by
  rw [decodeValue, if_neg (by decide), if_neg (by decide), if_neg (by decide), if_neg (by decide),
    if_neg (by decide), if_pos rfl, List.drop_left' length, props]
  rfl

mutual

theorem decode_value : (value : Value) → value.Fits → (rounds : Nat) → (rest : List UInt8) →
    (nSize : Int) → 2 * value.bytes.length ≤ rounds → (value.bytes.length : Int) ≤ nSize + 1 →
    decodeValue amf3Decode rounds value.typeByte (value.content ++ rest) nSize =
      .ok (value, nSize + 1 - value.bytes.length)
  | .number p_number, _, rounds + 1, rest, nSize, _, enough => by
      have length : (Value.number p_number).bytes.length = 9 := by
        simp [Value.bytes, Value.content]
      rw [length] at enough ⊢
      rw [Value.typeByte, Value.content, decodeValue, if_pos rfl, if_neg (by omega),
        decode_number_append]
      simp [Except.map]
      omega
  | .boolean p_number, _, rounds + 1, rest, nSize, _, enough => by
      have length : (Value.boolean p_number).bytes.length = 2 := rfl
      have read := bytes_at_append [if p_number then (1 : UInt8) else 0] rest
      have same : ((if p_number then (1 : UInt8) else 0) != 0) = p_number := by
        cases p_number <;> rfl
      rw [length] at enough ⊢
      rw [Value.typeByte, Value.content, decodeValue, if_neg (by decide), if_pos rfl,
        if_neg (by omega), show 1 = [if p_number then (1 : UInt8) else 0].length from rfl, read]
      simp [Except.map, same]
      omega
  | .string p_aval, fits, rounds + 1, rest, nSize, _, enough => by
      by_cases short : p_aval.length < 65536
      · have type : (Value.string p_aval).typeByte = AMF_STRING := if_pos short
        have content : (Value.string p_aval).content = beBytes 2 p_aval.length ++ p_aval := by
          rw [Value.content, if_pos short]
        have length : (Value.string p_aval).bytes.length = p_aval.length + 3 := by
          rw [Value.bytes, content, List.length_cons, List.length_append, be_bytes_length]
          omega
        rw [length] at enough ⊢
        rw [type, content, decodeValue, if_neg (by decide), if_neg (by decide), if_pos rfl,
          decode_string_append (show p_aval.length < 256 ^ 2 from short) (by omega)]
        simp [Except.map]
        omega
      · have type : (Value.string p_aval).typeByte = AMF_LONG_STRING := if_neg short
        have content : (Value.string p_aval).content = beBytes 4 p_aval.length ++ p_aval := by
          rw [Value.content, if_neg short]
        have length : (Value.string p_aval).bytes.length = p_aval.length + 5 := by
          rw [Value.bytes, content, List.length_cons, List.length_append, be_bytes_length]
          omega
        rw [length] at enough ⊢
        rw [type, content, decodeValue, if_neg (by decide), if_neg (by decide), if_neg (by decide),
          if_neg (by decide), if_neg (by decide), if_neg (by decide), if_neg (by decide),
          if_neg (by decide), if_pos rfl,
          decode_string_append (show p_aval.length < 256 ^ 4 from fits) (by omega)]
        simp [Except.map]
        omega
  | .null, _, rounds + 1, rest, nSize, _, enough => by
      rw [Value.typeByte, decodeValue, if_neg (by decide), if_neg (by decide), if_neg (by decide),
        if_neg (by decide), if_pos (by decide)]
      simp [Value.bytes, Value.content]
  | .object p_object, fits, rounds + 1, rest, nSize, bound, enough => by
      have length : (Value.object p_object).bytes.length = p_object.bytes.length + 4 := by
        simp [Value.bytes, Value.content]
      rw [length] at bound enough ⊢
      rw [Value.typeByte, Value.content, List.append_assoc, decodeValue, if_neg (by decide),
        if_neg (by decide), if_neg (by decide), if_pos rfl,
        decode_named p_object fits rounds rest nSize (by omega) (by omega)]
      simp [Except.map]
      omega
  | .ecmaArray p_object, fits, rounds + 1, rest, nSize, bound, enough => by
      have length : (Value.ecmaArray p_object).bytes.length = p_object.bytes.length + 8 := by
        simp [Value.bytes, Value.content]
        omega
      rw [length] at bound enough ⊢
      rw [Value.typeByte, Value.content, List.append_assoc, List.append_assoc,
        decode_counted amf3Decode (be_bytes_length 4 _) (decode_named p_object fits.2 rounds rest
          (nSize - 4) (by omega) (by omega))]
      simp only [Except.ok.injEq, Prod.mk.injEq, true_and]
      omega
  | .strictArray p_object, fits, rounds + 1, rest, nSize, bound, enough => by
      have length : (Value.strictArray p_object).bytes.length = p_object.bytes.length + 5 := by
        simp [Value.bytes, Value.content]
        omega
      have behind : (beBytes 4 p_object.o_num ++ (p_object.bytes ++ rest)).drop 4 =
          p_object.bytes ++ rest :=
        List.drop_left' (be_bytes_length 4 _)
      have count : (UInt32.ofNat p_object.o_num).toInt32.toInt.toNat = p_object.o_num := by
        rw [UInt32.toInt32_ofNat', Int32.toInt_ofNat_of_lt fits.1, Int.toNat_natCast]
      rw [length] at bound enough ⊢
      rw [Value.typeByte, Value.content, List.append_assoc, decodeValue,
        if_neg (by decide), if_neg (by decide), if_neg (by decide), if_neg (by decide),
        if_neg (by decide), if_neg (by decide), if_pos rfl,
        decode_int_append (Nat.lt_trans fits.1 (by decide))]
      change (decodeArray amf3Decode rounds (UInt32.ofNat p_object.o_num).toInt32.toInt.toNat
        ((beBytes 4 p_object.o_num ++ (p_object.bytes ++ rest)).drop 4) (nSize - 4)).bind _ = _
      rw [behind, count, decode_unnamed p_object fits.2 rounds rest (nSize - 4) (by omega) (by omega)]
      simp [Except.bind, pure, Except.pure]
      omega
  | value, fits, 0, rest, nSize, bound, enough => by
      exact absurd bound (by simp [Value.bytes])

theorem decode_named : (obj : Object) → obj.Fits true → (rounds : Nat) → (rest : List UInt8) →
    (nSize : Int) → 2 * obj.bytes.length + 2 ≤ rounds → (obj.bytes.length : Int) + 3 ≤ nSize →
    decodeProps amf3Decode rounds (obj.bytes ++ (beBytes 3 AMF_OBJECT_END ++ rest)) nSize true =
      .ok (obj, nSize - (obj.bytes.length + 3))
  | .empty, _, rounds + 1, rest, nSize, _, enough => by
      have least : 3 ≤ nSize := enough
      exact decode_props_end amf3Decode least rest true
  | .prop p_name p_vu others, fits, rounds + 2, rest, nSize, bound, enough => by
      obtain ⟨⟨⟨some, small⟩, notNull⟩, value, named⟩ := fits
      have name : encodeName p_name p_vu = beBytes 2 p_name.length ++ p_name :=
        encode_name_eq some notNull
      have length : (Object.prop p_name p_vu others).bytes.length =
          2 + p_name.length + p_vu.bytes.length + others.bytes.length := by
        rw [object_bytes, name, List.length_append, List.length_append, List.length_append,
          be_bytes_length]
      have least : 0 < p_vu.bytes.length := Nat.succ_pos _
      rw [length] at bound enough ⊢
      obtain ⟨nMark, mark, goes⟩ := name_mark some small
        (p_vu.bytes ++ (others.bytes ++ (beBytes 3 AMF_OBJECT_END ++ rest)))
      have first := decode_prop amf3Decode
        (decode_name_append small (show (p_name.length : Int) + 2 ≤ nSize by omega) (by omega)
          (p_vu.bytes ++ (others.bytes ++ (beBytes 3 AMF_OBJECT_END ++ rest))))
        (by omega) (by omega) (decode_value p_vu value rounds
          (others.bytes ++ (beBytes 3 AMF_OBJECT_END ++ rest))
          (nSize - (2 + p_name.length) - 1) (by omega) (by omega))
      rw [← name] at first mark
      have behind : nSize - (nSize - (2 + (p_name.length : Int)) - 1 + 1 - p_vu.bytes.length) =
          ((encodeName p_name p_vu ++ p_vu.bytes).length : Int) := by
        rw [name, List.length_append, List.length_append, be_bytes_length]
        omega
      have dropped : (encodeName p_name p_vu ++
          (p_vu.bytes ++ (others.bytes ++ (beBytes 3 AMF_OBJECT_END ++ rest)))).drop
            (encodeName p_name p_vu ++ p_vu.bytes).length =
          others.bytes ++ (beBytes 3 AMF_OBJECT_END ++ rest) := by
        rw [← List.append_assoc, List.drop_left]
      have front : (encodeName p_name p_vu ++ p_vu.bytes).length =
          2 + p_name.length + p_vu.bytes.length := by
        rw [name, List.length_append, List.length_append, be_bytes_length]
      rw [behind] at first
      rw [object_bytes, List.append_assoc, List.append_assoc,
        decode_props_prop amf3Decode (by omega) (fun _ => mark) goes first (by omega),
        Int.toNat_natCast, dropped, decode_named others named (rounds + 1) rest _ (by omega)
          (by omega), front]
      simp [Except.map]
      omega
  | obj, fits, 0, rest, nSize, bound, enough => by
      exact absurd bound (by omega)
  | obj, fits, 1, rest, nSize, bound, enough => by
      exact absurd bound (by omega)

theorem decode_unnamed : (obj : Object) → obj.Fits false → (rounds : Nat) → (rest : List UInt8) →
    (nSize : Int) → 2 * obj.bytes.length + 2 ≤ rounds → (obj.bytes.length : Int) ≤ nSize →
    decodeArray amf3Decode rounds obj.o_num (obj.bytes ++ rest) nSize =
      .ok (obj, nSize - obj.bytes.length)
  | .empty, _, rounds + 1, rest, nSize, _, enough => by
      rw [Object.o_num, decodeArray, Object.bytes, List.length_nil, Int.natCast_zero, Int.sub_zero]
  | .prop p_name p_vu others, fits, rounds + 2, rest, nSize, bound, enough => by
      obtain ⟨none, value, unnamed⟩ := fits
      have bare : p_name = [] := none
      subst bare
      have length : (Object.prop [] p_vu others).bytes.length =
          p_vu.bytes.length + others.bytes.length := by
        rw [object_bytes, encode_name_nil, List.nil_append, List.length_append]
      have least : 0 < p_vu.bytes.length := Nat.succ_pos _
      rw [length] at bound enough ⊢
      have first := @decode_prop amf3Decode rounds false [] [] p_vu.content
        (others.bytes ++ rest) p_vu.typeByte p_vu nSize nSize _ rfl (by omega) (by omega)
        (decode_value p_vu value rounds (others.bytes ++ rest) (nSize - 1) (by omega) (by omega))
      have behind : nSize - (nSize - 1 + 1 - (p_vu.bytes.length : Int)) = p_vu.bytes.length := by
        omega
      have dropped : (p_vu.bytes ++ (others.bytes ++ rest)).drop p_vu.bytes.length =
          others.bytes ++ rest := List.drop_left
      rw [List.nil_append, behind] at first
      change decodeProp amf3Decode (rounds + 1) (p_vu.bytes ++ (others.bytes ++ rest)) nSize false =
        _ at first
      rw [object_bytes, encode_name_nil, List.nil_append, List.append_assoc, Object.o_num,
        decodeArray, if_neg (by omega), first]
      change (decodeArray amf3Decode (rounds + 1) others.o_num ((p_vu.bytes ++
        (others.bytes ++ rest)).drop (p_vu.bytes.length : Int).toNat)
          (nSize - p_vu.bytes.length)).bind _ = _
      rw [Int.toNat_natCast, dropped,
        decode_unnamed others unnamed (rounds + 1) rest _ (by omega) (by omega)]
      simp [Except.bind, pure, Except.pure]
      omega
  | obj, fits, 0, rest, nSize, bound, enough => by
      exact absurd bound (by omega)
  | obj, fits, 1, rest, nSize, bound, enough => by
      exact absurd bound (by omega)

end

section Messages

/-- A number that does not start like the end mark, where no name is in front of it. -/
def Value.Unmarked : Value → Prop
  | .number p_number => p_number.toNat / 256 ^ 6 ≠ AMF_OBJECT_END
  | _ => True

def Object.Unmarked : Object → Prop
  | .empty => True
  | .prop _ p_vu others => p_vu.Unmarked ∧ others.Unmarked

theorem type_byte_zero {p_vu : Value} (fits : p_vu.Fits) (zero : p_vu.typeByte = 0) :
    ∃ p_number, p_vu = .number p_number := by
  cases p_vu with
  | number p_number => exact ⟨p_number, rfl⟩
  | string p_aval =>
      rw [Value.typeByte] at zero
      split_ifs at zero <;> contradiction
  | date | xmlDoc | invalid => exact fits.elim
  | boolean | null | object | ecmaArray | strictArray =>
      rw [Value.typeByte] at zero
      exact absurd zero (by decide)

theorem be_value_zero (bytes : List UInt8) : beValue (0 :: bytes) = beValue bytes := rfl

theorem two_more {first : UInt8} {rest : List UInt8} (enough : 3 ≤ (first :: rest).length) :
    ∃ second third more, rest = second :: third :: more := by
  match rest, enough with
  | second :: third :: more, _ => exact ⟨second, third, more, rfl⟩

/-- No value starts like the end mark. -/
theorem value_mark {p_vu : Value} (fits : p_vu.Fits) (unmarked : p_vu.Unmarked) {rest : List UInt8}
    (enough : 3 ≤ (p_vu.bytes ++ rest).length) :
    ∃ nMark, decodeInt 3 (p_vu.bytes ++ rest) = .ok nMark ∧ nMark ≠ AMF_OBJECT_END := by
  by_cases zero : p_vu.typeByte = 0
  · obtain ⟨p_number, rfl⟩ := type_byte_zero fits zero
    have small : p_number.toNat / 256 ^ 6 < 256 ^ 2 :=
      Nat.div_lt_of_lt_mul (Nat.lt_of_lt_of_le p_number.toNat_lt (by decide))
    have front : (Value.number p_number).bytes ++ rest =
        (0 :: beBytes 2 (p_number.toNat / 256 ^ 6)) ++ (beBytes 6 p_number.toNat ++ rest) := by
      rw [Value.bytes, Value.content, be_bytes_add 2 6, ← List.append_assoc]
      rfl
    have value : beValue (0 :: beBytes 2 (p_number.toNat / 256 ^ 6)) = p_number.toNat / 256 ^ 6 :=
      (be_value_zero _).trans (be_value_of_lt small)
    have taken := bytes_at_append (0 :: beBytes 2 (p_number.toNat / 256 ^ 6))
      (beBytes 6 p_number.toNat ++ rest)
    refine ⟨p_number.toNat / 256 ^ 6, ?_, unmarked⟩
    rw [List.length_cons, be_bytes_length] at taken
    rw [front, decodeInt, taken]
    exact congrArg Except.ok value
  · obtain ⟨second, third, more, list⟩ : ∃ second third more,
        p_vu.bytes ++ rest = p_vu.typeByte :: second :: third :: more := by
      rw [Value.bytes, List.cons_append] at enough ⊢
      obtain ⟨second, third, more, list⟩ := two_more enough
      exact ⟨second, third, more, by rw [list]⟩
    have some : p_vu.typeByte.toNat ≠ 0 := fun none => zero (UInt8.toNat_inj.mp none)
    refine ⟨beValue [p_vu.typeByte, second, third], ?_, ?_⟩
    · have taken := bytes_at_append [p_vu.typeByte, second, third] more
      rw [decodeInt, list]
      exact congrArg (Except.map beValue) taken
    · change ((0 * 256 + p_vu.typeByte.toNat) * 256 + second.toNat) * 256 + third.toNat ≠ 9
      omega

/-- A value without a name is decoded in front of others. -/
theorem decode_props_value {rounds size : Nat} {type : UInt8} {content rest : List UInt8}
    {p_vu : Value} {nMark : Nat}
    (value : decodeValue amf3Decode rounds type (content ++ rest) (content.length + size : Nat) =
      .ok (p_vu, size))
    (mark : 3 ≤ content.length + 1 + size → decodeInt 3 (type :: content ++ rest) = .ok nMark)
    (goes : nMark ≠ AMF_OBJECT_END) :
    decodeProps amf3Decode (rounds + 2) (type :: content ++ rest) (content.length + 1 + size : Nat)
        false =
      (decodeProps amf3Decode (rounds + 1) rest size false).map
        fun (others, left) => (.prop [] p_vu others, left) := by
  have one : ((content.length + 1 + size : Nat) : Int) - 1 = (content.length + size : Nat) := by
    omega
  have first := @decode_prop amf3Decode rounds false [] [] content rest type p_vu
    (content.length + 1 + size : Nat) (content.length + 1 + size : Nat) size rfl (by omega) (by omega)
    (by rw [one]; exact value)
  have behind : ((content.length + 1 + size : Nat) : Int) - size = (type :: content).length := by
    rw [List.length_cons]
    omega
  have left : ((content.length + 1 + size : Nat) : Int) - (type :: content).length = size := by
    rw [List.length_cons]
    omega
  rw [List.nil_append, behind] at first
  rw [decode_props_prop amf3Decode (by omega) (fun enough => mark (by omega)) goes first
    (by rw [List.length_cons]; omega), Int.toNat_natCast, List.drop_left, left]

/-- The first value of a message. -/
theorem decode_first {p_vu : Value} (fits : p_vu.Fits) (unmarked : p_vu.Unmarked) {rounds size : Nat}
    {rest : List UInt8} (bound : 2 * p_vu.bytes.length ≤ rounds) (own : size ≤ rest.length) :
    decodeProps amf3Decode (rounds + 2) (p_vu.bytes ++ rest) (p_vu.bytes.length + size : Nat) false =
      (decodeProps amf3Decode (rounds + 1) rest size false).map
        fun (others, left) => (.prop [] p_vu others, left) := by
  have length : p_vu.bytes.length = p_vu.content.length + 1 := rfl
  have read := decode_value amf3Decode p_vu fits rounds rest (p_vu.content.length + size : Nat)
    bound (by omega)
  have left : ((p_vu.content.length + size : Nat) : Int) + 1 - p_vu.bytes.length = size := by
    omega
  obtain ⟨nMark, goes, mark⟩ : ∃ nMark, nMark ≠ AMF_OBJECT_END ∧
      (3 ≤ p_vu.content.length + 1 + size → decodeInt 3 (p_vu.bytes ++ rest) = .ok nMark) := by
    by_cases enough : 3 ≤ (p_vu.bytes ++ rest).length
    · obtain ⟨nMark, mark, goes⟩ := value_mark fits unmarked enough
      exact ⟨nMark, goes, fun _ => mark⟩
    · refine ⟨0, by decide, fun more => absurd ?_ enough⟩
      rw [List.length_append]
      omega
  rw [left] at read
  exact decode_props_value amf3Decode read mark goes

/-- Values without names, up to the end of what is the decoder's own. -/
theorem decode_message : (obj : Object) → obj.Fits false → obj.Unmarked → (rounds : Nat) →
    (rest : List UInt8) → 2 * obj.bytes.length + 2 ≤ rounds →
    decodeProps amf3Decode rounds (obj.bytes ++ rest) obj.bytes.length false = .ok (obj, 0)
  | .empty, _, _, rounds + 1, rest, _ => by
      rw [decodeProps, Object.bytes, List.length_nil, if_pos (by decide)]
      rfl
  | .prop p_name p_vu others, fits, unmarked, rounds + 2, rest, bound => by
      obtain ⟨none, value, unnamed⟩ := fits
      have bare : p_name = [] := none
      subst bare
      have least : 0 < p_vu.bytes.length := Nat.succ_pos _
      rw [object_bytes, encode_name_nil, List.nil_append, List.length_append] at bound ⊢
      rw [List.append_assoc, decode_first amf3Decode value unmarked.1 (by omega)
          (by rw [List.length_append]; omega),
        decode_message others unnamed unmarked.2 (rounds + 1) rest (by omega)]
      rfl
  | obj, _, _, 0, rest, bound => by
      exact absurd bound (by omega)
  | obj, _, _, 1, rest, bound => by
      exact absurd bound (by omega)

end Messages

end Decoding

section Room

theorem string_room {room : Nat} {bv bytes : List UInt8} (done : encodeString room bv = some bytes) :
    bytes.length ≤ room := by
  unfold encodeString encodeInt at done
  split_ifs at done <;> cases done <;> simp only [List.length_cons, List.length_append,
    be_bytes_length] <;> omega

theorem object_room {room : Nat} {before bytes : List UInt8} {props : Nat → List UInt8} {marked : Bool}
    (within : (props (room - before.length)).length ≤ room - before.length)
    (front : before.length ≤ 5) (done : encodeObject room before props marked = some bytes) :
    bytes.length ≤ room := by
  unfold encodeObject at done
  dsimp only at done
  by_cases short : room ≤ 4
  · rw [if_pos short] at done
    cases done
  · have written : (before ++ props (room - before.length)).length ≤ room := by
      rw [List.length_append]
      omega
    rw [if_neg short] at done
    split_ifs at done with mark last
    · cases done
      rw [List.length_append, be_bytes_length]
      omega
    · cases done
      exact written

theorem name_within {room : Nat} {p_name : List UInt8} {p_vu : Value}
    (there : nameRoom room p_name p_vu = true) : (encodeName p_name p_vu).length ≤ room := by
  have most : (encodeName p_name p_vu).length ≤ p_name.length + 2 := by
    unfold encodeName
    split
    · exact Nat.zero_le _
    · split_ifs
      · exact Nat.zero_le _
      · rw [List.length_append, be_bytes_length]
        omega
  cases p_vu with
  | null => exact Nat.zero_le room
  | _ =>
      have enough : p_name.length + 2 + 1 < room := of_decide_eq_true there
      omega

mutual

/-- Nothing is written behind the room that is left. -/
theorem value_room : (value : Value) → (room : Nat) → (bytes : List UInt8) →
    encodeValue room value = some bytes → bytes.length ≤ room
  | .number p_number, room, bytes, done => by
      rw [encodeValue, encodeNumber] at done
      split_ifs at done
      cases done
      rw [List.length_cons, be_bytes_length]
      omega
  | .boolean p_number, room, bytes, done => by
      rw [encodeValue, encodeBoolean] at done
      by_cases short : room < 2
      · rw [if_pos short] at done
        cases done
      · rw [if_neg short] at done
        cases done
        exact Nat.not_lt.mp short
  | .string p_aval, room, bytes, done => by
      rw [encodeValue] at done
      exact string_room done
  | .null, room, bytes, done => by
      rw [encodeValue] at done
      split_ifs at done
      cases done
      rw [List.length_singleton]
      omega
  | .object p_object, room, bytes, done => by
      rw [encodeValue] at done
      exact object_room (props_room p_object _) (by decide) done
  | .ecmaArray p_object, room, bytes, done => by
      rw [encodeValue] at done
      exact object_room (props_room p_object _) (by simp) done
  | .strictArray p_object, room, bytes, done => by
      rw [encodeValue] at done
      exact object_room (props_room p_object _) (by simp) done
  | .date _ _, room, bytes, done => by
      rw [encodeValue] at done
      cases done
  | .xmlDoc _, room, bytes, done => by
      rw [encodeValue] at done
      cases done
  | .invalid, room, bytes, done => by
      rw [encodeValue] at done
      cases done

theorem props_room : (obj : Object) → (room : Nat) → (encodeProps room obj).length ≤ room
  | .empty, room => Nat.zero_le room
  | .prop p_name p_vu others, room => by
      rw [encodeProps]
      split_ifs with there
      · have name : (encodeName p_name p_vu).length ≤ room := name_within there
        dsimp only
        cases encoded : encodeValue (room - (encodeName p_name p_vu).length) p_vu with
        | none => exact Nat.zero_le room
        | some value =>
            have within := value_room p_vu _ value encoded
            have behind := props_room others
              (room - (encodeName p_name p_vu ++ value).length)
            simp only [List.length_append] at behind ⊢
            omega
      · exact Nat.zero_le room

end

end Room

section Results

variable (amf3Decode : Amf3)

/-- A value is written where there is some room to spare, and read back from what is
written, whatever is behind it. -/
theorem values_round_trip {value : Value} (fits : value.Fits) {room : Nat}
    (enough : value.bytes.length + 3 < room) :
    ∃ bytes, encodeValue room value = some bytes ∧
      ∀ rounds rest (nSize : Int), 2 * bytes.length < rounds → bytes.length ≤ nSize →
        decodeProp amf3Decode rounds (bytes ++ rest) nSize false =
          .ok (⟨[], value⟩, bytes.length) := by
  refine ⟨value.bytes, encode_value_eq value fits room enough, ?_⟩
  intro rounds rest nSize bound own
  obtain ⟨rounds, rfl⟩ : ∃ fewer, rounds = fewer + 1 := ⟨rounds - 1, by omega⟩
  have some : 0 < value.bytes.length := Nat.succ_pos _
  have first := @decode_prop amf3Decode rounds false [] [] value.content rest value.typeByte value
    nSize nSize _ rfl (by omega) (by omega) (decode_value amf3Decode value fits rounds rest (nSize - 1) (by omega) (by omega))
  rw [List.nil_append] at first
  change decodeProp amf3Decode (rounds + 1) (value.bytes ++ rest) nSize false = _ at first
  rw [first]
  simp only [Except.ok.injEq, Prod.mk.injEq, true_and]
  omega

/-- The values of a message are read back one by one, up to its end. -/
theorem messages_round_trip {obj : Object} (fits : obj.Fits false) (unmarked : obj.Unmarked)
    {room : Nat} (enough : obj.bytes.length + 3 < room) :
    ∃ bytes, encodeProps room obj = bytes ∧ ∀ rounds rest, 2 * bytes.length + 2 ≤ rounds →
      decodeProps amf3Decode rounds (bytes ++ rest) bytes.length false = .ok (obj, 0) := by
  refine ⟨obj.bytes, encode_props_eq obj false fits room enough, ?_⟩
  intro rounds rest bound
  exact decode_message amf3Decode obj fits unmarked rounds rest bound

/-- Without the decoder of the other format. -/
def noAmf3 : Amf3 := fun _ _ => .error .failed

/-- An object with an array and a number in it. -/
def nestedValue : Value :=
  .object (.prop [97] (.strictArray (.prop [] .null (.prop [] (.boolean true) .empty)))
    (.prop [98, 99] (.number 4607182418800017408) .empty))

theorem nested_fits : nestedValue.Fits := by
  simp [nestedValue, Value.Fits, Object.Fits, Object.o_num]

theorem values_round_trip_nested :
    ∃ bytes, encodeValue 64 nestedValue = some bytes ∧
      ∀ rounds rest (nSize : Int), 2 * bytes.length < rounds → bytes.length ≤ nSize →
        decodeProp noAmf3 rounds (bytes ++ rest) nSize false =
          .ok (⟨[], nestedValue⟩, bytes.length) :=
  values_round_trip noAmf3 nested_fits (by decide +kernel)

/-- The values of a call with a name, a number and an object. -/
def callValues : Object :=
  .prop [] (.string [99, 97, 108, 108]) (.prop [] (.number 4607182418800017408)
    (.prop [] nestedValue .empty))

theorem messages_round_trip_call :
    ∃ bytes, encodeProps 128 callValues = bytes ∧ ∀ rounds rest, 2 * bytes.length + 2 ≤ rounds →
      decodeProps noAmf3 rounds (bytes ++ rest) bytes.length false = .ok (callValues, 0) :=
  messages_round_trip noAmf3
    (by simp [callValues, Object.Fits, Value.Fits, nested_fits])
    (by simp [callValues, Object.Unmarked, Value.Unmarked, nestedValue, AMF_OBJECT_END])
    (by decide +kernel)

/-- A null property is written without its name, and then not read back. -/
example : (decodeProp noAmf3 40 ((encode (.prop [97] .null .empty) 16).getD []) 16 false).isOk =
    false := by
  decide +kernel

end Results

end Mgw.Amf
