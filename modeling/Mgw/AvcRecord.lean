import Mgw.BigEndian

/-!
The decoder configuration record of AVC: a head of six bytes with the profile,
the sequence and picture parameter sets, each behind a length of two bytes, and
for four profiles a tail with the chroma format. Reserved bits are ones.
-/

namespace Mgw.AvcRecord

open BigEndian

set_option autoImplicit false

structure Extension where
  chroma_format : Nat
  bit_depth_luma_minus8 : Nat
  bit_depth_chroma_minus8 : Nat
  sequenceParameterSetExts : List (List UInt8)
  deriving DecidableEq

structure Record where
  AVCProfileIndication : UInt8
  profile_compatibility : UInt8
  AVCLevelIndication : UInt8
  lengthSizeMinusOne : Nat
  sequenceParameterSets : List (List UInt8)
  pictureParameterSets : List (List UInt8)
  extension : Option Extension
  deriving DecidableEq

/-- The profiles whose record has the tail. -/
def hasExtension (profile : UInt8) : Bool :=
  profile = 100 || profile = 110 || profile = 122 || profile = 144

def encodeUnit (unit : List UInt8) : List UInt8 := beBytes 2 unit.length ++ unit

def encodeUnits (units : List (List UInt8)) : List UInt8 := units.flatMap encodeUnit

def encodeExtension (extension : Extension) : List UInt8 :=
  [UInt8.ofNat (252 + extension.chroma_format), UInt8.ofNat (248 + extension.bit_depth_luma_minus8),
    UInt8.ofNat (248 + extension.bit_depth_chroma_minus8),
    UInt8.ofNat extension.sequenceParameterSetExts.length] ++
      encodeUnits extension.sequenceParameterSetExts

def encodeTail : Option Extension → List UInt8
  | none => []
  | some extension => encodeExtension extension

def encode (record : Record) : List UInt8 :=
  [1, record.AVCProfileIndication, record.profile_compatibility, record.AVCLevelIndication,
    UInt8.ofNat (252 + record.lengthSizeMinusOne),
    UInt8.ofNat (224 + record.sequenceParameterSets.length)] ++
      (encodeUnits record.sequenceParameterSets ++
        (UInt8.ofNat record.pictureParameterSets.length ::
          (encodeUnits record.pictureParameterSets ++ encodeTail record.extension)))

def readUnit (input : List UInt8) : Option (List UInt8 × List UInt8) :=
  (readBe 2 input).bind fun (length, rest) => readFixed length rest

def readUnits : Nat → List UInt8 → Option (List (List UInt8) × List UInt8)
  | 0, input => some ([], input)
  | count + 1, input =>
      (readUnit input).bind fun (unit, rest) =>
        (readUnits count rest).map fun (units, suffix) => (unit :: units, suffix)

def readExtension : List UInt8 → Option (Extension × List UInt8)
  | chroma :: luma :: depth :: count :: rest =>
      if 252 ≤ chroma.toNat ∧ 248 ≤ luma.toNat ∧ 248 ≤ depth.toNat then
        (readUnits count.toNat rest).map fun (units, suffix) =>
          ({ chroma_format := chroma.toNat - 252
             bit_depth_luma_minus8 := luma.toNat - 248
             bit_depth_chroma_minus8 := depth.toNat - 248
             sequenceParameterSetExts := units }, suffix)
      else none
  | _ => none

def readTail (profile : UInt8) (input : List UInt8) : Option (Option Extension × List UInt8) :=
  if hasExtension profile then (readExtension input).map fun (extension, rest) => (some extension, rest)
  else some (none, input)

/-- The picture parameter sets behind their count. -/
def readCounted : List UInt8 → Option (List (List UInt8) × List UInt8)
  | count :: rest => readUnits count.toNat rest
  | [] => none

/-- The record that the whole input is, if it is one. -/
def parse : List UInt8 → Option Record
  | version :: profile :: compatibility :: level :: lengthSize :: count :: input =>
      if version = 1 ∧ 252 ≤ lengthSize.toNat ∧ 224 ≤ count.toNat then
        (readUnits (count.toNat - 224) input).bind fun (sps, behindSps) =>
          (readCounted behindSps).bind fun (pps, behindPps) =>
            (readTail profile behindPps).bind fun (extension, rest) =>
              if rest = [] then
                some
                  { AVCProfileIndication := profile
                    profile_compatibility := compatibility
                    AVCLevelIndication := level
                    lengthSizeMinusOne := lengthSize.toNat - 252
                    sequenceParameterSets := sps
                    pictureParameterSets := pps
                    extension := extension }
              else none
      else none
  | _ => none

/-- The numbers fit into their fields, and the tail is there for its profiles. -/
structure WellFormed (record : Record) : Prop where
  lengthSize : record.lengthSizeMinusOne < 4
  spsCount : record.sequenceParameterSets.length < 32
  ppsCount : record.pictureParameterSets.length < 256
  sps : ∀ unit ∈ record.sequenceParameterSets, unit.length < 65536
  pps : ∀ unit ∈ record.pictureParameterSets, unit.length < 65536
  tail : record.extension.isSome = hasExtension record.AVCProfileIndication
  extension : ∀ extension, record.extension = some extension →
    extension.chroma_format < 4 ∧ extension.bit_depth_luma_minus8 < 8 ∧
      extension.bit_depth_chroma_minus8 < 8 ∧
      extension.sequenceParameterSetExts.length < 256 ∧
      ∀ unit ∈ extension.sequenceParameterSetExts, unit.length < 65536

section Units

variable {count : Nat} {unit : List UInt8} {units : List (List UInt8)} {input rest : List UInt8}

theorem read_unit_encode (bound : unit.length < 65536) (rest : List UInt8) :
    readUnit (encodeUnit unit ++ rest) = some (unit, rest) := by
  have length : readBe 2 (beBytes 2 unit.length ++ (unit ++ rest)) =
      some (unit.length, unit ++ rest) := read_be_append bound _
  unfold readUnit encodeUnit
  rw [List.append_assoc, length, Option.bind_some]
  exact read_fixed_append rfl rest

theorem read_fixed_sound {bytes : List UInt8} (read : readFixed count input = some (bytes, rest)) :
    bytes.length = count ∧ input = bytes ++ rest := by
  unfold readFixed at read
  split_ifs at read with fits
  obtain ⟨rfl, rfl⟩ := Prod.mk.inj (Option.some.inj read)
  exact ⟨List.length_take_of_le fits, (List.take_append_drop count input).symm⟩

theorem be_bytes_two (high low : UInt8) : beBytes 2 (beValue [high, low]) = [high, low] := by
  have value : beValue [high, low] = high.toNat * 256 + low.toNat := by
    simp [beValue]
  have top : UInt8.ofNat ((high.toNat * 256 + low.toNat) / 256) = high := by
    have bound := low.toNat_lt
    rw [show (high.toNat * 256 + low.toNat) / 256 = high.toNat by omega]
    exact UInt8.ofNat_toNat
  have bottom : UInt8.ofNat (high.toNat * 256 + low.toNat) = low := by
    rw [@of_nat_congr _ low.toNat (by omega)]
    exact UInt8.ofNat_toNat
  rw [value]
  change [UInt8.ofNat ((high.toNat * 256 + low.toNat) / 256),
    UInt8.ofNat (high.toNat * 256 + low.toNat)] = _
  rw [top, bottom]

theorem read_unit_sound (read : readUnit input = some (unit, rest)) :
    unit.length < 65536 ∧ input = encodeUnit unit ++ rest := by
  obtain ⟨⟨length, behind⟩, lengthRead, unitRead⟩ := Option.bind_eq_some_iff.mp read
  obtain ⟨⟨bytes, suffix⟩, bytesRead, parts⟩ := Option.map_eq_some_iff.mp lengthRead
  obtain ⟨rfl, rfl⟩ := Prod.mk.inj parts
  obtain ⟨size, whole⟩ := read_fixed_sound bytesRead
  obtain ⟨unitSize, behindWhole⟩ := read_fixed_sound unitRead
  obtain ⟨high, low, rfl⟩ := List.length_eq_two.mp size
  have highBound := high.toNat_lt
  have lowBound := low.toNat_lt
  have value : beValue [high, low] = high.toNat * 256 + low.toNat := by
    simp [beValue]
  constructor
  · rw [unitSize, value]
    omega
  · unfold encodeUnit
    rw [unitSize, be_bytes_two, whole, behindWhole, List.append_assoc]

theorem read_units_encode (bounds : ∀ unit ∈ units, unit.length < 65536) (rest : List UInt8) :
    readUnits units.length (encodeUnits units ++ rest) = some (units, rest) := by
  induction units with
  | nil => rfl
  | cons unit units ih =>
      have tail := ih fun other member => bounds other (List.mem_cons_of_mem _ member)
      have head := read_unit_encode (bounds unit List.mem_cons_self) (encodeUnits units ++ rest)
      change (readUnit ((encodeUnit unit ++ encodeUnits units) ++ rest)).bind _ = _
      rw [List.append_assoc, head, Option.bind_some]
      dsimp only
      rw [tail]
      rfl

theorem read_units_sound (read : readUnits count input = some (units, rest)) :
    units.length = count ∧ (∀ unit ∈ units, unit.length < 65536) ∧
      input = encodeUnits units ++ rest := by
  induction count generalizing input units rest with
  | zero =>
      obtain ⟨rfl, rfl⟩ := Prod.mk.inj (Option.some.inj read)
      exact ⟨rfl, by simp, rfl⟩
  | succ count ih =>
      obtain ⟨⟨unit, behind⟩, unitRead, others⟩ := Option.bind_eq_some_iff.mp read
      obtain ⟨⟨more, suffix⟩, moreRead, parts⟩ := Option.map_eq_some_iff.mp others
      obtain ⟨rfl, rfl⟩ := Prod.mk.inj parts
      obtain ⟨bound, whole⟩ := read_unit_sound unitRead
      obtain ⟨size, bounds, behindWhole⟩ := ih moreRead
      refine ⟨by rw [List.length_cons, size], ?_, ?_⟩
      · intro other member
        rcases List.mem_cons.mp member with rfl | later
        · exact bound
        · exact bounds other later
      · rw [whole, behindWhole, ← List.append_assoc]
        rfl

end Units

section Records

theorem byte_above {base : Nat} {byte : UInt8} (above : base ≤ byte.toNat) :
    UInt8.ofNat (base + (byte.toNat - base)) = byte := by
  rw [Nat.add_sub_cancel' above]
  exact UInt8.ofNat_toNat

theorem to_nat_of_lt {value : Nat} (bound : value < 256) : (UInt8.ofNat value).toNat = value := by
  rw [UInt8.toNat_ofNat']
  exact Nat.mod_eq_of_lt bound

theorem read_tail_encode {record : Record} (wellFormed : WellFormed record) :
    readTail record.AVCProfileIndication (encodeTail record.extension) =
      some (record.extension, []) := by
  have tail := wellFormed.tail
  have parts := wellFormed.extension
  unfold readTail
  cases extension : record.extension with
  | none =>
      rw [extension, Option.isSome_none] at tail
      rw [← tail]
      rfl
  | some extended =>
      rw [extension, Option.isSome_some] at tail
      obtain ⟨chroma, luma, depth, count, bounds⟩ := parts extended extension
      have units := read_units_encode bounds []
      rw [List.append_nil] at units
      have chromaByte := @to_nat_of_lt (252 + extended.chroma_format) (by omega)
      have lumaByte := @to_nat_of_lt (248 + extended.bit_depth_luma_minus8) (by omega)
      have depthByte := @to_nat_of_lt (248 + extended.bit_depth_chroma_minus8) (by omega)
      have countByte := to_nat_of_lt count
      rw [← tail, if_pos rfl]
      simp only [encodeTail, encodeExtension, List.cons_append, List.nil_append, readExtension,
        chromaByte, lumaByte, depthByte, countByte, units, Nat.le_add_right, and_self, if_true,
        Option.map_some, Nat.add_sub_cancel_left]

theorem parse_encode {record : Record} (wellFormed : WellFormed record) :
    parse (encode record) = some record := by
  have sizeByte := @to_nat_of_lt (252 + record.lengthSizeMinusOne)
    (by have bound := wellFormed.lengthSize; omega)
  have spsByte := @to_nat_of_lt (224 + record.sequenceParameterSets.length)
    (by have bound := wellFormed.spsCount; omega)
  have ppsByte := to_nat_of_lt wellFormed.ppsCount
  have tail := read_tail_encode wellFormed
  simp only [encode, List.cons_append, List.nil_append, parse, sizeByte, spsByte, Nat.le_add_right,
    and_self, if_true, Nat.add_sub_cancel_left, read_units_encode wellFormed.sps, Option.bind_some,
    readCounted, ppsByte, read_units_encode wellFormed.pps, tail]

theorem read_extension_sound {input rest : List UInt8} {extension : Extension}
    (read : readExtension input = some (extension, rest)) :
    input = encodeExtension extension ++ rest ∧
      extension.chroma_format < 4 ∧ extension.bit_depth_luma_minus8 < 8 ∧
      extension.bit_depth_chroma_minus8 < 8 ∧
      extension.sequenceParameterSetExts.length < 256 ∧
      ∀ unit ∈ extension.sequenceParameterSetExts, unit.length < 65536 := by
  unfold readExtension at read
  split at read
  · rename_i chroma luma depth count behind
    split_ifs at read with reserved
    obtain ⟨⟨units, suffix⟩, unitsRead, parts⟩ := Option.map_eq_some_iff.mp read
    obtain ⟨rfl, rfl⟩ := Prod.mk.inj parts
    obtain ⟨size, bounds, whole⟩ := read_units_sound unitsRead
    have chromaBound := chroma.toNat_lt
    have lumaBound := luma.toNat_lt
    have depthBound := depth.toNat_lt
    have countBound := count.toNat_lt
    have countByte : UInt8.ofNat units.length = count := by
      rw [size]
      exact UInt8.ofNat_toNat
    refine ⟨?_, by dsimp only; omega, by dsimp only; omega, by dsimp only; omega,
      by dsimp only; omega, bounds⟩
    unfold encodeExtension
    dsimp only
    rw [byte_above reserved.1, byte_above reserved.2.1, byte_above reserved.2.2, countByte, whole]
    rfl
  · contradiction

theorem read_tail_sound {profile : UInt8} {input rest : List UInt8} {extension : Option Extension}
    (read : readTail profile input = some (extension, rest)) :
    input = encodeTail extension ++ rest ∧ extension.isSome = hasExtension profile ∧
      ∀ extended, extension = some extended →
        extended.chroma_format < 4 ∧ extended.bit_depth_luma_minus8 < 8 ∧
          extended.bit_depth_chroma_minus8 < 8 ∧
          extended.sequenceParameterSetExts.length < 256 ∧
          ∀ unit ∈ extended.sequenceParameterSetExts, unit.length < 65536 := by
  unfold readTail at read
  split_ifs at read with has
  · obtain ⟨⟨extended, suffix⟩, extensionRead, parts⟩ := Option.map_eq_some_iff.mp read
    obtain ⟨rfl, rfl⟩ := Prod.mk.inj parts
    obtain ⟨whole, bounds⟩ := read_extension_sound extensionRead
    refine ⟨whole, has.symm, ?_⟩
    rintro other same
    rw [← Option.some.inj same]
    exact bounds
  · obtain ⟨rfl, rfl⟩ := Prod.mk.inj (Option.some.inj read)
    exact ⟨rfl, by simpa using has, by simp⟩

/-- Only the bytes of a record are read as one. -/
theorem encode_of_parse {input : List UInt8} {record : Record} (parsed : parse input = some record) :
    WellFormed record ∧ input = encode record := by
  unfold parse at parsed
  split at parsed
  · rename_i version profile compatibility level lengthSize count behind
    split_ifs at parsed with head
    obtain ⟨⟨sps, behindSps⟩, spsRead, more⟩ := Option.bind_eq_some_iff.mp parsed
    obtain ⟨⟨pps, behindPps⟩, ppsRead, last⟩ := Option.bind_eq_some_iff.mp more
    obtain ⟨⟨extension, rest⟩, tailRead, done⟩ := Option.bind_eq_some_iff.mp last
    dsimp only at ppsRead tailRead done
    split_ifs at done with complete
    obtain rfl := Option.some.inj done
    obtain ⟨spsSize, spsBounds, spsWhole⟩ := read_units_sound spsRead
    obtain ⟨tailWhole, tailHas, tailBounds⟩ := read_tail_sound tailRead
    cases behindSps with
    | nil => simp [readCounted] at ppsRead
    | cons ppsCount behindCount =>
        obtain ⟨ppsSize, ppsBounds, ppsWhole⟩ := read_units_sound ppsRead
        have sizeBound := lengthSize.toNat_lt
        have countBound := count.toNat_lt
        have ppsBound := ppsCount.toNat_lt
        have spsByte : UInt8.ofNat (224 + sps.length) = count := by
          rw [spsSize]
          exact byte_above head.2.2
        have ppsByte : UInt8.ofNat pps.length = ppsCount := by
          rw [ppsSize]
          exact UInt8.ofNat_toNat
        constructor
        · exact
            { lengthSize := by dsimp only; omega
              spsCount := by dsimp only; omega
              ppsCount := by dsimp only; omega
              sps := spsBounds
              pps := ppsBounds
              tail := tailHas
              extension := tailBounds }
        · unfold encode
          dsimp only
          rw [byte_above head.2.1, spsByte, ppsByte, head.1, spsWhole, ppsWhole, tailWhole, complete,
            List.append_nil]
          rfl
  · contradiction

end Records

end Mgw.AvcRecord
