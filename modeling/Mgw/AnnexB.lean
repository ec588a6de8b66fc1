import Mathlib.Algebra.Ring.Nat
import Mathlib.Data.List.Basic

/-!
NAL units of H.264 in their two forms: the byte stream format, where a start
code of three or four bytes goes before each unit, and units that are each
preceded by their length in four bytes, high byte first.
-/

namespace Mgw.AnnexB

set_option autoImplicit false

/-- The bytes of a unit: no start code and no third zero byte inside, and no zero
byte at the end. -/
structure NalUnit where
  bytes : List UInt8
  nonempty : bytes ≠ []
  closed : bytes.getLast nonempty ≠ 0
  clean : ∀ (index : Nat) (third : UInt8), bytes[index]? = some 0 → bytes[index + 1]? = some 0 →
    bytes[index + 2]? = some third → 1 < third

namespace NalUnit

def unitType (unit : NalUnit) : UInt8 := unit.bytes.headD 0 &&& 0x1f

theorem length_pos (unit : NalUnit) : 0 < unit.bytes.length :=
  List.length_pos_of_ne_nil unit.nonempty

theorem last_byte (unit : NalUnit) :
    ∃ last, unit.bytes[unit.bytes.length - 1]? = some last ∧ last ≠ 0 := by
  refine ⟨unit.bytes.getLast unit.nonempty, ?_, unit.closed⟩
  rw [← List.getLast?_eq_getElem?, List.getLast?_eq_some_getLast unit.nonempty]

end NalUnit

/-- A unit of the byte stream behind a start code of four or of three bytes. -/
structure CodedUnit where
  long : Bool
  nal : NalUnit

def startCode (long : Bool) : List UInt8 := if long then [0, 0, 0, 1] else [0, 0, 1]

def CodedUnit.bytes (unit : CodedUnit) : List UInt8 := startCode unit.long ++ unit.nal.bytes

/-- The byte stream format. -/
def annexB (units : List CodedUnit) : List UInt8 := units.flatMap CodedUnit.bytes

def nalBytes (units : List CodedUnit) : List (List UInt8) :=
  units.map fun unit => unit.nal.bytes

section Stream

theorem start_code_length (long : Bool) :
    (startCode long).length = if long then 4 else 3 := by
  cases long <;> rfl

theorem coded_unit_length (unit : CodedUnit) :
    unit.bytes.length = (startCode unit.long).length + unit.nal.bytes.length := by
  rw [CodedUnit.bytes, List.length_append]

@[simp] theorem annex_b_nil : annexB [] = [] := rfl

@[simp] theorem annex_b_cons (unit : CodedUnit) (units : List CodedUnit) :
    annexB (unit :: units) = unit.bytes ++ annexB units := rfl

/-- The stream around the start code of one unit. -/
theorem annex_b_split (before : List CodedUnit) (unit : CodedUnit) (after : List CodedUnit) :
    annexB (before ++ unit :: after) =
      annexB before ++ (startCode unit.long ++ (unit.nal.bytes ++ annexB after)) := by
  rw [annexB, List.flatMap_append, List.flatMap_cons, CodedUnit.bytes, List.append_assoc]
  rfl

theorem annex_b_split_length (before : List CodedUnit) (unit : CodedUnit)
    (after : List CodedUnit) :
    (annexB (before ++ unit :: after)).length = (annexB before).length +
      ((startCode unit.long).length + (unit.nal.bytes ++ annexB after).length) := by
  rw [annex_b_split, List.length_append, List.length_append]

/-- Each unit takes more bytes in the stream than its own. -/
theorem nal_bytes_le (units : List CodedUnit) :
    ((nalBytes units).map fun bytes => 4 + bytes.length).sum ≤ 2 * (annexB units).length := by
  induction units with
  | nil => exact Nat.le_refl _
  | cons unit units ih =>
      have positive := unit.nal.length_pos
      have code := start_code_length unit.long
      have whole := coded_unit_length unit
      simp only [nalBytes, List.map_cons, List.sum_cons, annex_b_cons, List.length_append] at ih ⊢
      split_ifs at code <;> omega

end Stream

/-- The length word, high byte first. -/
def be32 (value : Nat) : List UInt8 :=
  [UInt8.ofNat (value / 16777216), UInt8.ofNat (value / 65536), UInt8.ofNat (value / 256),
    UInt8.ofNat value]

def be32Value (first second third fourth : UInt8) : Nat :=
  ((first.toNat * 256 + second.toNat) * 256 + third.toNat) * 256 + fourth.toNat

/-- The units of a length-prefixed string, if it is made up of whole units. -/
def readUnits : Nat → List UInt8 → Option (List (List UInt8))
  | _, [] => some []
  | fuel + 1, first :: second :: third :: fourth :: rest =>
      let length := be32Value first second third fourth
      if length ≤ rest.length then
        (readUnits fuel (rest.drop length)).map (rest.take length :: ·)
      else none
  | _, _ => none

def lengthPrefixed (payload : List UInt8) : Option (List (List UInt8)) :=
  readUnits payload.length payload

section Read

theorem be32_value {value : Nat} (bound : value < 4294967296) :
    be32Value (UInt8.ofNat (value / 16777216)) (UInt8.ofNat (value / 65536))
      (UInt8.ofNat (value / 256)) (UInt8.ofNat value) = value := by
  simp only [be32Value, UInt8.toNat_ofNat']
  omega

theorem read_units_cons {unit : List UInt8} (fuel : Nat) (rest : List UInt8)
    (bound : unit.length < 4294967296) :
    readUnits (fuel + 1) (be32 unit.length ++ (unit ++ rest)) =
      (readUnits fuel rest).map (unit :: ·) := by
  have fits : unit.length ≤ (unit ++ rest).length := by simp
  simp only [be32, List.cons_append, List.nil_append, readUnits, be32_value bound, if_pos fits,
    List.take_left, List.drop_left]

/-- One length and as many bytes are one unit. -/
theorem length_prefixed_single {unit : List UInt8} (bound : unit.length < 4294967296) :
    lengthPrefixed (be32 unit.length ++ unit) = some [unit] := by
  have size : (be32 unit.length ++ unit).length = (3 + unit.length) + 1 := by
    simp only [be32, List.length_append, List.length_cons, List.length_nil]
    omega
  have read := read_units_cons (3 + unit.length) [] bound
  rw [List.append_nil] at read
  rw [lengthPrefixed, size, read, readUnits]
  rfl

theorem read_units_length {fuel : Nat} {payload : List UInt8} {units : List (List UInt8)}
    (read : readUnits fuel payload = some units) :
    payload.length = (units.map fun unit => 4 + unit.length).sum := by
  induction fuel generalizing payload units with
  | zero =>
      cases payload with
      | nil =>
          obtain rfl := Option.some.inj read
          rfl
      | cons first rest => simp [readUnits] at read
  | succ fuel ih =>
      match payload with
      | [] =>
          rw [readUnits] at read
          obtain rfl := Option.some.inj read
          rfl
      | first :: second :: third :: fourth :: rest =>
          rw [readUnits] at read
          split_ifs at read with fits
          obtain ⟨others, readRest, same⟩ := Option.map_eq_some_iff.mp read
          have length := ih readRest
          rw [← same, List.map_cons, List.sum_cons, ← length, List.length_take, List.length_drop]
          simp only [List.length_cons]
          omega
      | [_] => simp [readUnits] at read
      | [_, _] => simp [readUnits] at read
      | [_, _, _] => simp [readUnits] at read

end Read

end Mgw.AnnexB
