import Mathlib.Algebra.Ring.Nat
import Mathlib.Data.List.Induction
import Mathlib.Data.Nat.ModEq

/-!
Bit fields as standards lay them out: unsigned numbers in a given count of bits,
high bit first, one behind the other over the bounds of bytes, and a reader that
takes such a number from the front.
-/

namespace Mgw.BitFields

set_option autoImplicit false

/-- The last `width` bits of the number. -/
def bitsOf : Nat → Nat → List Bool
  | 0, _ => []
  | width + 1, value => bitsOf width (value / 2) ++ [decide (value % 2 = 1)]

def bitsValue (bits : List Bool) : Nat := bits.foldl (fun value bit => value * 2 + bit.toNat) 0

/-- The bits of a string of bytes. -/
def byteBits (bytes : List UInt8) : List Bool := bytes.flatMap fun byte => bitsOf 8 byte.toNat

/-- Takes a field of `width` bits from the front. -/
def readField (width : Nat) (bits : List Bool) : Option (Nat × List Bool) :=
  if width ≤ bits.length then some (bitsValue (bits.take width), bits.drop width) else none

/-- Takes one field of each width. -/
def readFields : List Nat → List Bool → Option (List Nat × List Bool)
  | [], bits => some ([], bits)
  | width :: widths, bits =>
      (readField width bits).bind fun field =>
        (readFields widths field.2).map fun found => (field.1 :: found.1, found.2)

/-- Values in fields of the widths that stand with them. -/
def layOut (fields : List (Nat × Nat)) : List Bool :=
  fields.flatMap fun field => bitsOf field.1 field.2

/-- The fields as the digits of one number. -/
def packed (fields : List (Nat × Nat)) : Nat :=
  fields.foldl (fun value field => value * 2 ^ field.1 + field.2) 0

/-- Each value fits its field. -/
def Fit (fields : List (Nat × Nat)) : Prop := ∀ field ∈ fields, field.2 < 2 ^ field.1

@[simp] theorem bits_of_length (width value : Nat) : (bitsOf width value).length = width := by
  induction width generalizing value with
  | zero => rfl
  | succ width induction => rw [bitsOf, List.length_append, induction, List.length_singleton]

@[simp] theorem byte_bits_nil : byteBits [] = [] := rfl

@[simp] theorem byte_bits_cons (byte : UInt8) (bytes : List UInt8) :
    byteBits (byte :: bytes) = bitsOf 8 byte.toNat ++ byteBits bytes := rfl

@[simp] theorem byte_bits_length (bytes : List UInt8) :
    (byteBits bytes).length = 8 * bytes.length := by
  induction bytes with
  | nil => rfl
  | cons byte bytes induction =>
      rw [byte_bits_cons, List.length_append, induction, bits_of_length, List.length_cons]
      omega

theorem bits_value_append (bits : List Bool) (bit : Bool) :
    bitsValue (bits ++ [bit]) = bitsValue bits * 2 + bit.toNat := by
  simp only [bitsValue, List.foldl_append, List.foldl_cons, List.foldl_nil]

theorem bits_value_of (width value : Nat) : bitsValue (bitsOf width value) = value % 2 ^ width := by
  induction width generalizing value with
  | zero => rw [Nat.pow_zero, Nat.mod_one]; rfl
  | succ width induction =>
      have low : (decide (value % 2 = 1)).toNat = value % 2 := by
        rcases Nat.mod_two_eq_zero_or_one value with even | odd
        · rw [even]
          rfl
        · rw [odd]
          rfl
      rw [bitsOf, bits_value_append, induction, low, Nat.pow_succ', Nat.mod_mul]
      omega

theorem bits_value_lt (bits : List Bool) : bitsValue bits < 2 ^ bits.length := by
  induction bits using List.reverseRecOn with
  | nil => exact Nat.one_pos
  | append_singleton bits bit induction =>
      have bound := Bool.toNat_lt bit
      rw [bits_value_append, List.length_append, List.length_singleton, Nat.pow_succ]
      omega

/-- Two fields one behind the other are one field. -/
theorem bits_of_add (left right value : Nat) :
    bitsOf (left + right) value = bitsOf left (value / 2 ^ right) ++ bitsOf right value := by
  induction right generalizing value with
  | zero => rw [Nat.pow_zero, Nat.div_one, bitsOf, List.append_nil, Nat.add_zero]
  | succ right induction =>
      rw [← Nat.add_assoc, bitsOf, induction, bitsOf, List.append_assoc, Nat.div_div_eq_div_mul,
        ← Nat.pow_succ']

/-- Only the value modulo the range of the width is written. -/
theorem bits_of_congr {width left right : Nat} (same : left % 2 ^ width = right % 2 ^ width) :
    bitsOf width left = bitsOf width right := by
  induction width generalizing left right with
  | zero => rfl
  | succ width induction =>
      rw [Nat.pow_succ'] at same
      have high : left / 2 % 2 ^ width = right / 2 % 2 ^ width := by
        rw [← Nat.mod_mul_right_div_self, same, Nat.mod_mul_right_div_self]
      have low : left % 2 = right % 2 := by
        rw [← Nat.mod_mul_right_mod left 2 (2 ^ width), same, Nat.mod_mul_right_mod]
      rw [bitsOf, bitsOf, induction high, low]

/-- A sum in which the lower field does not reach into the higher one. -/
theorem bits_of_sum {left right low : Nat} (high : Nat) (bound : low < 2 ^ right) :
    bitsOf (left + right) (high * 2 ^ right + low) = bitsOf left high ++ bitsOf right low := by
  have positive : 0 < 2 ^ right := Nat.two_pow_pos right
  have quotient : (high * 2 ^ right + low) / 2 ^ right = high := by
    rw [Nat.add_comm, Nat.add_mul_div_right _ _ positive, Nat.div_eq_of_lt bound, Nat.zero_add]
  rw [bits_of_add, quotient]
  apply congrArg (bitsOf left high ++ ·)
  apply bits_of_congr
  rw [Nat.add_comm, Nat.add_mul_mod_self_right]

theorem read_field_append {width value : Nat} (bound : value < 2 ^ width) (rest : List Bool) :
    readField width (bitsOf width value ++ rest) = some (value, rest) := by
  have length := bits_of_length width value
  unfold readField
  rw [if_pos (by rw [List.length_append, length]; omega), List.take_left' length,
    List.drop_left' length, bits_value_of, Nat.mod_eq_of_lt bound]

theorem read_field_lt {width value : Nat} {bits rest : List Bool}
    (read : readField width bits = some (value, rest)) : value < 2 ^ width := by
  unfold readField at read
  split_ifs at read with inside
  obtain ⟨same, -⟩ := Prod.mk.inj (Option.some.inj read)
  have bound := bits_value_lt (bits.take width)
  rwa [same, List.length_take, Nat.min_eq_left inside] at bound

theorem lay_out_cons (width value : Nat) (fields : List (Nat × Nat)) :
    layOut ((width, value) :: fields) = bitsOf width value ++ layOut fields := rfl

theorem read_fields_cons {width value : Nat} {bits behind : List Bool}
    (read : readField width bits = some (value, behind)) (widths : List Nat) :
    readFields (width :: widths) bits =
      (readFields widths behind).map fun found => (value :: found.1, found.2) := by
  rw [readFields, read, Option.bind_some]

/-- Values that fit their fields are read back. -/
theorem read_fields_append (fields : List (Nat × Nat)) (fits : Fit fields) (rest : List Bool) :
    readFields (fields.map Prod.fst) (layOut fields ++ rest) =
      some (fields.map Prod.snd, rest) := by
  induction fields with
  | nil => rfl
  | cons field fields induction =>
      have first := fits field List.mem_cons_self
      have later := induction fun other member => fits other (List.mem_cons_of_mem _ member)
      rw [lay_out_cons, List.append_assoc, List.map_cons,
        read_fields_cons (read_field_append first _), later]
      rfl

/-- As many values are read as there are widths, and each fits its field. -/
theorem read_fields_fit {widths values : List Nat} {bits rest : List Bool}
    (read : readFields widths bits = some (values, rest)) :
    List.Forall₂ (fun width value => value < 2 ^ width) widths values := by
  induction widths generalizing bits values rest with
  | nil =>
      obtain ⟨same, -⟩ := Prod.mk.inj (Option.some.inj read)
      rw [← same]
      exact .nil
  | cons width widths induction =>
      cases first : readField width bits with
      | none =>
          rw [readFields, first] at read
          contradiction
      | some found =>
          rw [read_fields_cons first] at read
          obtain ⟨⟨later, behind⟩, others, same⟩ := Option.map_eq_some_iff.mp read
          obtain ⟨sameValues, -⟩ := Prod.mk.inj same
          rw [← sameValues]
          exact .cons (read_field_lt first) (induction others)

theorem lay_out_packed (fields : List (Nat × Nat)) (fits : Fit fields) :
    layOut fields = bitsOf (fields.map Prod.fst).sum (packed fields) := by
  induction fields using List.reverseRecOn with
  | nil => rfl
  | append_singleton fields field induction =>
      have before := induction fun other member => fits other (List.mem_append_left _ member)
      have last := fits field (List.mem_append_right _ List.mem_cons_self)
      have number : packed (fields ++ [field]) = packed fields * 2 ^ field.1 + field.2 := by
        simp only [packed, List.foldl_append, List.foldl_cons, List.foldl_nil]
      rw [number, List.map_append, List.sum_append, List.map_singleton, List.sum_singleton,
        bits_of_sum _ last, ← before, layOut, List.flatMap_append, List.flatMap_singleton]
      rfl

/-- Fields of one number are the same bits, however they are cut. -/
theorem lay_out_congr {left right : List (Nat × Nat)} (fits : Fit left) (fits' : Fit right)
    (widths : (left.map Prod.fst).sum = (right.map Prod.fst).sum)
    (numbers : packed left = packed right) : layOut left = layOut right := by
  rw [lay_out_packed left fits, lay_out_packed right fits', widths, numbers]

theorem byte_widths (bytes : List UInt8) :
    ((bytes.map fun byte => (8, byte.toNat)).map Prod.fst).sum = 8 * bytes.length := by
  induction bytes with
  | nil => rfl
  | cons byte bytes ih =>
      rw [List.map_cons, List.map_cons, List.sum_cons, ih, List.length_cons]
      omega

theorem byte_bits_lay_out (bytes : List UInt8) :
    byteBits bytes = layOut (bytes.map fun byte => (8, byte.toNat)) := by
  rw [layOut, List.flatMap_map]
  rfl

theorem bytes_fit (bytes : List UInt8) : Fit (bytes.map fun byte => (8, byte.toNat)) := by
  intro field member
  obtain ⟨byte, -, same⟩ := List.mem_map.mp member
  rw [← same]
  exact byte.toNat_lt

theorem byte_bits_append (left right : List UInt8) :
    byteBits (left ++ right) = byteBits left ++ byteBits right := List.flatMap_append

/-- A field that is shifted in behind others, where `range` keeps at least those. -/
theorem bits_of_shifted {left right range low : Nat} (high : Nat) (bound : low < 2 ^ right)
    (kept : left + right ≤ range) :
    bitsOf (left + right) ((high <<< right) % 2 ^ range ||| low) =
      bitsOf left high ++ bitsOf right low := by
  obtain ⟨more, rfl⟩ : ∃ more, range = right + more := ⟨range - right, by omega⟩
  have shifted : (high <<< right) % 2 ^ (right + more) = 2 ^ right * (high % 2 ^ more) := by
    rw [Nat.shiftLeft_eq, Nat.pow_add, Nat.mul_comm, Nat.mul_mod_mul_left]
  have same : high % 2 ^ more % 2 ^ left = high % 2 ^ left :=
    Nat.mod_mod_of_dvd _ (Nat.pow_dvd_pow 2 (by omega))
  rw [shifted, ← Nat.two_pow_add_eq_or_of_lt bound, Nat.mul_comm, bits_of_sum _ bound,
    bits_of_congr same]

/-- Fields of one width are told apart from the front. -/
theorem equal_widths_take {width : Nat} (fields others : List Nat) {rest more : List Bool}
    (fit : ∀ field ∈ fields, field < 2 ^ width) (othersFit : ∀ field ∈ others, field < 2 ^ width)
    (same : fields.flatMap (bitsOf width) ++ rest = others.flatMap (bitsOf width) ++ more)
    (shorter : fields.length ≤ others.length) : fields <+: others := by
  induction fields generalizing others with
  | nil => exact List.nil_prefix
  | cons field fields induction =>
      cases others with
      | nil => exact absurd shorter (by simp)
      | cons other others =>
          rw [List.flatMap_cons, List.flatMap_cons, List.append_assoc, List.append_assoc] at same
          obtain ⟨first, behind⟩ := List.append_inj same (by simp)
          have value := congrArg bitsValue first
          rw [bits_value_of, bits_value_of, Nat.mod_eq_of_lt (fit field List.mem_cons_self),
            Nat.mod_eq_of_lt (othersFit other List.mem_cons_self)] at value
          rw [value, List.prefix_cons_inj]
          exact induction others (fun field member => fit field (List.mem_cons_of_mem _ member))
            (fun field member => othersFit field (List.mem_cons_of_mem _ member)) behind
            (by simpa using shorter)

theorem equal_widths_length (width : Nat) (fields : List Nat) :
    (fields.flatMap (bitsOf width)).length = width * fields.length := by
  induction fields with
  | nil => rfl
  | cons field fields induction =>
      rw [List.flatMap_cons, List.length_append, induction, bits_of_length, List.length_cons,
        Nat.mul_succ, Nat.add_comm]

end Mgw.BitFields
