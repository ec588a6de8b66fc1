import Mathlib.Algebra.Ring.Nat
import Mathlib.Data.List.Basic

/-!
Unsigned numbers in a given count of bytes, high byte first, and readers that
take such a number, or a run of bytes, from the front of an input.
-/

namespace Mgw.BigEndian

set_option autoImplicit false

/-- The last `width` bytes of the number. -/
def beBytes : Nat → Nat → List UInt8
  | 0, _ => []
  | width + 1, value => beBytes width (value / 256) ++ [UInt8.ofNat value]

def beValue (bytes : List UInt8) : Nat :=
  bytes.foldl (fun value byte => value * 256 + byte.toNat) 0

/-- Splits off the first `count` bytes. -/
def readFixed (count : Nat) (input : List UInt8) : Option (List UInt8 × List UInt8) :=
  if count ≤ input.length then some (input.take count, input.drop count) else none

def readBe (width : Nat) (input : List UInt8) : Option (Nat × List UInt8) :=
  (readFixed width input).map fun (bytes, rest) => (beValue bytes, rest)

@[simp] theorem be_bytes_length (width value : Nat) : (beBytes width value).length = width := by
  induction width generalizing value with
  | zero => rfl
  | succ width induction => rw [beBytes, List.length_append, induction, List.length_singleton]

theorem of_nat_congr {left right : Nat} (same : left % 256 = right % 256) :
    UInt8.ofNat left = UInt8.ofNat right := by
  apply UInt8.toNat_inj.mp
  rw [UInt8.toNat_ofNat', UInt8.toNat_ofNat']
  exact same

/-- Only the value modulo the range of the width is written. -/
theorem be_bytes_congr {width left right : Nat} (same : left % 256 ^ width = right % 256 ^ width) :
    beBytes width left = beBytes width right := by
  induction width generalizing left right with
  | zero => rfl
  | succ width induction =>
      have power : 256 ^ (width + 1) = 256 * 256 ^ width := Nat.pow_succ'
      rw [power] at same
      have high : left / 256 % 256 ^ width = right / 256 % 256 ^ width := by
        rw [← Nat.mod_mul_right_div_self, same, Nat.mod_mul_right_div_self]
      have low : left % 256 = right % 256 := by
        rw [← Nat.mod_mul_right_mod left 256 (256 ^ width), same, Nat.mod_mul_right_mod]
      rw [beBytes, beBytes, induction high, of_nat_congr low]

theorem be_bytes_add (left right value : Nat) :
    beBytes (left + right) value = beBytes left (value / 256 ^ right) ++ beBytes right value := by
  induction right generalizing value with
  | zero => rw [Nat.pow_zero, Nat.div_one, beBytes, List.append_nil, Nat.add_zero]
  | succ right induction =>
      rw [← Nat.add_assoc, beBytes, induction, beBytes, List.append_assoc, Nat.div_div_eq_div_mul,
        ← Nat.pow_succ']

theorem be_value_append (bytes : List UInt8) (byte : UInt8) :
    beValue (bytes ++ [byte]) = beValue bytes * 256 + byte.toNat := by
  unfold beValue
  rw [List.foldl_append]
  rfl

theorem be_value_bytes (width value : Nat) :
    beValue (beBytes width value) = value % 256 ^ width := by
  induction width generalizing value with
  | zero =>
      rw [Nat.pow_zero, Nat.mod_one]
      rfl
  | succ width induction =>
      have power : 256 ^ (width + 1) = 256 * 256 ^ width := Nat.pow_succ'
      rw [beBytes, be_value_append, induction, UInt8.toNat_ofNat', power, Nat.mod_mul]
      omega

/-- A number that fits is read back from its bytes. -/
theorem be_value_of_lt {width value : Nat} (bound : value < 256 ^ width) :
    beValue (beBytes width value) = value := by
  rw [be_value_bytes, Nat.mod_eq_of_lt bound]

theorem read_fixed_append {count : Nat} {bytes : List UInt8} (size : bytes.length = count)
    (rest : List UInt8) : readFixed count (bytes ++ rest) = some (bytes, rest) := by
  unfold readFixed
  rw [if_pos (by simp [size]), ← size, List.take_left, List.drop_left]

theorem read_be_append {width value : Nat} (bound : value < 256 ^ width) (rest : List UInt8) :
    readBe width (beBytes width value ++ rest) = some (value, rest) := by
  unfold readBe
  rw [read_fixed_append (be_bytes_length width value)]
  simp only [Option.map_some, be_value_of_lt bound]

end Mgw.BigEndian
