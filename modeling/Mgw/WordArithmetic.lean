import Mathlib.Data.Nat.ModEq

/-!
The 32-bit arithmetic of C on natural numbers: `unsigned int` values are kept
below `2 ^ 32`, and `int32` is the conversion of such a value to `int`. `size_t`
has 64 bits.
-/

namespace Mgw.WordArithmetic

def wordSize : Nat := 4294967296

/-- Conversion of a result to `unsigned int`. -/
def u32 (value : Nat) : Nat := value % wordSize

/-- Subtraction of `unsigned int` values; also that of two 64-bit values whose
difference is then stored in an `unsigned int`. -/
def sub32 (left right : Nat) : Nat := (wordSize - right % wordSize + left) % wordSize

def sizeRange : Nat := 18446744073709551616

/-- Addition and subtraction of `size_t` values. -/
def addSize (left right : Nat) : Nat := (left + right) % sizeRange

def subSize (left right : Nat) : Nat := (sizeRange - right % sizeRange + left) % sizeRange

/-- Conversion of an `unsigned int` to `int`. -/
def int32 (value : Nat) : Int :=
  if u32 value < 2147483648 then (u32 value : Int) else (u32 value : Int) - 4294967296

theorem u32_of_lt {value : Nat} (bound : value < wordSize) : u32 value = value :=
  Nat.mod_eq_of_lt bound

theorem sub32_of_le {left right : Nat} (ordered : right ≤ left) :
    sub32 left right = (left - right) % wordSize := by
  simp only [sub32, wordSize]
  omega

theorem sub32_of_le_of_lt {left right : Nat} (ordered : right ≤ left) (bound : left < wordSize) :
    sub32 left right = left - right := by
  rw [sub32_of_le ordered, Nat.mod_eq_of_lt (by omega)]

theorem sub_size_of_le {left right : Nat} (ordered : right ≤ left) (bound : left < sizeRange) :
    subSize left right = left - right := by
  simp only [subSize, sizeRange] at bound ⊢
  omega

theorem int32_of_lt {value : Nat} (bound : value < 2147483648) : int32 value = value := by
  have same : u32 value = value := u32_of_lt (by simp only [wordSize]; omega)
  rw [int32, same, if_pos bound]

/-- Wrapped differences that are negative as `int`. -/
theorem int32_sub_neg {left right : Nat} (ordered : left < right) (bound : right < 2147483648) :
    int32 (sub32 left right) < 0 := by
  simp only [int32, u32, sub32, wordSize]
  split_ifs <;> omega

end Mgw.WordArithmetic
