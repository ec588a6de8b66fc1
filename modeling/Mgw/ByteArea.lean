import Mathlib.Data.Nat.ModEq

/-!
Byte areas as functions of the address, with the copies that C programs make
into them. A circular area of `size` bytes that is filled by one copy (or two,
at the wrap) after another holds the last `size` bytes of the stream of all
bytes ever copied in: `Window` is that relation and `window_append` its step.
-/

namespace Mgw.ByteArea

/-- The bytes that can be read from a pointer, by offset. -/
abbrev Bytes := Nat → UInt8

/-- The pointer moved forward by `count` bytes. -/
def advance (source : Bytes) (count : Nat) : Bytes := fun index => source (count + index)

/-- `memcpy(area + offset, source, length)`. -/
def copyIn (area : Bytes) (offset : Nat) (source : Bytes) (length : Nat) : Bytes := fun address =>
  if offset ≤ address ∧ address < offset + length then source (address - offset) else area address

/-- The first `length` bytes behind a pointer. -/
def takeBytes (source : Bytes) (length : Nat) : List UInt8 := (List.range length).map source

@[simp] theorem advance_apply (source : Bytes) (count index : Nat) :
    advance source count index = source (count + index) := rfl

@[simp] theorem take_bytes_length (source : Bytes) (length : Nat) :
    (takeBytes source length).length = length := by
  simp [takeBytes]

@[simp] theorem advance_advance (source : Bytes) (left right : Nat) :
    advance (advance source left) right = advance source (left + right) := by
  funext index
  rw [advance_apply, advance_apply, advance_apply, Nat.add_assoc]

theorem take_bytes_add (source : Bytes) (left right : Nat) :
    takeBytes source (left + right) =
      takeBytes source left ++ takeBytes (advance source left) right := by
  rw [takeBytes, List.range_add, List.map_append, List.map_map]
  rfl

theorem take_bytes_congr {left right : Bytes} {length : Nat}
    (same : ∀ index < length, left index = right index) :
    takeBytes left length = takeBytes right length := by
  apply List.map_congr_left
  intro index member
  exact same index (List.mem_range.mp member)

theorem copy_in_inside (area source : Bytes) (offset length index : Nat) (bound : index < length) :
    copyIn area offset source length (offset + index) = source index := by
  rw [copyIn, if_pos ⟨by omega, by omega⟩, Nat.add_sub_cancel_left]

theorem copy_in_outside (area source : Bytes) (offset length address : Nat)
    (outside : address < offset ∨ offset + length ≤ address) :
    copyIn area offset source length address = area address := by
  rw [copyIn, if_neg (by omega)]

theorem take_bytes_get (bytes : List UInt8) :
    takeBytes (fun index => bytes.getD index 0) bytes.length = bytes := by
  apply List.ext_getElem
  · rw [take_bytes_length]
  · intro index _ bound
    simp [takeBytes, List.getElem?_eq_getElem bound]

/-- Bytes copied to some place are read back from there. -/
theorem take_bytes_copied (area : Bytes) (offset : Nat) (bytes : List UInt8) :
    takeBytes (advance (copyIn area offset (fun index => bytes.getD index 0) bytes.length) offset)
      bytes.length = bytes := by
  apply Eq.trans _ (take_bytes_get bytes)
  apply take_bytes_congr
  intro index bound
  rw [advance_apply]
  exact copy_in_inside _ _ offset _ index bound

/-- The usual two-part copy into a circular area: up to its end, then from its start. -/
def circularCopyIn (size : Nat) (area : Bytes) (start : Nat) (source : Bytes) (length : Nat) :
    Bytes :=
  if start + length ≤ size then copyIn area start source length
  else
    let left := size - start
    copyIn (copyIn area start source left) 0 (advance source left) (length - left)

/-- The two-part copy out of a circular area, as the bytes the destination then holds. -/
def circularCopyOut (size : Nat) (area : Bytes) (start length : Nat) : List UInt8 :=
  if start + length ≤ size then takeBytes (advance area start) length
  else
    let left := size - start
    takeBytes (advance area start) left ++ takeBytes area (length - left)

/-- The position after `length` more bytes from `start`, as the two-part copy leaves it. -/
def circularNext (size start length : Nat) : Nat :=
  if start + length ≤ size then
    if start + length = size then 0 else start + length
  else length - (size - start)

section Circular

variable {size start length : Nat}

theorem circular_next_eq_mod (inside : start < size) (fits : length ≤ size) :
    circularNext size start length = (start + length) % size := by
  unfold circularNext
  split_ifs with straight exact_end
  · rw [exact_end, Nat.mod_self]
  · rw [Nat.mod_eq_of_lt (by omega)]
  · rw [Nat.mod_eq_sub_mod (by omega), Nat.mod_eq_of_lt (by omega)]
    omega

theorem circular_copy_in_inside (area source : Bytes) (inside : start < size)
    (fits : length ≤ size) (index : Nat) (bound : index < length) :
    circularCopyIn size area start source length ((start + index) % size) = source index := by
  unfold circularCopyIn
  split_ifs with straight
  · rw [Nat.mod_eq_of_lt (by omega)]
    exact copy_in_inside area source start length index bound
  · by_cases before : index < size - start
    · rw [Nat.mod_eq_of_lt (by omega), copy_in_outside _ _ _ _ _ (by omega)]
      exact copy_in_inside area source start (size - start) index before
    · have wrapped : (start + index) % size = 0 + (index - (size - start)) := by
        rw [Nat.mod_eq_sub_mod (by omega), Nat.mod_eq_of_lt (by omega)]
        omega
      rw [wrapped, copy_in_inside _ _ _ _ _ (by omega), advance_apply]
      congr 1
      omega

theorem circular_copy_in_outside (area source : Bytes) (inside : start < size)
    (address : Nat) (bound : address < size)
    (outside : ∀ index < length, (start + index) % size ≠ address) :
    circularCopyIn size area start source length address = area address := by
  unfold circularCopyIn
  split_ifs with straight
  · apply copy_in_outside
    by_contra covered
    apply outside (address - start) (by omega)
    rw [Nat.mod_eq_of_lt (by omega)]
    omega
  · have above : start > address := by
      by_contra covered
      apply outside (address - start) (by omega)
      rw [Nat.mod_eq_of_lt (by omega)]
      omega
    have below : length - (size - start) ≤ address := by
      by_contra covered
      apply outside (address + (size - start)) (by omega)
      rw [Nat.mod_eq_sub_mod (by omega), Nat.mod_eq_of_lt (by omega)]
      omega
    rw [copy_in_outside _ _ _ _ _ (by omega), copy_in_outside _ _ _ _ _ (by omega)]

/-- A circular copy out reads the bytes at consecutive circular addresses. -/
theorem circular_copy_out_eq (area : Bytes) (inside : start < size) (fits : length ≤ size) :
    circularCopyOut size area start length =
      takeBytes (fun index => area ((start + index) % size)) length := by
  unfold circularCopyOut
  split_ifs with straight
  · apply take_bytes_congr
    intro index bound
    rw [advance_apply, Nat.mod_eq_of_lt (by omega)]
  · obtain ⟨rest, total⟩ : ∃ rest, length = (size - start) + rest :=
      ⟨length - (size - start), by omega⟩
    simp only [total, Nat.add_sub_cancel_left, takeBytes, List.range_add, List.map_append,
      List.map_map]
    congr 1
    · apply List.map_congr_left
      intro index member
      have bound := List.mem_range.mp member
      rw [advance_apply, Nat.mod_eq_of_lt (by omega)]
    · apply List.map_congr_left
      intro index member
      have bound := List.mem_range.mp member
      rw [Function.comp_apply, Nat.mod_eq_sub_mod (by omega), Nat.mod_eq_of_lt (by omega)]
      congr 1
      omega

end Circular

/-- The stream continued by `source` from position `written` on. -/
def extend (stream : Bytes) (written : Nat) (source : Bytes) : Bytes := fun address =>
  if address < written then stream address else source (address - written)

/-- The area holds the last `size` bytes of the first `written` bytes of the stream. -/
def Window (size : Nat) (area stream : Bytes) (written : Nat) : Prop :=
  ∀ address, address < written → written ≤ address + size → area (address % size) = stream address

theorem window_empty (size : Nat) (area stream : Bytes) : Window size area stream 0 := by
  intro address bound
  omega

theorem add_mod_left_eq (size base index : Nat) :
    (base % size + index) % size = (base + index) % size := by
  rw [Nat.add_mod, Nat.mod_mod, ← Nat.add_mod]

/-- Two addresses less than a lap apart and at one place of the circle are equal. -/
theorem eq_of_mod_eq {size left right : Nat} (same : left % size = right % size)
    (ordered : left ≤ right) (near : right < left + size) : left = right := by
  have shifted : (right - left) % size = 0 := by
    have congruent : left ≡ right [MOD size] := same
    exact Nat.mod_eq_zero_of_dvd ((Nat.modEq_iff_dvd' ordered).mp congruent)
  rw [Nat.mod_eq_of_lt (by omega)] at shifted
  omega

theorem window_append {size : Nat} {area stream : Bytes} {written : Nat} (source : Bytes)
    (length : Nat) (positive : 0 < size) (fits : length ≤ size)
    (window : Window size area stream written) :
    Window size (circularCopyIn size area (written % size) source length)
      (extend stream written source) (written + length) := by
  intro address bound recent
  have inside : written % size < size := Nat.mod_lt _ positive
  by_cases old : address < written
  · rw [extend, if_pos old, ← window address old (by omega)]
    apply circular_copy_in_outside area source inside _ (Nat.mod_lt _ positive)
    intro index indexBound same
    rw [add_mod_left_eq] at same
    have equal := eq_of_mod_eq same.symm (by omega) (by omega)
    omega
  · rw [extend, if_neg old]
    have split : address = written + (address - written) := by omega
    rw [split, ← add_mod_left_eq, circular_copy_in_inside area source inside fits _ (by omega)]
    congr 1
    omega

end Mgw.ByteArea
