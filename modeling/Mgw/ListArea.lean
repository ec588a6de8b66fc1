import Mathlib.Data.List.Basic

/-!
Areas of memory as lists: what is written at an offset takes the place of what was there,
and the area keeps its length.
-/

namespace Mgw.ListArea

set_option autoImplicit false

variable {Item : Type*}

/-- `memcpy(area + offset, source, length of source)`. -/
def put (area : List Item) (offset : Nat) (source : List Item) : List Item :=
  area.take offset ++ source ++ area.drop (offset + source.length)

variable {area source : List Item} {offset : Nat}

@[simp] theorem put_nil (area : List Item) (offset : Nat) : put area offset [] = area := by
  simp [put]

@[simp] theorem put_length (fits : offset + source.length ≤ area.length) :
    (put area offset source).length = area.length := by
  simp only [put, List.length_append, List.length_take, List.length_drop]
  omega

/-- The area up to the end of what was written. -/
theorem take_put (inside : offset ≤ area.length) :
    (put area offset source).take (offset + source.length) = area.take offset ++ source := by
  have front : (area.take offset ++ source).length = offset + source.length := by
    simp [inside]
  rw [put, List.take_left' front]

@[simp] theorem take_put_zero (area source : List Item) :
    (put area 0 source).take source.length = source := by
  simp [put]

end Mgw.ListArea
