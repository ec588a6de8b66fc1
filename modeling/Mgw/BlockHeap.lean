import Mathlib.Logic.Function.Basic
import Mathlib.Data.List.Basic

/-!
A heap of numbered blocks of bytes. Blocks are numbered in the order of their
allocation and no number is used again, so that a pointer to a released block
stays one. A release, a read or a write through such a pointer has no result.
-/

namespace Mgw.BlockHeap

set_option autoImplicit false

structure Heap where
  blocks : Nat → Option (List UInt8)
  count : Nat

namespace Heap

variable (heap : Heap)

def empty : Heap where
  blocks := fun _ => none
  count := 0

/-- The new block has the number `heap.count`. -/
def malloc (contents : List UInt8) : Heap where
  blocks := Function.update heap.blocks heap.count (some contents)
  count := heap.count + 1

/-- A null pointer may be released. -/
def free : Option Nat → Option Heap
  | none => some heap
  | some block =>
      (heap.blocks block).map fun _ => { heap with blocks := Function.update heap.blocks block none }

/-- No byte may be read through any pointer. -/
def read (pointer : Option Nat) (size : Nat) : Option (List UInt8) :=
  if size = 0 then some []
  else (pointer.bind heap.blocks).bind fun contents =>
    if size ≤ contents.length then some (contents.take size) else none

/-- The first bytes of a block are overwritten. -/
def write (pointer : Option Nat) (bytes : List UInt8) : Option Heap :=
  pointer.bind fun block => (heap.blocks block).bind fun contents =>
    if bytes.length ≤ contents.length then
      some { heap with
        blocks := Function.update heap.blocks block (some (bytes ++ contents.drop bytes.length)) }
    else none

/-- Bytes inside a block are overwritten. -/
def writeAt (pointer : Option Nat) (offset : Nat) (bytes : List UInt8) : Option Heap :=
  (heap.read pointer offset).bind fun before => heap.write pointer (before ++ bytes)

/-- The block is released and a new one has its bytes, as far as they fit. -/
def realloc (pointer : Option Nat) (size : Nat) : Option Heap :=
  match pointer with
  | none => some (heap.malloc (List.replicate size 0))
  | some block =>
      (heap.blocks block).bind fun contents =>
        (heap.free pointer).map fun freed =>
          freed.malloc (contents.take size ++ List.replicate (size - contents.length) 0)

/-- No block has a number that is still to come. -/
def Numbered : Prop := ∀ block, heap.count ≤ block → heap.blocks block = none

end Heap

section Laws

variable {heap after : Heap} {block : Nat} {contents bytes : List UInt8}

theorem numbered_empty : Heap.empty.Numbered := fun _ _ => rfl

theorem live_numbered (numbered : heap.Numbered) (live : heap.blocks block = some contents) :
    block < heap.count := by
  by_contra past
  rw [numbered block (Nat.not_lt.mp past)] at live
  contradiction

theorem malloc_new (contents : List UInt8) :
    (heap.malloc contents).blocks heap.count = some contents :=
  Function.update_self _ _ _

theorem malloc_other (contents : List UInt8) (different : block ≠ heap.count) :
    (heap.malloc contents).blocks block = heap.blocks block :=
  Function.update_of_ne different _ _

theorem malloc_numbered (numbered : heap.Numbered) (contents : List UInt8) :
    (heap.malloc contents).Numbered := by
  intro block past
  change heap.count + 1 ≤ block at past
  rw [malloc_other contents (by omega)]
  exact numbered block (by omega)

theorem free_live (live : heap.blocks block = some contents) :
    heap.free (some block) = some { heap with blocks := Function.update heap.blocks block none } := by
  rw [Heap.free, live, Option.map_some]

theorem free_released (released : heap.blocks block = none) : heap.free (some block) = none := by
  rw [Heap.free, released, Option.map_none]

/-- What is behind a release: the block is gone, the others stay. -/
theorem free_cases {pointer : Option Nat} (freed : heap.free pointer = some after) :
    after.count = heap.count ∧ (∀ block ∈ pointer, after.blocks block = none) ∧
      ∀ block, block ∉ pointer → after.blocks block = heap.blocks block := by
  cases pointer with
  | none =>
      rw [Heap.free] at freed
      rw [← Option.some.inj freed]
      exact ⟨rfl, fun block impossible => by contradiction, fun block _ => rfl⟩
  | some pointed =>
      obtain ⟨contents, live, same⟩ := Option.map_eq_some_iff.mp freed
      rw [← same]
      refine ⟨rfl, ?_, ?_⟩
      · intro block pointer
        rw [← Option.some.inj pointer]
        exact Function.update_self _ _ _
      · intro block other
        exact Function.update_of_ne (fun equal => other (congrArg some equal.symm)) _ _

theorem free_numbered {pointer : Option Nat} (numbered : heap.Numbered)
    (freed : heap.free pointer = some after) : after.Numbered := by
  obtain ⟨count, gone, kept⟩ := free_cases freed
  intro block past
  by_cases pointed : block ∈ pointer
  · exact gone block pointed
  · rw [kept block pointed]
    exact numbered block (by omega)

theorem read_live (live : heap.blocks block = some contents) {size : Nat}
    (inside : size ≤ contents.length) : heap.read (some block) size = some (contents.take size) := by
  unfold Heap.read
  split_ifs with none
  · rw [none, List.take_zero]
  · rw [Option.bind_some, live, Option.bind_some, if_pos inside]

theorem read_released (released : heap.blocks block = none) {size : Nat} (positive : size ≠ 0) :
    heap.read (some block) size = none := by
  rw [Heap.read, if_neg positive, Option.bind_some, released, Option.bind_none]

/-- Bytes that were read are the first ones of a live block. -/
theorem read_block {pointer : Option Nat} {size : Nat} (read : heap.read pointer size = some bytes)
    (positive : size ≠ 0) :
    ∃ block rest, pointer = some block ∧ heap.blocks block = some (bytes ++ rest) ∧
      bytes.length = size := by
  rw [Heap.read, if_neg positive] at read
  obtain ⟨contents, pointed, taken⟩ := Option.bind_eq_some_iff.mp read
  obtain ⟨block, points, live⟩ := Option.bind_eq_some_iff.mp pointed
  split_ifs at taken with inside
  rw [← Option.some.inj taken, List.length_take, Nat.min_eq_left inside]
  refine ⟨block, contents.drop size, points, ?_, rfl⟩
  rw [live, List.take_append_drop]

theorem write_live (live : heap.blocks block = some contents)
    (inside : bytes.length ≤ contents.length) :
    heap.write (some block) bytes = some { heap with
      blocks := Function.update heap.blocks block (some (bytes ++ contents.drop bytes.length)) } := by
  rw [Heap.write, Option.bind_some, live, Option.bind_some, if_pos inside]

/-- What is behind a write: the block has the bytes, the others stay. -/
theorem write_block (bytes : List UInt8) (live : heap.blocks block = some contents)
    (inside : bytes.length ≤ contents.length) :
    ∃ after, heap.write (some block) bytes = some after ∧
      after.blocks block = some (bytes ++ contents.drop bytes.length) ∧
      ∀ other, other ≠ block → after.blocks other = heap.blocks other := by
  refine ⟨_, write_live live inside, Function.update_self _ _ _, ?_⟩
  intro other different
  exact Function.update_of_ne different _ _

theorem write_kept {pointer : Option Nat} (written : heap.write pointer bytes = some after) :
    ∀ other, other ∉ pointer → after.blocks other = heap.blocks other := by
  obtain ⟨block, points, written⟩ := Option.bind_eq_some_iff.mp written
  obtain ⟨contents, live, written⟩ := Option.bind_eq_some_iff.mp written
  split_ifs at written with inside
  rw [← Option.some.inj written, points]
  intro other outside
  exact Function.update_of_ne (fun same => outside (congrArg some same.symm)) _ _

theorem write_at_block (offset : Nat) (bytes : List UInt8)
    (live : heap.blocks block = some contents)
    (inside : offset + bytes.length ≤ contents.length) :
    ∃ after, heap.writeAt (some block) offset bytes = some after ∧
      after.blocks block =
        some (contents.take offset ++ bytes ++ contents.drop (offset + bytes.length)) ∧
      ∀ other, other ≠ block → after.blocks other = heap.blocks other := by
  have length : (contents.take offset ++ bytes).length = offset + bytes.length := by
    rw [List.length_append, List.length_take]
    omega
  rw [Heap.writeAt, read_live live (by omega), Option.bind_some, ← length]
  exact write_block _ live (by rw [length]; exact inside)

/-- A null pointer or one to a live block may be reallocated; the new block has the number
`heap.count`. -/
theorem realloc_live {pointer : Option Nat} (size : Nat)
    (live : ∀ old ∈ pointer, heap.blocks old ≠ none) :
    ∃ after contents, heap.realloc pointer size = some after ∧ after.count = heap.count + 1 ∧
      after.blocks heap.count = some contents ∧ contents.length = size ∧
      ∀ block, block ∉ pointer → block ≠ heap.count → after.blocks block = heap.blocks block := by
  cases pointer with
  | none =>
      exact ⟨_, _, rfl, rfl, malloc_new _, List.length_replicate, fun block _ other =>
        malloc_other _ other⟩
  | some old =>
      obtain ⟨contents, held⟩ := Option.ne_none_iff_exists'.mp (live old rfl)
      obtain ⟨freed, release⟩ : ∃ freed, heap.free (some old) = some freed := ⟨_, free_live held⟩
      obtain ⟨count, -, kept⟩ := free_cases release
      have moved : heap.realloc (some old) size = some (freed.malloc
          (contents.take size ++ List.replicate (size - contents.length) 0)) := by
        rw [Heap.realloc, held, Option.bind_some, release, Option.map_some]
      rw [← count]
      refine ⟨_, _, moved, rfl, malloc_new _, ?_, ?_⟩
      · rw [List.length_append, List.length_take, List.length_replicate]
        omega
      · intro block outside other
        rw [malloc_other _ other]
        exact kept block outside

/-- What is behind a reallocation: the old block was live and is gone. -/
theorem realloc_cases {pointer : Option Nat} {size : Nat} (numbered : heap.Numbered)
    (moved : heap.realloc pointer size = some after) :
    after.count = heap.count + 1 ∧
      ∀ old ∈ pointer, heap.blocks old ≠ none ∧ after.blocks old = none := by
  cases pointer with
  | none =>
      rw [Heap.realloc] at moved
      rw [← Option.some.inj moved]
      exact ⟨rfl, fun old impossible => by contradiction⟩
  | some pointed =>
      rw [Heap.realloc] at moved
      obtain ⟨contents, live, moved⟩ := Option.bind_eq_some_iff.mp moved
      obtain ⟨freed, release, same⟩ := Option.map_eq_some_iff.mp moved
      obtain ⟨count, gone, -⟩ := free_cases release
      rw [← same, ← count]
      refine ⟨rfl, ?_⟩
      intro old pointer
      have before : old < freed.count := by
        rw [count, ← Option.some.inj pointer]
        exact live_numbered numbered live
      rw [malloc_other _ (Nat.ne_of_lt before), ← Option.some.inj pointer, live]
      exact ⟨Option.some_ne_none contents, gone pointed rfl⟩

/-- A block that was just allocated is filled, which is as good as allocating it filled. -/
theorem write_new (heap : Heap) {contents bytes : List UInt8} (filled : bytes.length = contents.length) :
    (heap.malloc contents).write (some heap.count) bytes = some (heap.malloc bytes) := by
  rw [write_live (malloc_new contents) (Nat.le_of_eq filled),
    List.drop_of_length_le (Nat.le_of_eq filled.symm), List.append_nil]
  unfold Heap.malloc
  dsimp only
  rw [Function.update_idem]

/-- A live block is overwritten twice. -/
theorem write_twice {zeros : List UInt8} (live : heap.blocks block = some contents)
    (first : zeros.length ≤ contents.length) (second : bytes.length ≤ zeros.length) :
    ∃ rest, (heap.write (some block) zeros).bind (·.write (some block) bytes) = some { heap with
      blocks := Function.update heap.blocks block (some (bytes ++ rest)) } := by
  refine ⟨(zeros ++ contents.drop zeros.length).drop bytes.length, ?_⟩
  have zeroed : Function.update heap.blocks block (some (zeros ++ contents.drop zeros.length)) block =
      some (zeros ++ contents.drop zeros.length) := Function.update_self _ _ _
  rw [write_live live first, Option.bind_some,
    write_live zeroed (by rw [List.length_append]; omega)]
  dsimp only
  rw [Function.update_idem]

theorem write_released (released : heap.blocks block = none) : heap.write (some block) bytes = none := by
  rw [Heap.write, Option.bind_some, released, Option.bind_none]

end Laws

end Mgw.BlockHeap
