import Mgw.StreamBuffPut
import Mgw.TransitionRuns

/-!
# The slots that a write indexes

`PutOneFrameToBuff` and `CheckBuffDataCover` with the indices they use of the
frame table, in the order of use. The walk of the cover check counts upwards
from the writer's next slot and has no regard to the end of the table; only a
slot that was not overwritten ends it early.
-/

namespace Mgw.StreamBuff

open TransitionRuns WordArithmetic

set_option autoImplicit false

/-- The indices of `coverLoop`. -/
def coverIndices (posS posE : Nat) : Nat → Nat → SMemoryPosition → List Nat
  | 0, _, _ => []
  | remaining + 1, index, memory =>
      index :: if covered posS posE (memory.framePosition index) then
        coverIndices posS posE remaining (index + 1) (memory.clearValidFlag index)
      else []

namespace SMemoryPosition

variable (memory : SMemoryPosition)

def nextSlot : Nat := (memory.writeSlot + 1) % memory.pstuHead.uiMaxValidFrames

/-- The indices of the cover check in `putOneFrameToBuff`. -/
def checkIndices (frame : Frame) : List Nat :=
  let posS := (memory.pstuFrames memory.writeSlot).position
  coverIndices posS (writeEnd memory.pstuHead.datasize posS frame.framelen)
    (sub32 memory.pstuHead.uiMaxValidFrames 2) memory.nextSlot (storeFrame memory frame)

/-- The indices of `putOneFrameToBuff`; `none` is the division by zero in its first lines. -/
def putIndices (frame : Frame) : Option (List Nat) :=
  if memory.pstuHead.uiMaxValidFrames = 0 then none
  else if memory.pstuHead.datasize / 2 ≤ frame.framelen then some []
  else some (memory.writeSlot :: (memory.checkIndices frame ++ [memory.nextSlot]))

/-- No division by zero, no index outside the table, and a cover check that goes
around the table from the writer's next slot on. -/
structure IndexesTable (frame : Frame) : Prop where
  divides : memory.pstuHead.uiMaxValidFrames ≠ 0
  inTable : ∀ indices ∈ memory.putIndices frame, ∀ index ∈ indices,
    index < memory.pstuHead.uiMaxValidFrames
  circular : memory.pstuHead.datasize / 2 ≤ frame.framelen ∨
    ∀ i index, (memory.checkIndices frame)[i]? = some index →
      index = (memory.nextSlot + i) % memory.pstuHead.uiMaxValidFrames

/-- A slot that the write of this frame leaves alone. -/
def Spared (frame : Frame) (slot : Nat) : Prop :=
  covered (memory.pstuFrames memory.writeSlot).position
    (writeEnd memory.pstuHead.datasize (memory.pstuFrames memory.writeSlot).position
      frame.framelen) (memory.pstuFrames slot).position = false

/-- The table has slots, and the frame is refused for its size, or the walk has no
more rounds than there are slots up to the end of the table, or a spared slot
ends it before. -/
def WalkEnds (frame : Frame) : Prop :=
  memory.pstuHead.uiMaxValidFrames ≠ 0 ∧
    (memory.pstuHead.datasize / 2 ≤ frame.framelen ∨
      (2 ≤ memory.pstuHead.uiMaxValidFrames ∧
        (memory.nextSlot ≤ 2 ∨
          ∃ slot < memory.pstuHead.uiMaxValidFrames,
            memory.nextSlot ≤ slot ∧ memory.Spared frame slot)))

instance spared_decidable (frame : Frame) (slot : Nat) : Decidable (memory.Spared frame slot) :=
  inferInstanceAs (Decidable (_ = _))

instance walk_ends_decidable (frame : Frame) : Decidable (memory.WalkEnds frame) :=
  inferInstanceAs (Decidable (_ ∧ (_ ≤ _ ∨ (_ ≤ _ ∧ (_ ≤ _ ∨ ∃ slot < _, _ ∧ _)))))

end SMemoryPosition

section Walk

variable {memory : SMemoryPosition} {posS posE : Nat}

theorem cover_index_at (remaining index : Nat) (memory : SMemoryPosition) {i other : Nat}
    (used : (coverIndices posS posE remaining index memory)[i]? = some other) :
    other = index + i := by
  induction remaining generalizing index memory i with
  | zero => contradiction
  | succ remaining ih =>
      unfold coverIndices at used
      cases i with
      | zero => exact (Option.some.inj used).symm
      | succ i =>
          rw [List.getElem?_cons_succ] at used
          split_ifs at used
          · rw [ih (index + 1) _ used]
            omega
          · contradiction

/-- A walk by its first slot. -/
theorem walk_in_table_first (remaining index : Nat) :
    WalkInTable memory posS posE (remaining + 1) index ↔
      index < memory.pstuHead.uiMaxValidFrames ∧
        (covered posS posE (memory.pstuFrames index).position = true →
          WalkInTable memory posS posE remaining (index + 1)) := by
  constructor
  · intro inTable
    refine ⟨?_, fun hit => walk_in_table_succ hit inTable⟩
    exact inTable 0 (Nat.succ_pos remaining) fun earlier impossible => absurd impossible (by omega)
  · intro ⟨first, later⟩ steps bound before
    cases steps with
    | zero => exact first
    | succ steps =>
        have further := later (before 0 (Nat.succ_pos steps)) steps (by omega) (by
          intro earlier inside
          have hit := before (earlier + 1) (by omega)
          rwa [Nat.add_comm earlier 1, ← Nat.add_assoc] at hit)
        omega

theorem cover_indices_in_table_iff (remaining index : Nat) (memory : SMemoryPosition) :
    (∀ other ∈ coverIndices posS posE remaining index memory,
        other < memory.pstuHead.uiMaxValidFrames) ↔
      WalkInTable memory posS posE remaining index := by
  induction remaining generalizing index memory with
  | zero =>
      constructor
      · intro _ steps impossible
        contradiction
      · intro _ other impossible
        contradiction
  | succ remaining ih =>
      rw [coverIndices, List.forall_mem_cons, walk_in_table_first]
      refine and_congr_right ?_
      intro first
      rw [SMemoryPosition.framePosition, if_pos first]
      by_cases hit : covered posS posE (memory.pstuFrames index).position = true
      · have cleared := SMemoryPosition.clear_valid_flag_in_table memory first
        have head : (memory.clearValidFlag index).pstuHead = memory.pstuHead := by
          rw [cleared]
          rfl
        have positions : ∀ slot, ((memory.clearValidFlag index).pstuFrames slot).position =
            (memory.pstuFrames slot).position := by
          intro slot
          rw [cleared]
          apply SMemoryPosition.set_frame_position
          rfl
        have rest := ih (index + 1) (memory.clearValidFlag index)
        rw [walk_in_table_congr positions head, head] at rest
        rw [if_pos hit]
        exact rest.trans ⟨fun inTable _ => inTable, fun inTable => inTable hit⟩
      · rw [if_neg hit]
        exact ⟨fun _ again => absurd again hit, fun _ other impossible => absurd impossible (by simp)⟩

/-- A walk that begins in the table stays there when it is short or meets a
position that is not covered. -/
theorem walk_ends_iff {remaining index : Nat}
    (bound : index ≤ memory.pstuHead.uiMaxValidFrames) :
    WalkInTable memory posS posE remaining index ↔
      index + remaining ≤ memory.pstuHead.uiMaxValidFrames ∨
        ∃ slot < memory.pstuHead.uiMaxValidFrames, index ≤ slot ∧
          covered posS posE (memory.pstuFrames slot).position = false := by
  constructor
  · intro inTable
    by_contra ends
    rw [not_or] at ends
    obtain ⟨long, none⟩ := ends
    have past := inTable (memory.pstuHead.uiMaxValidFrames - index) (by omega) (by
      intro earlier inside
      by_contra open'
      exact none ⟨index + earlier, by omega, by omega, Bool.eq_false_of_not_eq_true open'⟩)
    omega
  · intro ends steps inside before
    obtain short | ⟨slot, inTable, above, free⟩ := ends
    · omega
    · by_contra past
      have hit := before (slot - index) (by omega)
      rw [Nat.add_sub_cancel' above, free] at hit
      contradiction

end Walk

section Put

variable {memory : SMemoryPosition} {frame : Frame}

theorem check_indices_in_table_iff (capacity : 2 ≤ memory.pstuHead.uiMaxValidFrames)
    (small : memory.pstuHead.uiMaxValidFrames < 2147483648) :
    (∀ index ∈ memory.checkIndices frame, index < memory.pstuHead.uiMaxValidFrames) ↔
      memory.nextSlot ≤ 2 ∨
        ∃ slot < memory.pstuHead.uiMaxValidFrames,
          memory.nextSlot ≤ slot ∧ memory.Spared frame slot := by
  have bound : memory.nextSlot < memory.pstuHead.uiMaxValidFrames := Nat.mod_lt _ (by omega)
  have indices := @cover_indices_in_table_iff (memory.pstuFrames memory.writeSlot).position
    (writeEnd memory.pstuHead.datasize (memory.pstuFrames memory.writeSlot).position frame.framelen)
    (memory.pstuHead.uiMaxValidFrames - 2) memory.nextSlot (storeFrame memory frame)
  rw [walk_in_table_congr (store_frame_position memory frame) rfl, walk_ends_iff (by omega)] at indices
  have rounds : sub32 memory.pstuHead.uiMaxValidFrames 2 = memory.pstuHead.uiMaxValidFrames - 2 :=
    sub32_of_le_of_lt capacity (by simp only [wordSize]; omega)
  unfold SMemoryPosition.checkIndices
  dsimp only
  rw [rounds]
  refine indices.trans (or_congr ?_ Iff.rfl)
  omega

/-- With one slot the walk goes over that slot, which the write covers, and out of the table. -/
theorem single_slot_leaves (single : memory.pstuHead.uiMaxValidFrames = 1) :
    1 ∈ memory.checkIndices frame := by
  have write : memory.writeSlot = 0 := by
    unfold SMemoryPosition.writeSlot
    rw [single, Nat.mod_one]
  have next : memory.nextSlot = 0 := by
    unfold SMemoryPosition.nextSlot
    rw [single, Nat.mod_one]
  have place : (storeFrame memory frame).framePosition 0 = (memory.pstuFrames 0).position := by
    rw [SMemoryPosition.framePosition, if_pos, store_frame_position]
    change 0 < memory.pstuHead.uiMaxValidFrames
    omega
  have own : ∀ posS posE, covered posS posE posS = true := by
    intro posS posE
    unfold covered
    split_ifs with forward
    · simp [Nat.le_of_lt forward]
    · simp
  unfold SMemoryPosition.checkIndices
  dsimp only
  rw [single, next, write]
  change 1 ∈ coverIndices _ _ (4294967293 + 1 + 1) 0 _
  rw [coverIndices, place, if_pos (own _ _), coverIndices]
  simp

/-- Where there are slots, the writer's own indices lie in the table. -/
theorem accepted_indexes_iff (slots : memory.pstuHead.uiMaxValidFrames ≠ 0)
    (fits : frame.framelen < memory.pstuHead.datasize / 2) :
    memory.IndexesTable frame ↔
      ∀ index ∈ memory.checkIndices frame, index < memory.pstuHead.uiMaxValidFrames := by
  have indices : memory.putIndices frame =
      some (memory.writeSlot :: (memory.checkIndices frame ++ [memory.nextSlot])) := by
    rw [SMemoryPosition.putIndices, if_neg slots, if_neg (Nat.not_le.mpr fits)]
  constructor
  · intro ⟨_, inTable, _⟩ index used
    exact inTable _ indices index (List.mem_cons_of_mem _ (List.mem_append_left _ used))
  · intro checked
    refine ⟨slots, ?_, Or.inr ?_⟩
    · intro found result index used
      rw [indices] at result
      rw [← Option.some.inj result, List.mem_cons, List.mem_append, List.mem_singleton] at used
      obtain rfl | walked | rfl := used
      · exact Nat.mod_lt _ (Nat.pos_of_ne_zero slots)
      · exact checked index walked
      · exact Nat.mod_lt _ (Nat.pos_of_ne_zero slots)
    · intro i index used
      have bound := checked index (List.mem_of_getElem? used)
      rw [cover_index_at _ _ _ used] at bound ⊢
      exact (Nat.mod_eq_of_lt bound).symm

theorem indexes_table_iff (memory : SMemoryPosition) (frame : Frame)
    (small : memory.pstuHead.uiMaxValidFrames < 2147483648) :
    memory.IndexesTable frame ↔ memory.WalkEnds frame := by
  unfold SMemoryPosition.WalkEnds
  by_cases slots : memory.pstuHead.uiMaxValidFrames = 0
  · exact ⟨fun safe => absurd slots safe.divides, fun ends => absurd slots ends.1⟩
  by_cases fits : frame.framelen < memory.pstuHead.datasize / 2
  · rw [accepted_indexes_iff slots fits]
    by_cases capacity : 2 ≤ memory.pstuHead.uiMaxValidFrames
    · rw [check_indices_in_table_iff capacity small]
      exact ⟨fun ends => ⟨slots, Or.inr ⟨capacity, ends⟩⟩, fun ⟨_, ends⟩ =>
        (ends.resolve_left (Nat.not_le.mpr fits)).2⟩
    · constructor
      · intro checked
        have past := checked 1 (single_slot_leaves (by omega))
        omega
      · intro ⟨_, ends⟩
        omega
  · rw [Nat.not_lt] at fits
    refine ⟨fun _ => ⟨slots, Or.inl fits⟩, fun _ => ⟨slots, ?_, Or.inl fits⟩⟩
    intro indices result index used
    rw [SMemoryPosition.putIndices, if_neg slots, if_pos fits] at result
    rw [← Option.some.inj result] at used
    contradiction

end Put

section Run

def written (memory : SMemoryPosition) (frame : Frame) : SMemoryPosition :=
  (putOneFrameToBuff memory frame).2

theorem written_capacity (memory : SMemoryPosition) (frame : Frame) :
    (written memory frame).pstuHead.uiMaxValidFrames = memory.pstuHead.uiMaxValidFrames := by
  unfold written
  by_cases fits : frame.framelen < memory.pstuHead.datasize / 2
  · rw [(put_writes_table fits).2.head]
  · rw [put_rejects memory frame (Nat.not_lt.mp fits)]

theorem meets_indexes_iff (frames : List Frame) (memory : SMemoryPosition)
    (small : memory.pstuHead.uiMaxValidFrames < 2147483648) :
    Meets written SMemoryPosition.IndexesTable memory frames ↔
      Meets written SMemoryPosition.WalkEnds memory frames := by
  induction frames generalizing memory with
  | nil => exact Iff.rfl
  | cons frame frames ih =>
      rw [Meets, Meets, indexes_table_iff memory frame small,
        ih (written memory frame) (by rwa [written_capacity])]

/-- From the creation of the ring on, with any capacity, a run of writes divides
by nothing but the number of slots and stays in the table if and only if its walks end there. -/
theorem writes_index_table_iff (block : SMemoryPosition) (capacity size : Nat)
    (int : capacity < 2147483648) (frames : List Frame) :
    Meets written SMemoryPosition.IndexesTable (initMemoryParam block capacity size) frames ↔
      Meets written SMemoryPosition.WalkEnds (initMemoryParam block capacity size) frames :=
  meets_indexes_iff frames (initMemoryParam block capacity size) int

def fourBytes : Frame where
  pframe := fun _ => 0
  framelen := 4
  timestamp := 0
  frametype := .P
  priority := 0

theorem writes_index_table_two :
    Meets written SMemoryPosition.IndexesTable (initMemoryParam zeroedBlock 4 10)
      [fourBytes, fourBytes] :=
  (writes_index_table_iff zeroedBlock 4 10 (by decide) [fourBytes, fourBytes]).mpr (by decide)

/-- Three writes into four slots walk out of the table: the third one wraps around
and covers slot 3, the last. With one slot or none the first write fails. -/
theorem small_tables_left :
    ¬Meets written SMemoryPosition.IndexesTable (initMemoryParam zeroedBlock 4 10)
        [fourBytes, fourBytes, fourBytes] ∧
      ¬Meets written SMemoryPosition.IndexesTable (initMemoryParam zeroedBlock 1 10) [fourBytes] ∧
      ¬Meets written SMemoryPosition.IndexesTable (initMemoryParam zeroedBlock 0 10) [fourBytes] := by
  refine ⟨?_, ?_, ?_⟩
  · rw [meets_indexes_iff _ _ (by decide)]
    decide
  · rw [meets_indexes_iff _ _ (by decide)]
    decide
  · rw [meets_indexes_iff _ _ (by decide)]
    decide

end Run

end Mgw.StreamBuff
