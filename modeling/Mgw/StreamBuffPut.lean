import Mgw.StreamBuff

/-!
# One write into the ring

The cover walk compares slot positions only and follows the table indices
upwards from the writer's next slot. As long as it stays inside the table it
clears the flags of a run of slots and changes nothing else; that description
gives the state after an accepted write field by field.
-/

namespace Mgw.StreamBuff

open ByteArea CodecDef WordArithmetic

set_option autoImplicit false

namespace SMemoryPosition

@[simp] theorem set_frame_same (memory : SMemoryPosition) (index : Nat) (frame : SmemoryFrame) :
    (memory.setFrame index frame).pstuFrames index = frame := by
  simp [setFrame]

theorem set_frame_other (memory : SMemoryPosition) {index other : Nat} (frame : SmemoryFrame)
    (different : other ≠ index) :
    (memory.setFrame index frame).pstuFrames other = memory.pstuFrames other := by
  simp [setFrame, different]

theorem set_frame_position (memory : SMemoryPosition) {index : Nat} {frame : SmemoryFrame}
    (same : frame.position = (memory.pstuFrames index).position) (slot : Nat) :
    ((memory.setFrame index frame).pstuFrames slot).position =
      (memory.pstuFrames slot).position := by
  by_cases here : slot = index
  · rw [here, set_frame_same, same]
  · rw [set_frame_other _ _ here]

theorem clear_valid_flag_in_table (memory : SMemoryPosition) {index : Nat}
    (bound : index < memory.pstuHead.uiMaxValidFrames) :
    memory.clearValidFlag index =
      memory.setFrame index { memory.pstuFrames index with ucValidFlag := false } := by
  rw [clearValidFlag, if_pos bound]

end SMemoryPosition

/-- The slots a walk of at most `remaining` slots from `index` on clears. -/
def Walked (memory : SMemoryPosition) (posS posE remaining index slot : Nat) : Prop :=
  index ≤ slot ∧ slot < index + remaining ∧
    ∀ earlier, index ≤ earlier → earlier ≤ slot →
      covered posS posE (memory.pstuFrames earlier).position = true

/-- Whenever the walk gets to a slot, that slot is one of the table. -/
def WalkInTable (memory : SMemoryPosition) (posS posE remaining index : Nat) : Prop :=
  ∀ steps < remaining,
    (∀ earlier < steps, covered posS posE (memory.pstuFrames (index + earlier)).position = true) →
      index + steps < memory.pstuHead.uiMaxValidFrames

instance walked_decidable (memory : SMemoryPosition) (posS posE remaining index slot : Nat) :
    Decidable (Walked memory posS posE remaining index slot) :=
  inferInstanceAs (Decidable (index ≤ slot ∧ slot < index + remaining ∧
    ∀ earlier, index ≤ earlier → earlier ≤ slot →
      covered posS posE (memory.pstuFrames earlier).position = true))

instance walk_in_table_decidable (memory : SMemoryPosition) (posS posE remaining index : Nat) :
    Decidable (WalkInTable memory posS posE remaining index) :=
  inferInstanceAs (Decidable (∀ steps < remaining,
    (∀ earlier < steps, covered posS posE (memory.pstuFrames (index + earlier)).position = true) →
      index + steps < memory.pstuHead.uiMaxValidFrames))

section Walk

variable {memory other : SMemoryPosition} {posS posE remaining index slot : Nat}

/-- A walk looks at the positions only. -/
theorem walked_congr
    (positions : ∀ slot, (other.pstuFrames slot).position = (memory.pstuFrames slot).position) :
    Walked other posS posE remaining index slot ↔ Walked memory posS posE remaining index slot := by
  simp only [Walked, positions]

theorem walk_in_table_congr
    (positions : ∀ slot, (other.pstuFrames slot).position = (memory.pstuFrames slot).position)
    (head : other.pstuHead = memory.pstuHead) :
    WalkInTable other posS posE remaining index ↔ WalkInTable memory posS posE remaining index := by
  simp only [WalkInTable, positions, head]

theorem walked_first (hit : covered posS posE (memory.pstuFrames index).position = true) :
    Walked memory posS posE (remaining + 1) index index := by
  refine ⟨Nat.le_refl _, by omega, ?_⟩
  intro earlier lower upper
  rwa [Nat.le_antisymm upper lower]

theorem walked_succ (hit : covered posS posE (memory.pstuFrames index).position = true)
    (later : slot ≠ index) :
    Walked memory posS posE remaining (index + 1) slot ↔
      Walked memory posS posE (remaining + 1) index slot := by
  constructor
  · rintro ⟨lower, upper, before⟩
    refine ⟨by omega, by omega, fun earlier low high => ?_⟩
    by_cases start : earlier = index
    · rwa [start]
    · exact before earlier (by omega) high
  · rintro ⟨lower, upper, before⟩
    exact ⟨by omega, by omega, fun earlier low high => before earlier (by omega) high⟩

theorem walk_in_table_succ (hit : covered posS posE (memory.pstuFrames index).position = true)
    (inTable : WalkInTable memory posS posE (remaining + 1) index) :
    WalkInTable memory posS posE remaining (index + 1) := by
  intro steps bound before
  have further := inTable (steps + 1) (by omega) (by
    intro earlier earlierBound
    rcases Nat.eq_zero_or_pos earlier with zero | positive
    · rwa [zero]
    · have prior := before (earlier - 1) (by omega)
      rwa [show index + 1 + (earlier - 1) = index + earlier by omega] at prior)
  omega

/-- The block with the flags of some slots cleared and nothing else changed. -/
structure Cleared (memory : SMemoryPosition) (walked : Nat → Prop) (after : SMemoryPosition) :
    Prop where
  head : after.pstuHead = memory.pstuHead
  data : after.pstuData = memory.pstuData
  hit : ∀ slot, walked slot →
    after.pstuFrames slot = { memory.pstuFrames slot with ucValidFlag := false }
  kept : ∀ slot, ¬walked slot → after.pstuFrames slot = memory.pstuFrames slot

theorem cleared_fields {walked : Nat → Prop} {after : SMemoryPosition}
    (cleared : Cleared memory walked after) (slot : Nat) :
    (after.pstuFrames slot).position = (memory.pstuFrames slot).position ∧
      (after.pstuFrames slot).len = (memory.pstuFrames slot).len ∧
      (after.pstuFrames slot).stuFrameInfo = (memory.pstuFrames slot).stuFrameInfo := by
  by_cases hit : walked slot
  · rw [cleared.hit slot hit]
    exact ⟨rfl, rfl, rfl⟩
  · rw [cleared.kept slot hit]
    exact ⟨rfl, rfl, rfl⟩

theorem cleared_valid {walked : Nat → Prop} {after : SMemoryPosition}
    (cleared : Cleared memory walked after) (valid : (after.pstuFrames slot).ucValidFlag = true) :
    (memory.pstuFrames slot).ucValidFlag = true ∧ ¬walked slot := by
  by_cases hit : walked slot
  · rw [cleared.hit slot hit] at valid
    contradiction
  · rw [cleared.kept slot hit] at valid
    exact ⟨valid, hit⟩

theorem cover_loop_clears (posS posE remaining index : Nat) (memory : SMemoryPosition)
    (inTable : WalkInTable memory posS posE remaining index) :
    Cleared memory (Walked memory posS posE remaining index)
      (coverLoop posS posE remaining index memory) := by
  induction remaining generalizing index memory with
  | zero =>
      refine ⟨rfl, rfl, fun slot walked => ?_, fun _ _ => rfl⟩
      have upper := walked.2.1
      have lower := walked.1
      omega
  | succ remaining ih =>
      have bound : index < memory.pstuHead.uiMaxValidFrames := by
        apply inTable 0 (Nat.zero_lt_succ _)
        intro earlier impossible
        contradiction
      have position : memory.framePosition index = (memory.pstuFrames index).position := by
        rw [SMemoryPosition.framePosition, if_pos bound]
      rw [coverLoop, position]
      split_ifs with hit
      · rw [memory.clear_valid_flag_in_table bound]
        -- clearing a flag moves no position, so the rest of the walk is unchanged
        have positions : ∀ slot, ((memory.setFrame index
            { memory.pstuFrames index with ucValidFlag := false }).pstuFrames slot).position =
              (memory.pstuFrames slot).position := memory.set_frame_position rfl
        have rest := ih (index + 1) _
          ((walk_in_table_congr positions rfl).mpr (walk_in_table_succ hit inTable))
        refine ⟨rest.head, rest.data, fun slot walked => ?_, fun slot unwalked => ?_⟩
        · by_cases first : slot = index
          · subst first
            rw [rest.kept slot fun again => absurd again.1 (Nat.not_succ_le_self _),
              SMemoryPosition.set_frame_same]
          · have later := (walked_congr positions).mpr ((walked_succ hit first).mpr walked)
            rw [rest.hit slot later, SMemoryPosition.set_frame_other _ _ first]
        · have first : slot ≠ index := by
            rintro rfl
            exact unwalked (walked_first hit)
          have later : ¬Walked _ posS posE remaining (index + 1) slot := fun walked =>
            unwalked ((walked_succ hit first).mp ((walked_congr positions).mp walked))
          rw [rest.kept slot later, SMemoryPosition.set_frame_other _ _ first]
      · refine ⟨rfl, rfl, fun slot walked => ?_, fun _ _ => rfl⟩
        exact absurd (walked.2.2 index (Nat.le_refl _) walked.1) hit

theorem cover_check_clears (capacity : 2 ≤ memory.pstuHead.uiMaxValidFrames)
    (small : memory.pstuHead.uiMaxValidFrames < 2147483648)
    (inTable : WalkInTable memory posS posE (memory.pstuHead.uiMaxValidFrames - 2) index) :
    Cleared memory (Walked memory posS posE (memory.pstuHead.uiMaxValidFrames - 2) index)
      (checkBuffDataCover posS posE index memory) := by
  rw [checkBuffDataCover, sub32_of_le_of_lt capacity (by simp only [wordSize]; omega)]
  exact cover_loop_clears _ _ _ _ memory inTable

end Walk

/-- The condition on the walk of one write, in the terms of the state before it. -/
def SMemoryPosition.WalkFor (memory : SMemoryPosition) (framelen : Nat) : Prop :=
  WalkInTable memory (memory.pstuFrames memory.writeSlot).position
    (writeEnd memory.pstuHead.datasize (memory.pstuFrames memory.writeSlot).position framelen)
    (memory.pstuHead.uiMaxValidFrames - 2)
    ((memory.writeSlot + 1) % memory.pstuHead.uiMaxValidFrames)

def SMemoryPosition.Clears (memory : SMemoryPosition) (framelen slot : Nat) : Prop :=
  Walked memory (memory.pstuFrames memory.writeSlot).position
    (writeEnd memory.pstuHead.datasize (memory.pstuFrames memory.writeSlot).position framelen)
    (memory.pstuHead.uiMaxValidFrames - 2)
    ((memory.writeSlot + 1) % memory.pstuHead.uiMaxValidFrames) slot

instance walk_for_decidable (memory : SMemoryPosition) (framelen : Nat) :
    Decidable (memory.WalkFor framelen) :=
  walk_in_table_decidable _ _ _ _ _

instance clears_decidable (memory : SMemoryPosition) (framelen slot : Nat) :
    Decidable (memory.Clears framelen slot) :=
  walked_decidable _ _ _ _ _ _

theorem put_rejects (memory : SMemoryPosition) (frame : Frame)
    (big : memory.pstuHead.datasize / 2 ≤ frame.framelen) :
    putOneFrameToBuff memory frame = (-2, memory) := by
  simp [putOneFrameToBuff, big]

section Accepted

variable {memory : SMemoryPosition} {frame : Frame}

theorem next_slot_ne (capacity : 2 ≤ memory.pstuHead.uiMaxValidFrames) :
    (memory.writeSlot + 1) % memory.pstuHead.uiMaxValidFrames ≠ memory.writeSlot := by
  have bound : memory.writeSlot < memory.pstuHead.uiMaxValidFrames := Nat.mod_lt _ (by omega)
  by_cases last : memory.writeSlot + 1 = memory.pstuHead.uiMaxValidFrames
  · rw [last, Nat.mod_self]
    omega
  · rw [Nat.mod_eq_of_lt (by omega)]
    omega

/-- The walk never gets to the slot just written. -/
theorem write_slot_not_cleared (capacity : 2 ≤ memory.pstuHead.uiMaxValidFrames) :
    ¬memory.Clears frame.framelen memory.writeSlot := by
  have bound : memory.writeSlot < memory.pstuHead.uiMaxValidFrames := Nat.mod_lt _ (by omega)
  rintro ⟨lower, upper, -⟩
  by_cases last : memory.writeSlot + 1 = memory.pstuHead.uiMaxValidFrames
  · rw [last, Nat.mod_self] at upper
    omega
  · rw [Nat.mod_eq_of_lt (by omega)] at lower
    omega

/-- The block after an accepted write whose walk stays in the table. -/
structure AcceptedPut (memory : SMemoryPosition) (frame : Frame) (after : SMemoryPosition) :
    Prop where
  head : after.pstuHead =
    { memory.pstuHead with uiWritFrameCount := u32 (memory.pstuHead.uiWritFrameCount + 1) }
  data : after.pstuData = circularCopyIn memory.pstuHead.datasize memory.pstuData
    (memory.pstuFrames memory.writeSlot).position frame.pframe frame.framelen
  written : after.pstuFrames memory.writeSlot =
    { position := (memory.pstuFrames memory.writeSlot).position
      len := frame.framelen
      stuFrameInfo := frame.info
      ucValidFlag := true }
  nextPosition :
    (after.pstuFrames ((memory.writeSlot + 1) % memory.pstuHead.uiMaxValidFrames)).position =
      circularNext memory.pstuHead.datasize (memory.pstuFrames memory.writeSlot).position
        frame.framelen
  kept : ∀ slot, slot ≠ memory.writeSlot →
    (after.pstuFrames slot).len = (memory.pstuFrames slot).len ∧
      (after.pstuFrames slot).stuFrameInfo = (memory.pstuFrames slot).stuFrameInfo ∧
      ((after.pstuFrames slot).ucValidFlag = true →
        (memory.pstuFrames slot).ucValidFlag = true ∧ ¬memory.Clears frame.framelen slot)
  keptPosition : ∀ slot, slot ≠ memory.writeSlot →
    slot ≠ (memory.writeSlot + 1) % memory.pstuHead.uiMaxValidFrames →
    (after.pstuFrames slot).position = (memory.pstuFrames slot).position

/-- Storing the payload and its entry moves no slot. -/
theorem store_frame_position (memory : SMemoryPosition) (frame : Frame) (slot : Nat) :
    ((storeFrame memory frame).pstuFrames slot).position = (memory.pstuFrames slot).position := by
  rw [storeFrame]
  apply SMemoryPosition.set_frame_position
  rfl

theorem store_frame_other (memory : SMemoryPosition) (frame : Frame) {slot : Nat}
    (different : slot ≠ memory.writeSlot) :
    (storeFrame memory frame).pstuFrames slot = memory.pstuFrames slot := by
  rw [storeFrame, SMemoryPosition.set_frame_other _ _ different]

/-- The block of an accepted write behind its cover check. -/
def coveredBlock (memory : SMemoryPosition) (frame : Frame) : SMemoryPosition :=
  checkBuffDataCover (memory.pstuFrames memory.writeSlot).position
    (writeEnd memory.pstuHead.datasize (memory.pstuFrames memory.writeSlot).position
      frame.framelen)
    ((memory.writeSlot + 1) % memory.pstuHead.uiMaxValidFrames) (storeFrame memory frame)

theorem put_fits (fits : frame.framelen < memory.pstuHead.datasize / 2) :
    putOneFrameToBuff memory frame =
      (0, { (coveredBlock memory frame).setFrame
          ((memory.writeSlot + 1) % memory.pstuHead.uiMaxValidFrames)
          { (coveredBlock memory frame).pstuFrames
              ((memory.writeSlot + 1) % memory.pstuHead.uiMaxValidFrames) with
            position := circularNext memory.pstuHead.datasize
              (memory.pstuFrames memory.writeSlot).position frame.framelen } with
        pstuHead := { memory.pstuHead with
          uiWritFrameCount := u32 (memory.pstuHead.uiWritFrameCount + 1) } }) := by
  rw [putOneFrameToBuff, if_neg (Nat.not_le.mpr fits)]
  rfl

theorem covered_block_cleared (capacity : 2 ≤ memory.pstuHead.uiMaxValidFrames)
    (small : memory.pstuHead.uiMaxValidFrames < 2147483648)
    (inTable : memory.WalkFor frame.framelen) :
    Cleared (storeFrame memory frame) (memory.Clears frame.framelen)
      (coveredBlock memory frame) := by
  have positions := store_frame_position memory frame
  have cleared := @cover_check_clears (storeFrame memory frame) _ _ _ capacity small
    ((walk_in_table_congr positions rfl).mpr inTable)
  refine ⟨cleared.head, cleared.data, fun slot walked => ?_, fun slot unwalked => ?_⟩
  · exact cleared.hit slot ((walked_congr positions).mpr walked)
  · exact cleared.kept slot fun walked => unwalked ((walked_congr positions).mp walked)

theorem put_accepts (capacity : 2 ≤ memory.pstuHead.uiMaxValidFrames)
    (small : memory.pstuHead.uiMaxValidFrames < 2147483648)
    (fits : frame.framelen < memory.pstuHead.datasize / 2)
    (inTable : memory.WalkFor frame.framelen) :
    (putOneFrameToBuff memory frame).1 = 0 ∧
      AcceptedPut memory frame (putOneFrameToBuff memory frame).2 := by
  have cleared := covered_block_cleared capacity small inTable
  have differ := next_slot_ne capacity
  rw [put_fits fits]
  generalize coveredBlock memory frame = checked at cleared ⊢
  refine ⟨rfl, rfl, cleared.data, ?_, ?_, ?_, ?_⟩
  · change (checked.setFrame _ _).pstuFrames memory.writeSlot = _
    rw [SMemoryPosition.set_frame_other _ _ differ.symm,
      cleared.kept _ (write_slot_not_cleared capacity), storeFrame, SMemoryPosition.set_frame_same]
  · change ((checked.setFrame _ _).pstuFrames _).position = _
    rw [SMemoryPosition.set_frame_same]
  · intro slot different
    obtain ⟨-, len, info⟩ := cleared_fields cleared slot
    have flag := @cleared_valid _ slot _ _ cleared
    rw [store_frame_other memory frame different] at len info flag
    change ((checked.setFrame _ _).pstuFrames slot).len = _ ∧
      ((checked.setFrame _ _).pstuFrames slot).stuFrameInfo = _ ∧
      (((checked.setFrame _ _).pstuFrames slot).ucValidFlag = true → _)
    by_cases next : slot = (memory.writeSlot + 1) % memory.pstuHead.uiMaxValidFrames
    · rw [← next, SMemoryPosition.set_frame_same]
      exact ⟨len, info, flag⟩
    · rw [SMemoryPosition.set_frame_other _ _ next]
      exact ⟨len, info, flag⟩
  · intro slot different notNext
    change ((checked.setFrame _ _).pstuFrames slot).position = _
    rw [SMemoryPosition.set_frame_other _ _ notNext, (cleared_fields cleared slot).1,
      store_frame_position]

end Accepted

section Table

variable {memory after last : SMemoryPosition}

/-- What any cover walk leaves of the table, even one that runs past its end. -/
structure TableKept (memory after : SMemoryPosition) : Prop where
  head : after.pstuHead = memory.pstuHead
  len : ∀ slot, (after.pstuFrames slot).len = (memory.pstuFrames slot).len
  info : ∀ slot, (after.pstuFrames slot).stuFrameInfo = (memory.pstuFrames slot).stuFrameInfo
  valid : ∀ slot, (after.pstuFrames slot).ucValidFlag = true →
    (memory.pstuFrames slot).ucValidFlag = true

theorem table_kept_refl (memory : SMemoryPosition) : TableKept memory memory :=
  ⟨rfl, fun _ => rfl, fun _ => rfl, fun _ => id⟩

theorem table_kept_trans (first : TableKept memory after) (second : TableKept after last) :
    TableKept memory last where
  head := second.head.trans first.head
  len := fun slot => (second.len slot).trans (first.len slot)
  info := fun slot => (second.info slot).trans (first.info slot)
  valid := fun slot flag => first.valid slot (second.valid slot flag)

/-- A slot's entry is replaced by one with the same contents and no new flag. -/
theorem set_frame_keeps {index : Nat} {frame : SmemoryFrame}
    (len : frame.len = (memory.pstuFrames index).len)
    (info : frame.stuFrameInfo = (memory.pstuFrames index).stuFrameInfo)
    (valid : frame.ucValidFlag = true → (memory.pstuFrames index).ucValidFlag = true) :
    TableKept memory (memory.setFrame index frame) := by
  have entry : ∀ slot, ((memory.setFrame index frame).pstuFrames slot).len =
        (memory.pstuFrames slot).len ∧
      ((memory.setFrame index frame).pstuFrames slot).stuFrameInfo =
        (memory.pstuFrames slot).stuFrameInfo ∧
      (((memory.setFrame index frame).pstuFrames slot).ucValidFlag = true →
        (memory.pstuFrames slot).ucValidFlag = true) := by
    intro slot
    by_cases here : slot = index
    · rw [here, SMemoryPosition.set_frame_same]
      exact ⟨len, info, valid⟩
    · rw [SMemoryPosition.set_frame_other _ _ here]
      exact ⟨rfl, rfl, id⟩
  exact ⟨rfl, fun slot => (entry slot).1, fun slot => (entry slot).2.1,
    fun slot => (entry slot).2.2⟩

theorem clear_valid_flag_keeps (memory : SMemoryPosition) (index : Nat) :
    TableKept memory (memory.clearValidFlag index) := by
  rw [SMemoryPosition.clearValidFlag]
  split_ifs
  · exact set_frame_keeps rfl rfl fun impossible => by contradiction
  · exact ⟨rfl, fun _ => rfl, fun _ => rfl, fun _ => id⟩

theorem cover_loop_keeps (posS posE remaining index : Nat) (memory : SMemoryPosition) :
    TableKept memory (coverLoop posS posE remaining index memory) := by
  induction remaining generalizing index memory with
  | zero => exact table_kept_refl memory
  | succ remaining ih =>
      rw [coverLoop]
      split_ifs
      · exact table_kept_trans (clear_valid_flag_keeps memory index) (ih _ _)
      · exact table_kept_refl memory

/-- The table after an accepted write, whatever its cover walk does. -/
structure WrittenTable (memory : SMemoryPosition) (frame : Frame) (after : SMemoryPosition) :
    Prop where
  head : after.pstuHead =
    { memory.pstuHead with uiWritFrameCount := u32 (memory.pstuHead.uiWritFrameCount + 1) }
  len : (after.pstuFrames memory.writeSlot).len = frame.framelen
  info : (after.pstuFrames memory.writeSlot).stuFrameInfo = frame.info
  kept : ∀ slot, slot ≠ memory.writeSlot →
    (after.pstuFrames slot).len = (memory.pstuFrames slot).len ∧
      (after.pstuFrames slot).stuFrameInfo = (memory.pstuFrames slot).stuFrameInfo ∧
      ((after.pstuFrames slot).ucValidFlag = true →
        (memory.pstuFrames slot).ucValidFlag = true)

theorem put_writes_table {frame : Frame}
    (fits : frame.framelen < memory.pstuHead.datasize / 2) :
    (putOneFrameToBuff memory frame).1 = 0 ∧
      WrittenTable memory frame (putOneFrameToBuff memory frame).2 := by
  have walked : TableKept (storeFrame memory frame) (coveredBlock memory frame) :=
    cover_loop_keeps _ _ _ _ _
  rw [put_fits fits]
  generalize coveredBlock memory frame = checked at walked ⊢
  have moved : TableKept (storeFrame memory frame) (checked.setFrame
      ((memory.writeSlot + 1) % memory.pstuHead.uiMaxValidFrames)
      { checked.pstuFrames ((memory.writeSlot + 1) % memory.pstuHead.uiMaxValidFrames) with
        position := circularNext memory.pstuHead.datasize
          (memory.pstuFrames memory.writeSlot).position frame.framelen }) :=
    table_kept_trans walked (set_frame_keeps rfl rfl id)
  refine ⟨rfl, rfl, ?_, ?_, ?_⟩
  · refine (moved.len memory.writeSlot).trans ?_
    rw [storeFrame, SMemoryPosition.set_frame_same]
  · refine (moved.info memory.writeSlot).trans ?_
    rw [storeFrame, SMemoryPosition.set_frame_same]
  · intro slot different
    rw [← store_frame_other memory frame different]
    exact ⟨moved.len slot, moved.info slot, moved.valid slot⟩

end Table

end Mgw.StreamBuff
