import Mgw.StreamBuffWriter

/-!
# A reader beside the writer

The reader never stands past the writer. Its jumps land on numbers from
`uiWritFrameCount - uiMaxValidFrames` on, and the smallest of these is the one
number whose slot the writer has already begun to reuse: its position is the
next write's. Every other number the reader can select is one whose slot still
belongs to it.
-/

namespace Mgw.StreamBuff

open ByteArea CodecDef WordArithmetic TransitionRuns

set_option autoImplicit false

section Jumps

variable {memory : SMemoryPosition} {reader jumped : MemReader}

/-- Slots of numbers that no frame has had yet are invalid. -/
def FreshSlots (memory : SMemoryPosition) : Prop :=
  ∀ slot, memory.pstuHead.uiWritFrameCount ≤ slot → slot < memory.pstuHead.uiMaxValidFrames →
    (memory.pstuFrames slot).ucValidFlag = false

/-- Counters that stay below `2 ^ 31`, with the capacity an `int` parameter. -/
structure SmallCounters (memory : SMemoryPosition) : Prop where
  count : memory.pstuHead.uiWritFrameCount < 2147483648
  capacity : memory.pstuHead.uiMaxValidFrames < 2147483648
  capacity_ge : 2 ≤ memory.pstuHead.uiMaxValidFrames

def KeyNumber (memory : SMemoryPosition) (number : Nat) : Prop :=
  (memory.pstuFrames (number % memory.pstuHead.uiMaxValidFrames)).isKeyFrame = true

theorem key_number_valid {number : Nat} (key : KeyNumber memory number) :
    (memory.pstuFrames (number % memory.pstuHead.uiMaxValidFrames)).ucValidFlag = true := by
  simp only [KeyNumber, SmemoryFrame.isKeyFrame, Bool.and_eq_true] at key
  exact key.1

theorem key_number_add_capacity (number : Nat) :
    KeyNumber memory (number + memory.pstuHead.uiMaxValidFrames) ↔ KeyNumber memory number := by
  rw [KeyNumber, KeyNumber, Nat.add_mod_right]

/-- The reader moved forward to a key frame at most `capacity - i` numbers behind the writer. -/
def ForwardTo (memory : SMemoryPosition) (reader jumped : MemReader) (i : Nat) : Prop :=
  ∃ number, memory.pstuHead.uiWritFrameCount + i ≤ number + memory.pstuHead.uiMaxValidFrames ∧
    number < memory.pstuHead.uiWritFrameCount ∧ reader.u32RdFrameCount ≤ number ∧
    KeyNumber memory number ∧ jumped = { reader with u32RdFrameCount := number }

theorem forward_to_earlier {i : Nat} (forward : ForwardTo memory reader jumped (i + 1)) :
    ForwardTo memory reader jumped i := by
  obtain ⟨number, lower, rest⟩ := forward
  exact ⟨number, by omega, rest⟩

theorem oldest_loop_lands (small : SmallCounters memory) (fresh : FreshSlots memory)
    (behind : reader.u32RdFrameCount < memory.pstuHead.uiWritFrameCount) (remaining i : Nat)
    (range : i + remaining ≤ memory.pstuHead.uiMaxValidFrames)
    (found : oldestLoop memory reader remaining i = some jumped) :
    ForwardTo memory reader jumped i := by
  obtain ⟨countSmall, capacitySmall, -⟩ := small
  induction remaining generalizing i with
  | zero =>
      rw [oldestLoop] at found
      contradiction
  | succ remaining ih =>
      rw [oldestLoop] at found
      have noWrap : u32 (memory.pstuHead.uiWritFrameCount + i) =
          memory.pstuHead.uiWritFrameCount + i := u32_of_lt (by simp only [wordSize]; omega)
      rw [noWrap] at found
      simp only at found
      split_ifs at found with key negative skipped skipped
      · exact forward_to_earlier (ih (i + 1) (by omega) found)
      · -- a number below zero would be one of a slot never written
        have early : memory.pstuHead.uiWritFrameCount + i < memory.pstuHead.uiMaxValidFrames := by
          by_contra late
          rw [sub32_of_le_of_lt (by omega) (by simp only [wordSize]; omega),
            int32_of_lt (by omega)] at negative
          omega
        rw [Nat.mod_eq_of_lt early, SmemoryFrame.isKeyFrame,
          fresh _ (by omega) early] at key
        simp at key
      · exact forward_to_earlier (ih (i + 1) (by omega) found)
      · have late : memory.pstuHead.uiMaxValidFrames ≤ memory.pstuHead.uiWritFrameCount + i := by
          by_contra early
          exact negative (int32_sub_neg (by omega) capacitySmall)
        rw [sub32_of_le_of_lt late (by simp only [wordSize]; omega),
          int32_of_lt (by omega)] at found skipped
        simp only [Int.toNat_natCast] at found skipped
        refine ⟨memory.pstuHead.uiWritFrameCount + i - memory.pstuHead.uiMaxValidFrames,
          by omega, by omega, by omega, ?_, (Option.some.inj found).symm⟩
        rw [← key_number_add_capacity, Nat.sub_add_cancel late]
        exact key
      · exact forward_to_earlier (ih (i + 1) (by omega) found)

/-- Where `JumpToOldestIFrame` puts a reader that stands before the writer. -/
theorem jump_to_oldest_lands (small : SmallCounters memory) (fresh : FreshSlots memory)
    (behind : reader.u32RdFrameCount < memory.pstuHead.uiWritFrameCount)
    (found : jumpToOldestIFrame memory reader = some jumped) :
    ForwardTo memory reader jumped 0 := by
  rw [jumpToOldestIFrame, if_neg (by omega)] at found
  exact oldest_loop_lands small fresh behind _ 0 (by omega) found

theorem newest_loop_lands (min : Int) (count : Nat)
    (found : newestLoop memory reader min count = some jumped) :
    ∃ number : Nat, min < number ∧ number < count ∧ reader.u32RdFrameCount ≤ number ∧
      KeyNumber memory number ∧ jumped = { reader with u32RdFrameCount := number } ∧
      ∀ later, number < later → later < count → ¬KeyNumber memory later := by
  induction count with
  | zero =>
      rw [newestLoop] at found
      contradiction
  | succ i ih =>
      rw [newestLoop] at found
      split_ifs at found with above key ahead
      · refine ⟨i, above, by omega, ahead, key, (Option.some.inj found).symm, ?_⟩
        intro later lower upper
        omega
      · obtain ⟨number, lower, upper, ahead, keyNumber, landed, none⟩ := ih found
        refine ⟨number, lower, by omega, ahead, keyNumber, landed, ?_⟩
        intro later after bound
        rcases Nat.lt_or_ge later i with below | top
        · exact none later after below
        · rw [show later = i by omega]
          exact key

/-- Where `JumpTonewestIFrame` puts a reader that stands before the writer. -/
theorem jump_to_newest_lands (small : SmallCounters memory)
    (behind : reader.u32RdFrameCount < memory.pstuHead.uiWritFrameCount)
    (found : jumpTonewestIFrame memory reader = some jumped) :
    ∃ number, reader.u32RdFrameCount < number ∧ number < memory.pstuHead.uiWritFrameCount ∧
      KeyNumber memory number ∧ jumped = { reader with u32RdFrameCount := number } ∧
      ∀ later, number < later → later < memory.pstuHead.uiWritFrameCount →
        ¬KeyNumber memory later := by
  have countSmall := small.count
  rw [jumpTonewestIFrame, if_neg (by omega)] at found
  have difference : int32 (sub32 memory.pstuHead.uiWritFrameCount reader.u32RdFrameCount) =
      ((memory.pstuHead.uiWritFrameCount - reader.u32RdFrameCount : Nat) : Int) := by
    rw [sub32_of_le_of_lt (by omega) (by simp only [wordSize]; omega), int32_of_lt (by omega)]
  simp only [difference] at found
  rw [if_pos (by omega), int32_of_lt (by omega), int32_of_lt countSmall,
    Int.toNat_natCast] at found
  obtain ⟨number, lower, upper, -, key, landed, none⟩ := newest_loop_lands _ _ found
  exact ⟨number, by omega, upper, key, landed, none⟩

end Jumps

section Selection

variable {memory : SMemoryPosition} {reader selected : MemReader}

theorem lag_stage_lands (small : SmallCounters memory) (fresh : FreshSlots memory)
    (behind : reader.u32RdFrameCount < memory.pstuHead.uiWritFrameCount)
    (done : lagStage memory reader = .ok selected) :
    (selected = reader ∧ memory.pstuHead.uiWritFrameCount ≤
        reader.u32RdFrameCount + memory.pstuHead.uiMaxValidFrames) ∨
      (reader.u32RdFrameCount + memory.pstuHead.uiMaxValidFrames <
          memory.pstuHead.uiWritFrameCount ∧ ForwardTo memory reader selected 0) := by
  have countSmall := small.count
  rw [lagStage, sub32_of_le_of_lt (by omega) (by simp only [wordSize]; omega)] at done
  split_ifs at done with far
  · cases found : jumpToOldestIFrame memory reader with
    | none =>
        rw [found] at done
        contradiction
    | some jumped =>
        rw [found] at done
        cases done
        exact Or.inr ⟨by omega, jump_to_oldest_lands small fresh behind found⟩
  · cases done
    exact Or.inl ⟨rfl, by omega⟩

theorem waiting_reader_behind
    (behind : reader.u32RdFrameCount < memory.pstuHead.uiWritFrameCount) :
    (waitingReader memory reader).u32RdFrameCount < memory.pstuHead.uiWritFrameCount := by
  rw [waitingReader]
  split_ifs
  · change memory.pstuHead.uiWritFrameCount - 5 < _
    omega
  · exact behind

theorem key_frame_stage_lands (small : SmallCounters memory)
    (behind : reader.u32RdFrameCount < memory.pstuHead.uiWritFrameCount)
    (done : keyFrameStage memory reader = .ok selected) :
    (reader.breIframe = false ∧ selected = reader) ∨
      (reader.breIframe = true ∧
        (waitingReader memory reader).u32RdFrameCount < selected.u32RdFrameCount ∧
        selected.u32RdFrameCount < memory.pstuHead.uiWritFrameCount ∧
        KeyNumber memory selected.u32RdFrameCount ∧
        ∀ later, selected.u32RdFrameCount < later →
          later < memory.pstuHead.uiWritFrameCount → ¬KeyNumber memory later) := by
  rw [keyFrameStage] at done
  split_ifs at done with first
  · refine Or.inr ⟨first, ?_⟩
    cases found : jumpTonewestIFrame memory (waitingReader memory reader) with
    | none =>
        rw [found] at done
        contradiction
    | some jumped =>
        rw [found] at done
        cases done
        obtain ⟨number, lower, upper, key, landed, none⟩ :=
          jump_to_newest_lands small (waiting_reader_behind behind) found
        rw [landed]
        exact ⟨lower, upper, key, none⟩
  · cases done
    exact Or.inl ⟨by simpa using first, rfl⟩

theorem valid_stage_lands (small : SmallCounters memory) (fresh : FreshSlots memory)
    (behind : reader.u32RdFrameCount < memory.pstuHead.uiWritFrameCount)
    (done : validStage memory reader = .ok selected) :
    (selected = reader ∧ (memory.pstuFrames
        (reader.u32RdFrameCount % memory.pstuHead.uiMaxValidFrames)).ucValidFlag = true) ∨
      ForwardTo memory reader selected 0 := by
  simp only [validStage] at done
  split_ifs at done with valid
  · cases done
    exact Or.inl ⟨rfl, valid⟩
  · cases found : jumpToOldestIFrame memory reader with
    | none =>
        rw [found] at done
        contradiction
    | some jumped =>
        rw [found] at done
        cases done
        exact Or.inr (jump_to_oldest_lands small fresh behind found)

/-- The slot that the writer takes next, as far as a `Get` could read it as the
frame one lap back. -/
def BoundaryUnread (memory : SMemoryPosition) (reader : MemReader) : Prop :=
  (memory.pstuFrames memory.writeSlot).ucValidFlag = true →
    if reader.breIframe then
      5 ≤ memory.pstuHead.uiWritFrameCount → memory.pstuHead.uiMaxValidFrames < 5 →
        (memory.pstuFrames memory.writeSlot).stuFrameInfo.frametype = .I →
        ∃ number < memory.pstuHead.uiWritFrameCount,
          memory.pstuHead.uiWritFrameCount < number + memory.pstuHead.uiMaxValidFrames ∧
            KeyNumber memory number
    else
      memory.pstuHead.uiWritFrameCount <
          reader.u32RdFrameCount + memory.pstuHead.uiMaxValidFrames ∨
        (reader.u32RdFrameCount + memory.pstuHead.uiMaxValidFrames <
            memory.pstuHead.uiWritFrameCount ∧
          (memory.pstuFrames memory.writeSlot).stuFrameInfo.frametype ≠ .I)

/-- A number the reader can stand at when it copies a frame. -/
structure Selected (memory : SMemoryPosition) (number : Nat) : Prop where
  recent : memory.pstuHead.uiWritFrameCount ≤ number + memory.pstuHead.uiMaxValidFrames
  before : number < memory.pstuHead.uiWritFrameCount
  valid : (memory.pstuFrames
    (number % memory.pstuHead.uiMaxValidFrames)).ucValidFlag = true

theorem selected_of_forward (forward : ForwardTo memory reader selected 0) :
    Selected memory selected.u32RdFrameCount ∧
      reader.u32RdFrameCount ≤ selected.u32RdFrameCount ∧
      KeyNumber memory selected.u32RdFrameCount := by
  obtain ⟨number, lower, upper, ahead, key, landed⟩ := forward
  rw [landed]
  exact ⟨⟨by simpa using lower, upper, key_number_valid key⟩, ahead, key⟩

/-- The number one lap back shares its slot with the next write. -/
theorem boundary_slot {number : Nat}
    (lap : number + memory.pstuHead.uiMaxValidFrames = memory.pstuHead.uiWritFrameCount) :
    number % memory.pstuHead.uiMaxValidFrames = memory.writeSlot := by
  rw [SMemoryPosition.writeSlot, ← lap, Nat.add_mod_right]

theorem key_number_boundary {number : Nat} (key : KeyNumber memory number)
    (lap : number + memory.pstuHead.uiMaxValidFrames = memory.pstuHead.uiWritFrameCount) :
    (memory.pstuFrames memory.writeSlot).ucValidFlag = true ∧
      (memory.pstuFrames memory.writeSlot).stuFrameInfo.frametype = .I := by
  rw [KeyNumber, boundary_slot lap, SmemoryFrame.isKeyFrame, Bool.and_eq_true,
    decide_eq_true_eq] at key
  exact key

theorem forward_keeps_flag (forward : ForwardTo memory reader selected 0) :
    selected.breIframe = reader.breIframe := by
  obtain ⟨number, -, -, -, -, landed⟩ := forward
  rw [landed]

section Binds

variable {Stop Middle End : Type} {first : Except Stop Middle}
  {later : Middle → Except Stop End}

theorem bind_ok {result : End} (done : (first >>= later) = .ok result) :
    ∃ middle, first = .ok middle ∧ later middle = .ok result := by
  cases first with
  | error stop => contradiction
  | ok middle => exact ⟨middle, rfl, done⟩

theorem bind_error {stop : Stop} (done : (first >>= later) = .error stop) :
    first = .error stop ∨ ∃ middle, first = .ok middle ∧ later middle = .error stop := by
  cases first with
  | error early => exact Or.inl (congrArg Except.error (Except.error.inj done))
  | ok middle => exact Or.inr ⟨middle, rfl, done⟩

end Binds

/-- The stages one after another, with the readers between them. -/
theorem select_frame_stages (done : selectFrame memory reader = .ok selected) :
    ∃ caught started, lagStage memory reader = .ok caught ∧
      keyFrameStage memory caught = .ok started ∧ validStage memory started = .ok selected := by
  obtain ⟨caught, lag, rest⟩ := bind_ok done
  obtain ⟨started, key, valid⟩ := bind_ok rest
  exact ⟨caught, started, lag, key, valid⟩

section Stages

variable {caught started : MemReader}

theorem caught_bounds (small : SmallCounters memory) (fresh : FreshSlots memory)
    (behind : reader.u32RdFrameCount < memory.pstuHead.uiWritFrameCount)
    (lag : lagStage memory reader = .ok caught) :
    memory.pstuHead.uiWritFrameCount ≤
        caught.u32RdFrameCount + memory.pstuHead.uiMaxValidFrames ∧
      caught.u32RdFrameCount < memory.pstuHead.uiWritFrameCount ∧
      caught.breIframe = reader.breIframe := by
  rcases lag_stage_lands small fresh behind lag with ⟨same, near⟩ | ⟨-, forward⟩
  · subst same
    exact ⟨near, behind, rfl⟩
  · obtain ⟨landed, -, -⟩ := selected_of_forward forward
    exact ⟨landed.recent, landed.before, forward_keeps_flag forward⟩

/-- The newest key frame is less than one lap behind, as one lap later its slot
would show a newer one. -/
theorem started_bounds (small : SmallCounters memory)
    (near : memory.pstuHead.uiWritFrameCount ≤
      caught.u32RdFrameCount + memory.pstuHead.uiMaxValidFrames)
    (behind : caught.u32RdFrameCount < memory.pstuHead.uiWritFrameCount)
    (key : keyFrameStage memory caught = .ok started) :
    memory.pstuHead.uiWritFrameCount ≤
        started.u32RdFrameCount + memory.pstuHead.uiMaxValidFrames ∧
      started.u32RdFrameCount < memory.pstuHead.uiWritFrameCount := by
  rcases key_frame_stage_lands small behind key with ⟨-, same⟩ | ⟨-, -, before, keyNumber, newest⟩
  · subst same
    exact ⟨near, behind⟩
  · refine ⟨?_, before⟩
    by_contra far
    have positive := small.capacity_ge
    exact newest _ (by omega) (by omega) ((key_number_add_capacity _).mpr keyNumber)

theorem select_frame_selected (small : SmallCounters memory) (fresh : FreshSlots memory)
    (behind : reader.u32RdFrameCount < memory.pstuHead.uiWritFrameCount)
    (done : selectFrame memory reader = .ok selected) :
    Selected memory selected.u32RdFrameCount := by
  obtain ⟨caught, started, lag, key, valid⟩ := select_frame_stages done
  obtain ⟨nearCaught, behindCaught, -⟩ := caught_bounds small fresh behind lag
  obtain ⟨nearStarted, behindStarted⟩ := started_bounds small nearCaught behindCaught key
  rcases valid_stage_lands small fresh behindStarted valid with ⟨same, flag⟩ | forward
  · subst same
    exact ⟨nearStarted, behindStarted, flag⟩
  · exact (selected_of_forward forward).1

/-- A first key frame one lap back is excluded by a newer key frame. -/
theorem first_key_not_boundary (small : SmallCounters memory) (fresh : FreshSlots memory)
    (unread : (memory.pstuFrames memory.writeSlot).ucValidFlag = true →
      5 ≤ memory.pstuHead.uiWritFrameCount → memory.pstuHead.uiMaxValidFrames < 5 →
        (memory.pstuFrames memory.writeSlot).stuFrameInfo.frametype = .I →
        ∃ number < memory.pstuHead.uiWritFrameCount,
          memory.pstuHead.uiWritFrameCount < number + memory.pstuHead.uiMaxValidFrames ∧
            KeyNumber memory number)
    (near : memory.pstuHead.uiWritFrameCount ≤
      caught.u32RdFrameCount + memory.pstuHead.uiMaxValidFrames)
    (after : (waitingReader memory caught).u32RdFrameCount < started.u32RdFrameCount)
    (before : started.u32RdFrameCount < memory.pstuHead.uiWritFrameCount)
    (keyNumber : KeyNumber memory started.u32RdFrameCount)
    (newest : ∀ later, started.u32RdFrameCount < later →
      later < memory.pstuHead.uiWritFrameCount → ¬KeyNumber memory later)
    (valid : validStage memory started = .ok selected) :
    selected.u32RdFrameCount + memory.pstuHead.uiMaxValidFrames ≠
      memory.pstuHead.uiWritFrameCount := by
  intro lap
  have stays : selected.u32RdFrameCount = started.u32RdFrameCount := by
    rcases valid_stage_lands small fresh before valid with ⟨same, -⟩ | forward
    · rw [same]
    · obtain ⟨landed, ahead, key⟩ := selected_of_forward forward
      by_contra moved
      exact newest _ (by omega) landed.before key
  rw [stays] at lap
  obtain ⟨flag, frametype⟩ := key_number_boundary keyNumber lap
  rw [waitingReader] at after
  split_ifs at after with five
  · change memory.pstuHead.uiWritFrameCount - 5 < _ at after
    obtain ⟨number, upper, lower, key⟩ := unread flag five (by omega) frametype
    exact newest number (by omega) upper key
  · omega

theorem select_frame_not_boundary (small : SmallCounters memory) (fresh : FreshSlots memory)
    (behind : reader.u32RdFrameCount < memory.pstuHead.uiWritFrameCount)
    (unread : BoundaryUnread memory reader)
    (done : selectFrame memory reader = .ok selected) :
    memory.pstuHead.uiWritFrameCount <
      selected.u32RdFrameCount + memory.pstuHead.uiMaxValidFrames := by
  have landed := select_frame_selected small fresh behind done
  obtain ⟨caught, started, lag, key, valid⟩ := select_frame_stages done
  obtain ⟨nearCaught, behindCaught, flagCaught⟩ := caught_bounds small fresh behind lag
  rw [BoundaryUnread] at unread
  refine Nat.lt_of_le_of_ne landed.recent fun lap => ?_
  rcases key_frame_stage_lands small behindCaught key with
    ⟨plain, same⟩ | ⟨first, after, before, keyNumber, newest⟩
  · subst same
    rw [← flagCaught, plain] at unread
    have flag := landed.valid
    rw [boundary_slot lap.symm] at flag
    have boundary := unread flag
    simp only [Bool.false_eq_true, if_false] at boundary
    -- a key frame one lap back would make the boundary slot one of a key frame
    have noKey : reader.u32RdFrameCount + memory.pstuHead.uiMaxValidFrames <
        memory.pstuHead.uiWritFrameCount → ¬KeyNumber memory selected.u32RdFrameCount := by
      intro far keyNumber
      rcases boundary with near | ⟨-, other⟩
      · omega
      · exact other (key_number_boundary keyNumber lap.symm).2
    rcases lag_stage_lands small fresh behind lag with ⟨same, near⟩ | ⟨far, forwardLag⟩
    · subst same
      rcases valid_stage_lands small fresh behindCaught valid with ⟨same, -⟩ | forward
      · subst same
        omega
      · have ahead := (selected_of_forward forward).2.1
        omega
    · rcases valid_stage_lands small fresh behindCaught valid with ⟨same, -⟩ | forward
      · subst same
        exact noKey far (selected_of_forward forwardLag).2.2
      · exact noKey far (selected_of_forward forward).2.2
  · rw [← flagCaught, first] at unread
    exact first_key_not_boundary small fresh (by simpa using unread) nearCaught after before
      keyNumber newest valid lap.symm

end Stages

end Selection

section Get

variable {memory : SMemoryPosition} {reader stopped : MemReader}

/-- The jump to the oldest key frame that two of the stages end in. -/
theorem oldest_jump_stops {stop : Int × MemReader}
    (done : (match jumpToOldestIFrame memory reader with
      | none => Except.error (frameConsumeSlow, reader)
      | some jumped => .ok jumped) = .error stop) : stop = (frameConsumeSlow, reader) := by
  cases found : jumpToOldestIFrame memory reader with
  | none =>
      rw [found] at done
      exact (Except.error.inj done).symm
  | some jumped =>
      rw [found] at done
      contradiction

theorem lag_stage_stops {stop : Int × MemReader} (done : lagStage memory reader = .error stop) :
    stop = (frameConsumeSlow, reader) := by
  rw [lagStage] at done
  split_ifs at done
  exact oldest_jump_stops done

theorem key_frame_stage_stops {stop : Int × MemReader}
    (done : keyFrameStage memory reader = .error stop) :
    reader.breIframe = true ∧ stop = (0, waitingReader memory reader) := by
  rw [keyFrameStage] at done
  split_ifs at done with first
  cases found : jumpTonewestIFrame memory (waitingReader memory reader) with
  | none =>
      rw [found] at done
      exact ⟨first, (Except.error.inj done).symm⟩
  | some jumped =>
      rw [found] at done
      contradiction

theorem valid_stage_stops {stop : Int × MemReader} (done : validStage memory reader = .error stop) :
    stop = (frameConsumeSlow, reader) := by
  simp only [validStage] at done
  split_ifs at done
  exact oldest_jump_stops done

/-- An early return reports no length; it leaves the reader as one of the stages has it. -/
theorem select_frame_stops {ret : Int}
    (done : selectFrame memory reader = .error (ret, stopped)) :
    ret ≤ 0 ∧ (stopped = reader ∨
      (∃ caught, lagStage memory reader = .ok caught ∧ caught.breIframe = true ∧
        stopped = waitingReader memory caught) ∨
      ∃ caught, lagStage memory reader = .ok caught ∧ keyFrameStage memory caught = .ok stopped) := by
  rcases bind_error done with lag | ⟨caught, lag, rest⟩
  · cases lag_stage_stops lag
    exact ⟨by decide, Or.inl rfl⟩
  · rcases bind_error rest with key | ⟨started, key, valid⟩
    · obtain ⟨first, same⟩ := key_frame_stage_stops key
      cases same
      exact ⟨Int.le_refl 0, Or.inr (Or.inl ⟨caught, lag, first, rfl⟩)⟩
    · cases valid_stage_stops valid
      exact ⟨by decide, Or.inr (Or.inr ⟨caught, lag, key⟩)⟩

theorem select_frame_stopped (small : SmallCounters memory) (fresh : FreshSlots memory)
    (behind : reader.u32RdFrameCount < memory.pstuHead.uiWritFrameCount) {ret : Int}
    (done : selectFrame memory reader = .error (ret, stopped)) :
    ret ≤ 0 ∧ stopped.u32RdFrameCount < memory.pstuHead.uiWritFrameCount := by
  obtain ⟨early, same | ⟨caught, lag, -, waiting⟩ | ⟨caught, lag, key⟩⟩ := select_frame_stops done
  · rw [same]
    exact ⟨early, behind⟩
  · rw [waiting]
    exact ⟨early, waiting_reader_behind (caught_bounds small fresh behind lag).2.1⟩
  · obtain ⟨near, behindCaught, -⟩ := caught_bounds small fresh behind lag
    exact ⟨early, (started_bounds small near behindCaught key).2⟩

theorem read_stage_reader (memory : SMemoryPosition) (reader : MemReader)
    (maxframelen timestamp : Nat) :
    (readStage memory reader maxframelen timestamp).reader = reader ∨
      (readStage memory reader maxframelen timestamp).reader =
        { reader with u32RdFrameCount := u32 (reader.u32RdFrameCount + 1) } := by
  simp only [readStage]
  split_ifs
  · exact Or.inl rfl
  · exact Or.inl rfl
  · exact Or.inr rfl

theorem get_reader_not_past (small : SmallCounters memory) (fresh : FreshSlots memory)
    (behind : reader.u32RdFrameCount ≤ memory.pstuHead.uiWritFrameCount)
    (maxframelen timestamp : Nat) :
    (getOneFrameFromBuff memory reader maxframelen timestamp).reader.u32RdFrameCount ≤
      memory.pstuHead.uiWritFrameCount := by
  rw [getOneFrameFromBuff, if_neg (show ¬memory.pstuHead.uiWritFrameCount <
    reader.u32RdFrameCount by omega)]
  split_ifs with caughtUp
  · exact behind
  · cases done : selectFrame memory reader with
    | error early =>
        exact Nat.le_of_lt (select_frame_stopped small fresh (by omega) done).2
    | ok selected =>
        have landed := select_frame_selected small fresh (by omega) done
        have before := landed.before
        change (readStage memory selected maxframelen timestamp).reader.u32RdFrameCount ≤ _
        rcases read_stage_reader memory selected maxframelen timestamp with same | next
        · rw [same]
          exact Nat.le_of_lt before
        · rw [next]
          have countSmall := small.count
          change u32 (selected.u32RdFrameCount + 1) ≤ _
          rw [u32_of_lt (by simp only [wordSize]; omega)]
          exact before

/-- A positive result is the copy of the frame the reader selected. -/
theorem get_positive (small : SmallCounters memory) (fresh : FreshSlots memory)
    (behind : reader.u32RdFrameCount ≤ memory.pstuHead.uiWritFrameCount)
    {maxframelen timestamp : Nat}
    (positive : 0 < (getOneFrameFromBuff memory reader maxframelen timestamp).ret) :
    ∃ selected, selectFrame memory reader = .ok selected ∧
      reader.u32RdFrameCount < memory.pstuHead.uiWritFrameCount ∧
      getOneFrameFromBuff memory reader maxframelen timestamp =
        let slot := memory.pstuFrames
          (selected.u32RdFrameCount % memory.pstuHead.uiMaxValidFrames)
        { ret := slot.len
          reader := { selected with u32RdFrameCount := u32 (selected.u32RdFrameCount + 1) }
          timestamp := slot.stuFrameInfo.timestamp
          copied := some
            { bytes := circularCopyOut memory.pstuHead.datasize memory.pstuData slot.position
                slot.len
              frametype := slot.stuFrameInfo.frametype
              priority := slot.stuFrameInfo.priority } } := by
  rw [getOneFrameFromBuff, if_neg (show ¬memory.pstuHead.uiWritFrameCount <
    reader.u32RdFrameCount by omega)] at positive ⊢
  split_ifs at positive ⊢ with caughtUp
  · contradiction
  · cases done : selectFrame memory reader with
    | error early =>
        rw [done] at positive
        have stopped := (select_frame_stopped small fresh (by omega) done).1
        change 0 < early.1 at positive
        omega
    | ok selected =>
        rw [done] at positive
        refine ⟨selected, rfl, by omega, ?_⟩
        change 0 < (readStage memory selected maxframelen timestamp).ret at positive
        change readStage memory selected maxframelen timestamp = _
        simp only [readStage] at positive ⊢
        split_ifs at positive ⊢
        · contradiction
        · contradiction
        · rfl

end Get

/-- The writer and one reader of the same block. -/
structure System where
  writer : Writer
  reader : MemReader

inductive Action where
  | put (frame : Frame)
  | get (maxframelen timestamp : Nat)

namespace System

def init (block : SMemoryPosition) (geometry : Geometry) (readByTime : Bool) : System where
  writer := Writer.init block geometry
  reader := MemReader.attach readByTime

def get (system : System) (maxframelen timestamp : Nat) : GetResult :=
  getOneFrameFromBuff system.writer.memory system.reader maxframelen timestamp

def next (system : System) : Action → System
  | .put frame => { system with writer := system.writer.put frame }
  | .get maxframelen timestamp =>
      { system with reader := (system.get maxframelen timestamp).reader }

/-- What the writes have to meet; a read may take any of its branches. -/
def PutsCovered (system : System) : Action → Prop
  | .put frame => system.writer.memory.CoverSuffices frame
  | .get _ _ => True

instance puts_covered_decidable (system : System) :
    ∀ action, Decidable (system.PutsCovered action)
  | .put frame => cover_suffices_decidable system.writer.memory frame
  | .get _ _ => inferInstanceAs (Decidable True)

end System

/-- The result is frame `number` as it was accepted, and the reader went on from `number`. -/
def Delivers (system : System) (result : GetResult) : Prop :=
  ∃ number frame, result.reader.u32RdFrameCount = number + 1 ∧
    system.writer.accepted[number]? = some frame ∧
    result.ret = frame.framelen ∧ result.timestamp = frame.timestamp ∧
    result.copied = some
      { bytes := frame.bytes, frametype := frame.frametype, priority := frame.priority }

structure SystemInvariant (geometry : Geometry) (system : System) : Prop where
  writer : WriterInvariant geometry.size geometry.frames system.writer
  count : system.writer.memory.pstuHead.uiWritFrameCount = u32 system.writer.accepted.length
  behind : system.writer.accepted.length < 2147483648 →
    system.reader.u32RdFrameCount ≤ system.writer.accepted.length

theorem put_counts (writer : Writer) (frame : Frame)
    (count : writer.memory.pstuHead.uiWritFrameCount = u32 writer.accepted.length) :
    (writer.put frame).memory.pstuHead.uiWritFrameCount =
        u32 (writer.put frame).accepted.length ∧
      writer.accepted.length ≤ (writer.put frame).accepted.length := by
  by_cases big : writer.memory.pstuHead.datasize / 2 ≤ frame.framelen
  · have refused : writer.put frame = writer := by
      simp [Writer.put, put_rejects writer.memory frame big]
    rw [refused]
    exact ⟨count, Nat.le_refl _⟩
  · have accepted : (putOneFrameToBuff writer.memory frame).1 = 0 := by
      rw [putOneFrameToBuff, if_neg big]
    have head : (putOneFrameToBuff writer.memory frame).2.pstuHead.uiWritFrameCount =
        u32 (writer.memory.pstuHead.uiWritFrameCount + 1) := by
      rw [putOneFrameToBuff, if_neg big]
    rw [Writer.put, if_pos accepted]
    refine ⟨?_, by simp⟩
    change (putOneFrameToBuff writer.memory frame).2.pstuHead.uiWritFrameCount =
      u32 (writer.accepted ++ [frame]).length
    rw [head, count, List.length_append, List.length_singleton, u32, u32, u32, Nat.mod_add_mod]

theorem system_invariant_init (block : SMemoryPosition) (geometry : Geometry) (readByTime : Bool) :
    SystemInvariant geometry (System.init block geometry readByTime) where
  writer := writer_invariant_init block geometry
  count := rfl
  behind := fun _ => Nat.le_refl 0

section System

variable {geometry : Geometry} {system : System}

theorem counters_small (invariant : SystemInvariant geometry system)
    (few : system.writer.accepted.length < 2147483648) :
    system.writer.memory.pstuHead.uiWritFrameCount = system.writer.accepted.length ∧
      SmallCounters system.writer.memory ∧ FreshSlots system.writer.memory := by
  have count : system.writer.memory.pstuHead.uiWritFrameCount = system.writer.accepted.length := by
    rw [invariant.count, u32_of_lt (by simp only [wordSize]; omega)]
  refine ⟨count, ⟨by omega, ?_, ?_⟩, ?_⟩
  · rw [invariant.writer.capacity_eq]
    exact geometry.frames_int
  · rw [invariant.writer.capacity_eq]
    exact geometry.frames_ge
  · intro slot unwritten bound
    rw [invariant.writer.capacity_eq] at bound
    exact invariant.writer.fresh slot (by omega) bound

theorem system_invariant_step (invariant : SystemInvariant geometry system) (action : Action)
    (covered : system.PutsCovered action) : SystemInvariant geometry (system.next action) := by
  cases action with
  | put frame =>
      obtain ⟨counts, grows⟩ := put_counts system.writer frame invariant.count
      refine ⟨writer_invariant_step geometry.frames_ge geometry.frames_int invariant.writer covered,
        counts, fun few => ?_⟩
      exact Nat.le_trans (invariant.behind (Nat.lt_of_le_of_lt grows few)) grows
  | get maxframelen timestamp =>
      refine ⟨invariant.writer, invariant.count, fun few => ?_⟩
      obtain ⟨count, small, fresh⟩ := counters_small invariant few
      have behind := invariant.behind few
      have before : system.reader.u32RdFrameCount ≤
          system.writer.memory.pstuHead.uiWritFrameCount := by omega
      have after := get_reader_not_past small fresh before maxframelen timestamp
      rwa [count] at after

/-- The frame the reader selects is still the one of its slot, unless it is one lap back. -/
theorem get_delivers (invariant : SystemInvariant geometry system)
    (few : system.writer.accepted.length < 2147483648)
    (unread : BoundaryUnread system.writer.memory system.reader) (maxframelen timestamp : Nat)
    (positive : 0 < (system.get maxframelen timestamp).ret) :
    Delivers system (system.get maxframelen timestamp) := by
  obtain ⟨count, small, fresh⟩ := counters_small invariant few
  have behind := invariant.behind few
  rw [System.get] at positive ⊢
  obtain ⟨selected, done, before, result⟩ := get_positive small fresh (by omega) positive
  have landed := select_frame_selected small fresh before done
  have notLap := select_frame_not_boundary small fresh before unread done
  have upper := landed.before
  have valid := landed.valid
  rw [invariant.writer.capacity_eq] at notLap valid result
  rw [count] at notLap upper
  obtain ⟨frame, present⟩ : ∃ frame,
      system.writer.accepted[selected.u32RdFrameCount]? = some frame :=
    ⟨_, List.getElem?_eq_getElem upper⟩
  have held := invariant.writer.holds _ frame present notLap
  have bytes := held_frame_bytes (Nat.lt_of_lt_of_le (by decide) geometry.size_ge)
    invariant.writer present held valid
  refine ⟨selected.u32RdFrameCount, frame, ?_, present, ?_, ?_, ?_⟩
  · rw [result]
    exact u32_of_lt (by simp only [wordSize]; omega)
  · rw [result]
    simp only [held.len]
  · rw [result]
    simp only [held.info, Frame.info]
  · rw [result, invariant.writer.size_eq]
    simp only [bytes, held.info, Frame.info]

end System

theorem system_run_invariant (block : SMemoryPosition) (geometry : Geometry) (readByTime : Bool)
    (actions : List Action)
    (meets : Meets System.next System.PutsCovered (System.init block geometry readByTime) actions) :
    SystemInvariant geometry (run System.next (System.init block geometry readByTime) actions) := by
  have step : ∀ system action, SystemInvariant geometry system → system.PutsCovered action →
      SystemInvariant geometry (system.next action) :=
    fun _ action invariant covered => system_invariant_step invariant action covered
  exact run_invariant step actions _ (system_invariant_init block geometry readByTime) meets

/-- A read that the boundary slot does not mislead delivers the frame accepted
under the number the reader counts. -/
theorem get_delivers_accepted_frame (block : SMemoryPosition) (geometry : Geometry)
    (readByTime : Bool) (actions : List Action)
    (meets : Meets System.next System.PutsCovered (System.init block geometry readByTime) actions)
    (few : (run System.next (System.init block geometry readByTime)
      actions).writer.accepted.length < 2147483648)
    (unread : BoundaryUnread
      (run System.next (System.init block geometry readByTime) actions).writer.memory
      (run System.next (System.init block geometry readByTime) actions).reader)
    (maxframelen timestamp : Nat)
    (positive : 0 < ((run System.next (System.init block geometry readByTime) actions).get
      maxframelen timestamp).ret) :
    Delivers (run System.next (System.init block geometry readByTime) actions)
      ((run System.next (System.init block geometry readByTime) actions).get
        maxframelen timestamp) :=
  get_delivers (system_run_invariant block geometry readByTime actions meets) few unread
    maxframelen timestamp positive

def hundredBytes : Geometry := ⟨100, 3, by decide, by decide, by decide, by decide⟩

/-- Two key frames, a read, and three more frames: the reader lags by three frames. -/
def lagActions : List Action :=
  [.put (frameOf 7 1 .I), .put (frameOf 8 1 .I), .get 10 0, .put (frameOf 9 1 .I),
    .put (frameOf 10 1 .I), .put (frameOf 11 1 .I)]

theorem get_delivers_accepted_frame_two :
    Delivers (run System.next (System.init zeroedBlock hundredBytes false) (lagActions.take 2))
      ((run System.next (System.init zeroedBlock hundredBytes false) (lagActions.take 2)).get
        10 0) :=
  get_delivers_accepted_frame zeroedBlock hundredBytes false (lagActions.take 2) (by decide)
    (by decide) (fun _ five => absurd five (by decide)) 10 0 (by decide)

/-- At a lag of exactly the capacity the slot's position is already the one of the next write. -/
theorem lagging_get_delivers_stale_byte :
    let system := run System.next (System.init zeroedBlock hundredBytes false) lagActions
    system.writer.accepted.length < 2147483648 ∧ 0 < (system.get 10 0).ret ∧
      ¬Delivers system (system.get 10 0) := by
  refine ⟨by decide, by decide, ?_⟩
  rintro ⟨number, frame, counted, present, -, -, copied⟩
  have position : number = 2 := by
    have count : number + 1 = 3 := counted.symm
    omega
  subst position
  have same : frameOf 9 1 .I = frame := Option.some.inj present
  subst same
  exact absurd copied (by decide)

end Mgw.StreamBuff
