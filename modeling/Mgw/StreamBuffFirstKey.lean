import Mathlib.Tactic.IntervalCases
import Mgw.StreamBuffReader

/-!
# The first key frame of a reader

A waiting reader is set back five frames and looks for the newest key frame from
the writer downwards. The loop ends above the number where it stands, so that
number's own frame is not considered. Nothing here depends on how the table was
filled.
-/

namespace Mgw.StreamBuff

open CodecDef WordArithmetic

set_option autoImplicit false

section Search

variable {memory : SMemoryPosition} {reader jumped : MemReader}

theorem newest_loop_none {min : Int} {count : Nat}
    (reached : ∀ number : Nat, min < number → reader.u32RdFrameCount ≤ number)
    (nothing : newestLoop memory reader min count = none) (number : Nat) (above : min < number)
    (below : number < count) : ¬KeyNumber memory number := by
  induction count with
  | zero => contradiction
  | succ i ih =>
      rw [newestLoop] at nothing
      split_ifs at nothing with inside key ahead
      · exact absurd (reached i inside) ahead
      · by_cases last : number = i
        · rw [last]
          exact key
        · exact ih nothing (by omega)
      · omega

/-- The jump of a reader that stands before the writer is a search above its place. -/
theorem newest_jump_loop (behind : reader.u32RdFrameCount < memory.pstuHead.uiWritFrameCount)
    (small : memory.pstuHead.uiWritFrameCount < 2147483648) :
    jumpTonewestIFrame memory reader =
      newestLoop memory reader reader.u32RdFrameCount memory.pstuHead.uiWritFrameCount := by
  rw [jumpTonewestIFrame, if_neg (by omega)]
  dsimp only
  rw [sub32_of_le_of_lt (by omega) (by simp only [wordSize]; omega), int32_of_lt (by omega),
    if_pos (by omega), int32_of_lt (by omega), int32_of_lt small, Int.toNat_natCast]

theorem oldest_loop_keeps (remaining i : Nat)
    (found : oldestLoop memory reader remaining i = some jumped) :
    ∃ number, jumped = { reader with u32RdFrameCount := number } := by
  induction remaining generalizing i with
  | zero => contradiction
  | succ remaining ih =>
      rw [oldestLoop] at found
      dsimp only at found
      split_ifs at found with key negative skipped skipped
      · exact ih _ found
      · exact ⟨_, (Option.some.inj found).symm⟩
      · exact ih _ found
      · exact ⟨_, (Option.some.inj found).symm⟩
      · exact ih _ found

/-- The jump to the oldest key frame moves the reader and changes nothing else. -/
theorem oldest_jump_keeps (found : jumpToOldestIFrame memory reader = some jumped) :
    ∃ number, jumped = { reader with u32RdFrameCount := number } := by
  rw [jumpToOldestIFrame] at found
  split_ifs at found
  · exact ⟨0, (Option.some.inj found).symm⟩
  · exact oldest_loop_keeps _ _ found

/-- One round of the loop for a reader more than a table behind. -/
theorem oldest_loop_succ (small : memory.pstuHead.uiWritFrameCount < 2147483648)
    (far : reader.u32RdFrameCount + memory.pstuHead.uiMaxValidFrames <
      memory.pstuHead.uiWritFrameCount) (remaining : Nat) {i : Nat}
    (place : i < memory.pstuHead.uiMaxValidFrames) :
    oldestLoop memory reader (remaining + 1) i =
      if (memory.pstuFrames ((memory.pstuHead.uiWritFrameCount + i) %
          memory.pstuHead.uiMaxValidFrames)).isKeyFrame then
        some { reader with u32RdFrameCount :=
          memory.pstuHead.uiWritFrameCount + i - memory.pstuHead.uiMaxValidFrames }
      else oldestLoop memory reader remaining (i + 1) := by
  have number : int32 (sub32 (memory.pstuHead.uiWritFrameCount + i)
      memory.pstuHead.uiMaxValidFrames) =
      ((memory.pstuHead.uiWritFrameCount + i - memory.pstuHead.uiMaxValidFrames : Nat) : Int) := by
    rw [sub32_of_le_of_lt (by omega) (by simp only [wordSize]; omega), int32_of_lt (by omega)]
  have ahead : ¬(memory.pstuHead.uiWritFrameCount + i - memory.pstuHead.uiMaxValidFrames <
      reader.u32RdFrameCount ∧ reader.u32RdFrameCount < memory.pstuHead.uiWritFrameCount) := by
    omega
  rw [oldestLoop, u32_of_lt (by simp only [wordSize]; omega)]
  dsimp only
  rw [number, if_neg (Int.not_lt.mpr (Int.natCast_nonneg _)), Int.toNat_natCast, if_neg ahead]

/-- A reader more than a table behind goes to the first key frame that the loop meets. -/
theorem oldest_loop_far (small : memory.pstuHead.uiWritFrameCount < 2147483648)
    (far : reader.u32RdFrameCount + memory.pstuHead.uiMaxValidFrames <
      memory.pstuHead.uiWritFrameCount) (remaining i : Nat)
    (range : i + remaining ≤ memory.pstuHead.uiMaxValidFrames)
    (found : oldestLoop memory reader remaining i = some jumped) :
    ∃ place < memory.pstuHead.uiMaxValidFrames,
      KeyNumber memory (memory.pstuHead.uiWritFrameCount + place) ∧
        jumped = { reader with u32RdFrameCount :=
          memory.pstuHead.uiWritFrameCount + place - memory.pstuHead.uiMaxValidFrames } := by
  induction remaining generalizing i with
  | zero => contradiction
  | succ remaining ih =>
      rw [oldest_loop_succ small far remaining (by omega)] at found
      split_ifs at found with key
      · exact ⟨i, by omega, key, (Option.some.inj found).symm⟩
      · exact ih (i + 1) (by omega) found

/-- It passes over no key frame of the table. -/
theorem oldest_loop_none (small : memory.pstuHead.uiWritFrameCount < 2147483648)
    (far : reader.u32RdFrameCount + memory.pstuHead.uiMaxValidFrames <
      memory.pstuHead.uiWritFrameCount) (remaining i : Nat)
    (range : i + remaining ≤ memory.pstuHead.uiMaxValidFrames)
    (nothing : oldestLoop memory reader remaining i = none) (place : Nat) (low : i ≤ place)
    (high : place < i + remaining) :
    ¬KeyNumber memory (memory.pstuHead.uiWritFrameCount + place) := by
  induction remaining generalizing i with
  | zero => omega
  | succ remaining ih =>
      rw [oldest_loop_succ small far remaining (by omega)] at nothing
      split_ifs at nothing with key
      by_cases first : place = i
      · rw [first]
        exact key
      · exact ih (i + 1) (by omega) nothing (by omega) (by omega)

end Search

section Stages

variable {memory : SMemoryPosition} {reader moved : MemReader}

theorem newest_jump_keeps (found : jumpTonewestIFrame memory reader = some moved) :
    ∃ number, moved = { reader with u32RdFrameCount := number } := by
  rw [jumpTonewestIFrame] at found
  dsimp only at found
  by_cases none : memory.pstuHead.uiWritFrameCount = 0
  · rw [if_pos none] at found
    exact ⟨0, (Option.some.inj found).symm⟩
  · rw [if_neg none] at found
    obtain ⟨number, -, -, -, -, landed, -⟩ := newest_loop_lands _ _ found
    exact ⟨number, landed⟩

/-- A stage that ends in the jump to the oldest key frame moves the reader at most. -/
theorem oldest_stage_keeps (done : (match jumpToOldestIFrame memory reader with
      | none => Except.error (frameConsumeSlow, reader)
      | some jumped => .ok jumped) = .ok moved) :
    ∃ number, moved = { reader with u32RdFrameCount := number } := by
  cases found : jumpToOldestIFrame memory reader with
  | none =>
      rw [found] at done
      contradiction
  | some jumped =>
      rw [found] at done
      rw [← Except.ok.inj done]
      exact oldest_jump_keeps found

theorem lag_stage_keeps (done : lagStage memory reader = .ok moved) :
    ∃ number, moved = { reader with u32RdFrameCount := number } := by
  rw [lagStage] at done
  split_ifs at done
  · exact oldest_stage_keeps done
  · exact ⟨reader.u32RdFrameCount, (Except.ok.inj done).symm⟩

theorem valid_stage_keeps (done : validStage memory reader = .ok moved) :
    ∃ number, moved = { reader with u32RdFrameCount := number } := by
  simp only [validStage] at done
  split_ifs at done
  · exact ⟨reader.u32RdFrameCount, (Except.ok.inj done).symm⟩
  · exact oldest_stage_keeps done

theorem select_after_lag (lag : lagStage memory reader = .ok moved) :
    selectFrame memory reader = (keyFrameStage memory moved >>= validStage memory) := by
  unfold selectFrame
  rw [lag]
  rfl

/-- A waiting reader without a key frame stays where the search began. -/
theorem select_waiting_none (lag : lagStage memory reader = .ok moved)
    (waiting : moved.breIframe = true)
    (jump : jumpTonewestIFrame memory (waitingReader memory moved) = none) :
    selectFrame memory reader = .error (0, waitingReader memory moved) := by
  rw [select_after_lag lag, keyFrameStage, if_pos waiting, jump]
  rfl

/-- A waiting reader that finds its key frame needs no other one. -/
theorem select_waiting_some (lag : lagStage memory reader = .ok moved)
    (waiting : moved.breIframe = true) {jumped : MemReader}
    (jump : jumpTonewestIFrame memory (waitingReader memory moved) = some jumped)
    (key : KeyNumber memory jumped.u32RdFrameCount) :
    selectFrame memory reader = .ok { jumped with breIframe := false } := by
  rw [select_after_lag lag, keyFrameStage, if_pos waiting, jump]
  change validStage memory { jumped with breIframe := false } = _
  unfold validStage
  dsimp only
  rw [if_pos (key_number_valid key)]

end Stages

section Waiting

variable {memory : SMemoryPosition} {reader : MemReader}

/-- Where the search of a waiting reader ends: five frames back, or where the
reader stands while there are fewer frames. -/
def searchEnd (memory : SMemoryPosition) (reader : MemReader) : Nat :=
  if 5 ≤ memory.pstuHead.uiWritFrameCount then memory.pstuHead.uiWritFrameCount - 5
  else reader.u32RdFrameCount

/-- A number among the last five that has a valid key frame. -/
def KeyInWindow (memory : SMemoryPosition) (number : Nat) : Prop :=
  memory.pstuHead.uiWritFrameCount - 5 ≤ number ∧ number < memory.pstuHead.uiWritFrameCount ∧
    KeyNumber memory number

def NewestKey (memory : SMemoryPosition) (number : Nat) : Prop :=
  KeyInWindow memory number ∧ ∀ later, number < later → ¬KeyInWindow memory later

/-- The newest key frame of the window is what the reader goes on with; without
one it gets nothing and goes on waiting. -/
structure FirstKeyChosen (memory : SMemoryPosition) (reader : MemReader)
    (maxframelen timestamp : Nat) : Prop where
  starts : ∀ number, NewestKey memory number →
    getOneFrameFromBuff memory reader maxframelen timestamp =
      readStage memory { reader with u32RdFrameCount := number, breIframe := false } maxframelen
        timestamp
  waits : (∀ number, ¬KeyInWindow memory number) →
    (getOneFrameFromBuff memory reader maxframelen timestamp).ret ≤ 0 ∧
      (getOneFrameFromBuff memory reader maxframelen timestamp).reader.breIframe = true

theorem search_end_bounds (behind : reader.u32RdFrameCount < memory.pstuHead.uiWritFrameCount) :
    memory.pstuHead.uiWritFrameCount - 5 ≤ searchEnd memory reader ∧
      searchEnd memory reader < memory.pstuHead.uiWritFrameCount := by
  unfold searchEnd
  split_ifs <;> omega

/-- Whatever the lag does, a waiting reader searches down to the same number. -/
theorem lag_then_waiting (capacity : 6 ≤ memory.pstuHead.uiMaxValidFrames)
    (small : memory.pstuHead.uiWritFrameCount < 2147483648)
    (behind : reader.u32RdFrameCount < memory.pstuHead.uiWritFrameCount) {caught : MemReader}
    (lag : lagStage memory reader = .ok caught) :
    waitingReader memory caught = { reader with u32RdFrameCount := searchEnd memory reader } ∧
      caught.breIframe = reader.breIframe := by
  unfold waitingReader searchEnd
  by_cases five : 5 ≤ memory.pstuHead.uiWritFrameCount
  · obtain ⟨number, moved⟩ := lag_stage_keeps lag
    rw [moved, if_pos five, if_pos five]
    exact ⟨rfl, rfl⟩
  · have near : lagStage memory reader = .ok reader := by
      rw [lagStage, sub32_of_le_of_lt (by omega) (by simp only [wordSize]; omega),
        if_neg (by omega)]
    rw [← Except.ok.inj (near.symm.trans lag), if_neg five, if_neg five]
    exact ⟨rfl, rfl⟩

/-- A reader that cannot catch up has no key frame anywhere in the table. -/
theorem lag_stops_none (small : memory.pstuHead.uiWritFrameCount < 2147483648)
    (behind : reader.u32RdFrameCount < memory.pstuHead.uiWritFrameCount) {stop : Int × MemReader}
    (lag : lagStage memory reader = .error stop) (number : Nat)
    (near : memory.pstuHead.uiWritFrameCount ≤ number + memory.pstuHead.uiMaxValidFrames)
    (before : number < memory.pstuHead.uiWritFrameCount) : ¬KeyNumber memory number := by
  unfold lagStage at lag
  rw [sub32_of_le_of_lt (by omega) (by simp only [wordSize]; omega)] at lag
  split_ifs at lag with far
  cases found : jumpToOldestIFrame memory reader with
  | none =>
      unfold jumpToOldestIFrame at found
      rw [if_neg (by omega)] at found
      have clear := oldest_loop_none small (by omega) _ 0 (by omega) found
        (number + memory.pstuHead.uiMaxValidFrames - memory.pstuHead.uiWritFrameCount) (by omega)
        (by omega)
      rwa [Nat.add_sub_cancel' near, key_number_add_capacity] at clear
  | some jumped =>
      rw [found] at lag
      contradiction

/-- What the stages make of a waiting reader. -/
theorem waiting_select_cases (capacity : 6 ≤ memory.pstuHead.uiMaxValidFrames)
    (small : memory.pstuHead.uiWritFrameCount < 2147483648)
    (behind : reader.u32RdFrameCount < memory.pstuHead.uiWritFrameCount)
    (waiting : reader.breIframe = true) :
    (∃ ret stopped, selectFrame memory reader = .error (ret, stopped) ∧ ret ≤ 0 ∧
        stopped.breIframe = true ∧
        ∀ number, searchEnd memory reader < number →
          number < memory.pstuHead.uiWritFrameCount → ¬KeyNumber memory number) ∨
      ∃ number, searchEnd memory reader < number ∧ number < memory.pstuHead.uiWritFrameCount ∧
        KeyNumber memory number ∧
        (∀ later, number < later → later < memory.pstuHead.uiWritFrameCount →
          ¬KeyNumber memory later) ∧
        selectFrame memory reader =
          .ok { reader with u32RdFrameCount := number, breIframe := false } := by
  have bounds := search_end_bounds behind
  cases lag : lagStage memory reader with
  | error stop =>
      cases lag_stage_stops lag
      refine Or.inl ⟨_, _, by rw [selectFrame, lag]; rfl, by decide, waiting, ?_⟩
      intro number above before
      exact lag_stops_none small behind lag number (by omega) before
  | ok caught =>
      obtain ⟨start, flag⟩ := lag_then_waiting capacity small behind lag
      have first : caught.breIframe = true := flag.trans waiting
      have jump := @newest_jump_loop memory
        { reader with u32RdFrameCount := searchEnd memory reader } bounds.2 small
      cases found : newestLoop memory { reader with u32RdFrameCount := searchEnd memory reader }
          (searchEnd memory reader) memory.pstuHead.uiWritFrameCount with
      | none =>
          rw [found, ← start] at jump
          refine Or.inl ⟨0, waitingReader memory caught, select_waiting_none lag first jump,
            Int.le_refl 0, ?_, ?_⟩
          · rw [start]
            exact waiting
          · intro number above before
            exact newest_loop_none (fun other high => by
              change searchEnd memory reader ≤ other
              omega) found number (by omega) before
      | some jumped =>
          rw [found, ← start] at jump
          obtain ⟨number, above, before, -, key, landed, newest⟩ := newest_loop_lands _ _ found
          refine Or.inr ⟨number, by omega, before, key, newest, ?_⟩
          rw [select_waiting_some lag first jump (landed ▸ key), landed]

theorem read_stage_flag (maxframelen timestamp : Nat) :
    (readStage memory reader maxframelen timestamp).reader.breIframe = reader.breIframe := by
  rcases read_stage_reader memory reader maxframelen timestamp with same | next
  · rw [same]
  · rw [next]

theorem get_stopped (behind : reader.u32RdFrameCount < memory.pstuHead.uiWritFrameCount) {ret : Int}
    {stopped : MemReader} (selected : selectFrame memory reader = .error (ret, stopped))
    (maxframelen timestamp : Nat) :
    getOneFrameFromBuff memory reader maxframelen timestamp =
      { ret := ret, reader := stopped, timestamp := timestamp, copied := none } := by
  rw [getOneFrameFromBuff, if_neg (by omega), if_neg (by omega), selected]

theorem get_selected (behind : reader.u32RdFrameCount < memory.pstuHead.uiWritFrameCount)
    {chosen : MemReader} (selected : selectFrame memory reader = .ok chosen)
    (maxframelen timestamp : Nat) :
    getOneFrameFromBuff memory reader maxframelen timestamp =
      readStage memory chosen maxframelen timestamp := by
  rw [getOneFrameFromBuff, if_neg (by omega), if_neg (by omega), selected]

theorem newest_key_unique {number other : Nat} (newest : NewestKey memory number)
    (key : KeyInWindow memory other)
    (last : ∀ later, other < later → later < memory.pstuHead.uiWritFrameCount →
      ¬KeyNumber memory later) : number = other := by
  obtain ⟨⟨low, before, keyNumber⟩, none⟩ := newest
  by_contra different
  obtain older | newer := Nat.lt_or_gt_of_ne different
  · exact none other older key
  · exact last number newer before keyNumber

/-- The first key frame is chosen as it should be unless the newest one of the
window has exactly the number where the search ends, or one before it. -/
theorem first_key_chosen_iff (memory : SMemoryPosition) (reader : MemReader)
    (maxframelen timestamp : Nat) (capacity : 6 ≤ memory.pstuHead.uiMaxValidFrames)
    (small : memory.pstuHead.uiWritFrameCount < 2147483648)
    (behind : reader.u32RdFrameCount < memory.pstuHead.uiWritFrameCount)
    (waiting : reader.breIframe = true) :
    FirstKeyChosen memory reader maxframelen timestamp ↔
      ∀ number, NewestKey memory number → searchEnd memory reader < number := by
  have bounds := search_end_bounds behind
  rcases waiting_select_cases capacity small behind waiting with
    ⟨ret, stopped, selected, early, still, none⟩ | ⟨found, above, before, key, last, selected⟩
  · have get := get_stopped behind selected maxframelen timestamp
    constructor
    · intro ⟨starts, _⟩ number newest
      have flag := congrArg (fun result => result.reader.breIframe) (get.symm.trans (starts number newest))
      dsimp only at flag
      rw [still, read_stage_flag] at flag
      contradiction
    · intro inside
      refine ⟨?_, ?_⟩
      · intro number newest
        exact absurd newest.1.2.2 (none number (inside number newest) newest.1.2.1)
      · intro _
        rw [get]
        exact ⟨early, still⟩
  · have get := get_selected behind selected maxframelen timestamp
    have inWindow : KeyInWindow memory found := ⟨by omega, before, key⟩
    constructor
    · intro _ number newest
      rw [newest_key_unique newest inWindow last]
      exact above
    · intro _
      refine ⟨?_, fun nothing => absurd inWindow (nothing found)⟩
      intro number newest
      rw [get, newest_key_unique newest inWindow last]

end Waiting

section Rings

def frameOfType (frametype : FrameType) : Frame where
  pframe := fun _ => 7
  framelen := 4
  timestamp := 20
  frametype := frametype
  priority := 0

/-- A ring of six slots behind writes of these types. -/
def ringOf (types : List FrameType) : SMemoryPosition :=
  types.foldl (fun memory frametype => (putOneFrameToBuff memory (frameOfType frametype)).2)
    (initMemoryParam zeroedBlock 6 100)

theorem first_key_chosen_iff_three :
    FirstKeyChosen (ringOf [.P, .I, .P]) (MemReader.attach false) 100 0 := by
  refine (first_key_chosen_iff (ringOf [.P, .I, .P]) (MemReader.attach false) 100 0 (by decide)
    (by decide) (by decide) rfl).mpr ?_
  intro number newest
  have before : number < 3 := newest.1.2.1
  have key := newest.1.2.2
  interval_cases number
  · exact absurd key (by unfold KeyNumber; decide)
  · decide
  · exact absurd key (by unfold KeyNumber; decide)

/-- A stream that begins with its key frame: the reader does not find it, neither
at once nor as the last of the five frames it goes back. -/
theorem first_frame_key_missed :
    ¬FirstKeyChosen (ringOf [.I]) (MemReader.attach false) 100 0 ∧
      ¬FirstKeyChosen (ringOf [.I, .P, .P, .P, .P]) (MemReader.attach false) 100 0 := by
  constructor
  · intro chosen
    have newest : NewestKey (ringOf [.I]) 0 := by
      refine ⟨⟨by decide, by decide, by unfold KeyNumber; decide⟩, ?_⟩
      intro later above key
      have before : later < 1 := key.2.1
      omega
    have started := congrArg GetResult.ret (chosen.starts 0 newest)
    revert started
    decide
  · intro chosen
    have newest : NewestKey (ringOf [.I, .P, .P, .P, .P]) 0 := by
      refine ⟨⟨by decide, by decide, by unfold KeyNumber; decide⟩, ?_⟩
      intro later above key
      have before : later < 5 := key.2.1
      have keyNumber := key.2.2
      revert keyNumber
      unfold KeyNumber
      interval_cases later <;> decide
    have started := congrArg GetResult.ret (chosen.starts 0 newest)
    revert started
    decide

end Rings

end Mgw.StreamBuff
