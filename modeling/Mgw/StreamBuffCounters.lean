import Mgw.StreamBuffView

/-!
# The frame counters of the ring

The writer's slot is its counter modulo the capacity, which does not go on at the
wrap unless the capacity divides `2 ^ 32`. The jumps take the counters as `int`,
and a counter that has wrapped is smaller than a reader's that has not. Up to
there the counters do not show: frames go to adjacent slots, and a reader behaves
like one that only knows its lag.
-/

namespace Mgw.StreamBuff

open CodecDef WordArithmetic TransitionRuns

set_option autoImplicit false

/-- Both jumps land where those of the reader without counters do. -/
def JumpsMatch (memory : SMemoryPosition) (reader : MemReader) : Prop :=
  (jumpToOldestIFrame memory reader).map memory.lagging =
      (memory.view.oldest (memory.lagging reader).lag).map (fun age =>
        { memory.lagging reader with lag := age }) ∧
    (jumpTonewestIFrame memory reader).map memory.lagging =
      (memory.view.newest (memory.lagging reader).lag).map (fun age =>
        { memory.lagging reader with lag := age })

/-- What a step does, as far as the claim goes that no counter value can be told
from it: the next frame's slot is the adjacent one, and a call and its jumps match. -/
def CountersHidden (system : System) : Action → Prop
  | .put frame =>
      (putOneFrameToBuff system.writer.memory frame).1 = 0 →
        (system.next (.put frame)).writer.memory.writeSlot =
          (system.writer.memory.writeSlot + 1) % system.writer.memory.pstuHead.uiMaxValidFrames
  | .get maxframelen timestamp =>
      GetMatches system.writer.memory system.reader maxframelen timestamp ∧
        (system.writer.memory.pstuHead.uiWritFrameCount ≠ system.reader.u32RdFrameCount →
          ¬ReadsOn system.writer.memory system.reader →
            JumpsMatch system.writer.memory system.reader)

/-- An accepted frame does not wrap the counter of a capacity that does not divide
`2 ^ 32`. A reader is not past the writer, and if it has to jump, the counter is
below `2 ^ 31` and has not wrapped, or has gone round the table since, and a reader
without its first key frame does not stand within the last five frames. -/
def CountersFit (system : System) : Action → Prop
  | .put frame =>
      system.writer.memory.pstuHead.datasize / 2 ≤ frame.framelen ∨
        system.writer.memory.pstuHead.uiWritFrameCount + 1 < wordSize ∨
        system.writer.memory.pstuHead.uiMaxValidFrames ∣ wordSize
  | .get _ _ =>
      system.writer.memory.pstuHead.uiWritFrameCount = system.reader.u32RdFrameCount ∨
        (system.reader.u32RdFrameCount < system.writer.memory.pstuHead.uiWritFrameCount ∧
          (ReadsOn system.writer.memory system.reader ∨
            (system.writer.memory.pstuHead.uiWritFrameCount < 2147483648 ∧
              (system.writer.accepted.length < wordSize ∨
                system.writer.memory.pstuHead.uiMaxValidFrames ≤
                  system.writer.memory.pstuHead.uiWritFrameCount) ∧
              (system.reader.breIframe = true →
                5 ≤ system.writer.memory.pstuHead.uiWritFrameCount →
                5 ≤ system.writer.memory.pstuHead.uiWritFrameCount -
                  system.reader.u32RdFrameCount))))

instance (memory : SMemoryPosition) (reader : MemReader) : Decidable (ReadsOn memory reader) :=
  inferInstanceAs (Decidable (_ ∧ _ ∧ _))

instance (system : System) : ∀ action, Decidable (CountersFit system action)
  | .put _ => inferInstanceAs (Decidable (_ ∨ _ ∨ _))
  | .get _ _ => inferInstanceAs (Decidable (_ ∨ (_ ∧ (_ ∨ (_ ∧ (_ ∨ _) ∧ (_ → _ → _))))))

section Steps

variable {memory : SMemoryPosition} {reader : MemReader} {frame : Frame}

theorem put_head (fits : frame.framelen < memory.pstuHead.datasize / 2) :
    (putOneFrameToBuff memory frame).2.pstuHead =
      { memory.pstuHead with uiWritFrameCount := u32 (memory.pstuHead.uiWritFrameCount + 1) } := by
  rw [put_fits fits]

/-- The next slot is the adjacent one as long as the counter does not wrap, and at
the wrap for a capacity that divides `2 ^ 32`. -/
theorem put_adjacent_iff (fits : frame.framelen < memory.pstuHead.datasize / 2)
    (word : memory.pstuHead.uiWritFrameCount < wordSize) :
    (putOneFrameToBuff memory frame).2.writeSlot =
        (memory.writeSlot + 1) % memory.pstuHead.uiMaxValidFrames ↔
      memory.pstuHead.uiWritFrameCount + 1 < wordSize ∨
        memory.pstuHead.uiMaxValidFrames ∣ wordSize := by
  have slot : (putOneFrameToBuff memory frame).2.writeSlot =
      u32 (memory.pstuHead.uiWritFrameCount + 1) % memory.pstuHead.uiMaxValidFrames := by
    rw [SMemoryPosition.writeSlot, put_head fits]
  rw [slot, SMemoryPosition.writeSlot, Nat.mod_add_mod]
  by_cases last : memory.pstuHead.uiWritFrameCount + 1 = wordSize
  · have wrapped : u32 (memory.pstuHead.uiWritFrameCount + 1) = 0 := by
      rw [last, u32, Nat.mod_self]
    rw [wrapped, last, Nat.zero_mod]
    constructor
    · intro even
      exact Or.inr (Nat.dvd_of_mod_eq_zero even.symm)
    · intro divides
      exact (Nat.mod_eq_zero_of_dvd (divides.resolve_left (Nat.lt_irrefl _))).symm
  · have small : memory.pstuHead.uiWritFrameCount + 1 < wordSize := by omega
    rw [u32_of_lt small]
    exact ⟨fun _ => Or.inl small, fun _ => rfl⟩

theorem regular_jumps (regular : Regular memory reader) : JumpsMatch memory reader := by
  have lag : (memory.lagging reader).lag =
      memory.pstuHead.uiWritFrameCount - reader.u32RdFrameCount := by
    rw [lagging_regular regular]
  have lands : ∀ age, 0 < age → age ≤ memory.pstuHead.uiWritFrameCount - reader.u32RdFrameCount →
      memory.lagging (memory.readerAt reader age) =
        { memory.lagging reader with lag := age } := by
    intro age _ bound
    rw [lagging_reader_at regular (by omega)]
    rfl
  constructor
  · rw [oldest_matches regular, lag]
    cases found : memory.view.oldest
        (memory.pstuHead.uiWritFrameCount - reader.u32RdFrameCount) with
    | none => rfl
    | some age =>
        have bounds := oldest_bounds found
        exact congrArg some (lands age bounds.1 bounds.2)
  · rw [newest_matches regular, lag]
    cases found : memory.view.newest
        (memory.pstuHead.uiWritFrameCount - reader.u32RdFrameCount) with
    | none => rfl
    | some age =>
        have bounds := newest_bounds found
        exact congrArg some (lands age bounds.1 (Nat.le_of_lt bounds.2))

/-- From `2 ^ 31` on no reader finds its first key frame. -/
theorem first_key_never_found (negative : 2147483648 ≤ memory.pstuHead.uiWritFrameCount)
    (word : memory.pstuHead.uiWritFrameCount < wordSize) :
    jumpTonewestIFrame memory reader = none := by
  have sign : (int32 memory.pstuHead.uiWritFrameCount).toNat = 0 := by
    rw [int32, u32_of_lt word, if_neg (Nat.not_lt.mpr negative)]
    simp only [wordSize] at word
    omega
  rw [jumpTonewestIFrame, if_neg (by omega)]
  dsimp only
  rw [sign]
  rfl

/-- A reader that the wrapped counter has left behind it is told that it is too
fast, whatever there is to read. -/
theorem passed_reader_starves
    (passed : memory.pstuHead.uiWritFrameCount < reader.u32RdFrameCount)
    (maxframelen timestamp : Nat) :
    (getOneFrameFromBuff memory reader maxframelen timestamp).ret = frameConsumeFast ∧
      (getOneFrameFromBuff memory reader maxframelen timestamp).copied = none := by
  rw [getOneFrameFromBuff, if_neg (by omega), if_pos passed]
  exact ⟨rfl, rfl⟩

end Steps

/-- The counter is that of the accepted frames, and as long as it has not wrapped
the slots from it on are invalid. -/
structure CountersInvariant (capacity : Nat) (system : System) : Prop where
  capacity_eq : system.writer.memory.pstuHead.uiMaxValidFrames = capacity
  count : system.writer.memory.pstuHead.uiWritFrameCount = u32 system.writer.accepted.length
  fresh : system.writer.accepted.length < wordSize → FreshSlots system.writer.memory

section Invariant

variable {capacity : Nat} {system : System}

theorem counters_init (block : SMemoryPosition) (geometry : Geometry) (readByTime : Bool) :
    CountersInvariant geometry.frames (System.init block geometry readByTime) where
  capacity_eq := rfl
  count := rfl
  fresh := by
    intro _ slot _ bound
    change slot < geometry.frames at bound
    exact congrArg SmemoryFrame.ucValidFlag (if_pos bound)

theorem fresh_written {writer : Writer} {frame : Frame} {after : SMemoryPosition}
    (fresh : FreshSlots writer.memory) (written : WrittenTable writer.memory frame after)
    (word : writer.memory.pstuHead.uiWritFrameCount + 1 < wordSize) : FreshSlots after := by
  intro slot unwritten bound
  rw [written.head] at unwritten bound
  change u32 (writer.memory.pstuHead.uiWritFrameCount + 1) ≤ slot at unwritten
  rw [u32_of_lt word] at unwritten
  change slot < writer.memory.pstuHead.uiMaxValidFrames at bound
  have different : slot ≠ writer.memory.writeSlot := by
    rw [SMemoryPosition.writeSlot, Nat.mod_eq_of_lt (by omega)]
    omega
  have before := fresh slot (by omega) bound
  by_contra valid
  rw [(written.kept slot different).2.2 (by simpa using valid)] at before
  exact Bool.false_ne_true before.symm

theorem counters_put (invariant : CountersInvariant capacity system) (frame : Frame) :
    CountersInvariant capacity (system.next (.put frame)) := by
  obtain ⟨counts, grows⟩ := put_counts system.writer frame invariant.count
  rcases put_cases system.writer frame with same | ⟨after, written, accepted⟩
  · have stays : system.next (.put frame) = system := by rw [System.next, same]
    rw [stays]
    exact invariant
  · refine ⟨?_, counts, fun few => ?_⟩
    · change (system.writer.put frame).memory.pstuHead.uiMaxValidFrames = capacity
      rw [accepted]
      change after.pstuHead.uiMaxValidFrames = capacity
      rw [written.head]
      exact invariant.capacity_eq
    · change (system.writer.put frame).accepted.length < wordSize at few
      change FreshSlots (system.writer.put frame).memory
      rw [accepted] at few ⊢
      have length : (system.writer.accept frame after).accepted.length =
          system.writer.accepted.length + 1 := List.length_append
      rw [length] at few
      have word : system.writer.memory.pstuHead.uiWritFrameCount =
          system.writer.accepted.length := by
        rw [invariant.count, u32_of_lt (by omega)]
      exact fresh_written (invariant.fresh (by omega)) written (by omega)

theorem counters_next (invariant : CountersInvariant capacity system) (action : Action) :
    CountersInvariant capacity (system.next action) := by
  cases action with
  | put frame => exact counters_put invariant frame
  | get maxframelen timestamp => exact ⟨invariant.capacity_eq, invariant.count, invariant.fresh⟩

theorem counter_word (invariant : CountersInvariant capacity system) :
    system.writer.memory.pstuHead.uiWritFrameCount < wordSize := by
  rw [invariant.count]
  exact Nat.mod_lt _ (by decide)

theorem fit_put_hidden {frame : Frame} (invariant : CountersInvariant capacity system)
    (fit : CountersFit system (.put frame)) : CountersHidden system (.put frame) := by
  intro accepted
  have fits : frame.framelen < system.writer.memory.pstuHead.datasize / 2 := by
    by_contra big
    rw [put_rejects _ _ (Nat.le_of_not_lt big)] at accepted
    exact absurd (show (-2 : Int) = 0 from accepted) (by decide)
  have after : (system.next (.put frame)).writer.memory =
      (putOneFrameToBuff system.writer.memory frame).2 := by
    rw [System.next, Writer.put, if_pos accepted]
  rw [after]
  exact (put_adjacent_iff fits (counter_word invariant)).mpr
    (fit.resolve_left (Nat.not_le.mpr fits))

theorem fit_get_hidden {maxframelen timestamp : Nat}
    (invariant : CountersInvariant capacity system) (range : 2 ≤ capacity)
    (small : capacity < 2147483648) (fit : CountersFit system (.get maxframelen timestamp)) :
    CountersHidden system (.get maxframelen timestamp) := by
  have word := counter_word invariant
  have capacityEq := invariant.capacity_eq
  rcases fit with caughtUp | ⟨behind, reads | ⟨count, clean, waits⟩⟩
  · exact ⟨caught_up_matches caughtUp word maxframelen timestamp,
      fun differ => absurd caughtUp differ⟩
  · exact ⟨reads_on_matches (by omega) behind word reads maxframelen timestamp,
      fun _ jumps => absurd reads jumps⟩
  · have regular : Regular system.writer.memory system.reader := by
      refine ⟨⟨count, by omega, by omega⟩, behind, ?_⟩
      rcases clean with unwrapped | round
      · exact Or.inr (invariant.fresh unwrapped)
      · exact Or.inl round
    exact ⟨jumps_match regular waits maxframelen timestamp, fun _ _ => regular_jumps regular⟩

end Invariant

/-- Counters that fit do not show in any step of a run. -/
theorem fitting_counters_hidden (block : SMemoryPosition) (geometry : Geometry)
    (readByTime : Bool) (actions : List Action)
    (fit : Meets System.next CountersFit (System.init block geometry readByTime) actions)
    (before : List Action) (action : Action) (after : List Action)
    (parts : actions = before ++ action :: after) :
    CountersHidden (run System.next (System.init block geometry readByTime) before) action := by
  rw [parts, meets_append] at fit
  have step : ∀ system other, CountersInvariant geometry.frames system →
      CountersFit system other → CountersInvariant geometry.frames (system.next other) := by
    intro system other invariant _
    exact counters_next invariant other
  have invariant := run_invariant step before _ (counters_init block geometry readByTime) fit.1
  cases action with
  | put frame => exact fit_put_hidden invariant fit.2.1
  | get maxframelen timestamp =>
      exact fit_get_hidden invariant geometry.frames_ge geometry.frames_int fit.2.1

/-- After two key frames the reader reads one, falls behind and is read on. -/
theorem fitting_counters_hidden_lagging :
    CountersHidden (run System.next (System.init zeroedBlock hundredBytes false)
      [.put (frameOf 7 1 .I), .put (frameOf 8 1 .I), .get 10 0, .put (frameOf 9 1 .I),
        .put (frameOf 10 1 .P), .put (frameOf 11 1 .P), .put (frameOf 12 1 .P)]) (.get 10 0) :=
  fitting_counters_hidden zeroedBlock hundredBytes false
    [.put (frameOf 7 1 .I), .put (frameOf 8 1 .I), .get 10 0, .put (frameOf 9 1 .I),
      .put (frameOf 10 1 .P), .put (frameOf 11 1 .P), .put (frameOf 12 1 .P), .get 10 0]
    (by decide) _ (.get 10 0) [] rfl

section Waiting

variable {capacity : Nat} {system : System}

theorem unwrapped_count (invariant : CountersInvariant capacity system)
    (unwrapped : system.writer.accepted.length < wordSize) :
    system.writer.memory.pstuHead.uiWritFrameCount = system.writer.accepted.length := by
  rw [invariant.count, u32_of_lt unwrapped]

theorem put_waits_far (invariant : CountersInvariant capacity system) (frame : Frame)
    (unwrapped : (system.next (.put frame)).writer.accepted.length < wordSize)
    (far : WaitsFar system.writer.memory system.reader) :
    WaitsFar (system.next (.put frame)).writer.memory (system.next (.put frame)).reader := by
  have grows := (put_counts system.writer frame invariant.count).2
  have before := unwrapped_count invariant (Nat.lt_of_le_of_lt grows unwrapped)
  have after := unwrapped_count (counters_put invariant frame) unwrapped
  intro waiting
  rcases far waiting with start | back
  · exact Or.inl start
  · right
    rw [after]
    rw [before] at back
    exact Nat.le_trans back grows

theorem fit_get_waits_far {maxframelen timestamp : Nat}
    (invariant : CountersInvariant capacity system) (large : 4 ≤ capacity)
    (small : capacity < 2147483648) (unwrapped : system.writer.accepted.length < wordSize)
    (fit : CountersFit system (.get maxframelen timestamp))
    (far : WaitsFar system.writer.memory system.reader) :
    WaitsFar system.writer.memory (system.next (.get maxframelen timestamp)).reader := by
  have word := counter_word invariant
  have capacityEq := invariant.capacity_eq
  change WaitsFar system.writer.memory
    (getOneFrameFromBuff system.writer.memory system.reader maxframelen timestamp).reader
  rcases fit with caughtUp | ⟨behind, reads | ⟨count, -, -⟩⟩
  · rw [getOneFrameFromBuff, if_pos caughtUp]
    exact far
  · intro waiting
    rw [getOneFrameFromBuff, if_neg (by omega), if_neg (by omega),
      reads_on_selects behind word reads] at waiting
    change (readStage system.writer.memory system.reader maxframelen timestamp).reader.breIframe =
      true at waiting
    rcases read_stage_reader system.writer.memory system.reader maxframelen timestamp with
      same | next
    · rw [same] at waiting
      exact absurd (reads.1.symm.trans waiting) Bool.false_ne_true
    · rw [next] at waiting
      exact absurd (reads.1.symm.trans waiting) Bool.false_ne_true
  · have regular : Regular system.writer.memory system.reader :=
      ⟨⟨count, by omega, by omega⟩, behind, Or.inr (invariant.fresh unwrapped)⟩
    exact get_waits_far regular (by omega) far maxframelen timestamp

/-- In a ring of four slots or more, a reader without its first key frame stands far
enough behind, until the counter wraps. -/
theorem waiting_readers_stand_far (block : SMemoryPosition) (geometry : Geometry)
    (readByTime : Bool) (large : 4 ≤ geometry.frames) (actions : List Action)
    (fit : Meets System.next CountersFit (System.init block geometry readByTime) actions)
    (unwrapped : (run System.next (System.init block geometry readByTime)
      actions).writer.accepted.length < wordSize) :
    WaitsFar (run System.next (System.init block geometry readByTime) actions).writer.memory
      (run System.next (System.init block geometry readByTime) actions).reader := by
  have step : ∀ system action,
      (CountersInvariant geometry.frames system ∧ (system.writer.accepted.length < wordSize →
        WaitsFar system.writer.memory system.reader)) → CountersFit system action →
      (CountersInvariant geometry.frames (system.next action) ∧
        ((system.next action).writer.accepted.length < wordSize →
          WaitsFar (system.next action).writer.memory (system.next action).reader)) := by
    rintro system action ⟨invariant, far⟩ fits
    refine ⟨counters_next invariant action, fun few => ?_⟩
    cases action with
    | put frame =>
        have grows := (put_counts system.writer frame invariant.count).2
        exact put_waits_far invariant frame few (far (Nat.lt_of_le_of_lt grows few))
    | get maxframelen timestamp =>
        exact fit_get_waits_far invariant large geometry.frames_int few fits (far few)
  have start : CountersInvariant geometry.frames (System.init block geometry readByTime) ∧
      ((System.init block geometry readByTime).writer.accepted.length < wordSize →
        WaitsFar (System.init block geometry readByTime).writer.memory
          (System.init block geometry readByTime).reader) :=
    ⟨counters_init block geometry readByTime, fun _ _ => Or.inl rfl⟩
  exact (run_invariant step actions _ start fit).2 unwrapped

end Waiting

section Wrap

variable {system : System} {frame : Frame}

theorem accepted_head (fits : frame.framelen < system.writer.memory.pstuHead.datasize / 2) :
    (system.next (.put frame)).writer.memory.pstuHead =
      { system.writer.memory.pstuHead with
        uiWritFrameCount := u32 (system.writer.memory.pstuHead.uiWritFrameCount + 1) } := by
  rw [System.next, Writer.put, if_pos (put_writes_table fits).1]
  exact put_head fits

/-- The head after any number of accepted frames. -/
theorem puts_head (fits : frame.framelen < system.writer.memory.pstuHead.datasize / 2)
    (start : system.writer.memory.pstuHead.uiWritFrameCount = 0) (count : Nat) :
    (run System.next system (List.replicate count (.put frame))).writer.memory.pstuHead =
      { system.writer.memory.pstuHead with uiWritFrameCount := u32 count } := by
  induction count with
  | zero =>
      rw [List.replicate_zero, run_nil, u32, Nat.zero_mod, ← start]
  | succ count ih =>
      rw [List.replicate_succ', run_append, run_cons, run_nil, accepted_head (by rw [ih]; exact fits),
        ih]
      dsimp only
      rw [u32, u32, u32, Nat.mod_add_mod]

end Wrap

/-- With three slots, frame number `2 ^ 32` is stored over the frame before it. -/
theorem wrapped_frames_share_slot :
    ¬∀ (block : SMemoryPosition) (geometry : Geometry) (readByTime : Bool)
      (before : List Action) (action : Action),
      CountersHidden (run System.next (System.init block geometry readByTime) before) action := by
  intro claimed
  have hidden := claimed zeroedBlock hundredBytes false
    (List.replicate (wordSize - 1) (.put (frameOf 7 1 .I))) (.put (frameOf 7 1 .I))
  obtain ⟨system, systemDef⟩ : ∃ system : System, system =
      run System.next (System.init zeroedBlock hundredBytes false)
        (List.replicate (wordSize - 1) (.put (frameOf 7 1 .I))) := ⟨_, rfl⟩
  have head : system.writer.memory.pstuHead =
      { (System.init zeroedBlock hundredBytes false).writer.memory.pstuHead with
        uiWritFrameCount := u32 (wordSize - 1) } := by
    rw [systemDef]
    exact puts_head (by decide) rfl _
  rw [← systemDef] at hidden
  have fits : (frameOf 7 1 .I).framelen < system.writer.memory.pstuHead.datasize / 2 := by
    rw [head]
    decide
  have word : system.writer.memory.pstuHead.uiWritFrameCount < wordSize := by
    rw [head]
    decide
  have adjacent := hidden (put_writes_table fits).1
  have after : (system.next (.put (frameOf 7 1 .I))).writer.memory =
      (putOneFrameToBuff system.writer.memory (frameOf 7 1 .I)).2 := by
    rw [System.next, Writer.put, if_pos (put_writes_table fits).1]
  rw [after, put_adjacent_iff fits word, head] at adjacent
  exact absurd adjacent (by decide)

end Mgw.StreamBuff
