import Mgw.StreamBuffDelivery

/-!
# The ring as seen from the writer

A reader without counters knows how far it is behind the writer, its lag, and
finds each frame by how many frames ago it was accepted. `GetOneFrameFromBuff`
does what that reader does as long as its counters have not wrapped and are
small enough for its signed variables.
-/

namespace Mgw.StreamBuff

open ByteArea CodecDef WordArithmetic

set_option autoImplicit false

/-- The block without the writer's counter: `behind k` is the slot that was
written `k` accepted frames ago. -/
structure RingView where
  capacity : Nat
  behind : Nat → SmemoryFrame
  datasize : Nat
  data : Bytes

def SMemoryPosition.view (memory : SMemoryPosition) : RingView where
  capacity := memory.pstuHead.uiMaxValidFrames
  behind := fun age => memory.pstuFrames
    ((memory.writeSlot +
      (memory.pstuHead.uiMaxValidFrames - age % memory.pstuHead.uiMaxValidFrames)) %
        memory.pstuHead.uiMaxValidFrames)
  datasize := memory.pstuHead.datasize
  data := memory.pstuData

structure LagReader where
  lag : Nat
  breIframe : Bool
  bReadByTime : Bool
  deriving DecidableEq

/-- `uiWritFrameCount - u32RdFrameCount` and the flags. -/
def SMemoryPosition.lagging (memory : SMemoryPosition) (reader : MemReader) : LagReader where
  lag := sub32 memory.pstuHead.uiWritFrameCount reader.u32RdFrameCount
  breIframe := reader.breIframe
  bReadByTime := reader.bReadByTime

structure LagResult where
  ret : Int
  reader : LagReader
  timestamp : Nat
  copied : Option CopiedFrame
  deriving DecidableEq

def GetResult.lagging (memory : SMemoryPosition) (result : GetResult) : LagResult where
  ret := result.ret
  reader := memory.lagging result.reader
  timestamp := result.timestamp
  copied := result.copied

namespace RingView

variable (view : RingView)

/-- The oldest key frame of the table that is not before the reader. -/
def oldest (lag : Nat) : Option Nat :=
  ((List.range' 0 view.capacity).map fun i => view.capacity - i).find? fun age =>
    (view.behind age).isKeyFrame && decide (age ≤ lag)

/-- The newest key frame behind the reader's. -/
def newest (lag : Nat) : Option Nat :=
  (List.range' 1 (lag - 1)).find? fun age => (view.behind age).isKeyFrame

/-- A reader that lags by more than the table goes to the oldest key frame. -/
def catchUp (reader : LagReader) : Except (Int × LagReader) LagReader :=
  if view.capacity < reader.lag then
    match view.oldest reader.lag with
    | none => .error (frameConsumeSlow, reader)
    | some age => .ok { reader with lag := age }
  else .ok reader

/-- A reader without its first key frame looks for one among the last frames,
five of them if it was that far behind. -/
def start (full : Nat) (reader : LagReader) : Except (Int × LagReader) LagReader :=
  if reader.breIframe then
    let back := if 5 ≤ full then 5 else reader.lag
    match view.newest back with
    | none => .error (0, { reader with lag := back })
    | some age => .ok { reader with lag := age, breIframe := false }
  else .ok reader

/-- An invalidated frame is skipped by going to the oldest key frame. -/
def skipInvalid (reader : LagReader) : Except (Int × LagReader) LagReader :=
  if (view.behind reader.lag).ucValidFlag then .ok reader
  else
    match view.oldest reader.lag with
    | none => .error (frameConsumeSlow, reader)
    | some age => .ok { reader with lag := age }

def select (reader : LagReader) : Except (Int × LagReader) LagReader := do
  let caught ← view.catchUp reader
  let started ← view.start reader.lag caught
  view.skipInvalid started

def read (reader : LagReader) (maxframelen timestamp : Nat) : LagResult :=
  let slot := view.behind reader.lag
  let ntime := slot.stuFrameInfo.timestamp
  if slot.len > maxframelen then
    { ret := 0, reader := reader, timestamp := timestamp, copied := none }
  else if reader.bReadByTime ∧ timestamp ≠ 0 ∧ timestamp < ntime ∧ ntime - timestamp > 2000 then
    { ret := frameConsumeSlow, reader := reader, timestamp := ntime, copied := none }
  else
    { ret := slot.len
      reader := { reader with lag := reader.lag - 1 }
      timestamp := ntime
      copied := some
        { bytes := circularCopyOut view.datasize view.data slot.position slot.len
          frametype := slot.stuFrameInfo.frametype
          priority := slot.stuFrameInfo.priority } }

def get (reader : LagReader) (maxframelen timestamp : Nat) : LagResult :=
  if reader.lag = 0 then
    { ret := frameConsumeFast, reader := reader, timestamp := timestamp, copied := none }
  else
    match view.select reader with
    | .error (ret, stopped) =>
        { ret := ret, reader := stopped, timestamp := timestamp, copied := none }
    | .ok selected => view.read selected maxframelen timestamp

end RingView

/-- A reader behind the writer, both with counters that are positive as `int`, and
no valid slot that was written before the counters started. -/
structure Regular (memory : SMemoryPosition) (reader : MemReader) : Prop where
  small : SmallCounters memory
  behind : reader.u32RdFrameCount < memory.pstuHead.uiWritFrameCount
  clean : memory.pstuHead.uiMaxValidFrames ≤ memory.pstuHead.uiWritFrameCount ∨ FreshSlots memory

section Matching

variable {memory : SMemoryPosition} {reader : MemReader}

theorem mod_behind {count capacity age : Nat} (positive : 0 < capacity) (bound : age ≤ count) :
    (count % capacity + (capacity - age % capacity)) % capacity = (count - age) % capacity := by
  have lower : age % capacity < capacity := Nat.mod_lt _ positive
  have counts : count % capacity ≡ count [MOD capacity] := Nat.mod_modEq count capacity
  have ages : age ≡ age % capacity [MOD capacity] := (Nat.mod_modEq age capacity).symm
  apply Nat.ModEq.add_right_cancel' age
  calc count % capacity + (capacity - age % capacity) + age
      ≡ count + (capacity - age % capacity) + age % capacity [MOD capacity] :=
        (counts.add_right _).add ages
    _ = count + capacity := by omega
    _ ≡ count [MOD capacity] := Nat.add_modEq_right
    _ = count - age + age := (Nat.sub_add_cancel bound).symm

/-- The slot of a number, by its distance from the writer. -/
theorem behind_slot (positive : 0 < memory.pstuHead.uiMaxValidFrames) {age : Nat}
    (bound : age ≤ memory.pstuHead.uiWritFrameCount) :
    memory.view.behind age = memory.pstuFrames
      ((memory.pstuHead.uiWritFrameCount - age) % memory.pstuHead.uiMaxValidFrames) :=
  congrArg memory.pstuFrames (mod_behind positive bound)

/-- The slot at index `i` of the loop over the table, seen from the writer. -/
theorem table_slot {i : Nat} (bound : i < memory.pstuHead.uiMaxValidFrames) :
    memory.view.behind (memory.pstuHead.uiMaxValidFrames - i) = memory.pstuFrames
      ((memory.pstuHead.uiWritFrameCount + i) % memory.pstuHead.uiMaxValidFrames) := by
  apply congrArg memory.pstuFrames
  have back := @mod_behind (memory.pstuHead.uiWritFrameCount + memory.pstuHead.uiMaxValidFrames)
    memory.pstuHead.uiMaxValidFrames (memory.pstuHead.uiMaxValidFrames - i) (by omega) (by omega)
  rw [Nat.add_mod_right] at back
  rw [SMemoryPosition.writeSlot, back]
  congr 1
  omega

theorem lagging_of_behind {number : Nat} (bound : number ≤ memory.pstuHead.uiWritFrameCount)
    (word : memory.pstuHead.uiWritFrameCount < wordSize) :
    memory.lagging { reader with u32RdFrameCount := number } =
      { lag := memory.pstuHead.uiWritFrameCount - number
        breIframe := reader.breIframe
        bReadByTime := reader.bReadByTime } := by
  simp only [SMemoryPosition.lagging, sub32_of_le_of_lt bound word]

/-- The reader that lags by `age`. -/
def SMemoryPosition.readerAt (memory : SMemoryPosition) (reader : MemReader) (age : Nat) :
    MemReader :=
  { reader with u32RdFrameCount := memory.pstuHead.uiWritFrameCount - age }

/-- The loop from index `i` on, as a search through the slots from there. -/
theorem oldest_loop_search (regular : Regular memory reader) (remaining i : Nat)
    (range : i + remaining = memory.pstuHead.uiMaxValidFrames) :
    oldestLoop memory reader remaining i =
      (((List.range' i remaining).map fun i => memory.pstuHead.uiMaxValidFrames - i).find?
        fun age => (memory.view.behind age).isKeyFrame &&
          decide (age ≤ memory.pstuHead.uiWritFrameCount - reader.u32RdFrameCount)).map
            (memory.readerAt reader) := by
  obtain ⟨⟨countSmall, capacitySmall, -⟩, behind, clean⟩ := regular
  induction remaining generalizing i with
  | zero => rfl
  | succ remaining ih =>
      have noWrap : u32 (memory.pstuHead.uiWritFrameCount + i) =
          memory.pstuHead.uiWritFrameCount + i := u32_of_lt (by simp only [wordSize]; omega)
      have here := @table_slot memory i (by omega)
      rw [oldestLoop, noWrap, List.range'_succ, List.map_cons, List.find?_cons, here,
        ih (i + 1) (by omega)]
      dsimp only
      cases key : (memory.pstuFrames ((memory.pstuHead.uiWritFrameCount + i) %
        memory.pstuHead.uiMaxValidFrames)).isKeyFrame with
      | false => rfl
      | true =>
          have late : memory.pstuHead.uiMaxValidFrames ≤ memory.pstuHead.uiWritFrameCount + i := by
            rcases clean with full | fresh
            · omega
            · by_contra early
              -- the slot of a number below zero has never been written
              rw [Nat.mod_eq_of_lt (by omega), SmemoryFrame.isKeyFrame,
                fresh _ (by omega) (by omega)] at key
              exact Bool.false_ne_true key
          have difference : int32 (sub32 (memory.pstuHead.uiWritFrameCount + i)
              memory.pstuHead.uiMaxValidFrames) = ((memory.pstuHead.uiWritFrameCount + i -
                memory.pstuHead.uiMaxValidFrames : Nat) : Int) := by
            rw [sub32_of_le_of_lt late (by simp only [wordSize]; omega), int32_of_lt (by omega)]
          have positive : ¬((memory.pstuHead.uiWritFrameCount + i -
              memory.pstuHead.uiMaxValidFrames : Nat) : Int) < 0 := by omega
          rw [if_pos rfl, difference, if_neg positive, Int.toNat_natCast, Bool.true_and]
          by_cases passed : memory.pstuHead.uiMaxValidFrames - i ≤
              memory.pstuHead.uiWritFrameCount - reader.u32RdFrameCount
          · have place : memory.pstuHead.uiWritFrameCount -
                (memory.pstuHead.uiMaxValidFrames - i) =
              memory.pstuHead.uiWritFrameCount + i - memory.pstuHead.uiMaxValidFrames := by omega
            rw [if_neg (by omega), decide_eq_true passed]
            dsimp only
            rw [Option.map_some, SMemoryPosition.readerAt, place]
          · rw [if_pos (by omega), decide_eq_false passed]

theorem oldest_matches (regular : Regular memory reader) :
    jumpToOldestIFrame memory reader =
      (memory.view.oldest (memory.pstuHead.uiWritFrameCount - reader.u32RdFrameCount)).map
        (memory.readerAt reader) := by
  have behind := regular.behind
  rw [jumpToOldestIFrame, if_neg (by omega),
    oldest_loop_search regular _ 0 (Nat.zero_add _)]
  rfl

/-- The downward loop below number `count`, as a search through ever older slots. -/
theorem newest_loop_search (regular : Regular memory reader) (count : Nat)
    (bound : count ≤ memory.pstuHead.uiWritFrameCount) :
    newestLoop memory reader reader.u32RdFrameCount count =
      ((List.range' (memory.pstuHead.uiWritFrameCount - count + 1)
        (count - 1 - reader.u32RdFrameCount)).find?
          fun age => (memory.view.behind age).isKeyFrame).map (memory.readerAt reader) := by
  have capacity := regular.small.capacity_ge
  induction count with
  | zero =>
      rw [Nat.zero_sub]
      rfl
  | succ i ih =>
      have place : memory.pstuHead.uiWritFrameCount -
          (memory.pstuHead.uiWritFrameCount - (i + 1) + 1) = i := by omega
      have here := @behind_slot memory (by omega)
        (memory.pstuHead.uiWritFrameCount - (i + 1) + 1) (by omega)
      rw [place] at here
      rw [newestLoop, Nat.add_sub_cancel]
      by_cases above : reader.u32RdFrameCount < i
      · have more : i - reader.u32RdFrameCount = i - 1 - reader.u32RdFrameCount + 1 := by omega
        have further : memory.pstuHead.uiWritFrameCount - (i + 1) + 1 + 1 =
            memory.pstuHead.uiWritFrameCount - i + 1 := by omega
        rw [if_pos (by omega), more, List.range'_succ, List.find?_cons, here, further,
          ih (by omega)]
        cases (memory.pstuFrames (i % memory.pstuHead.uiMaxValidFrames)).isKeyFrame with
        | false => rfl
        | true =>
            rw [if_pos rfl, if_pos (by omega)]
            dsimp only
            rw [Option.map_some, SMemoryPosition.readerAt, place]
      · have none : i - reader.u32RdFrameCount = 0 := by omega
        rw [if_neg (by omega), none]
        rfl

theorem newest_matches (regular : Regular memory reader) :
    jumpTonewestIFrame memory reader =
      (memory.view.newest (memory.pstuHead.uiWritFrameCount - reader.u32RdFrameCount)).map
        (memory.readerAt reader) := by
  have behind := regular.behind
  have countSmall := regular.small.count
  have difference : int32 (sub32 memory.pstuHead.uiWritFrameCount reader.u32RdFrameCount) =
      ((memory.pstuHead.uiWritFrameCount - reader.u32RdFrameCount : Nat) : Int) := by
    rw [sub32_of_le_of_lt (by omega) (by simp only [wordSize]; omega), int32_of_lt (by omega)]
  rw [jumpTonewestIFrame, if_neg (by omega)]
  dsimp only
  rw [difference, if_pos (by omega), int32_of_lt (by omega), int32_of_lt countSmall,
    Int.toNat_natCast, newest_loop_search regular _ (Nat.le_refl _), Nat.sub_self, Nat.zero_add,
    RingView.newest, Nat.sub_right_comm]

theorem lagging_regular (regular : Regular memory reader) :
    memory.lagging reader =
      { lag := memory.pstuHead.uiWritFrameCount - reader.u32RdFrameCount
        breIframe := reader.breIframe
        bReadByTime := reader.bReadByTime } :=
  lagging_of_behind (Nat.le_of_lt regular.behind)
    (Nat.lt_trans regular.small.count (by simp only [wordSize]; omega))

theorem lagging_reader_at (regular : Regular memory reader) {age : Nat}
    (bound : age ≤ memory.pstuHead.uiWritFrameCount) :
    memory.lagging (memory.readerAt reader age) =
      { lag := age, breIframe := reader.breIframe, bReadByTime := reader.bReadByTime } := by
  have countSmall := regular.small.count
  rw [SMemoryPosition.readerAt,
    lagging_of_behind (Nat.sub_le _ _) (by simp only [wordSize]; omega), Nat.sub_sub_self bound]

theorem regular_reader_at (regular : Regular memory reader) {age : Nat} (positive : 0 < age) :
    Regular memory (memory.readerAt reader age) := by
  have behind := regular.behind
  refine ⟨regular.small, ?_, regular.clean⟩
  exact Nat.sub_lt (by omega) positive

end Matching

theorem oldest_bounds {view : RingView} {lag age : Nat} (found : view.oldest lag = some age) :
    0 < age ∧ age ≤ lag := by
  have member := List.mem_of_find?_eq_some found
  have holds := List.find?_some found
  rw [Bool.and_eq_true, decide_eq_true_eq] at holds
  obtain ⟨i, range, same⟩ := List.mem_map.mp member
  rw [List.mem_range'_1] at range
  exact ⟨by omega, holds.2⟩

theorem newest_bounds {view : RingView} {lag age : Nat} (found : view.newest lag = some age) :
    0 < age ∧ age < lag := by
  have member := List.mem_of_find?_eq_some found
  rw [List.mem_range'_1] at member
  exact ⟨by omega, by omega⟩

section Stages

variable {memory : SMemoryPosition} {reader : MemReader}

/-- The outcome of a stage without the counters. -/
def SMemoryPosition.laggingStage (memory : SMemoryPosition) :
    Except (Int × MemReader) MemReader → Except (Int × LagReader) LagReader
  | .error (ret, stopped) => .error (ret, memory.lagging stopped)
  | .ok selected => .ok (memory.lagging selected)

/-- Both jumps to the oldest key frame, in one stage. -/
theorem oldest_stage (regular : Regular memory reader) :
    memory.laggingStage (match jumpToOldestIFrame memory reader with
      | none => .error (frameConsumeSlow, reader)
      | some jumped => .ok jumped) =
    match memory.view.oldest (memory.pstuHead.uiWritFrameCount - reader.u32RdFrameCount) with
      | none => .error (frameConsumeSlow, memory.lagging reader)
      | some age => .ok { memory.lagging reader with lag := age } := by
  rw [oldest_matches regular]
  cases found : memory.view.oldest
      (memory.pstuHead.uiWritFrameCount - reader.u32RdFrameCount) with
  | none => rfl
  | some age =>
      have bounds := oldest_bounds found
      rw [Option.map_some, SMemoryPosition.laggingStage]
      dsimp only
      rw [lagging_reader_at regular (by omega)]
      rfl

theorem catch_up_matches (regular : Regular memory reader) :
    memory.laggingStage (lagStage memory reader) =
      memory.view.catchUp (memory.lagging reader) := by
  have behind := regular.behind
  have countSmall := regular.small.count
  have lag := lagging_regular regular
  have stage := oldest_stage regular
  have capacity : memory.view.capacity = memory.pstuHead.uiMaxValidFrames := rfl
  rw [lagStage, RingView.catchUp, sub32_of_le_of_lt (by omega) (by simp only [wordSize]; omega),
    capacity]
  rw [lag] at stage ⊢
  dsimp only
  by_cases far : memory.pstuHead.uiMaxValidFrames <
      memory.pstuHead.uiWritFrameCount - reader.u32RdFrameCount
  · rw [if_pos far, if_pos far]
    exact stage
  · rw [if_neg far, if_neg far, SMemoryPosition.laggingStage, lag]

theorem skip_invalid_matches (regular : Regular memory reader) :
    memory.laggingStage (validStage memory reader) =
      memory.view.skipInvalid (memory.lagging reader) := by
  have behind := regular.behind
  have capacity := regular.small.capacity_ge
  have lag := lagging_regular regular
  have stage := oldest_stage regular
  have slot := @behind_slot memory (by omega)
    (memory.pstuHead.uiWritFrameCount - reader.u32RdFrameCount) (Nat.sub_le _ _)
  rw [Nat.sub_sub_self (Nat.le_of_lt behind)] at slot
  rw [validStage, RingView.skipInvalid]
  rw [lag] at stage ⊢
  dsimp only
  rw [slot]
  cases (memory.pstuFrames
      (reader.u32RdFrameCount % memory.pstuHead.uiMaxValidFrames)).ucValidFlag with
  | true =>
      rw [if_pos rfl, if_pos rfl, SMemoryPosition.laggingStage, lag]
  | false =>
      rw [if_neg Bool.false_ne_true, if_neg Bool.false_ne_true]
      exact stage

/-- Going back five frames, or not, leaves a regular reader. -/
theorem waiting_reader_regular (regular : Regular memory reader) :
    Regular memory (waitingReader memory reader) := by
  have behind := regular.behind
  rw [waitingReader]
  split_ifs with five
  · exact regular_reader_at regular (by decide)
  · exact regular

theorem start_matches (regular : Regular memory reader) {full : Nat}
    (waits : reader.breIframe = true → (5 ≤ full ↔ 5 ≤ memory.pstuHead.uiWritFrameCount)) :
    memory.laggingStage (keyFrameStage memory reader) =
      memory.view.start full (memory.lagging reader) := by
  have waiting := waiting_reader_regular regular
  have lag := lagging_regular regular
  rw [keyFrameStage, RingView.start, lag]
  dsimp only
  cases first : reader.breIframe with
  | false =>
      rw [if_neg Bool.false_ne_true, if_neg Bool.false_ne_true, SMemoryPosition.laggingStage, lag,
        first]
  | true =>
      have back : memory.lagging (waitingReader memory reader) =
          { lag := if 5 ≤ full then 5 else
              memory.pstuHead.uiWritFrameCount - reader.u32RdFrameCount
            breIframe := reader.breIframe
            bReadByTime := reader.bReadByTime } := by
        rw [waitingReader]
        by_cases five : 5 ≤ memory.pstuHead.uiWritFrameCount
        · rw [if_pos five, if_pos ((waits first).mpr five)]
          exact lagging_reader_at regular five
        · rw [if_neg five, if_neg (fun more => five ((waits first).mp more)), lag]
      have steps := congrArg LagReader.lag back
      rw [lagging_regular waiting] at steps
      dsimp only at steps
      rw [if_pos rfl, if_pos rfl, newest_matches waiting, steps]
      cases found : memory.view.newest (if 5 ≤ full then 5 else
          memory.pstuHead.uiWritFrameCount - reader.u32RdFrameCount) with
      | none =>
          rw [Option.map_none, SMemoryPosition.laggingStage]
          dsimp only
          rw [back, first]
      | some age =>
          have bounds := newest_bounds found
          have near : age ≤ memory.pstuHead.uiWritFrameCount := by omega
          have landed := @lagging_reader_at memory
            { waitingReader memory reader with breIframe := false }
            ⟨waiting.small, waiting.behind, waiting.clean⟩ age near
          have byTime : (waitingReader memory reader).bReadByTime = reader.bReadByTime :=
            congrArg LagReader.bReadByTime back
          rw [Option.map_some, ← byTime]
          exact congrArg Except.ok landed

theorem jumped_regular (regular : Regular memory reader) {jumped : MemReader}
    (done : (match jumpToOldestIFrame memory reader with
      | none => Except.error (frameConsumeSlow, reader)
      | some jumped => .ok jumped) = .ok jumped) :
    Regular memory jumped ∧ jumped.breIframe = reader.breIframe := by
  rw [oldest_matches regular] at done
  cases found : memory.view.oldest
      (memory.pstuHead.uiWritFrameCount - reader.u32RdFrameCount) with
  | none =>
      rw [found, Option.map_none] at done
      contradiction
  | some age =>
      rw [found, Option.map_some] at done
      cases done
      exact ⟨regular_reader_at regular (oldest_bounds found).1, rfl⟩

/-- The reader that a stage leaves for the next one. -/
theorem caught_regular (regular : Regular memory reader) {caught : MemReader}
    (done : lagStage memory reader = .ok caught) :
    Regular memory caught ∧ caught.breIframe = reader.breIframe := by
  rw [lagStage] at done
  split_ifs at done with far
  · exact jumped_regular regular done
  · cases done
    exact ⟨regular, rfl⟩

theorem started_regular (regular : Regular memory reader) {started : MemReader}
    (done : keyFrameStage memory reader = .ok started) : Regular memory started := by
  have waiting := waiting_reader_regular regular
  rw [keyFrameStage] at done
  split_ifs at done with first
  · rw [newest_matches waiting] at done
    cases found : memory.view.newest (memory.pstuHead.uiWritFrameCount -
        (waitingReader memory reader).u32RdFrameCount) with
    | none =>
        rw [found, Option.map_none] at done
        contradiction
    | some age =>
        rw [found, Option.map_some] at done
        cases done
        have landed := regular_reader_at waiting (newest_bounds found).1
        exact ⟨landed.small, landed.behind, landed.clean⟩
  · cases done
    exact regular

theorem selected_regular (regular : Regular memory reader) {selected : MemReader}
    (done : validStage memory reader = .ok selected) :
    Regular memory selected ∧ selected.breIframe = reader.breIframe := by
  simp only [validStage] at done
  split_ifs at done with valid
  · cases done
    exact ⟨regular, rfl⟩
  · exact jumped_regular regular done

/-- The three stages one after another. -/
theorem select_matches (regular : Regular memory reader)
    (waits : reader.breIframe = true → 5 ≤ memory.pstuHead.uiWritFrameCount →
      5 ≤ memory.pstuHead.uiWritFrameCount - reader.u32RdFrameCount) :
    memory.laggingStage (selectFrame memory reader) =
      memory.view.select (memory.lagging reader) := by
  have caughtStage := catch_up_matches regular
  rw [selectFrame, RingView.select]
  cases caughtUp : lagStage memory reader with
  | error stop =>
      rw [caughtUp, SMemoryPosition.laggingStage] at caughtStage
      rw [← caughtStage]
      rfl
  | ok caught =>
      obtain ⟨regularCaught, flag⟩ := caught_regular regular caughtUp
      have startedStage := @start_matches memory caught regularCaught
        (memory.pstuHead.uiWritFrameCount - reader.u32RdFrameCount) (by
          intro first
          rw [flag] at first
          constructor
          · omega
          · exact waits first)
      rw [caughtUp, SMemoryPosition.laggingStage] at caughtStage
      have full : (memory.lagging reader).lag =
          memory.pstuHead.uiWritFrameCount - reader.u32RdFrameCount := by
        rw [lagging_regular regular]
      rw [← caughtStage, full]
      change memory.laggingStage (keyFrameStage memory caught >>= validStage memory) =
        (memory.view.start _ (memory.lagging caught) >>= memory.view.skipInvalid)
      cases starts : keyFrameStage memory caught with
      | error stop =>
          rw [starts, SMemoryPosition.laggingStage] at startedStage
          rw [← startedStage]
          rfl
      | ok started =>
          rw [starts, SMemoryPosition.laggingStage] at startedStage
          rw [← startedStage]
          exact skip_invalid_matches (started_regular regularCaught starts)

/-- A reader on a frame of the table copies it, whatever the counters are. -/
theorem read_matches (positive : 0 < memory.pstuHead.uiMaxValidFrames)
    (behind : reader.u32RdFrameCount < memory.pstuHead.uiWritFrameCount)
    (word : memory.pstuHead.uiWritFrameCount < wordSize) (maxframelen timestamp : Nat) :
    (readStage memory reader maxframelen timestamp).lagging memory =
      memory.view.read (memory.lagging reader) maxframelen timestamp := by
  have lag := @lagging_of_behind memory reader reader.u32RdFrameCount (Nat.le_of_lt behind) word
  have slot := @behind_slot memory positive
    (memory.pstuHead.uiWritFrameCount - reader.u32RdFrameCount) (Nat.sub_le _ _)
  rw [Nat.sub_sub_self (Nat.le_of_lt behind)] at slot
  have next : u32 (reader.u32RdFrameCount + 1) = reader.u32RdFrameCount + 1 :=
    u32_of_lt (by omega)
  have further := @lagging_of_behind memory reader (reader.u32RdFrameCount + 1) behind word
  change memory.lagging reader = _ at lag
  rw [readStage, RingView.read, lag]
  dsimp only
  rw [slot]
  split_ifs
  · rw [GetResult.lagging, lag]
  · rw [GetResult.lagging, lag]
  · rw [GetResult.lagging, next, further, Nat.sub_add_eq]
    rfl

end Stages

/-- A reader that has its first key frame and stands on a valid frame of the table
reads it without a jump. -/
def ReadsOn (memory : SMemoryPosition) (reader : MemReader) : Prop :=
  reader.breIframe = false ∧
    memory.pstuHead.uiWritFrameCount ≤
      reader.u32RdFrameCount + memory.pstuHead.uiMaxValidFrames ∧
    (memory.pstuFrames
      (reader.u32RdFrameCount % memory.pstuHead.uiMaxValidFrames)).ucValidFlag = true

/-- A call does what the reader without counters does. -/
def GetMatches (memory : SMemoryPosition) (reader : MemReader) (maxframelen timestamp : Nat) :
    Prop :=
  (getOneFrameFromBuff memory reader maxframelen timestamp).lagging memory =
    memory.view.get (memory.lagging reader) maxframelen timestamp

section Get

variable {memory : SMemoryPosition} {reader : MemReader}

theorem caught_up_matches (caughtUp : memory.pstuHead.uiWritFrameCount = reader.u32RdFrameCount)
    (word : memory.pstuHead.uiWritFrameCount < wordSize) (maxframelen timestamp : Nat) :
    GetMatches memory reader maxframelen timestamp := by
  have lag : (memory.lagging reader).lag = 0 := by
    rw [SMemoryPosition.lagging, sub32_of_le_of_lt (by omega) word, caughtUp, Nat.sub_self]
  rw [GetMatches, getOneFrameFromBuff, if_pos caughtUp, RingView.get, if_pos lag]
  rfl

theorem reads_on_selects (behind : reader.u32RdFrameCount < memory.pstuHead.uiWritFrameCount)
    (word : memory.pstuHead.uiWritFrameCount < wordSize) (reads : ReadsOn memory reader) :
    selectFrame memory reader = .ok reader := by
  obtain ⟨started, near, valid⟩ := reads
  have caught : lagStage memory reader = .ok reader := by
    rw [lagStage, sub32_of_le_of_lt (Nat.le_of_lt behind) word, if_neg (by omega)]
  have begun : keyFrameStage memory reader = .ok reader := by
    rw [keyFrameStage, started, if_neg Bool.false_ne_true]
  have skipped : validStage memory reader = .ok reader := if_pos valid
  change lagStage memory reader >>= _ = _
  rw [caught]
  change keyFrameStage memory reader >>= _ = _
  rw [begun]
  exact skipped

theorem reads_on_selects_view (positive : 0 < memory.pstuHead.uiMaxValidFrames)
    (behind : reader.u32RdFrameCount < memory.pstuHead.uiWritFrameCount)
    (word : memory.pstuHead.uiWritFrameCount < wordSize) (reads : ReadsOn memory reader) :
    memory.view.select (memory.lagging reader) = .ok (memory.lagging reader) := by
  obtain ⟨started, near, valid⟩ := reads
  have lag := @lagging_of_behind memory reader reader.u32RdFrameCount (Nat.le_of_lt behind) word
  change memory.lagging reader = _ at lag
  have slot := @behind_slot memory positive
    (memory.pstuHead.uiWritFrameCount - reader.u32RdFrameCount) (Nat.sub_le _ _)
  rw [Nat.sub_sub_self (Nat.le_of_lt behind)] at slot
  have caught : memory.view.catchUp (memory.lagging reader) = .ok (memory.lagging reader) := by
    have inTable : ¬memory.view.capacity < (memory.lagging reader).lag := by
      rw [lag]
      exact Nat.not_lt.mpr (Nat.sub_le_iff_le_add'.mpr near)
    rw [RingView.catchUp, if_neg inTable]
  have begun : ∀ full, memory.view.start full (memory.lagging reader) =
      .ok (memory.lagging reader) := by
    intro full
    rw [RingView.start, lag, started]
    rfl
  have skipped : memory.view.skipInvalid (memory.lagging reader) =
      .ok (memory.lagging reader) := by
    rw [RingView.skipInvalid, if_pos]
    rw [lag, slot]
    exact valid
  rw [RingView.select, caught]
  change memory.view.start _ _ >>= _ = _
  rw [begun]
  exact skipped

theorem reads_on_matches (positive : 0 < memory.pstuHead.uiMaxValidFrames)
    (behind : reader.u32RdFrameCount < memory.pstuHead.uiWritFrameCount)
    (word : memory.pstuHead.uiWritFrameCount < wordSize) (reads : ReadsOn memory reader)
    (maxframelen timestamp : Nat) : GetMatches memory reader maxframelen timestamp := by
  have lag := @lagging_of_behind memory reader reader.u32RdFrameCount (Nat.le_of_lt behind) word
  change memory.lagging reader = _ at lag
  have ahead : (memory.lagging reader).lag ≠ 0 := by
    rw [lag]
    exact Nat.sub_ne_zero_of_lt behind
  rw [GetMatches, getOneFrameFromBuff, if_neg (by omega), if_neg (by omega),
    reads_on_selects behind word reads, RingView.get, if_neg ahead,
    reads_on_selects_view positive behind word reads]
  exact read_matches positive behind word maxframelen timestamp

theorem jumps_match (regular : Regular memory reader)
    (waits : reader.breIframe = true → 5 ≤ memory.pstuHead.uiWritFrameCount →
      5 ≤ memory.pstuHead.uiWritFrameCount - reader.u32RdFrameCount)
    (maxframelen timestamp : Nat) : GetMatches memory reader maxframelen timestamp := by
  have behind := regular.behind
  have countSmall := regular.small.count
  have capacity := regular.small.capacity_ge
  have ahead : (memory.lagging reader).lag ≠ 0 := by
    rw [lagging_regular regular]
    exact Nat.sub_ne_zero_of_lt behind
  have stages := select_matches regular waits
  rw [GetMatches, getOneFrameFromBuff, if_neg (by omega), if_neg (by omega), RingView.get,
    if_neg ahead]
  cases done : selectFrame memory reader with
  | error stop =>
      rw [done, SMemoryPosition.laggingStage] at stages
      rw [← stages]
      rfl
  | ok selected =>
      rw [done, SMemoryPosition.laggingStage] at stages
      rw [← stages]
      obtain ⟨caught, started, lag, key, valid⟩ := select_frame_stages done
      have landed := (selected_regular
        (started_regular (caught_regular regular lag).1 key) valid).1
      exact read_matches (by omega) landed.behind (by simp only [wordSize]; omega) maxframelen
        timestamp

/-- A reader without its first key frame has not moved, or stands five frames back. -/
def WaitsFar (memory : SMemoryPosition) (reader : MemReader) : Prop :=
  reader.breIframe = true → reader.u32RdFrameCount = 0 ∨
    reader.u32RdFrameCount + 5 ≤ memory.pstuHead.uiWritFrameCount

theorem stopped_waits_far (regular : Regular memory reader)
    (large : 4 ≤ memory.pstuHead.uiMaxValidFrames) (far : WaitsFar memory reader) {ret : Int}
    {stopped : MemReader} (done : selectFrame memory reader = .error (ret, stopped)) :
    WaitsFar memory stopped := by
  have behind := regular.behind
  obtain ⟨-, same | ⟨caught, lag, first, back⟩ | ⟨caught, lag, key⟩⟩ := select_frame_stops done
  · rw [same]
    exact far
  · intro _
    rw [back, waitingReader]
    split_ifs with five
    · exact Or.inr (Nat.le_of_eq (Nat.sub_add_cancel five))
    · -- so few frames do not make a lag that the table cannot hold
      have inTable : lagStage memory reader = .ok reader := by
        rw [lagStage, sub32_of_le_of_lt (Nat.le_of_lt behind) (by simp only [wordSize]; omega),
          if_neg (by omega)]
      rw [inTable] at lag
      cases lag
      exact far first
  · intro waiting
    have flag := @key_frame_stage_flag ⟨memory, [], fun _ => none⟩ caught stopped key
    exact absurd (flag.symm.trans waiting) Bool.false_ne_true

theorem get_waits_far (regular : Regular memory reader)
    (large : 4 ≤ memory.pstuHead.uiMaxValidFrames) (far : WaitsFar memory reader)
    (maxframelen timestamp : Nat) :
    WaitsFar memory (getOneFrameFromBuff memory reader maxframelen timestamp).reader := by
  have behind := regular.behind
  rw [getOneFrameFromBuff, if_neg (by omega), if_neg (by omega)]
  cases done : selectFrame memory reader with
  | error stop => exact stopped_waits_far regular large far done
  | ok selected =>
      obtain ⟨caught, started, lag, key, valid⟩ := select_frame_stages done
      have landed := selected_regular
        (started_regular (caught_regular regular lag).1 key) valid
      have flag : selected.breIframe = false :=
        landed.2.trans (@key_frame_stage_flag ⟨memory, [], fun _ => none⟩ caught started key)
      intro waiting
      rcases read_stage_reader memory selected maxframelen timestamp with same | next
      · change (readStage memory selected maxframelen timestamp).reader.breIframe = true at waiting
        rw [same, flag] at waiting
        exact absurd waiting Bool.false_ne_true
      · change (readStage memory selected maxframelen timestamp).reader.breIframe = true at waiting
        rw [next] at waiting
        exact absurd (flag.symm.trans waiting) Bool.false_ne_true

end Get

end Mgw.StreamBuff
