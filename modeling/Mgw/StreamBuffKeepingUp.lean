import Mgw.StreamBuffDelivery

/-!
# A reader that keeps up

A reader that lags by less than the table, at a valid slot whose payload has not
been run over, gets the frame it stands at and goes on by one. The only frame it
does not get past is one that is longer than what it accepts.
-/

namespace Mgw.StreamBuff

open ByteArea CodecDef WordArithmetic TransitionRuns

set_option autoImplicit false

/-- A write that is refused, or one whose cover walk stays inside the table. -/
def SMemoryPosition.WalkSafe (memory : SMemoryPosition) (frame : Frame) : Prop :=
  memory.pstuHead.datasize / 2 ≤ frame.framelen ∨ memory.WalkFor frame.framelen

instance walk_safe_decidable (memory : SMemoryPosition) (frame : Frame) :
    Decidable (memory.WalkSafe frame) :=
  inferInstanceAs (Decidable (_ ≤ _ ∨ memory.WalkFor frame.framelen))

/-- The ring with a frame counter that has not wrapped. -/
structure WriterKept (size capacity : Nat) (writer : Writer) : Prop where
  ring : RingInvariant size capacity writer
  count : writer.memory.pstuHead.uiWritFrameCount = writer.accepted.length

section Put

variable {size capacity : Nat} {writer : Writer} {frame : Frame}

theorem writer_kept_put (positive : 2 ≤ capacity) (small : capacity < 2147483648)
    (kept : WriterKept size capacity writer) (safe : writer.memory.WalkSafe frame)
    (few : (writer.put frame).accepted.length < wordSize) :
    WriterKept size capacity (writer.put frame) := by
  obtain ⟨invariant, count⟩ := kept
  by_cases big : size / 2 ≤ frame.framelen
  · rw [put_refused invariant big]
    exact ⟨invariant, count⟩
  · rcases safe with refused | inTable
    · rw [invariant.size_eq] at refused
      contradiction
    · obtain ⟨result, accepted⟩ := put_accepts (by rw [invariant.capacity_eq]; exact positive)
        (by rw [invariant.capacity_eq]; exact small) (by rw [invariant.size_eq]; omega) inTable
      have put : writer.put frame =
          writer.accept frame (putOneFrameToBuff writer.memory frame).2 := by
        rw [Writer.put, if_pos result]
        rfl
      rw [put] at few ⊢
      have length : (writer.accept frame (putOneFrameToBuff writer.memory frame).2).accepted.length =
          writer.accepted.length + 1 := List.length_append
      rw [length] at few
      have advances : writer.memory.CounterAdvances := by
        rw [SMemoryPosition.CounterAdvances, ring_next_slot invariant, count, u32_of_lt few,
          invariant.capacity_eq]
      refine ⟨ring_invariant_accepted invariant (by omega) advances accepted, ?_⟩
      change (putOneFrameToBuff writer.memory frame).2.pstuHead.uiWritFrameCount = _
      rw [accepted.head]
      change u32 (writer.memory.pstuHead.uiWritFrameCount + 1) = _
      rw [count, u32_of_lt few, length]

end Put

/-- The call hands the frame over as it was accepted. -/
def HandsOver (result : GetResult) (frame : Frame) : Prop :=
  result.ret = frame.framelen ∧ result.timestamp = frame.timestamp ∧
    result.copied = some
      { bytes := frame.bytes, frametype := frame.frametype, priority := frame.priority }

namespace System

/-- Where a call can go on: the reader lags by less than the table, at a valid
slot, the frame is not too long for it, and the frames accepted from this one on
fit into the data area together. -/
def Readable (system : System) (maxframelen : Nat) : Prop :=
  let memory := system.writer.memory
  let number := system.reader.u32RdFrameCount
  let slot := memory.pstuFrames (number % memory.pstuHead.uiMaxValidFrames)
  number < system.writer.accepted.length →
    system.writer.accepted.length < number + memory.pstuHead.uiMaxValidFrames ∧
      slot.ucValidFlag = true ∧ slot.len ≤ maxframelen ∧
      (slot.len = 0 ∨
        totalLength (system.writer.accepted.drop number) ≤ memory.pstuHead.datasize)

def PutsInTable (system : System) : Action → Prop
  | .put frame => system.writer.memory.WalkSafe frame
  | .get _ _ => True

def KeepsUp (system : System) : Action → Prop
  | .put frame => system.writer.memory.WalkSafe frame
  | .get maxframelen _ => system.Readable maxframelen

instance puts_in_table_decidable (system : System) :
    ∀ action, Decidable (system.PutsInTable action)
  | .put frame => walk_safe_decidable system.writer.memory frame
  | .get _ _ => inferInstanceAs (Decidable True)

instance keeps_up_decidable (system : System) : ∀ action, Decidable (system.KeepsUp action)
  | .put frame => walk_safe_decidable system.writer.memory frame
  | .get _ _ => inferInstanceAs (Decidable ((_ : Nat) < _ → (_ : Nat) < _ ∧
      (_ : Bool) = _ ∧ (_ : Nat) ≤ _ ∧ ((_ : Nat) = 0 ∨ (_ : Nat) ≤ _)))

/-- The results of the calls that copied a frame out, in order. -/
def deliveries : System → List Action → List GetResult
  | _, [] => []
  | system, .put frame :: actions => (system.next (.put frame)).deliveries actions
  | system, .get maxframelen timestamp :: actions =>
      let result := system.get maxframelen timestamp
      let later := (system.next (.get maxframelen timestamp)).deliveries actions
      if result.copied.isSome then result :: later else later

end System

theorem total_length_drop (frames : List Frame) (number : Nat) :
    totalLength (frames.take number) + totalLength (frames.drop number) = totalLength frames := by
  rw [← total_length_append, List.take_append_drop]

section Get

variable {memory : SMemoryPosition} {reader : MemReader}

/-- Nothing makes the reader jump: it reads the slot it stands at. -/
theorem get_reads_on (started : reader.breIframe = false) (plain : reader.bReadByTime = false)
    (before : reader.u32RdFrameCount < memory.pstuHead.uiWritFrameCount)
    (range : memory.pstuHead.uiWritFrameCount < wordSize)
    (near : memory.pstuHead.uiWritFrameCount ≤
      reader.u32RdFrameCount + memory.pstuHead.uiMaxValidFrames)
    (valid : (memory.pstuFrames
      (reader.u32RdFrameCount % memory.pstuHead.uiMaxValidFrames)).ucValidFlag = true)
    {maxframelen : Nat} (short : (memory.pstuFrames
      (reader.u32RdFrameCount % memory.pstuHead.uiMaxValidFrames)).len ≤ maxframelen)
    (timestamp : Nat) :
    getOneFrameFromBuff memory reader maxframelen timestamp =
      let slot := memory.pstuFrames (reader.u32RdFrameCount % memory.pstuHead.uiMaxValidFrames)
      { ret := slot.len
        reader := { reader with u32RdFrameCount := reader.u32RdFrameCount + 1 }
        timestamp := slot.stuFrameInfo.timestamp
        copied := some
          { bytes := circularCopyOut memory.pstuHead.datasize memory.pstuData slot.position
              slot.len
            frametype := slot.stuFrameInfo.frametype
            priority := slot.stuFrameInfo.priority } } := by
  have lag : lagStage memory reader = .ok reader := by
    rw [lagStage, sub32_of_le_of_lt (by omega) range, if_neg (by omega)]
  have key : keyFrameStage memory reader = .ok reader := by
    rw [keyFrameStage, started]
    rfl
  have stays : validStage memory reader = .ok reader := by
    simp only [validStage, valid, if_true]
  have selected : selectFrame memory reader = .ok reader := by
    rw [selectFrame, lag]
    change (keyFrameStage memory reader >>= fun started => validStage memory started) = _
    rw [key]
    exact stays
  have next : u32 (reader.u32RdFrameCount + 1) = reader.u32RdFrameCount + 1 :=
    u32_of_lt (by omega)
  rw [getOneFrameFromBuff, if_neg (by omega), if_neg (by omega), selected]
  simp only [readStage, if_neg (Nat.not_lt.mpr short), plain, Bool.false_eq_true, false_and,
    if_false, next]

end Get

/-- A started reader at a number the writer has already given out or gives out next. -/
structure KeepingUp (size capacity : Nat) (system : System) : Prop where
  kept : WriterKept size capacity system.writer
  started : system.reader.breIframe = false
  plain : system.reader.bReadByTime = false
  behind : system.reader.u32RdFrameCount ≤ system.writer.accepted.length

section Steps

variable {size capacity : Nat} {system : System}

theorem get_nothing (keeping : KeepingUp size capacity system)
    (caughtUp : system.reader.u32RdFrameCount = system.writer.accepted.length)
    (maxframelen timestamp : Nat) :
    system.get maxframelen timestamp =
      { ret := frameConsumeFast, reader := system.reader, timestamp := timestamp,
        copied := none } := by
  rw [System.get, getOneFrameFromBuff, if_pos (keeping.kept.count.trans caughtUp.symm)]

/-- The frame the reader stands at is handed over, and the reader goes on by one. -/
theorem get_hands_over (positive : 0 < size) (keeping : KeepingUp size capacity system)
    (few : system.writer.accepted.length < wordSize)
    (unread : system.reader.u32RdFrameCount < system.writer.accepted.length) {maxframelen : Nat}
    (readable : system.Readable maxframelen) (timestamp : Nat) :
    (system.get maxframelen timestamp).reader =
        { system.reader with u32RdFrameCount := system.reader.u32RdFrameCount + 1 } ∧
      HandsOver (system.get maxframelen timestamp)
        system.writer.accepted[system.reader.u32RdFrameCount] := by
  obtain ⟨near, valid, short, fits⟩ := readable unread
  have present := List.getElem?_eq_getElem unread
  have result := get_reads_on keeping.started keeping.plain (by rw [keeping.kept.count]; exact unread)
    (by rw [keeping.kept.count]; exact few) (by rw [keeping.kept.count]; omega) valid short timestamp
  rw [System.get, result]
  rw [keeping.kept.ring.capacity_eq] at near fits ⊢
  have entry := keeping.kept.ring.entries _ _ present near
  have recent : system.writer.accepted[system.reader.u32RdFrameCount].framelen = 0 ∨
      totalLength system.writer.accepted ≤
        totalLength (system.writer.accepted.take system.reader.u32RdFrameCount) + size := by
    rw [entry.len, keeping.kept.ring.size_eq] at fits
    have parts := total_length_drop system.writer.accepted system.reader.u32RdFrameCount
    rcases fits with empty | inArea
    · exact Or.inl empty
    · exact Or.inr (by omega)
  have bytes := entry_bytes positive keeping.kept.ring present entry recent
  refine ⟨rfl, ?_, ?_, ?_⟩
  · exact congrArg Nat.cast entry.len
  · exact congrArg SMemFrameInfo.timestamp entry.info
  · rw [keeping.kept.ring.size_eq]
    simp only [bytes, entry.info, Frame.info]

theorem keeping_up_step (range : 2 ≤ capacity) (bound : capacity < 2147483648)
    (positive : 0 < size) (keeping : KeepingUp size capacity system) {action : Action}
    (keepsUp : system.KeepsUp action)
    (few : (system.next action).writer.accepted.length < wordSize) :
    KeepingUp size capacity (system.next action) := by
  cases action with
  | put frame =>
      obtain ⟨frames, grown⟩ := put_grows system.writer frame
      refine ⟨writer_kept_put range bound keeping.kept keepsUp few, keeping.started,
        keeping.plain, ?_⟩
      change system.reader.u32RdFrameCount ≤ (system.writer.put frame).accepted.length
      rw [grown, List.length_append]
      exact Nat.le_trans keeping.behind (Nat.le_add_right _ _)
  | get maxframelen timestamp =>
      rcases Nat.eq_or_lt_of_le keeping.behind with caughtUp | unread
      · have same : system.next (.get maxframelen timestamp) = system := by
          rw [System.next, get_nothing keeping caughtUp maxframelen timestamp]
        rw [same]
        exact keeping
      · obtain ⟨reader, -⟩ := get_hands_over positive keeping few unread keepsUp timestamp
        change KeepingUp size capacity
          { system with reader := (system.get maxframelen timestamp).reader }
        rw [reader]
        exact ⟨keeping.kept, keeping.started, keeping.plain, unread⟩

/-- Accepted frames stay accepted. -/
theorem run_accepted (system : System) (actions : List Action) :
    ∃ frames, (run System.next system actions).writer.accepted =
      system.writer.accepted ++ frames := by
  induction actions generalizing system with
  | nil => exact ⟨[], (List.append_nil _).symm⟩
  | cons action actions ih =>
      obtain ⟨later, rest⟩ := ih (system.next action)
      cases action with
      | put frame =>
          obtain ⟨first, grown⟩ := put_grows system.writer frame
          have writer : (system.next (.put frame)).writer.accepted =
              system.writer.accepted ++ first := grown
          exact ⟨first ++ later, by rw [run_cons, rest, writer, List.append_assoc]⟩
      | get maxframelen timestamp => exact ⟨later, rest⟩

theorem run_accepted_le (system : System) (actions : List Action) :
    system.writer.accepted.length ≤
      (run System.next system actions).writer.accepted.length := by
  obtain ⟨frames, grown⟩ := run_accepted system actions
  rw [grown, List.length_append]
  exact Nat.le_add_right _ _

/-- A reader without anything to read stays as it is and delivers nothing. -/
theorem next_nothing (keeping : KeepingUp size capacity system)
    (caughtUp : system.reader.u32RdFrameCount = system.writer.accepted.length)
    (maxframelen timestamp : Nat) (actions : List Action) :
    system.next (.get maxframelen timestamp) = system ∧
      system.deliveries (.get maxframelen timestamp :: actions) = system.deliveries actions := by
  have nothing := get_nothing keeping caughtUp maxframelen timestamp
  have same : system.next (.get maxframelen timestamp) = system := by
    rw [System.next, nothing]
  refine ⟨same, ?_⟩
  rw [System.deliveries, nothing, same]
  rfl

/-- The deliveries behind a frame are those from its number on. -/
theorem handed_cons {accepted frames : List Frame} {number : Nat} {result : GetResult}
    {results : List GetResult} (inside : number < accepted.length)
    (first : HandsOver result accepted[number])
    (rest : List.Forall₂ HandsOver results
      (((accepted ++ frames).drop (number + 1)).take results.length)) :
    List.Forall₂ HandsOver (result :: results)
      (((accepted ++ frames).drop number).take (result :: results).length) := by
  have longer : number < (accepted ++ frames).length := by
    rw [List.length_append]
    omega
  rw [List.length_cons, List.drop_eq_getElem_cons longer, List.take_succ_cons,
    List.getElem_append_left inside]
  exact List.Forall₂.cons first rest

/-- Over a run the deliveries are the frames from the reader's number on. -/
theorem keeping_up_run (range : 2 ≤ capacity) (bound : capacity < 2147483648)
    (positive : 0 < size) (actions : List Action) (system : System)
    (keeping : KeepingUp size capacity system)
    (keepsUp : Meets System.next System.KeepsUp system actions)
    (few : (run System.next system actions).writer.accepted.length < wordSize) :
    KeepingUp size capacity (run System.next system actions) ∧
      (run System.next system actions).reader.u32RdFrameCount =
        system.reader.u32RdFrameCount + (system.deliveries actions).length ∧
      List.Forall₂ HandsOver (system.deliveries actions)
        (((run System.next system actions).writer.accepted.drop
          system.reader.u32RdFrameCount).take (system.deliveries actions).length) := by
  induction actions generalizing system with
  | nil => exact ⟨keeping, rfl, by rw [System.deliveries]; exact List.Forall₂.nil⟩
  | cons action actions ih =>
      rw [run_cons] at few ⊢
      have fewNext := Nat.lt_of_le_of_lt (run_accepted_le (system.next action) actions) few
      have keepingNext := keeping_up_step range bound positive keeping keepsUp.1 fewNext
      obtain ⟨final, number, handed⟩ := ih (system.next action) keepingNext keepsUp.2 few
      refine ⟨final, ?_⟩
      cases action with
      | put frame => exact ⟨number, handed⟩
      | get maxframelen timestamp =>
          rcases Nat.eq_or_lt_of_le keeping.behind with caughtUp | unread
          · obtain ⟨same, deliveries⟩ := next_nothing keeping caughtUp maxframelen timestamp actions
            rw [deliveries]
            rw [same] at number handed ⊢
            exact ⟨number, handed⟩
          · obtain ⟨reader, handsOver⟩ := get_hands_over positive keeping fewNext unread keepsUp.1
              timestamp
            have next : system.next (.get maxframelen timestamp) =
                { system with reader :=
                  { system.reader with u32RdFrameCount := system.reader.u32RdFrameCount + 1 } } := by
              rw [System.next, reader]
            obtain ⟨-, -, copied⟩ := id handsOver
            rw [System.deliveries, copied, Option.isSome_some, if_pos rfl]
            obtain ⟨frames, grown⟩ := run_accepted (system.next (.get maxframelen timestamp)) actions
            rw [next] at number handed grown ⊢
            rw [grown] at handed ⊢
            exact ⟨number.trans (Nat.add_right_comm _ 1 _), handed_cons unread handsOver handed⟩

end Steps

/-- Whatever the reader does, writes with walks inside the table keep the ring. -/
theorem writer_kept_run (block : SMemoryPosition) (geometry : Geometry) (readByTime : Bool)
    (before : List Action)
    (meets : Meets System.next System.PutsInTable (System.init block geometry readByTime) before)
    (few : (run System.next (System.init block geometry readByTime)
      before).writer.accepted.length < wordSize) :
    WriterKept geometry.size geometry.frames
      (run System.next (System.init block geometry readByTime) before).writer := by
  have step : ∀ (system : System) (action : Action),
      (system.writer.accepted.length < wordSize →
        WriterKept geometry.size geometry.frames system.writer) →
      system.PutsInTable action → (system.next action).writer.accepted.length < wordSize →
        WriterKept geometry.size geometry.frames (system.next action).writer := by
    intro system action kept inTable fewAfter
    have grows := run_accepted_le system [action]
    have keptBefore := kept (Nat.lt_of_le_of_lt grows fewAfter)
    cases action with
    | put frame =>
        exact writer_kept_put geometry.frames_ge geometry.frames_int keptBefore inTable fewAfter
    | get maxframelen timestamp => exact keptBefore
  exact run_invariant step before _
    (fun _ => ⟨(writer_invariant_init block geometry).ring, rfl⟩) meets few

/-- A started reader that keeps up gets every frame from its number on, in order
and once, and every call that has something to read copies a frame. -/
theorem keeping_up_delivers_all (block : SMemoryPosition) (geometry : Geometry)
    (readByTime : Bool) (before after : List Action)
    (inTable : Meets System.next System.PutsInTable (System.init block geometry readByTime) before)
    (started : (run System.next (System.init block geometry readByTime)
      before).reader.breIframe = false)
    (plain : (run System.next (System.init block geometry readByTime)
      before).reader.bReadByTime = false)
    (behind : (run System.next (System.init block geometry readByTime)
        before).reader.u32RdFrameCount ≤
      (run System.next (System.init block geometry readByTime) before).writer.accepted.length)
    (keepsUp : Meets System.next System.KeepsUp
      (run System.next (System.init block geometry readByTime) before) after)
    (few : (run System.next (System.init block geometry readByTime)
      (before ++ after)).writer.accepted.length < wordSize) :
    let start := run System.next (System.init block geometry readByTime) before
    let final := run System.next start after
    final.reader.u32RdFrameCount =
        start.reader.u32RdFrameCount + (start.deliveries after).length ∧
      List.Forall₂ HandsOver (start.deliveries after)
        ((final.writer.accepted.drop start.reader.u32RdFrameCount).take
          (start.deliveries after).length) ∧
      ∀ early late maxframelen timestamp, after = early ++ .get maxframelen timestamp :: late →
        let system := run System.next start early
        system.reader.u32RdFrameCount < system.writer.accepted.length →
          (system.get maxframelen timestamp).copied.isSome := by
  intro start final
  rw [run_append] at few
  have positive : 0 < geometry.size := Nat.lt_of_lt_of_le (by decide) geometry.size_ge
  have kept := writer_kept_run block geometry readByTime before inTable
    (Nat.lt_of_le_of_lt (run_accepted_le start after) few)
  have keeping : KeepingUp geometry.size geometry.frames start := ⟨kept, started, plain, behind⟩
  obtain ⟨-, number, handed⟩ := keeping_up_run geometry.frames_ge geometry.frames_int positive
    after start keeping keepsUp few
  refine ⟨number, handed, ?_⟩
  intro early late maxframelen timestamp parts system unread
  rw [parts] at keepsUp few
  obtain ⟨meetsEarly, readable, -⟩ := (meets_append _ _ _).mp keepsUp
  rw [run_append] at few
  have fewThen : system.writer.accepted.length < wordSize :=
    Nat.lt_of_le_of_lt (run_accepted_le system (.get maxframelen timestamp :: late)) few
  obtain ⟨keepingThen, -, -⟩ := keeping_up_run geometry.frames_ge geometry.frames_int positive
    early start keeping meetsEarly fewThen
  obtain ⟨-, -, -, copied⟩ := get_hands_over positive keepingThen fewThen unread readable timestamp
  change (system.get maxframelen timestamp).copied = _ at copied
  rw [copied, Option.isSome_some]

/-- Two key frames, of which the reader gets the second. -/
def firstRead : List Action := [.put (frameOf 6 1 .I), .put (frameOf 7 1 .I), .get 10 0]

def laterReads : List Action :=
  [.put (frameOf 8 3 .P), .get 10 0, .get 10 0, .put (frameOf 9 0 .P), .put (frameOf 10 5 .I),
    .get 10 0, .get 10 0]

theorem keeping_up_delivers_three :
    let start := run System.next (System.init zeroedBlock fourFrames false) firstRead
    let final := run System.next start laterReads
    final.reader.u32RdFrameCount =
        start.reader.u32RdFrameCount + (start.deliveries laterReads).length ∧
      List.Forall₂ HandsOver (start.deliveries laterReads)
        ((final.writer.accepted.drop start.reader.u32RdFrameCount).take
          (start.deliveries laterReads).length) ∧
      ∀ early late maxframelen timestamp,
        laterReads = early ++ .get maxframelen timestamp :: late →
        let system := run System.next start early
        system.reader.u32RdFrameCount < system.writer.accepted.length →
          (system.get maxframelen timestamp).copied.isSome :=
  keeping_up_delivers_all zeroedBlock fourFrames false firstRead laterReads (by decide)
    (by decide) (by decide) (by decide) (by decide) (by decide)

/-- A frame of 20 bytes for a reader that accepts 10, and one of a single byte behind it. -/
def oversizedActions : List Action :=
  firstRead ++ [.put (frameOf 8 20 .P), .put (frameOf 9 1 .P)]

/-- The reader stays at the frame that is too long for it, and never gets the one behind. -/
theorem oversized_frame_never_passed :
    let start := run System.next (System.init zeroedBlock fourFrames false) oversizedActions
    (start.reader.breIframe = false ∧ start.reader.bReadByTime = false ∧
        start.reader.u32RdFrameCount = 2 ∧
        start.writer.accepted.map Frame.framelen = [1, 1, 20, 1] ∧
        (start.writer.memory.pstuFrames 2).ucValidFlag = true ∧
        (start.writer.memory.pstuFrames 3).ucValidFlag = true) ∧
      ∀ calls, run System.next start (List.replicate calls (.get 10 0)) = start ∧
        start.deliveries (List.replicate calls (.get 10 0)) = [] := by
  intro start
  refine ⟨by decide, fun calls => ?_⟩
  have stuck : (start.get 10 0).reader = start.reader := by decide
  have nothing : (start.get 10 0).copied = none := by decide
  have stays : start.next (.get 10 0) = start := by
    rw [System.next, stuck]
  induction calls with
  | zero => exact ⟨rfl, rfl⟩
  | succ calls ih =>
      rw [List.replicate_succ, run_cons, System.deliveries, nothing, stays]
      exact ih

end Mgw.StreamBuff
