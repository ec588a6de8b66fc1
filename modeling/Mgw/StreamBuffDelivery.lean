import Mathlib.Data.List.Chain
import Mgw.StreamBuffReader

/-!
# The frame numbers a reader delivers

For the order of the numbers the payloads do not matter: the cover walk changes
no length and no type of a slot, so the last `uiMaxValidFrames` numbers have the
types of their frames in their slots whatever was overwritten. Between calls the
reader stands at the number behind the last one delivered or at a key frame.
-/

namespace Mgw.StreamBuff

open CodecDef WordArithmetic TransitionRuns

set_option autoImplicit false

/-- A frame that was copied out, under the number the reader had before it went on. -/
structure Delivery where
  number : Nat
  copied : CopiedFrame
  deriving DecidableEq

def GetResult.delivery (result : GetResult) : Option Delivery :=
  result.copied.map fun copied => ⟨result.reader.u32RdFrameCount - 1, copied⟩

/-- The writer and the reader with all that the reader has delivered. -/
structure Session where
  system : System
  delivered : List Delivery

namespace Session

def init (block : SMemoryPosition) (geometry : Geometry) (readByTime : Bool) : Session where
  system := System.init block geometry readByTime
  delivered := []

def next (session : Session) (action : Action) : Session where
  system := session.system.next action
  delivered :=
    match action with
    | .put _ => session.delivered
    | .get maxframelen timestamp =>
        session.delivered ++ (session.system.get maxframelen timestamp).delivery.toList

end Session

section Table

variable {capacity : Nat} {writer : Writer} {frame : Frame}

/-- The table of a block with fewer than `2 ^ 31` accepted frames. The slot of
the number one lap back still has the entry of its frame. -/
structure TableInvariant (capacity : Nat) (writer : Writer) : Prop where
  capacity_eq : writer.memory.pstuHead.uiMaxValidFrames = capacity
  count : writer.memory.pstuHead.uiWritFrameCount = writer.accepted.length
  holds : ∀ (number : Nat) (frame : Frame), writer.accepted[number]? = some frame →
    writer.accepted.length ≤ number + capacity →
      (writer.memory.pstuFrames (number % capacity)).len = frame.framelen ∧
        (writer.memory.pstuFrames (number % capacity)).stuFrameInfo = frame.info
  fresh : ∀ slot, writer.accepted.length ≤ slot → slot < capacity →
    (writer.memory.pstuFrames slot).ucValidFlag = false

theorem table_invariant_init (block : SMemoryPosition) (geometry : Geometry) :
    TableInvariant geometry.frames (Writer.init block geometry) where
  capacity_eq := rfl
  count := rfl
  holds := by
    intro number frame present
    simp [Writer.init] at present
  fresh := by
    intro slot _ bound
    simp [Writer.init, initMemoryParam, zeroFrame, bound]

theorem table_invariant_written (invariant : TableInvariant capacity writer)
    (few : writer.accepted.length + 1 < 2147483648) {after : SMemoryPosition}
    (written : WrittenTable writer.memory frame after) :
    TableInvariant capacity (writer.accept frame after) := by
  have count : (writer.accept frame after).accepted.length = writer.accepted.length + 1 :=
    List.length_append
  have slot : writer.memory.writeSlot = writer.accepted.length % capacity := by
    rw [SMemoryPosition.writeSlot, invariant.count, invariant.capacity_eq]
  refine ⟨?_, ?_, ?_, ?_⟩
  · change after.pstuHead.uiMaxValidFrames = capacity
    rw [written.head]
    exact invariant.capacity_eq
  · change after.pstuHead.uiWritFrameCount = _
    rw [written.head, count]
    change u32 (writer.memory.pstuHead.uiWritFrameCount + 1) = _
    rw [invariant.count, u32_of_lt (by simp only [wordSize]; omega)]
  · intro number other present near
    rw [count] at near
    change (after.pstuFrames _).len = _ ∧ (after.pstuFrames _).stuFrameInfo = _
    rcases appended_cases present with ⟨before, earlier⟩ | ⟨last, same⟩
    · have different : number % capacity ≠ writer.memory.writeSlot := by
        rw [slot]
        exact slot_ne_of_near before (by omega)
      obtain ⟨len, info, -⟩ := written.kept _ different
      rw [len, info]
      exact invariant.holds number other earlier (by omega)
    · rw [last, same, ← slot]
      exact ⟨written.len, written.info⟩
  · intro index unwritten bound
    rw [count] at unwritten
    have different : index ≠ writer.memory.writeSlot := by
      rw [slot, Nat.mod_eq_of_lt (by omega)]
      omega
    have before := invariant.fresh index (by omega) bound
    change (after.pstuFrames index).ucValidFlag = false
    by_contra valid
    rw [(written.kept index different).2.2 (by simpa using valid)] at before
    contradiction

theorem put_cases (writer : Writer) (frame : Frame) :
    writer.put frame = writer ∨ ∃ after, WrittenTable writer.memory frame after ∧
      writer.put frame = writer.accept frame after := by
  by_cases big : writer.memory.pstuHead.datasize / 2 ≤ frame.framelen
  · left
    simp [Writer.put, put_rejects writer.memory frame big]
  · right
    obtain ⟨accepted, written⟩ := put_writes_table (Nat.lt_of_not_le big)
    refine ⟨_, written, ?_⟩
    rw [Writer.put, if_pos accepted]
    rfl

theorem table_invariant_put (invariant : TableInvariant capacity writer)
    (few : (writer.put frame).accepted.length < 2147483648) :
    TableInvariant capacity (writer.put frame) := by
  rcases put_cases writer frame with same | ⟨after, written, accepted⟩
  · rwa [same]
  · rw [accepted] at few ⊢
    apply table_invariant_written invariant _ written
    rwa [Writer.accept, List.length_append] at few

end Table

section Resuming

variable {writer : Writer}

/-- The frame accepted under this number is a key frame. -/
def AcceptedKey (writer : Writer) (number : Nat) : Prop :=
  ∃ frame, writer.accepted[number]? = some frame ∧ frame.frametype = .I

/-- Where a reader may go on after the last number it delivered. -/
def Resumes (writer : Writer) (last : Option Nat) (number : Nat) : Prop :=
  match last with
  | none => AcceptedKey writer number
  | some previous =>
      number = previous + 1 ∨ (previous < number ∧ AcceptedKey writer number)

/-- A reader that waits for its first key frame has delivered nothing. -/
structure ReaderResumes (writer : Writer) (last : Option Nat) (reader : MemReader) : Prop where
  waiting : reader.breIframe = true → last = none
  started : reader.breIframe = false → Resumes writer last reader.u32RdFrameCount

theorem resumes_forward {last : Option Nat} {number later : Nat}
    (resumes : Resumes writer last number) (ahead : number ≤ later)
    (key : AcceptedKey writer later) : Resumes writer last later := by
  cases last with
  | none => exact key
  | some previous =>
      right
      refine ⟨?_, key⟩
      rcases resumes with next | ⟨before, -⟩ <;> omega

theorem accepted_key_append {frames : List Frame} {number : Nat} (key : AcceptedKey writer number)
    {after : Writer} (grown : after.accepted = writer.accepted ++ frames) :
    AcceptedKey after number := by
  obtain ⟨frame, present, frametype⟩ := key
  refine ⟨frame, ?_, frametype⟩
  rw [grown, List.getElem?_append_left (List.getElem?_eq_some_iff.mp present).1]
  exact present

theorem reader_resumes_append {frames : List Frame} {last : Option Nat} {reader : MemReader}
    (resumes : ReaderResumes writer last reader) {after : Writer}
    (grown : after.accepted = writer.accepted ++ frames) : ReaderResumes after last reader := by
  refine ⟨resumes.waiting, fun flag => ?_⟩
  have before := resumes.started flag
  cases last with
  | none => exact accepted_key_append before grown
  | some previous =>
      rcases before with next | ⟨ahead, key⟩
      · exact Or.inl next
      · exact Or.inr ⟨ahead, accepted_key_append key grown⟩

theorem put_grows (writer : Writer) (frame : Frame) :
    ∃ frames, (writer.put frame).accepted = writer.accepted ++ frames := by
  rcases put_cases writer frame with same | ⟨after, -, accepted⟩
  · exact ⟨[], by rw [same, List.append_nil]⟩
  · exact ⟨[frame], by rw [accepted, Writer.accept]⟩

end Resuming

section Stages

variable {capacity : Nat} {writer : Writer} {reader caught started selected : MemReader}
  {last : Option Nat}

/-- What the jumps need of the block, with all numbers below the writer's. -/
theorem table_small (invariant : TableInvariant capacity writer) (range : 2 ≤ capacity)
    (small : capacity < 2147483648) (few : writer.accepted.length < 2147483648) :
    SmallCounters writer.memory ∧ FreshSlots writer.memory := by
  refine ⟨⟨?_, ?_, ?_⟩, ?_⟩
  · rw [invariant.count]
    exact few
  · rw [invariant.capacity_eq]
    exact small
  · rw [invariant.capacity_eq]
    exact range
  · intro slot unwritten bound
    rw [invariant.count] at unwritten
    rw [invariant.capacity_eq] at bound
    exact invariant.fresh slot unwritten bound

/-- The slot of a recent number tells the type of its frame. -/
theorem key_number_accepted (invariant : TableInvariant capacity writer) {number : Nat}
    (near : writer.memory.pstuHead.uiWritFrameCount ≤
      number + writer.memory.pstuHead.uiMaxValidFrames)
    (before : number < writer.memory.pstuHead.uiWritFrameCount)
    (key : KeyNumber writer.memory number) : AcceptedKey writer number := by
  rw [invariant.count] at near before
  rw [invariant.capacity_eq] at near
  have present := List.getElem?_eq_getElem before
  obtain ⟨-, info⟩ := invariant.holds number _ present near
  refine ⟨_, present, ?_⟩
  rw [KeyNumber, SmemoryFrame.isKeyFrame, Bool.and_eq_true, decide_eq_true_eq,
    invariant.capacity_eq, info] at key
  exact key.2

theorem forward_resumes (invariant : TableInvariant capacity writer)
    (resumes : Resumes writer last reader.u32RdFrameCount)
    (forward : ForwardTo writer.memory reader selected 0) :
    Resumes writer last selected.u32RdFrameCount := by
  obtain ⟨landed, ahead, key⟩ := selected_of_forward forward
  exact resumes_forward resumes ahead
    (key_number_accepted invariant landed.recent landed.before key)

theorem lag_stage_resumes (invariant : TableInvariant capacity writer)
    (small : SmallCounters writer.memory) (fresh : FreshSlots writer.memory)
    (behind : reader.u32RdFrameCount < writer.memory.pstuHead.uiWritFrameCount)
    (resumes : ReaderResumes writer last reader)
    (done : lagStage writer.memory reader = .ok caught) : ReaderResumes writer last caught := by
  rcases lag_stage_lands small fresh behind done with ⟨same, -⟩ | ⟨-, forward⟩
  · rwa [same]
  · have flag := forward_keeps_flag forward
    refine ⟨fun waiting => resumes.waiting (flag.symm.trans waiting), fun plain => ?_⟩
    exact forward_resumes invariant (resumes.started (flag.symm.trans plain)) forward

theorem key_frame_stage_flag (done : keyFrameStage writer.memory caught = .ok started) :
    started.breIframe = false := by
  rw [keyFrameStage] at done
  split_ifs at done with first
  · cases found : jumpTonewestIFrame writer.memory (waitingReader writer.memory caught) with
    | none =>
        rw [found] at done
        contradiction
    | some jumped =>
        rw [found] at done
        cases done
        rfl
  · cases done
    simpa using first

theorem key_frame_stage_resumes (invariant : TableInvariant capacity writer)
    (small : SmallCounters writer.memory)
    (near : writer.memory.pstuHead.uiWritFrameCount ≤
      caught.u32RdFrameCount + writer.memory.pstuHead.uiMaxValidFrames)
    (behind : caught.u32RdFrameCount < writer.memory.pstuHead.uiWritFrameCount)
    (resumes : ReaderResumes writer last caught)
    (done : keyFrameStage writer.memory caught = .ok started) :
    Resumes writer last started.u32RdFrameCount := by
  have bounds := started_bounds small near behind done
  rcases key_frame_stage_lands small behind done with ⟨plain, same⟩ | ⟨waiting, -, -, key, -⟩
  · rw [same]
    exact resumes.started plain
  · rw [resumes.waiting waiting]
    exact key_number_accepted invariant bounds.1 bounds.2 key

theorem valid_stage_resumes (invariant : TableInvariant capacity writer)
    (small : SmallCounters writer.memory) (fresh : FreshSlots writer.memory)
    (behind : started.u32RdFrameCount < writer.memory.pstuHead.uiWritFrameCount)
    (resumes : Resumes writer last started.u32RdFrameCount)
    (done : validStage writer.memory started = .ok selected) :
    Resumes writer last selected.u32RdFrameCount ∧ selected.breIframe = started.breIframe := by
  rcases valid_stage_lands small fresh behind done with ⟨same, -⟩ | forward
  · rw [same]
    exact ⟨resumes, rfl⟩
  · exact ⟨forward_resumes invariant resumes forward, forward_keeps_flag forward⟩

/-- The number that is copied out is one the reader may go on with. -/
theorem select_frame_resumes (invariant : TableInvariant capacity writer)
    (small : SmallCounters writer.memory) (fresh : FreshSlots writer.memory)
    (behind : reader.u32RdFrameCount < writer.memory.pstuHead.uiWritFrameCount)
    (resumes : ReaderResumes writer last reader)
    (done : selectFrame writer.memory reader = .ok selected) :
    Resumes writer last selected.u32RdFrameCount ∧ selected.breIframe = false := by
  obtain ⟨caught, started, lag, key, valid⟩ := select_frame_stages done
  obtain ⟨near, behindCaught, -⟩ := caught_bounds small fresh behind lag
  have startedBounds := started_bounds small near behindCaught key
  have resumesCaught := lag_stage_resumes invariant small fresh behind resumes lag
  have resumesStarted := key_frame_stage_resumes invariant small near behindCaught resumesCaught key
  obtain ⟨result, flag⟩ :=
    valid_stage_resumes invariant small fresh startedBounds.2 resumesStarted valid
  exact ⟨result, flag.trans (key_frame_stage_flag key)⟩

theorem stopped_resumes (invariant : TableInvariant capacity writer)
    (small : SmallCounters writer.memory) (fresh : FreshSlots writer.memory)
    (behind : reader.u32RdFrameCount < writer.memory.pstuHead.uiWritFrameCount)
    (resumes : ReaderResumes writer last reader) {ret : Int} {stopped : MemReader}
    (done : selectFrame writer.memory reader = .error (ret, stopped)) :
    ReaderResumes writer last stopped := by
  obtain ⟨-, same | ⟨caught, lag, waiting, back⟩ | ⟨caught, lag, key⟩⟩ := select_frame_stops done
  · rwa [same]
  · have resumesCaught := lag_stage_resumes invariant small fresh behind resumes lag
    have flag : stopped.breIframe = true := by
      rw [back, waitingReader]
      split_ifs <;> exact waiting
    refine ⟨fun _ => resumesCaught.waiting waiting, fun plain => ?_⟩
    rw [flag] at plain
    contradiction
  · obtain ⟨near, behindCaught, -⟩ := caught_bounds small fresh behind lag
    have resumesCaught := lag_stage_resumes invariant small fresh behind resumes lag
    refine ⟨fun waiting => ?_, fun _ => ?_⟩
    · rw [key_frame_stage_flag key] at waiting
      contradiction
    · exact key_frame_stage_resumes invariant small near behindCaught resumesCaught key

end Stages

section Get

variable {capacity : Nat} {writer : Writer} {reader : MemReader} {last : Option Nat}

/-- What a call delivers, if it delivers, and the reader it leaves. -/
structure GetResumes (writer : Writer) (last : Option Nat) (result : GetResult) : Prop where
  reader : ReaderResumes writer (result.delivery.elim last fun one => some one.number)
    result.reader
  delivery : ∀ one ∈ result.delivery, Resumes writer last one.number ∧
    ∃ frame, writer.accepted[one.number]? = some frame ∧
      one.copied.frametype = frame.frametype

/-- The frame of a selected number is the accepted one. -/
theorem selected_frametype {number : Nat} (invariant : TableInvariant capacity writer)
    (landed : Selected writer.memory number) :
    ∃ frame, writer.accepted[number]? = some frame ∧
      (writer.memory.pstuFrames
        (number % writer.memory.pstuHead.uiMaxValidFrames)).stuFrameInfo.frametype =
          frame.frametype := by
  obtain ⟨near, bound, -⟩ := landed
  rw [invariant.count] at near bound
  rw [invariant.capacity_eq] at near ⊢
  have present := List.getElem?_eq_getElem bound
  refine ⟨_, present, ?_⟩
  rw [(invariant.holds _ _ present near).2]
  rfl

theorem read_stage_resumes {selected : MemReader} (invariant : TableInvariant capacity writer)
    (small : SmallCounters writer.memory)
    (landed : Selected writer.memory selected.u32RdFrameCount)
    (stands : Resumes writer last selected.u32RdFrameCount) (flag : selected.breIframe = false)
    (maxframelen timestamp : Nat) :
    GetResumes writer last (readStage writer.memory selected maxframelen timestamp) := by
  have stays : ReaderResumes writer last selected := by
    refine ⟨fun waiting => ?_, fun _ => stands⟩
    rw [flag] at waiting
    contradiction
  simp only [readStage]
  split_ifs
  · exact ⟨stays, fun one none => by contradiction⟩
  · exact ⟨stays, fun one none => by contradiction⟩
  · have next : u32 (selected.u32RdFrameCount + 1) = selected.u32RdFrameCount + 1 := by
      have few := small.count
      have bound := landed.before
      exact u32_of_lt (by simp only [wordSize]; omega)
    rw [next]
    constructor
    · refine ⟨fun waiting => ?_, fun _ => Or.inl rfl⟩
      change selected.breIframe = true at waiting
      rw [flag] at waiting
      contradiction
    · intro one made
      cases made
      exact ⟨stands, selected_frametype invariant landed⟩

theorem get_resumes (invariant : TableInvariant capacity writer)
    (small : SmallCounters writer.memory) (fresh : FreshSlots writer.memory)
    (behind : reader.u32RdFrameCount ≤ writer.memory.pstuHead.uiWritFrameCount)
    (resumes : ReaderResumes writer last reader) (maxframelen timestamp : Nat) :
    GetResumes writer last (getOneFrameFromBuff writer.memory reader maxframelen timestamp) := by
  rw [getOneFrameFromBuff, if_neg (show ¬writer.memory.pstuHead.uiWritFrameCount <
    reader.u32RdFrameCount by omega)]
  split_ifs with caughtUp
  · exact ⟨resumes, fun one none => by contradiction⟩
  · have before : reader.u32RdFrameCount < writer.memory.pstuHead.uiWritFrameCount := by omega
    cases done : selectFrame writer.memory reader with
    | error early =>
        exact ⟨stopped_resumes invariant small fresh before resumes done,
          fun one none => by contradiction⟩
    | ok selected =>
        obtain ⟨stands, flag⟩ := select_frame_resumes invariant small fresh before resumes done
        have landed := select_frame_selected small fresh before done
        exact read_stage_resumes invariant small landed stands flag maxframelen timestamp

end Get

/-- A later number follows at once, or its frame is a key frame. -/
def Follows (earlier later : Delivery) : Prop :=
  earlier.number < later.number ∧
    (later.number = earlier.number + 1 ∨ later.copied.frametype = .I)

structure SessionInvariant (capacity : Nat) (session : Session) : Prop where
  table : TableInvariant capacity session.system.writer
  behind : session.system.reader.u32RdFrameCount ≤ session.system.writer.accepted.length
  reader : ReaderResumes session.system.writer (session.delivered.getLast?.map Delivery.number)
    session.system.reader
  chain : session.delivered.IsChain Follows
  first : ∀ one ∈ session.delivered.head?, one.copied.frametype = .I
  accepted : ∀ one ∈ session.delivered, ∃ frame,
    session.system.writer.accepted[one.number]? = some frame ∧
      one.copied.frametype = frame.frametype

section Session

variable {capacity : Nat} {session : Session}

theorem session_invariant_put (invariant : SessionInvariant capacity session) (frame : Frame)
    (few : (session.system.writer.put frame).accepted.length < 2147483648) :
    SessionInvariant capacity (session.next (.put frame)) := by
  obtain ⟨table, behind, reader, chain, first, accepted⟩ := invariant
  obtain ⟨frames, grown⟩ := put_grows session.system.writer frame
  refine ⟨table_invariant_put table few, ?_, reader_resumes_append reader grown, chain, first, ?_⟩
  · change _ ≤ (session.system.writer.put frame).accepted.length
    rw [grown, List.length_append]
    exact Nat.le_trans behind (Nat.le_add_right _ _)
  · intro one member
    obtain ⟨old, present, same⟩ := accepted one member
    refine ⟨old, ?_, same⟩
    change (session.system.writer.put frame).accepted[one.number]? = some old
    rw [grown, List.getElem?_append_left (List.getElem?_eq_some_iff.mp present).1]
    exact present

/-- One more delivery at the end of the list. -/
theorem deliver_one (invariant : SessionInvariant capacity session) {one : Delivery}
    (resumes : Resumes session.system.writer
      (session.delivered.getLast?.map Delivery.number) one.number)
    {frame : Frame} (present : session.system.writer.accepted[one.number]? = some frame)
    (same : one.copied.frametype = frame.frametype) :
    (session.delivered ++ [one]).IsChain Follows ∧
      ∀ start ∈ (session.delivered ++ [one]).head?, start.copied.frametype = .I := by
  have keyType : AcceptedKey session.system.writer one.number → one.copied.frametype = .I := by
    rintro ⟨key, stored, frametype⟩
    rw [same, ← Option.some.inj (present.symm.trans stored)] at *
    exact frametype
  rcases List.eq_nil_or_concat session.delivered with none | ⟨earlier, previous, more⟩
  · rw [none] at resumes ⊢
    refine ⟨List.isChain_singleton one, ?_⟩
    rintro start here
    cases here
    exact keyType resumes
  · rw [List.concat_eq_append] at more
    have lastOne : session.delivered.getLast? = some previous := by
      rw [more, List.getLast?_concat]
    rw [lastOne] at resumes
    constructor
    · rw [List.isChain_append]
      refine ⟨invariant.chain, List.isChain_singleton one, ?_⟩
      intro before member after here
      rw [lastOne] at member
      cases member
      cases here
      rcases resumes with next | ⟨ahead, key⟩
      · exact ⟨by omega, Or.inl next⟩
      · exact ⟨ahead, Or.inr (keyType key)⟩
    · intro start here
      apply invariant.first start
      rw [List.head?_append, more] at here
      rw [more]
      cases earlier <;> exact here

theorem session_invariant_get (invariant : SessionInvariant capacity session)
    (range : 2 ≤ capacity) (bound : capacity < 2147483648)
    (few : session.system.writer.accepted.length < 2147483648) (maxframelen timestamp : Nat) :
    SessionInvariant capacity (session.next (.get maxframelen timestamp)) := by
  obtain ⟨small, fresh⟩ := table_small invariant.table range bound few
  have behind : session.system.reader.u32RdFrameCount ≤
      session.system.writer.memory.pstuHead.uiWritFrameCount := by
    rw [invariant.table.count]
    exact invariant.behind
  have notPast := get_reader_not_past small fresh behind maxframelen timestamp
  rw [invariant.table.count] at notPast
  have resumes := get_resumes invariant.table small fresh behind invariant.reader maxframelen
    timestamp
  change GetResumes _ _ (session.system.get maxframelen timestamp) at resumes
  have reader := resumes.reader
  cases made : (session.system.get maxframelen timestamp).delivery with
  | none =>
      have next : session.next (.get maxframelen timestamp) =
          { session with system := session.system.next (.get maxframelen timestamp) } := by
        unfold Session.next
        simp only [made, Option.toList_none, List.append_nil]
      rw [made] at reader
      rw [next]
      exact ⟨invariant.table, notPast, reader, invariant.chain, invariant.first, invariant.accepted⟩
  | some one =>
      have next : session.next (.get maxframelen timestamp) =
          { system := session.system.next (.get maxframelen timestamp)
            delivered := session.delivered ++ [one] } := by
        unfold Session.next
        simp only [made, Option.toList_some]
      obtain ⟨stands, frame, present, frametype⟩ := resumes.delivery one made
      obtain ⟨chain, first⟩ := deliver_one invariant stands present frametype
      rw [made] at reader
      rw [next]
      refine ⟨invariant.table, notPast, ?_, chain, first, ?_⟩
      · rw [List.getLast?_concat]
        exact reader
      · intro other member
        rcases List.mem_append.mp member with old | new
        · exact invariant.accepted other old
        · rw [List.mem_singleton.mp new]
          exact ⟨frame, present, frametype⟩

theorem session_invariant_step (invariant : SessionInvariant capacity session)
    (range : 2 ≤ capacity) (bound : capacity < 2147483648) (action : Action)
    (few : (session.next action).system.writer.accepted.length < 2147483648) :
    SessionInvariant capacity (session.next action) := by
  cases action with
  | put frame => exact session_invariant_put invariant frame few
  | get maxframelen timestamp =>
      exact session_invariant_get invariant range bound few maxframelen timestamp

theorem next_accepted_le (session : Session) (action : Action) :
    session.system.writer.accepted.length ≤
      (session.next action).system.writer.accepted.length := by
  cases action with
  | put frame =>
      obtain ⟨frames, grown⟩ := put_grows session.system.writer frame
      change _ ≤ (session.system.writer.put frame).accepted.length
      rw [grown, List.length_append]
      exact Nat.le_add_right _ _
  | get maxframelen timestamp => exact Nat.le_refl _

end Session

theorem session_run_invariant (block : SMemoryPosition) (geometry : Geometry) (readByTime : Bool)
    (actions : List Action)
    (few : (run Session.next (Session.init block geometry readByTime)
      actions).system.writer.accepted.length < 2147483648) :
    SessionInvariant geometry.frames
      (run Session.next (Session.init block geometry readByTime) actions) := by
  -- a block with few frames accepted had few before each step
  have step : ∀ session action, (session.system.writer.accepted.length < 2147483648 →
      SessionInvariant geometry.frames session) → True →
        (session.next action).system.writer.accepted.length < 2147483648 →
          SessionInvariant geometry.frames (session.next action) := by
    intro session action invariant _ fewAfter
    exact session_invariant_step
      (invariant (Nat.lt_of_le_of_lt (next_accepted_le session action) fewAfter))
      geometry.frames_ge geometry.frames_int action fewAfter
  have start : SessionInvariant geometry.frames (Session.init block geometry readByTime) := by
    refine ⟨table_invariant_init block geometry, Nat.le_refl 0, ⟨fun _ => rfl, fun started => ?_⟩,
      List.isChain_nil, fun _ none => ?_, fun _ none => ?_⟩
    all_goals contradiction
  exact run_invariant step actions _ (fun _ => start)
    (meets_of_forall (fun _ _ => trivial) actions _) few

/-- The numbers delivered increase, the first is one of a key frame, and behind
every gap there is a key frame. -/
theorem gaps_end_at_key_frames (block : SMemoryPosition) (geometry : Geometry)
    (readByTime : Bool) (actions : List Action)
    (few : (run Session.next (Session.init block geometry readByTime)
      actions).system.writer.accepted.length < 2147483648) :
    let session := run Session.next (Session.init block geometry readByTime) actions
    session.delivered.Pairwise (fun earlier later => earlier.number < later.number) ∧
      (∀ one ∈ session.delivered.head?, one.copied.frametype = .I) ∧
      (∀ before earlier later after, session.delivered = before ++ earlier :: later :: after →
        later.number ≠ earlier.number + 1 → later.copied.frametype = .I) ∧
      ∀ one ∈ session.delivered, ∃ frame,
        session.system.writer.accepted[one.number]? = some frame ∧
          one.copied.frametype = frame.frametype := by
  intro session
  obtain ⟨-, -, -, chain, first, accepted⟩ :=
    session_run_invariant block geometry readByTime actions few
  refine ⟨?_, first, ?_, accepted⟩
  · have transitive : IsTrans Delivery fun earlier later => earlier.number < later.number :=
      ⟨fun _ _ _ => Nat.lt_trans⟩
    apply List.isChain_iff_pairwise.mp
    exact chain.imp fun _ _ follows => follows.1
  · intro before earlier later after parts gap
    change session.delivered.IsChain Follows at chain
    rw [parts] at chain
    have pair := (List.isChain_append_cons_cons.mp chain).2.1
    exact pair.2.resolve_left gap

def fourFrames : Geometry :=
  ⟨100, 4, hundredBytes.size_ge, hundredBytes.size_int, tenBytes.frames_ge, tenBytes.frames_int⟩

/-- The reader misses the frames 2 and 3 and goes on at the key frame 4. -/
def gapActions : List Action :=
  [.put (frameOf 6 1 .I), .put (frameOf 7 1 .I), .get 10 0, .put (frameOf 8 1 .P),
    .put (frameOf 9 1 .P), .put (frameOf 10 1 .I), .put (frameOf 11 1 .P),
    .put (frameOf 12 1 .P), .get 10 0, .get 10 0]

example : (run Session.next (Session.init zeroedBlock fourFrames false)
    gapActions).delivered.map Delivery.number = [1, 4, 5] := by decide

theorem gaps_end_at_key_frames_missed :
    let session := run Session.next (Session.init zeroedBlock fourFrames false) gapActions
    session.delivered.Pairwise (fun earlier later => earlier.number < later.number) ∧
      (∀ one ∈ session.delivered.head?, one.copied.frametype = .I) ∧
      (∀ before earlier later after, session.delivered = before ++ earlier :: later :: after →
        later.number ≠ earlier.number + 1 → later.copied.frametype = .I) ∧
      ∀ one ∈ session.delivered, ∃ frame,
        session.system.writer.accepted[one.number]? = some frame ∧
          one.copied.frametype = frame.frametype :=
  gaps_end_at_key_frames zeroedBlock fourFrames false gapActions (by decide)

end Mgw.StreamBuff
