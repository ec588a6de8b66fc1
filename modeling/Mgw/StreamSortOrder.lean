import Mgw.StreamSortRuns

/-!
# Runs of the sorter: the order of the frames

Beside the sorter runs a stable queue of the frames that were put in. Each call
does to the list of nodes what it does to the queue, so that what is handed out
and what is still linked is the queue's content in the queue's order. The queue
is the stable sort of the arrivals as long as no frame older than one already
handed out gets in.
-/

namespace Mgw.StreamSort

open ByteArea CodecDef WordArithmetic StableQueue TransitionRuns

set_option autoImplicit false

def Event.oframe? : Event → Option SortFrame
  | .emitted oframe => some oframe
  | _ => none

def Event.copy? : Event → Option Copy
  | .copied copy => some copy
  | _ => none

def Event.isCleaned : Event → Bool
  | .cleaned => true
  | _ => false

def Event.isRemalloced : Event → Bool
  | .remalloced => true
  | _ => false

def emittedFrames (events : List Event) : List SortFrame := events.filterMap Event.oframe?

def cleans (events : List Event) : Bool := events.any Event.isCleaned

def remallocs (events : List Event) : Bool := events.any Event.isRemalloced

/-- The sorter with the frames accepted and handed out since the last cleaning,
the queue of these frames, and all copies made. -/
structure Sorter where
  ssbuf : SsBuff
  accepted : List SortFrame
  emitted : List SortFrame
  queue : Queue SortFrame
  copies : List Copy

namespace Sorter

def start (ssbuf : SsBuff) : Sorter where
  ssbuf := ssbuf
  accepted := []
  emitted := []
  queue := Queue.empty
  copies := []

def record (sorter : Sorter) (iframe : SortFrame) (outcome : Outcome) : Sorter :=
  let cleaned := cleans outcome.events
  let frames := emittedFrames outcome.events
  let kept := if cleaned then Queue.empty else sorter.queue
  { ssbuf := outcome.ssbuf
    accepted := (if cleaned then [] else sorter.accepted) ++ if outcome.ret = -1 then [] else [iframe]
    emitted := (if cleaned then [] else sorter.emitted) ++ frames
    queue := (if outcome.ret = -1 then kept else kept.put SortFrame.timestamp iframe).take frames.length
    copies := sorter.copies ++ outcome.events.filterMap Event.copy? }

/-- The sorter behind the check of the buffer. -/
def settle (sorter : Sorter) (checked : SsBuff) (events : List Event) : Sorter :=
  { ssbuf := checked
    accepted := if cleans events then [] else sorter.accepted
    emitted := if cleans events then [] else sorter.emitted
    queue := if cleans events then Queue.empty else sorter.queue
    copies := sorter.copies ++ events.filterMap Event.copy? }

def put (sorter : Sorter) (call : PutCall) : Option Sorter :=
  (putFrameStreamSort sorter.ssbuf call.iframe call.clock call.callback).map
    (sorter.record call.iframe)

end Sorter

section Events

variable {ssbuf checked : SsBuff} {iframe : SortFrame} {events : List Event}

@[simp] theorem emitted_frames_append (left right : List Event) :
    emittedFrames (left ++ right) = emittedFrames left ++ emittedFrames right := by
  simp [emittedFrames]

@[simp] theorem emitted_frames_copied (copy : Copy) (rest : List Event) :
    emittedFrames (.copied copy :: rest) = emittedFrames rest := rfl

@[simp] theorem emitted_frames_emitted (frames : List SortFrame) :
    emittedFrames (frames.map Event.emitted) = frames := by
  rw [emittedFrames, List.filterMap_map]
  exact List.filterMap_some

@[simp] theorem cleans_append (left right : List Event) :
    cleans (left ++ right) = (cleans left || cleans right) := by
  simp [cleans]

@[simp] theorem cleans_copied (copy : Copy) (rest : List Event) :
    cleans (.copied copy :: rest) = cleans rest := rfl

@[simp] theorem cleans_emitted (frames : List SortFrame) :
    cleans (frames.map Event.emitted) = false := by
  simp [cleans, Event.isCleaned]

/-- Moving the nodes makes copies and nothing else. -/
theorem move_nodes_events (content : SsContent) (uiSize : Nat) (newpdata : Bytes) (position : Nat)
    (nodes : List SsNode) :
    emittedFrames (moveNodes content uiSize newpdata position nodes).copies = [] ∧
      cleans (moveNodes content uiSize newpdata position nodes).copies = false := by
  induction nodes generalizing newpdata position with
  | nil => exact ⟨rfl, rfl⟩
  | cons node rest ih =>
      obtain ⟨frames, clean⟩ := ih (remallocCopy content newpdata uiSize position node).1
        (u32 (position + node.len))
      have one : emittedFrames (remallocCopy content newpdata uiSize position node).2 = [] ∧
          cleans (remallocCopy content newpdata uiSize position node).2 = false := by
        rw [remallocCopy]
        split_ifs <;> exact ⟨rfl, rfl⟩
      simp only [moveNodes, emitted_frames_append, cleans_append, frames, clean, one,
        List.append_nil, Bool.or_false, and_self]

theorem checked_events {frame_len : Nat} (check : Checked ssbuf frame_len checked events) :
    emittedFrames events = [] ∧
      (cleans events = true → checked.toSsContent = cleanContent ssbuf.toSsContent) ∧
      (cleans events = false →
        checked.phead.map SsNode.info = ssbuf.phead.map SsNode.info ∧
          checked.maxtimestamp = ssbuf.maxtimestamp) := by
  cases check with
  | kept same limit free => exact ⟨rfl, fun impossible => by contradiction, fun _ => by rw [same]; exact ⟨rfl, rfl⟩⟩
  | cleaned clean limit looked close big => exact ⟨rfl, fun _ => clean, fun impossible => by contradiction⟩
  | grown move limit looked close small =>
      obtain ⟨frames, clean⟩ := move_nodes_events ssbuf.toSsContent (ssbuf.datasize * 3 / 2)
        (fun _ => 0) 0 ssbuf.phead
      refine ⟨?_, ?_, fun _ => ?_⟩
      · rw [emitted_frames_append, frames]
        rfl
      · intro impossible
        rw [cleans_append, clean] at impossible
        contradiction
      · rw [move]
        exact ⟨moved_infos _ _, rfl⟩

end Events

/-- The nodes are the queue's pending frames, and what was handed out are those that left it. -/
structure Follows (sorter : Sorter) : Prop where
  invariant : SorterInvariant sorter.ssbuf
  pending : sorter.ssbuf.phead.map SsNode.info = sorter.queue.pending.map SortFrame.info
  out : sorter.emitted.map SortFrame.info = sorter.queue.out.map SortFrame.info
  nonempty : sorter.ssbuf.phead = [] → sorter.queue.out = []

section Step

variable {sorter : Sorter} {checked : SsBuff} {iframe : SortFrame} {events : List Event}
  {outcome : Outcome}

theorem record_after (none : emittedFrames events = []) :
    sorter.record iframe (outcome.after events) =
      (sorter.settle checked events).record iframe outcome := by
  simp only [Sorter.record, Sorter.settle, Outcome.after, emitted_frames_append, cleans_append,
    none, List.nil_append, List.filterMap_append, List.append_assoc]
  cases cleans events <;> cases cleans outcome.events <;> rfl

theorem settle_kept (uncleaned : cleans events = false) :
    sorter.settle checked events =
      { sorter with
        ssbuf := checked
        copies := sorter.copies ++ events.filterMap Event.copy? } := by
  unfold Sorter.settle
  rw [uncleaned]
  rfl

theorem settle_nothing : sorter.settle checked [] = { sorter with ssbuf := checked } := by
  have copies : sorter.copies ++ [] = sorter.copies := List.append_nil _
  rw [settle_kept rfl]
  change ({ sorter with ssbuf := checked, copies := sorter.copies ++ [] } : Sorter) = _
  rw [copies]

theorem settle_cleaned :
    sorter.settle checked [.cleaned] = { Sorter.start checked with copies := sorter.copies } := by
  have copies : sorter.copies ++ [] = sorter.copies := List.append_nil _
  rw [Sorter.start, ← copies]
  rfl

theorem follows_settle (follows : Follows sorter) {frame_len : Nat}
    (check : Checked sorter.ssbuf frame_len checked events) :
    Follows (sorter.settle checked events) := by
  obtain ⟨invariant, -⟩ := checked_invariant follows.invariant check
  obtain ⟨-, whenCleaned, whenKept⟩ := checked_events check
  cases flag : cleans events with
  | true =>
      have clean : checked.phead = [] := by
        rw [whenCleaned flag]
        rfl
      refine ⟨invariant, ?_, ?_, ?_⟩
      · simp [Sorter.settle, flag, clean, Queue.empty]
      · simp [Sorter.settle, flag, Queue.empty]
      · simp [Sorter.settle, flag, Queue.empty]
  | false =>
      obtain ⟨infos, -⟩ := whenKept flag
      refine ⟨invariant, ?_, ?_, ?_⟩
      · simpa [Sorter.settle, flag, infos] using follows.pending
      · simpa [Sorter.settle, flag] using follows.out
      · intro empty
        change checked.phead = [] at empty
        rw [empty] at infos
        simpa [Sorter.settle, flag] using follows.nonempty (List.map_eq_nil_iff.mp infos.symm)

theorem handed_out_infos (content : SsContent) (count : Nat) :
    (content.handedOut count).map SortFrame.info = (content.phead.take count).map SsNode.info := by
  rw [SsContent.handedOut, List.map_map]
  rfl

theorem handed_out_length {content : SsContent} {count : Nat} (few : count ≤ content.phead.length) :
    (content.handedOut count).length = count := by
  rw [SsContent.handedOut, List.length_map, List.length_take, Nat.min_eq_left few]

theorem record_dropped (after : SsBuff) :
    sorter.record iframe ⟨-1, after, []⟩ = { sorter with ssbuf := after } := by
  simp [Sorter.record, emittedFrames, cleans]

theorem record_cleaned (after : SsBuff) :
    sorter.record iframe ⟨-1, after, [.cleaned]⟩ =
      { Sorter.start after with copies := sorter.copies } := by
  have copies : sorter.copies ++ [] = sorter.copies := List.append_nil _
  rw [Sorter.start, ← copies]
  rfl

/-- What an accepted frame does to the recorded run. -/
theorem record_accepted {after : SsBuff} {copy : Copy} {content : SsContent} {count : Nat}
    (few : count ≤ content.phead.length) :
    sorter.record iframe
        ⟨0, after, .copied copy :: (content.handedOut count).map Event.emitted⟩ =
      { ssbuf := after
        accepted := sorter.accepted ++ [iframe]
        emitted := sorter.emitted ++ content.handedOut count
        queue := (sorter.queue.put SortFrame.timestamp iframe).take count
        copies := sorter.copies ++ [copy] } := by
  have copies : ((content.handedOut count).map Event.emitted).filterMap Event.copy? = [] := by
    rw [List.filterMap_map]
    exact List.filterMap_eq_nil_iff.mpr fun _ _ => rfl
  simp only [Sorter.record, emitted_frames_copied, emitted_frames_emitted, cleans_copied,
    cleans_emitted, handed_out_length few]
  rw [List.filterMap_cons_some (show Event.copy? (.copied copy) = some copy from rfl), copies]
  rfl

/-- An accepted frame enters the queue where its node enters the list. -/
theorem store_follows {content : SsContent} {queue : Queue SortFrame} (wpos position : Nat)
    (pending : content.phead.map SsNode.info = queue.pending.map SortFrame.info) :
    (content.store wpos position iframe).phead.map SsNode.info =
      (queue.put SortFrame.timestamp iframe).pending.map SortFrame.info := by
  change (insertBy SsNode.timestamp (fillTheNode wpos iframe) content.phead).map SsNode.info =
    (insertBy SortFrame.timestamp iframe queue.pending).map SortFrame.info
  have nodes : ∀ node : SsNode, node.info.timestamp = node.timestamp := fun _ => rfl
  have frames : ∀ frame : SortFrame, frame.info.timestamp = frame.timestamp := fun _ => rfl
  rw [insert_by_map nodes, insert_by_map frames, pending]
  rfl

theorem follows_place (follows : Follows sorter)
    (place : Placed sorter.ssbuf.toSsContent sorter.ssbuf.uiMaxSortTime iframe outcome) :
    Follows (sorter.record iframe outcome) := by
  have invariant := placed_invariant follows.invariant place
  cases place with
  | dropped after same limit present late =>
      rw [record_dropped]
      refine ⟨invariant, ?_, follows.out, ?_⟩
      · change after.phead.map SsNode.info = _
        rw [same]
        exact follows.pending
      · intro empty
        change after.phead = [] at empty
        rw [same] at empty
        exact follows.nonempty empty
  | cleaned after clean limit present far =>
      rw [record_cleaned]
      refine ⟨invariant, ?_, rfl, fun _ => rfl⟩
      change after.phead.map SsNode.info = _
      rw [clean]
      rfl
  | accepted after wpos position count writes stored limit few inOrder =>
      have total : (sorter.ssbuf.toSsContent.store wpos position iframe).phead.length =
          sorter.ssbuf.phead.length + 1 := insert_by_length SsNode.timestamp _ _
      obtain ⟨-, dropped⟩ := pop_many_spec count
        (store_consistent follows.invariant.consistent wpos position iframe) (by omega)
      have entered := @store_follows iframe _ _ wpos position follows.pending
      rw [record_accepted (by omega)]
      refine ⟨invariant, ?_, ?_, ?_⟩
      · change after.phead.map SsNode.info = _
        rw [stored, dropped, Queue.take, List.map_drop, entered, List.map_drop]
      · change (sorter.emitted ++ _).map SortFrame.info =
          (sorter.queue.out ++ _).map SortFrame.info
        rw [List.map_append, List.map_append, follows.out, handed_out_infos, List.map_take, entered,
          List.map_take]
      · intro empty
        change after.phead = [] at empty
        rw [stored, dropped, List.drop_eq_nil_iff] at empty
        omega

theorem follows_step (follows : Follows sorter) (spec : PutSpec sorter.ssbuf iframe outcome) :
    Follows (sorter.record iframe outcome) := by
  cases spec with
  | tooBig big =>
      rw [record_dropped]
      exact follows
  | placed checked events outcome fits check place =>
      rw [record_after (checked_events check).1]
      exact follows_place (follows_settle follows check) place

end Step

/-- The queue has taken the accepted frames apart in their stable order. -/
def Arranged (sorter : Sorter) : Prop :=
  Arranges SortFrame.timestamp sorter.queue.all sorter.accepted

section Order

variable {sorter : Sorter} {checked : SsBuff} {iframe : SortFrame} {events : List Event}
  {outcome : Outcome}

theorem map_timestamps {nodes : List SsNode} {frames : List SortFrame}
    (infos : nodes.map SsNode.info = frames.map SortFrame.info) :
    nodes.map SsNode.timestamp = frames.map SortFrame.timestamp := by
  have same := congrArg (List.map FrameInfo.timestamp) infos
  rwa [List.map_map, List.map_map] at same

theorem newest_pending (follows : Follows sorter) (present : sorter.ssbuf.phead ≠ []) :
    ∃ newest ∈ sorter.queue.pending, newest.timestamp = sorter.ssbuf.maxtimestamp := by
  rw [follows.invariant.consistent.newest _ (List.getLast?_eq_some_getLast present)]
  have member : (sorter.ssbuf.phead.getLast present).timestamp ∈
      sorter.queue.pending.map SortFrame.timestamp := by
    rw [← map_timestamps follows.pending]
    exact List.mem_map_of_mem (List.getLast_mem present)
  exact List.mem_map.mp member

/-- Frames that were handed out are not newer than the newest one in the list. -/
theorem out_le_newest (follows : Follows sorter) (arranged : Arranged sorter) {old : SortFrame}
    (member : old ∈ sorter.queue.out) : old.timestamp ≤ sorter.ssbuf.maxtimestamp := by
  have present : sorter.ssbuf.phead ≠ [] := by
    intro empty
    rw [follows.nonempty empty] at member
    contradiction
  obtain ⟨newest, waits, timestamp⟩ := newest_pending follows present
  rw [← timestamp]
  exact (List.pairwise_append.mp arranged.1).2.2 old member newest waits

theorem arranged_settle (arranged : Arranged sorter) : Arranged (sorter.settle checked events) := by
  rw [Arranged, Sorter.settle]
  cases cleans events with
  | true => exact arranges_nil
  | false => exact arranged

theorem arranged_place (arranged : Arranged sorter)
    (place : Placed sorter.ssbuf.toSsContent sorter.ssbuf.uiMaxSortTime iframe outcome)
    (after : outcome.ret = 0 → ∀ old ∈ sorter.queue.out, old.timestamp ≤ iframe.timestamp) :
    Arranged (sorter.record iframe outcome) := by
  cases place with
  | dropped after same limit present late =>
      rw [record_dropped]
      exact arranged
  | cleaned after clean limit present far =>
      rw [record_cleaned]
      exact arranges_nil
  | accepted final wpos position count writes stored limit few inOrder =>
      have total : (sorter.ssbuf.toSsContent.store wpos position iframe).phead.length =
          sorter.ssbuf.phead.length + 1 := insert_by_length SsNode.timestamp _ _
      rw [record_accepted (by omega)]
      change Arranges _ ((sorter.queue.put _ iframe).take count).all (sorter.accepted ++ [iframe])
      rw [Queue.all_take]
      exact Queue.put_arranges arranged (after rfl)

/-- The guard an older frame has to pass: it is not too late and not below `premintimestamp`. -/
theorem accepted_guard (follows : Follows sorter) (arranged : Arranged sorter)
    (place : Placed sorter.ssbuf.toSsContent sorter.ssbuf.uiMaxSortTime iframe outcome)
    (accepted : outcome.ret = 0) {old : SortFrame} (member : old ∈ sorter.queue.out)
    (older : iframe.timestamp < old.timestamp) :
    sorter.ssbuf.premintimestamp ≤ iframe.timestamp ∧
      sub32 sorter.ssbuf.maxtimestamp iframe.timestamp ≤ sorter.ssbuf.uiMaxSortTime := by
  have newest := out_le_newest follows arranged member
  cases place with
  | dropped after same limit present late => contradiction
  | cleaned after clean limit present far => contradiction
  | accepted final wpos position count writes stored limit few inOrder =>
      have present : sorter.ssbuf.phead ≠ [] := by
        intro empty
        rw [follows.nonempty empty] at member
        contradiction
      rcases inOrder present with newer | guarded
      · omega
      · exact guarded

theorem checked_limit {ssbuf : SsBuff} {frame_len : Nat}
    (check : Checked ssbuf frame_len checked events) :
    checked.uiMaxSortTime = ssbuf.uiMaxSortTime := by
  cases check with
  | kept same limit free => exact limit
  | cleaned clean limit looked close big => exact limit
  | grown move limit looked close small => exact limit

/-- A step keeps the order if the guard holds whenever a frame is older than one handed out. -/
theorem arranged_step (follows : Follows sorter) (arranged : Arranged sorter)
    (check : Checked sorter.ssbuf iframe.frame_len checked events)
    (place : Placed checked.toSsContent checked.uiMaxSortTime iframe outcome)
    (guard : cleans events = false →
      sub32 sorter.ssbuf.maxtimestamp iframe.timestamp ≤ sorter.ssbuf.uiMaxSortTime →
      ∀ old ∈ sorter.queue.out, iframe.timestamp < old.timestamp →
        iframe.timestamp < checked.premintimestamp) :
    Arranged (sorter.record iframe (outcome.after events)) := by
  rw [record_after (checked_events check).1]
  apply arranged_place (arranged_settle arranged) place
  intro accepted old member
  by_contra older
  have passed := accepted_guard (follows_settle follows check) (arranged_settle arranged) place
    accepted member (Nat.lt_of_not_le older)
  cases flag : cleans events with
  | true => simp [Sorter.settle, flag, Queue.empty] at member
  | false =>
      have newest := ((checked_events check).2.2 flag).2
      have limit := checked_limit check
      simp only [Sorter.settle, flag, Bool.false_eq_true, if_false] at member passed
      rw [newest, limit] at passed
      have below := guard flag passed.2 old member (Nat.lt_of_not_le older)
      omega

end Order

/-- `Datacallback`, which one call invokes at most three times, accepts every frame. -/
def CallbackSucceeds (callback : Nat → Int) : Prop := ∀ i < 3, 0 ≤ callback i

/-- `CheckStreambuff` replaces the buffer by a larger one. -/
def SsBuff.regrows (ssbuf : SsBuff) (frame_len : Nat) : Bool :=
  !ssbuf.unchecked && ssbuf.tooLong frame_len && decide (ssbuf.datasize ≤ MAX_SORT_BUFF_LEN)

/-- `CheckStreambuff` cleans the buffer. -/
def SsBuff.recleans (ssbuf : SsBuff) (frame_len : Nat) : Bool :=
  !ssbuf.unchecked && ssbuf.tooLong frame_len && decide (MAX_SORT_BUFF_LEN < ssbuf.datasize)

/-- A frame older than one already handed out is refused for its length or its
lateness, starts a cleaned buffer, or meets a `premintimestamp` that is still above it. -/
def GuardKept (sorter : Sorter) (iframe : SortFrame) : Prop :=
  (∃ old ∈ sorter.emitted, iframe.timestamp < old.timestamp) →
    sorter.ssbuf.datasize / 2 ≤ iframe.frame_len ∨
      sorter.ssbuf.uiMaxSortTime < sub32 sorter.ssbuf.maxtimestamp iframe.timestamp ∨
      sorter.ssbuf.recleans iframe.frame_len = true ∨
      (sorter.ssbuf.regrows iframe.frame_len = false ∧
        iframe.timestamp < sorter.ssbuf.premintimestamp)

def OrderKept (sorter : Sorter) (call : PutCall) : Prop :=
  CallbackSucceeds call.callback ∧ GuardKept sorter call.iframe

instance order_kept_decidable (sorter : Sorter) (call : PutCall) :
    Decidable (OrderKept sorter call) :=
  inferInstanceAs (Decidable ((∀ i < 3, 0 ≤ call.callback i) ∧
    ((∃ old ∈ sorter.emitted, call.iframe.timestamp < old.timestamp) →
      sorter.ssbuf.datasize / 2 ≤ call.iframe.frame_len ∨
        sorter.ssbuf.uiMaxSortTime <
          sub32 sorter.ssbuf.maxtimestamp call.iframe.timestamp ∨
        sorter.ssbuf.recleans call.iframe.frame_len = true ∨
        (sorter.ssbuf.regrows call.iframe.frame_len = false ∧
          call.iframe.timestamp < sorter.ssbuf.premintimestamp))))

/-- Frames older than one handed out since the last cleaning are refused, unless
the call itself cleans. -/
def OlderRefused (sorter : Sorter) : Prop :=
  ∀ call outcome, OrderKept sorter call →
    putFrameStreamSort sorter.ssbuf call.iframe call.clock call.callback = some outcome →
    cleans outcome.events = false →
    ∀ old ∈ sorter.emitted, call.iframe.timestamp < old.timestamp → outcome.ret = -1

section Growth

variable {sorter : Sorter} {checked : SsBuff} {iframe : SortFrame} {events : List Event}
  {outcome : Outcome}

theorem callback_pops_succeed {callback : Nat → Int} (succeeds : CallbackSucceeds callback) :
    PopsSucceed callback := ⟨succeeds 1 (by omega), succeeds 2 (by omega)⟩

theorem emitted_out (follows : Follows sorter) (timestamp : Nat) :
    (∃ old ∈ sorter.emitted, timestamp < old.timestamp) ↔
      ∃ old ∈ sorter.queue.out, timestamp < old.timestamp := by
  have same := congrArg (List.map FrameInfo.timestamp) follows.out
  rw [List.map_map, List.map_map] at same
  have members : ∀ frames : List SortFrame, (∃ old ∈ frames, timestamp < old.timestamp) ↔
      ∃ value ∈ frames.map (FrameInfo.timestamp ∘ SortFrame.info), timestamp < value := by
    intro frames
    simp only [List.mem_map, exists_exists_and_eq_and]
    rfl
  rw [members, members, same]

/-- Under the condition the check leaves `premintimestamp` above every older frame it lets by. -/
theorem guard_kept_checked (follows : Follows sorter) (kept : GuardKept sorter iframe)
    (fits : iframe.frame_len < sorter.ssbuf.datasize / 2)
    (check : Checked sorter.ssbuf iframe.frame_len checked events)
    (uncleaned : cleans events = false)
    (punctual : sub32 sorter.ssbuf.maxtimestamp iframe.timestamp ≤ sorter.ssbuf.uiMaxSortTime)
    {old : SortFrame} (member : old ∈ sorter.queue.out)
    (older : iframe.timestamp < old.timestamp) :
    iframe.timestamp < checked.premintimestamp := by
  rcases kept ((emitted_out follows _).mpr ⟨old, member, older⟩) with
    big | late | recleaned | ⟨ungrown, below⟩
  · omega
  · omega
  · cases check with
    | kept same limit free =>
        rw [SsBuff.recleans] at recleaned
        rcases free with free | free <;> simp [free] at recleaned
    | cleaned clean limit looked close big => contradiction
    | grown move limit looked close small =>
        simp only [SsBuff.recleans, Bool.and_eq_true, decide_eq_true_eq] at recleaned
        omega
  · cases check with
    | kept same limit free =>
        rw [same]
        exact below
    | cleaned clean limit looked close big => contradiction
    | grown move limit looked close small =>
        simp [SsBuff.regrows, looked, close, small] at ungrown

theorem older_refused (follows : Follows sorter) (arranged : Arranged sorter) :
    OlderRefused sorter := by
  intro call outcome kept result uncleaned old member older
  obtain ⟨found, sameResult, spec⟩ := @put_spec sorter.ssbuf call.clock call.callback
    follows.invariant call.iframe (callback_pops_succeed kept.1)
  rw [result] at sameResult
  obtain rfl := Option.some.inj sameResult
  obtain ⟨out, outMember, outOlder⟩ := (emitted_out follows _).mp ⟨old, member, older⟩
  cases spec with
  | tooBig big => rfl
  | placed checked events outcome fits check place =>
      have flag : cleans events = false := by
        rw [Outcome.after, cleans_append, Bool.or_eq_false_iff] at uncleaned
        exact uncleaned.1
      by_contra accepted
      have zero : outcome.ret = 0 := by
        cases place with
        | dropped after same limit present late => contradiction
        | cleaned after clean limit present far => contradiction
        | accepted final wpos position count writes stored limit few inOrder => rfl
      have settled : out ∈ (sorter.settle checked events).queue.out := by
        simpa [Sorter.settle, flag] using outMember
      have passed := accepted_guard (follows_settle follows check) (arranged_settle arranged) place
        zero settled outOlder
      simp only [Sorter.settle] at passed
      rw [((checked_events check).2.2 flag).2, checked_limit check] at passed
      have below := guard_kept_checked follows kept.2 fits check flag passed.2 outMember outOlder
      omega

end Growth

/-- The queue behind a run whose steps keep the guard. -/
structure OrderInvariant (sorter : Sorter) : Prop where
  follows : Follows sorter
  arranged : Arranged sorter

theorem start_follows {info : RegisterSortInfo} {freetime analytime : Nat} {ssbuf : SsBuff}
    (word : info.uiSize < wordSize)
    (created : pCreateStreamSort info freetime analytime = some ssbuf) :
    OrderInvariant (Sorter.start ssbuf) := by
  have invariant := created_invariant word created
  rw [pCreateStreamSort] at created
  split_ifs at created
  obtain rfl := Option.some.inj created
  exact ⟨⟨invariant, rfl, rfl, fun _ => rfl⟩, arranges_nil⟩

theorem emitted_ordered {sorter : Sorter} (follows : Follows sorter) (arranged : Arranged sorter) :
    sorter.emitted.Pairwise fun left right => left.timestamp ≤ right.timestamp := by
  have ordered := (List.pairwise_append.mp arranged.1).1
  have same := congrArg (List.map FrameInfo.timestamp) follows.out
  rw [List.map_map, List.map_map] at same
  have values : (sorter.queue.out.map (FrameInfo.timestamp ∘ SortFrame.info)).Pairwise
      (fun left right : Nat => left ≤ right) := List.pairwise_map.mpr ordered
  rw [← same] at values
  exact List.pairwise_map.mp values

/-- In runs that keep the guard the timestamps handed out never decrease between
two cleanings, whatever the buffer's growth. -/
theorem emission_order_kept (info : RegisterSortInfo) (freetime analytime : Nat)
    (word : info.uiSize < wordSize) (ssbuf : SsBuff)
    (created : pCreateStreamSort info freetime analytime = some ssbuf) (calls : List PutCall)
    (meets : TryMeets Sorter.put OrderKept (Sorter.start ssbuf) calls) :
    ∃ final, tryRun Sorter.put (Sorter.start ssbuf) calls = some final ∧
      (final.emitted.Pairwise fun left right => left.timestamp ≤ right.timestamp) ∧
      OlderRefused final := by
  have preserves : ∀ sorter call, OrderInvariant sorter → OrderKept sorter call →
      ∃ after, Sorter.put sorter call = some after ∧ OrderInvariant after := by
    intro sorter call invariant kept
    obtain ⟨outcome, result, spec⟩ := @put_spec sorter.ssbuf call.clock call.callback
      invariant.follows.invariant call.iframe (callback_pops_succeed kept.1)
    refine ⟨_, by rw [Sorter.put, result, Option.map_some],
      follows_step invariant.follows spec, ?_⟩
    cases spec with
    | tooBig big =>
        rw [record_dropped]
        exact invariant.arranged
    | placed checked events outcome fits check place =>
        apply arranged_step invariant.follows invariant.arranged check place
        intro uncleaned punctual old member older
        exact guard_kept_checked invariant.follows kept.2 fits check uncleaned punctual member older
  obtain ⟨final, result, invariant⟩ :=
    try_run_invariant preserves calls _ (start_follows word created) meets
  exact ⟨final, result, emitted_ordered invariant.follows invariant.arranged,
    older_refused invariant.follows invariant.arranged⟩

/-- The third frame hands out the first one; the fourth does not fit behind the
third, so that the buffer grows. -/
def growingCalls (timestamp : Nat) : List PutCall :=
  [callAt 10 100 0, callAt 500000 200 0, callAt 500000 300 0, callAt 100000 timestamp 0,
    callAt 10 400 0]

theorem emission_order_kept_growing :
    ∃ final, tryRun Sorter.put (Sorter.start (smallestSorter 0)) (growingCalls 350) = some final ∧
      (final.emitted.Pairwise fun left right => left.timestamp ≤ right.timestamp) ∧
      OlderRefused final :=
  emission_order_kept ⟨MIM_SORT_BUFF_LEN, 0, 0⟩ 0 0 (by decide) (smallestSorter 0) rfl
    (growingCalls 350) (by decide)

/-- The growth forgets that a frame of timestamp 100 has left: one of timestamp 50 follows it. -/
theorem growth_loses_order :
    ∃ final, tryRun Sorter.put (Sorter.start (smallestSorter 0)) (growingCalls 50) = some final ∧
      ¬final.emitted.Pairwise fun left right => left.timestamp ≤ right.timestamp := by
  refine ⟨_, rfl, ?_⟩
  intro ordered
  have timestamps : [100, 50].Pairwise fun left right : Nat => left ≤ right :=
    List.pairwise_map.mpr ordered
  exact absurd timestamps (by decide)

/-- No call of the run cleans the sorter or replaces its buffer. -/
def SameBuffer (sorter : Sorter) (call : PutCall) : Prop :=
  ((putFrameStreamSort sorter.ssbuf call.iframe call.clock call.callback).any fun outcome =>
    cleans outcome.events || remallocs outcome.events) = false

def Undisturbed (sorter : Sorter) (call : PutCall) : Prop :=
  CallbackSucceeds call.callback ∧ SameBuffer sorter call

instance undisturbed_decidable (sorter : Sorter) (call : PutCall) :
    Decidable (Undisturbed sorter call) :=
  inferInstanceAs (Decidable ((∀ i < 3, 0 ≤ call.callback i) ∧
    ((putFrameStreamSort sorter.ssbuf call.iframe call.clock call.callback).any fun outcome =>
      cleans outcome.events || remallocs outcome.events) = false))

/-- While the buffer stays the same `premintimestamp` is not below any frame handed out. -/
structure StableInvariant (sorter : Sorter) : Prop where
  follows : Follows sorter
  arranged : Arranged sorter
  premin : ∀ old ∈ sorter.queue.out, old.timestamp ≤ sorter.ssbuf.premintimestamp

section Stable

variable {sorter : Sorter} {checked : SsBuff} {iframe : SortFrame} {events : List Event}
  {outcome : Outcome}

/-- After an accepted frame `premintimestamp` is that of the last frame handed out. -/
theorem premin_accepted (follows : Follows sorter) (premin : ∀ old ∈ sorter.queue.out,
      old.timestamp ≤ sorter.ssbuf.premintimestamp) {wpos position count : Nat}
    (few : count < sorter.ssbuf.phead.length + 1)
    (ordered : Ordered SortFrame.timestamp
      ((sorter.queue.put SortFrame.timestamp iframe).take count).all) :
    ∀ old ∈ ((sorter.queue.put SortFrame.timestamp iframe).take count).out,
      old.timestamp ≤ ((sorter.ssbuf.toSsContent.store wpos position iframe).popMany
        count).premintimestamp := by
  have total : (sorter.ssbuf.toSsContent.store wpos position iframe).phead.length =
      sorter.ssbuf.phead.length + 1 := insert_by_length SsNode.timestamp _ _
  have entered := @store_follows iframe _ _ wpos position follows.pending
  intro old member
  cases count with
  | zero =>
      rw [Queue.take_zero] at member
      change old ∈ sorter.queue.out at member
      have present : sorter.ssbuf.phead ≠ [] := by
        intro empty
        rw [follows.nonempty empty] at member
        contradiction
      change old.timestamp ≤ if sorter.ssbuf.phead = [] then iframe.timestamp
        else sorter.ssbuf.premintimestamp
      rw [if_neg present]
      exact premin old member
  | succ count =>
      obtain ⟨last, node, value⟩ := pop_many_premin count (by omega)
        (store_consistent follows.invariant.consistent wpos position iframe)
      rw [value]
      -- the last frame that leaves is the one of that node, and no earlier one is newer
      have same := congrArg (fun infos => infos[count]?) entered
      simp only [List.getElem?_map, node, Option.map_some] at same
      obtain ⟨frame, present, info⟩ := Option.map_eq_some_iff.mp same.symm
      have timestamp : frame.timestamp = last.timestamp := congrArg FrameInfo.timestamp info
      have outOrdered := (List.pairwise_append.mp ordered).1
      have parts : ((sorter.queue.put SortFrame.timestamp iframe).take (count + 1)).out =
          (sorter.queue.out ++ (sorter.queue.put SortFrame.timestamp iframe).pending.take count) ++
            [frame] := by
        rw [Queue.take, List.take_add_one, present, ← List.append_assoc]
        rfl
      rw [parts] at outOrdered member
      rcases List.mem_append.mp member with before | final
      · rw [← timestamp]
        exact (List.pairwise_append.mp outOrdered).2.2 old before frame
          (List.mem_singleton_self frame)
      · rw [List.mem_singleton.mp final, timestamp]

theorem same_buffer_check {frame_len : Nat} {ssbuf : SsBuff}
    (check : Checked ssbuf frame_len checked events) (uncleaned : cleans events = false)
    (unmoved : remallocs events = false) : checked.toSsContent = ssbuf.toSsContent := by
  cases check with
  | kept same limit free => exact same
  | cleaned clean limit looked close big => contradiction
  | grown move limit looked close small => simp [remallocs, Event.isRemalloced] at unmoved

theorem stable_step (invariant : StableInvariant sorter)
    (spec : PutSpec sorter.ssbuf iframe outcome) (uncleaned : cleans outcome.events = false)
    (unmoved : remallocs outcome.events = false) :
    StableInvariant (sorter.record iframe outcome) := by
  obtain ⟨follows, arranged, premin⟩ := invariant
  have followsAfter := follows_step follows spec
  cases spec with
  | tooBig big =>
      rw [record_dropped]
      exact ⟨follows, arranged, premin⟩
  | placed checked events outcome fits check place =>
      rw [Outcome.after, cleans_append, Bool.or_eq_false_iff] at uncleaned
      rw [Outcome.after, remallocs, List.any_append, Bool.or_eq_false_iff] at unmoved
      have same := same_buffer_check check uncleaned.1 unmoved.1
      have arrangedAfter : Arranged (sorter.record iframe (outcome.after events)) := by
        apply arranged_step follows arranged check place
        intro _ _ old member older
        rw [same]
        have bound := premin old member
        omega
      refine ⟨followsAfter, arrangedAfter, ?_⟩
      rw [record_after (checked_events check).1] at arrangedAfter ⊢
      have settled := follows_settle follows check
      have bounds : ∀ old ∈ (sorter.settle checked events).queue.out,
          old.timestamp ≤ (sorter.settle checked events).ssbuf.premintimestamp := by
        simp only [Sorter.settle, uncleaned.1, Bool.false_eq_true, if_false]
        rw [same]
        exact premin
      cases place with
      | dropped after unchanged limit present late =>
          rw [record_dropped]
          change ∀ old : SortFrame, old ∈ _ → old.timestamp ≤ after.premintimestamp
          rw [unchanged]
          exact bounds
      | cleaned after clean limit present far =>
          have impossible := uncleaned.2
          contradiction
      | accepted after wpos position count writes stored limit few inOrder =>
          have total : (checked.toSsContent.store wpos position iframe).phead.length =
              checked.phead.length + 1 := insert_by_length SsNode.timestamp _ _
          rw [record_accepted (by omega)] at arrangedAfter ⊢
          change ∀ old : SortFrame, old ∈ _ → old.timestamp ≤ after.premintimestamp
          rw [stored]
          exact premin_accepted settled bounds few arrangedAfter.1

end Stable

/-- As long as the buffer stays the same, what has been handed out followed by
what is still linked is the stable sort of the frames accepted. -/
theorem stable_sort_after_run (info : RegisterSortInfo) (freetime analytime : Nat)
    (word : info.uiSize < wordSize) (ssbuf : SsBuff)
    (created : pCreateStreamSort info freetime analytime = some ssbuf) (calls : List PutCall)
    (meets : TryMeets Sorter.put Undisturbed (Sorter.start ssbuf) calls) :
    ∃ final, tryRun Sorter.put (Sorter.start ssbuf) calls = some final ∧
      final.emitted.map SortFrame.info ++ final.ssbuf.phead.map SsNode.info =
        (final.accepted.map SortFrame.info).mergeSort fun left right =>
          left.timestamp ≤ right.timestamp := by
  have preserves : ∀ sorter call, StableInvariant sorter → Undisturbed sorter call →
      ∃ after, Sorter.put sorter call = some after ∧ StableInvariant after := by
    intro sorter call invariant undisturbed
    obtain ⟨succeeds, sameBuffer⟩ := undisturbed
    obtain ⟨outcome, result, spec⟩ := @put_spec sorter.ssbuf call.clock call.callback
      invariant.follows.invariant call.iframe (callback_pops_succeed succeeds)
    rw [SameBuffer, result, Option.any_some, Bool.or_eq_false_iff] at sameBuffer
    exact ⟨_, by rw [Sorter.put, result, Option.map_some],
      stable_step invariant spec sameBuffer.1 sameBuffer.2⟩
  have start : StableInvariant (Sorter.start ssbuf) :=
    ⟨(start_follows word created).follows, (start_follows word created).arranged,
      fun old member => by contradiction⟩
  obtain ⟨final, result, invariant⟩ := try_run_invariant preserves calls _ start meets
  refine ⟨final, result, ?_⟩
  have sorted := arranges_eq_merge_sort invariant.arranged
  rw [invariant.follows.out, invariant.follows.pending, ← List.map_append, ← Queue.all, sorted]
  exact List.map_mergeSort fun _ _ _ _ => rfl

/-- Three frames, the last of them between the others, and one that hands out the oldest. -/
def sortedCalls : List PutCall :=
  [callAt 10 100 0, callAt 20 300 0, callAt 30 200 0, callAt 40 5000 0]

theorem stable_sort_after_four :
    ∃ final, tryRun Sorter.put (Sorter.start (smallestSorter 1000)) sortedCalls = some final ∧
      final.emitted.map SortFrame.info ++ final.ssbuf.phead.map SsNode.info =
        (final.accepted.map SortFrame.info).mergeSort fun left right =>
          left.timestamp ≤ right.timestamp :=
  stable_sort_after_run ⟨MIM_SORT_BUFF_LEN, 1000, 0⟩ 0 0 (by decide) (smallestSorter 1000) rfl
    sortedCalls (by decide)

end Mgw.StreamSort
