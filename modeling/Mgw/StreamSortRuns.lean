import Mgw.StreamSortPut
import Mgw.TransitionRuns

/-!
# Runs of the sorter: the lists and counters

A run is a sequence of calls with everything they read from outside. The lists
and counters agree after every call in which the callback accepts what
`PopFrameStreamSort` hands it; what it says about the node that is reused for
the new frame does not matter.
-/

namespace Mgw.StreamSort

open ByteArea CodecDef WordArithmetic StableQueue TransitionRuns

set_option autoImplicit false

/-- One call of `PutFrameStreamSort`: the frame, the clock and the callback's results. -/
structure PutCall where
  iframe : SortFrame
  clock : Clock
  callback : Nat → Int

def SsBuff.put (ssbuf : SsBuff) (call : PutCall) : Option SsBuff :=
  (putFrameStreamSort ssbuf call.iframe call.clock call.callback).map Outcome.ssbuf

/-- A call returns at once or places its frame in the sorter behind the check. -/
theorem put_parts {ssbuf : SsBuff} {call : PutCall} {outcome : Outcome}
    (done : putFrameStreamSort ssbuf call.iframe call.clock call.callback = some outcome) :
    ssbuf.datasize / 2 ≤ call.iframe.frame_len ∧ outcome = ⟨-1, ssbuf, []⟩ ∨
      ¬ssbuf.datasize / 2 ≤ call.iframe.frame_len ∧ ∃ checked events placed,
        checkStreambuff ssbuf call.iframe.frame_len call.clock = some (checked, events) ∧
          placeFrame checked call.iframe call.clock call.callback = some placed ∧
          outcome = placed.after events := by
  rw [putFrameStreamSort] at done
  split_ifs at done with big
  · exact Or.inl ⟨big, (Option.some.inj done).symm⟩
  · obtain ⟨⟨checked, events⟩, check, rest⟩ := Option.bind_eq_some_iff.mp done
    obtain ⟨placed, place, same⟩ := Option.bind_eq_some_iff.mp rest
    exact Or.inr ⟨big, checked, events, placed, check, place, (Option.some.inj same).symm⟩

/-- The address list, the byte count and the frame counters fit the list of nodes. -/
structure ListsAgree (ssbuf : SsBuff) : Prop where
  addresses : ssbuf.frameaddr.Perm (ssbuf.phead.map SsNode.position)
  validLen : ssbuf.uiValidLen = u32 (totalLen ssbuf.phead)
  counts : sub32 ssbuf.uiPutFrameCount ssbuf.u32PopFrameCount = u32 ssbuf.phead.length

/-- A frame that is short enough and not older than the newest one, nor too far ahead of it. -/
def InOrder (ssbuf : SsBuff) (iframe : SortFrame) : Prop :=
  iframe.frame_len < ssbuf.datasize / 2 ∧
    (ssbuf.phead ≠ [] → ssbuf.maxtimestamp ≤ iframe.timestamp ∧
      sub32 iframe.timestamp ssbuf.maxtimestamp < ssbuf.uiMaxSortTime)

def AcceptsInOrder (ssbuf : SsBuff) : Prop :=
  ∀ iframe clock callback, InOrder ssbuf iframe → PopsSucceed callback →
    ∃ outcome, putFrameStreamSort ssbuf iframe clock callback = some outcome ∧ outcome.ret = 0

section Invariant

variable {ssbuf : SsBuff}

theorem in_order_accepted {iframe : SortFrame} {outcome : Outcome}
    (inOrder : InOrder ssbuf iframe) (spec : PutSpec ssbuf iframe outcome) : outcome.ret = 0 := by
  obtain ⟨fits, order⟩ := inOrder
  cases spec with
  | tooBig big => omega
  | placed checked events outcome fits check place =>
      -- a cleaned sorter takes any frame, the others have kept their newest timestamp
      have newest : checked.phead ≠ [] → checked.maxtimestamp ≤ iframe.timestamp ∧
          sub32 iframe.timestamp checked.maxtimestamp < checked.uiMaxSortTime := by
        intro present
        cases check with
        | kept same limit free =>
            rw [same] at present
            rw [same, limit]
            exact order present
        | cleaned clean limit looked close big =>
            rw [clean] at present
            exact absurd rfl present
        | grown move limit looked close small =>
            rw [move] at present
            rw [move, limit]
            apply order
            intro empty
            have infos := moved_infos ssbuf.toSsContent (ssbuf.datasize * 3 / 2)
            rw [empty] at infos
            exact present (List.map_eq_nil_iff.mp infos)
      change outcome.ret = 0
      cases place with
      | dropped after same limit present late =>
          have older := (newest present).1
          omega
      | cleaned after clean limit present far =>
          obtain ⟨older, near⟩ := newest present
          omega
      | accepted after wpos position count writes stored limit few inOrder => rfl

theorem invariant_lists_agree (invariant : SorterInvariant ssbuf) : ListsAgree ssbuf :=
  ⟨invariant.consistent.addresses, invariant.consistent.validLen, invariant.consistent.counts⟩

theorem invariant_accepts (invariant : SorterInvariant ssbuf) : AcceptsInOrder ssbuf := by
  intro iframe clock callback inOrder succeeds
  obtain ⟨outcome, result, spec⟩ := @put_spec ssbuf clock callback invariant iframe succeeds
  exact ⟨outcome, result, in_order_accepted inOrder spec⟩

theorem put_keeps_invariant (invariant : SorterInvariant ssbuf) (call : PutCall)
    (succeeds : PopsSucceed call.callback) :
    ∃ after, ssbuf.put call = some after ∧ SorterInvariant after := by
  obtain ⟨outcome, result, spec⟩ :=
    @put_spec ssbuf call.clock call.callback invariant call.iframe succeeds
  exact ⟨outcome.ssbuf, by rw [SsBuff.put, result, Option.map_some], put_invariant invariant spec⟩

end Invariant

/-- Whatever else the callback returns, the lists agree and in-order frames are
accepted as long as it accepts the frames that `PopFrameStreamSort` hands it. -/
theorem lists_agree_after_run (info : RegisterSortInfo) (freetime analytime : Nat)
    (word : info.uiSize < wordSize) (ssbuf : SsBuff)
    (created : pCreateStreamSort info freetime analytime = some ssbuf) (calls : List PutCall)
    (meets : TryMeets SsBuff.put (fun _ call => PopsSucceed call.callback) ssbuf calls) :
    ∃ final, tryRun SsBuff.put ssbuf calls = some final ∧ ListsAgree final ∧
      AcceptsInOrder final := by
  have preserves : ∀ state call, SorterInvariant state → PopsSucceed call.callback →
      ∃ after, SsBuff.put state call = some after ∧ SorterInvariant after :=
    fun _ call invariant succeeds => put_keeps_invariant invariant call succeeds
  obtain ⟨final, result, invariant⟩ :=
    try_run_invariant preserves calls ssbuf (created_invariant word created) meets
  exact ⟨final, result, invariant_lists_agree invariant, invariant_accepts invariant⟩

def frameAt (frame_len timestamp : Nat) : SortFrame where
  frame := fun _ => UInt8.ofNat timestamp
  frame_len := frame_len
  timestamp := timestamp
  frametype := .P
  priority := 1

/-- A call at a fixed time whose callback always answers `answer`. -/
def callAt (frame_len timestamp : Nat) (answer : Int) : PutCall where
  iframe := frameAt frame_len timestamp
  clock := Clock.frozen 0
  callback := fun _ => answer

def smallestSorter (uiSortTime : Nat) : SsBuff :=
  defaultStreamSortBuff MIM_SORT_BUFF_LEN uiSortTime 0 0 0

/-- Five frames close together and one far behind them, for which the oldest ones leave. -/
def leavingCalls (answer : Int) : List PutCall :=
  [callAt 10 1 0, callAt 10 2 0, callAt 10 3 0, callAt 10 4 0, callAt 10 5 0,
    callAt 10 5000 answer]

theorem lists_agree_after_leaving :
    ∃ final, tryRun SsBuff.put (smallestSorter 1000) (leavingCalls 0) = some final ∧
      ListsAgree final ∧ AcceptsInOrder final :=
  lists_agree_after_run ⟨MIM_SORT_BUFF_LEN, 1000, 0⟩ 0 0 (by decide) (smallestSorter 1000) rfl
    (leavingCalls 0) (by decide)

/-- A callback that fails in `PopFrameStreamSort` leaves a node without its
address, and the next frame in order is refused. -/
theorem failed_pop_loses_address :
    ∃ final, tryRun SsBuff.put (smallestSorter 1000) (leavingCalls (-1)) = some final ∧
      ¬ListsAgree final ∧
      (putFrameStreamSort final (frameAt 10 5001) (Clock.frozen 0) fun _ => 0).map Outcome.ret =
        some (-1) := by
  refine ⟨_, rfl, ?_, by decide⟩
  intro agree
  exact absurd agree.addresses.length_eq (by decide)

end Mgw.StreamSort
