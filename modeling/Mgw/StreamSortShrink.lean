import Mgw.StreamSortLate

/-!
# The sorter's buffer is never made smaller

`CheckStreambuff` would halve a buffer that has been too big for a quarter of an
hour. The analysis of the sort time runs before it at a third of that time and
sets the same timestamp, so the test for the quarter of an hour always fails.
-/

namespace Mgw.StreamSort

open ByteArea CodecDef WordArithmetic TransitionRuns

set_option autoImplicit false

/-- The frame makes the position wrap and fits, fifteen minutes after `since`, and more than
half of a buffer that can be halved is free. -/
structure Oversized (ssbuf : SsBuff) (frame_len tdef since : Nat) : Prop where
  wraps : ssbuf.wraps frame_len = true
  fits : ssbuf.tooLong frame_len = false
  waited : since + 900 ≤ tdef
  free : ssbuf.datasize / 2 < ssbuf.freesize
  halved : MIM_SORT_BUFF_LEN < ssbuf.datasize / 2

instance oversized_decidable (ssbuf : SsBuff) (frame_len tdef since : Nat) :
    Decidable (Oversized ssbuf frame_len tdef since) :=
  decidable_of_iff
    (ssbuf.wraps frame_len = true ∧ ssbuf.tooLong frame_len = false ∧ since + 900 ≤ tdef ∧
      ssbuf.datasize / 2 < ssbuf.freesize ∧ MIM_SORT_BUFF_LEN < ssbuf.datasize / 2)
    ⟨fun ⟨wraps, fits, waited, free, halved⟩ => ⟨wraps, fits, waited, free, halved⟩,
      fun ⟨wraps, fits, waited, free, halved⟩ => ⟨wraps, fits, waited, free, halved⟩⟩

/-- The same frame with the same payload, at its place in another buffer. -/
structure SameFrame (before after : SsContent) (old new : SsNode) : Prop where
  len : new.len = old.len
  timestamp : new.timestamp = old.timestamp
  frametype : new.frametype = old.frametype
  priority : new.priority = old.priority
  payload : ∀ index < old.len, after.pdata (new.position + index) = before.pdata (old.position + index)

/-- A buffer of half the size with all live frames and counters. -/
structure GivenBack (before after : SsContent) : Prop where
  size : after.datasize = before.datasize / 2
  frames : List.Forall₂ (SameFrame before after) before.phead after.phead
  putCount : after.uiPutFrameCount = before.uiPutFrameCount
  popCount : after.u32PopFrameCount = before.u32PopFrameCount
  validLen : after.uiValidLen = before.uiValidLen
  newest : after.maxtimestamp = before.maxtimestamp
  oldest : after.mintimestamp = before.mintimestamp

section Sizes

variable {ssbuf : SsBuff} {iframe : SortFrame} {clock : Clock} {callback : Nat → Int}
  {outcome : Outcome}

/-- A frame that fits leaves the content where it is, whatever the clock says. -/
theorem check_fitting (frame_len : Nat) (clock : Clock) (fits : ssbuf.tooLong frame_len = false) :
    ∃ after, checkStreambuff ssbuf frame_len clock = some (after, []) ∧
      after.toSsContent = ssbuf.toSsContent := by
  rw [checkStreambuff]
  by_cases unchecked : ssbuf.unchecked = true
  · rw [if_pos unchecked]
    exact ⟨ssbuf, rfl, rfl⟩
  rw [if_neg unchecked]
  dsimp only
  rw [shrink_never, fits, if_neg Bool.false_ne_true, if_neg Bool.false_ne_true]
  by_cases wraps : ssbuf.wraps frame_len = true
  · rw [if_pos wraps]
    refine ⟨_, rfl, ?_⟩
    rw [(note_freesize_content _ _ _).1, (analyse_content _ _).1]
  · rw [if_neg wraps]
    exact ⟨_, rfl, (note_freesize_content _ _ _).1⟩

theorem memcpy_datasize {content copied : SsContent} {pframe : Bytes} {frame_len wpos : Nat}
    (done : memcpyToSortBuff content pframe frame_len = some (wpos, copied)) :
    copied.datasize = content.datasize := by
  rw [memcpyToSortBuff] at done
  split_ifs at done with straight short
  · rw [← (Prod.mk.inj (Option.some.inj done)).2]
  · rw [← (Prod.mk.inj (Option.some.inj done)).2]

theorem pop_loop_datasize (rounds invocation : Nat)
    (done : popLoop callback rounds invocation ssbuf = some outcome) :
    outcome.ssbuf.datasize = ssbuf.datasize := by
  induction rounds generalizing invocation ssbuf outcome with
  | zero => rw [← Option.some.inj done]
  | succ rounds ih =>
      rw [popLoop] at done
      by_cases few : sub32 ssbuf.uiPutFrameCount ssbuf.u32PopFrameCount ≤ 3
      · rw [if_pos few] at done
        rw [← Option.some.inj done]
      rw [if_neg few] at done
      by_cases wide : sub32 ssbuf.maxtimestamp ssbuf.mintimestamp > ssbuf.uiSortTime
      · rw [if_pos wide] at done
        split at done
        · contradiction
        · split at done
          · contradiction
          · dsimp only at done
            split at done
            · rw [← Option.some.inj done]
            · split at done
              · rw [← Option.some.inj done]
              · split at done
                · contradiction
                · obtain ⟨later, popped, same⟩ := Option.map_eq_some_iff.mp done
                  rw [← same]
                  have size := ih (invocation + 1) popped
                  exact size
      · rw [if_neg wide] at done
        rw [← Option.some.inj done]

theorem put_first_datasize (done : putFirst ssbuf iframe = some outcome) :
    outcome.ssbuf.datasize = ssbuf.datasize := by
  obtain ⟨⟨wpos, copied⟩, copy, same⟩ := Option.map_eq_some_iff.mp done
  rw [← same]
  have size := memcpy_datasize copy
  exact size

theorem append_frame_datasize (done : appendFrame ssbuf iframe callback = some outcome) :
    outcome.ssbuf.datasize = ssbuf.datasize := by
  obtain ⟨⟨position, copied⟩, copy, appended⟩ := Option.bind_eq_some_iff.mp done
  have size := memcpy_datasize copy
  dsimp only at appended
  split at appended
  · split_ifs at appended with wide
    · obtain ⟨⟨revl, frameaddr⟩, -, recycled⟩ := Option.bind_eq_some_iff.mp appended
      dsimp only at recycled
      split_ifs at recycled with missing
      · rw [← Option.some.inj recycled]
        exact size
      · obtain ⟨later, popped, same⟩ := Option.map_eq_some_iff.mp recycled
        rw [← same]
        have popSize := pop_loop_datasize 2 1 popped
        exact popSize.trans size
    · rw [← Option.some.inj appended]
      exact size
  · rw [← Option.some.inj appended]
    exact size

theorem insert_late_datasize (done : insertLate ssbuf iframe clock = some outcome) :
    outcome.ssbuf.datasize = ssbuf.datasize := by
  obtain ⟨⟨position, copied⟩, copy, stored⟩ := Option.bind_eq_some_iff.mp done
  have size := memcpy_datasize copy
  dsimp only at stored
  split_ifs at stored with older
  · rw [← Option.some.inj stored]
    dsimp only
    rw [(increase_delay_content _ _ _).1]
    exact size
  · obtain ⟨⟨phead, alatime⟩, -, linked⟩ := Option.bind_eq_some_iff.mp stored
    rw [← Option.some.inj linked]
    exact size

theorem place_datasize (done : placeFrame ssbuf iframe clock callback = some outcome) :
    outcome.ssbuf.datasize = ssbuf.datasize := by
  rw [placeFrame] at done
  split_ifs at done with empty older
  · exact put_first_datasize done
  · rw [putLate] at done
    dsimp only at done
    split_ifs at done with late reversed
    · rw [← Option.some.inj done, dropLate]
      dsimp only
      split_ifs <;> rfl
    · rw [← Option.some.inj done, dropReversed]
      dsimp only
      split_ifs
      · dsimp only
        rw [(increase_delay_content _ _ _).1]
      · rfl
    · have size := insert_late_datasize done
      exact size
  · rw [putEarly] at done
    dsimp only at done
    split_ifs at done with early far
    · rw [← Option.some.inj done]
      rfl
    · have size := append_frame_datasize done
      exact size
    · have size := append_frame_datasize done
      exact size

theorem remalloc_datasize {newsize : Nat} {moved : SsBuff × List Event}
    (done : remallocSortBuff ssbuf newsize clock = some moved) : moved.1.datasize = newsize := by
  obtain ⟨created, made, same⟩ := Option.map_eq_some_iff.mp done
  rw [pCreateStreamSort] at made
  split_ifs at made with small
  rw [← same]
  dsimp only
  rw [← Option.some.inj made]
  rfl

theorem make_room_datasize {room : SsBuff × List Event}
    (done : ssbuf.makeRoom clock = some room) : ssbuf.datasize ≤ room.1.datasize := by
  rw [SsBuff.makeRoom] at done
  split_ifs at done with big
  · rw [← Option.some.inj done]
    exact Nat.le_refl _
  · have word : u32 (ssbuf.datasize * 3) = ssbuf.datasize * 3 := by
      apply u32_of_lt
      simp only [MAX_SORT_BUFF_LEN] at big
      simp only [wordSize]
      omega
    rw [remalloc_datasize done, word]
    omega

theorem check_datasize {frame_len : Nat} {checked : SsBuff × List Event}
    (done : checkStreambuff ssbuf frame_len clock = some checked) :
    ssbuf.datasize ≤ checked.1.datasize := by
  cases close : ssbuf.tooLong frame_len with
  | false =>
      obtain ⟨after, result, same⟩ := check_fitting frame_len clock close
      rw [← Option.some.inj (result.symm.trans done), same]
  | true =>
      rw [checkStreambuff] at done
      by_cases unchecked : ssbuf.unchecked = true
      · rw [if_pos unchecked] at done
        rw [← Option.some.inj done]
      rw [if_neg unchecked] at done
      dsimp only at done
      rw [close, if_pos rfl, if_pos rfl] at done
      split_ifs at done with wraps
      · have size := make_room_datasize done
        rw [(analyse_content _ _).1] at size
        exact size
      · exact make_room_datasize done

theorem put_datasize {call : PutCall} {after : SsBuff} (done : ssbuf.put call = some after) :
    ssbuf.datasize ≤ after.datasize := by
  obtain ⟨outcome, called, same⟩ := Option.map_eq_some_iff.mp done
  rw [← same]
  obtain ⟨-, returned⟩ | ⟨-, checked, events, placed, check, place, behind⟩ := put_parts called
  · rw [returned]
  · rw [behind]
    calc ssbuf.datasize ≤ checked.datasize := check_datasize check
      _ = placed.ssbuf.datasize := (place_datasize place).symm

theorem run_datasize (ssbuf final : SsBuff) (calls : List PutCall)
    (reached : tryRun SsBuff.put ssbuf calls = some final) : ssbuf.datasize ≤ final.datasize := by
  have preserves : ∀ (state : SsBuff) (call : PutCall) (after : SsBuff),
      ssbuf.datasize ≤ state.datasize → True → state.put call = some after →
        ssbuf.datasize ≤ after.datasize :=
    fun state call after before _ done => Nat.le_trans before (put_datasize done)
  exact try_run_reached preserves calls ssbuf final (Nat.le_refl _)
    (try_meets_of_forall (fun _ _ => trivial) calls ssbuf) reached

end Sizes

/-- In no state and at no time does the check give an oversized buffer back: it leaves the
content as it is. No calls ever make the buffer smaller. -/
theorem oversized_never_given_back (ssbuf : SsBuff) (frame_len : Nat) (clock : Clock) (since : Nat)
    (oversized : Oversized ssbuf frame_len clock.tdef since) :
    (∀ after events, checkStreambuff ssbuf frame_len clock = some (after, events) →
        after.toSsContent = ssbuf.toSsContent ∧ events = [] ∧
          ¬GivenBack ssbuf.toSsContent after.toSsContent) ∧
      ∀ calls final, tryRun SsBuff.put ssbuf calls = some final →
        ssbuf.datasize ≤ final.datasize ∧ ¬GivenBack ssbuf.toSsContent final.toSsContent := by
  have halved := oversized.halved
  have smaller : ∀ content : SsContent, ssbuf.datasize ≤ content.datasize →
      ¬GivenBack ssbuf.toSsContent content := by
    intro content kept given
    have size := given.size
    omega
  constructor
  · intro after events done
    obtain ⟨left, result, same⟩ := check_fitting frame_len clock oversized.fits
    obtain ⟨rfl, rfl⟩ := Prod.mk.inj (Option.some.inj (result.symm.trans done))
    refine ⟨same, rfl, smaller _ ?_⟩
    rw [same]
  · intro calls final reached
    have size := run_datasize ssbuf final calls reached
    exact ⟨size, smaller _ size⟩

/-- Ten frames that fill most of a buffer of 4 MiB, of which two are still kept. -/
def fillingCalls : List PutCall :=
  (List.range 10).map fun index => callAt 400000 (1000 * index + 1000) 0

def bigSorter : SsBuff := defaultStreamSortBuff 4194304 1000 0 0 0

def filledSorter : SsBuff := (tryRun SsBuff.put bigSorter fillingCalls).getD bigSorter

theorem oversized_never_given_back_filled :
    (∀ after events, checkStreambuff filledSorter 400000 (Clock.frozen 1000) = some (after, events) →
        after.toSsContent = filledSorter.toSsContent ∧ events = [] ∧
          ¬GivenBack filledSorter.toSsContent after.toSsContent) ∧
      ∀ calls final, tryRun SsBuff.put filledSorter calls = some final →
        filledSorter.datasize ≤ final.datasize ∧
          ¬GivenBack filledSorter.toSsContent final.toSsContent :=
  oversized_never_given_back filledSorter 400000 (Clock.frozen 1000) 0 (by decide)

/-- The buffer is created and filled at time 0; the frame that wraps comes at time 1000. -/
theorem oversized_buffer_kept :
    pCreateStreamSort ⟨4194304, 1000, 0⟩ 0 0 = some bigSorter ∧
      (tryRun SsBuff.put bigSorter fillingCalls).isSome = true ∧
      Oversized filledSorter 400000 1000 0 ∧
      (checkStreambuff filledSorter 400000 (Clock.frozen 1000)).map
          (fun checked => (checked.1.datasize, checked.1.analytime, checked.1.freetime)) =
        some (4194304, 1000, 0) ∧
      ¬∀ (ssbuf : SsBuff) (frame_len : Nat) (clock : Clock) (since : Nat),
        Oversized ssbuf frame_len clock.tdef since →
          ∃ after events, checkStreambuff ssbuf frame_len clock = some (after, events) ∧
            GivenBack ssbuf.toSsContent after.toSsContent := by
  have oversized : Oversized filledSorter 400000 1000 0 := by decide
  refine ⟨rfl, by decide, oversized, by decide, fun claimed => ?_⟩
  obtain ⟨after, events, result, given⟩ :=
    claimed filledSorter 400000 (Clock.frozen 1000) 0 oversized
  have kept : filledSorter.datasize ≤ after.datasize := check_datasize result
  have size := given.size
  have halved := oversized.halved
  omega

end Mgw.StreamSort
