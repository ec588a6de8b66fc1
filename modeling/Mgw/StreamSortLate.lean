import Mgw.StreamSortOrder
import Mgw.StreamSortWindow

/-!
# The counter of late frames

Beside the sorter stands the number of frames that have been refused as too late, one
after another, since the last frame of another kind and the last cleaning. The field
`u32LateFrameDrop` does not go above it as long as every frame of another kind is one
that sets the field back, or finds it at zero.
-/

namespace Mgw.StreamSort

open ByteArea CodecDef WordArithmetic TransitionRuns

set_option autoImplicit false

/-- The frame is older than the newest one by more than the longest sort time. -/
def TooLate (ssbuf : SsBuff) (iframe : SortFrame) : Prop :=
  ssbuf.phead ≠ [] ∧ iframe.timestamp < ssbuf.maxtimestamp ∧
    ssbuf.uiMaxSortTime < sub32 ssbuf.maxtimestamp iframe.timestamp

/-- The frame is older than the newest one, by no more than that. -/
def InWindow (ssbuf : SsBuff) (iframe : SortFrame) : Prop :=
  ssbuf.phead ≠ [] ∧ iframe.timestamp < ssbuf.maxtimestamp ∧
    sub32 ssbuf.maxtimestamp iframe.timestamp ≤ ssbuf.uiMaxSortTime

instance too_late_decidable (ssbuf : SsBuff) (iframe : SortFrame) :
    Decidable (TooLate ssbuf iframe) :=
  inferInstanceAs (Decidable (_ ≠ _ ∧ _ < _ ∧ (_ : Nat) < _))

instance in_window_decidable (ssbuf : SsBuff) (iframe : SortFrame) :
    Decidable (InWindow ssbuf iframe) :=
  inferInstanceAs (Decidable (_ ≠ _ ∧ _ < _ ∧ (_ : Nat) ≤ _))

/-- The sorter that the check of the buffer leaves to the frame. -/
def checkedFor (ssbuf : SsBuff) (call : PutCall) : Option SsBuff :=
  (checkStreambuff ssbuf call.iframe.frame_len call.clock).map Prod.fst

def TooBig (ssbuf : SsBuff) (call : PutCall) : Prop := ssbuf.datasize / 2 ≤ call.iframe.frame_len

/-- The frame is refused as too late. -/
def RefusedLate (ssbuf : SsBuff) (call : PutCall) : Prop :=
  ¬TooBig ssbuf call ∧ ∃ checked ∈ checkedFor ssbuf call, TooLate checked call.iframe

instance too_big_decidable (ssbuf : SsBuff) (call : PutCall) : Decidable (TooBig ssbuf call) :=
  inferInstanceAs (Decidable ((_ : Nat) ≤ _))

instance refused_late_decidable (ssbuf : SsBuff) (call : PutCall) :
    Decidable (RefusedLate ssbuf call) :=
  inferInstanceAs (Decidable (¬TooBig ssbuf call ∧ ∃ checked ∈ checkedFor ssbuf call,
    TooLate checked call.iframe))

/-- The sorter with the number of frames refused as too late since it was last set back. -/
structure Watched where
  ssbuf : SsBuff
  late : Nat

def Watched.put (watched : Watched) (call : PutCall) : Option Watched :=
  (putFrameStreamSort watched.ssbuf call.iframe call.clock call.callback).map fun outcome =>
    { ssbuf := outcome.ssbuf
      late := if RefusedLate watched.ssbuf call ∧ cleans outcome.events = false then watched.late + 1
        else 0 }

/-- Where the call clears the sorter for a frame that is too late, it is the 61st at least. -/
def ClearsAfterLate (watched : Watched) (call : PutCall) : Prop :=
  ∀ outcome ∈ putFrameStreamSort watched.ssbuf call.iframe call.clock call.callback,
    RefusedLate watched.ssbuf call → cleans outcome.events = true → 61 ≤ watched.late + 1

/-- The frame is too late, or sets the count back, or finds it at zero. -/
def CountRestarts (watched : Watched) (call : PutCall) : Prop :=
  (TooBig watched.ssbuf call → watched.ssbuf.u32LateFrameDrop = 0) ∧
    (¬TooBig watched.ssbuf call → ∀ checked ∈ checkedFor watched.ssbuf call,
      TooLate checked call.iframe ∨
        InWindow checked call.iframe ∧ checked.premintimestamp ≤ call.iframe.timestamp ∨
          ¬InWindow checked call.iframe ∧ checked.u32LateFrameDrop = 0)

instance clears_after_late_decidable (watched : Watched) (call : PutCall) :
    Decidable (ClearsAfterLate watched call) :=
  inferInstanceAs (Decidable (∀ outcome ∈ putFrameStreamSort _ _ _ _,
    RefusedLate _ _ → cleans (Outcome.events outcome) = true → 61 ≤ _ + 1))

instance count_restarts_decidable (watched : Watched) (call : PutCall) :
    Decidable (CountRestarts watched call) :=
  inferInstanceAs (Decidable ((TooBig _ _ → (_ : Nat) = 0) ∧
    (¬TooBig _ _ → ∀ checked ∈ checkedFor _ _, TooLate checked _ ∨
      InWindow checked _ ∧ SsContent.premintimestamp _ ≤ _ ∨ ¬InWindow checked _ ∧ (_ : Nat) = 0)))

section Check

variable {ssbuf : SsBuff} {frame_len : Nat} {clock : Clock}

/-- What the check leaves: the same count or none, and no frames where it cleans. -/
def CheckCounts (ssbuf checked : SsBuff) (events : List Event) : Prop :=
  (checked.u32LateFrameDrop = ssbuf.u32LateFrameDrop ∨ checked.u32LateFrameDrop = 0) ∧
    (checked.phead ≠ [] → cleans events = false)

theorem remalloc_counts {newsize : Nat} {moved : SsBuff × List Event} (before : SsBuff)
    (done : remallocSortBuff ssbuf newsize clock = some moved) :
    CheckCounts before moved.1 moved.2 := by
  obtain ⟨newssbuf, created, same⟩ := Option.map_eq_some_iff.mp done
  rw [pCreateStreamSort] at created
  split_ifs at created
  rw [← same, ← Option.some.inj created]
  refine ⟨Or.inr rfl, fun _ => ?_⟩
  rw [cleans_append, (move_nodes_events _ _ _ _ _).2]
  rfl

theorem make_room_counts {room : SsBuff × List Event}
    (done : ssbuf.makeRoom clock = some room) : CheckCounts ssbuf room.1 room.2 := by
  rw [SsBuff.makeRoom] at done
  split_ifs at done
  · rw [← Option.some.inj done]
    exact ⟨Or.inl rfl, fun present => absurd rfl present⟩
  · exact remalloc_counts ssbuf done

theorem analyse_count (ssbuf : SsBuff) (tdef : Nat) :
    (ssbuf.analyse tdef).u32LateFrameDrop = ssbuf.u32LateFrameDrop := by
  rw [SsBuff.analyse]
  split_ifs
  all_goals rfl

theorem note_freesize_count (ssbuf : SsBuff) (earliest willposi_e : Nat) :
    (ssbuf.noteFreesize earliest willposi_e).u32LateFrameDrop = ssbuf.u32LateFrameDrop := by
  simp only [SsBuff.noteFreesize]
  split_ifs
  all_goals rfl

theorem check_counts {result : SsBuff × List Event}
    (done : checkStreambuff ssbuf frame_len clock = some result) :
    CheckCounts ssbuf result.1 result.2 := by
  rw [checkStreambuff] at done
  dsimp only at done
  rw [shrink_never] at done
  split_ifs at done
  · rw [← Option.some.inj done]
    exact ⟨Or.inl rfl, fun _ => rfl⟩
  · have counts := make_room_counts done
    rw [CheckCounts, analyse_count] at counts
    exact counts
  · rw [← Option.some.inj done]
    exact ⟨Or.inl ((note_freesize_count _ _ _).trans (analyse_count _ _)), fun _ => rfl⟩
  · exact make_room_counts done
  · rw [← Option.some.inj done]
    exact ⟨Or.inl (note_freesize_count _ _ _), fun _ => rfl⟩

end Check

section Place

variable {ssbuf checked : SsBuff} {iframe : SortFrame} {clock : Clock} {callback : Nat → Int}
  {outcome : Outcome}

theorem place_too_late (late : TooLate ssbuf iframe) :
    placeFrame ssbuf iframe clock callback = some (dropLate ssbuf clock) := by
  obtain ⟨present, older, far⟩ := late
  rw [placeFrame, if_neg present, if_pos older, putLate, if_pos far]

/-- A frame that is too late is counted, and the 61st one in the count clears the sorter. -/
theorem drop_late_count (ssbuf : SsBuff) (clock : Clock) :
    (60 < u32 (ssbuf.u32LateFrameDrop + 1) ∧ cleans (dropLate ssbuf clock).events = true ∧
        (dropLate ssbuf clock).ssbuf.phead = [] ∧ (dropLate ssbuf clock).ssbuf.frameaddr = []) ∨
      (cleans (dropLate ssbuf clock).events = false ∧
        (dropLate ssbuf clock).ssbuf.u32LateFrameDrop = u32 (ssbuf.u32LateFrameDrop + 1)) := by
  rw [dropLate]
  dsimp only
  split_ifs with many
  · exact Or.inl ⟨many, rfl, rfl, rfl⟩
  · exact Or.inr ⟨rfl, rfl⟩

theorem content_only_count {before after : SsBuff} (only : ContentOnly before after) :
    after.u32LateFrameDrop = before.u32LateFrameDrop := by
  rw [only]

theorem increase_delay_count (ssbuf : SsBuff) (timestamp : Nat) (clock : Clock) :
    (increaseDelay ssbuf timestamp clock).u32LateFrameDrop = ssbuf.u32LateFrameDrop := by
  rw [increaseDelay]
  split_ifs
  all_goals rfl

theorem insert_late_count (done : insertLate ssbuf iframe clock = some outcome) :
    outcome.ssbuf.u32LateFrameDrop = ssbuf.u32LateFrameDrop := by
  obtain ⟨⟨position, copied⟩, -, inserted⟩ := Option.bind_eq_some_iff.mp done
  dsimp only at inserted
  split_ifs at inserted
  · rw [← Option.some.inj inserted]
    exact increase_delay_count _ _ _
  · obtain ⟨linked, -, same⟩ := Option.bind_eq_some_iff.mp inserted
    rw [← Option.some.inj same]

theorem put_early_count (done : putEarly ssbuf iframe clock callback = some outcome) :
    outcome.ssbuf.u32LateFrameDrop = ssbuf.u32LateFrameDrop := by
  simp only [putEarly] at done
  split_ifs at done
  · rw [← Option.some.inj done]
    rfl
  · exact (content_only_count (append_frame_content done)).trans rfl
  · exact (content_only_count (append_frame_content done)).trans rfl

/-- A frame in the window that is not older than the last one handed out. -/
theorem place_in_window (inside : InWindow ssbuf iframe)
    (following : ssbuf.premintimestamp ≤ iframe.timestamp)
    (done : placeFrame ssbuf iframe clock callback = some outcome) :
    outcome.ssbuf.u32LateFrameDrop = 0 := by
  obtain ⟨present, older, near⟩ := inside
  rw [placeFrame, if_neg present, if_pos older, putLate, if_neg (Nat.not_lt.mpr near)] at done
  dsimp only at done
  rw [if_neg (Nat.not_lt.mpr following)] at done
  exact insert_late_count done

/-- Neither late nor in the window: the first frame or the newest one. -/
theorem place_outside (punctual : ¬TooLate ssbuf iframe) (outside : ¬InWindow ssbuf iframe)
    (done : placeFrame ssbuf iframe clock callback = some outcome) :
    outcome.ssbuf.u32LateFrameDrop = ssbuf.u32LateFrameDrop := by
  rw [placeFrame] at done
  split_ifs at done with empty older
  · exact content_only_count (put_first_content done)
  · rcases Nat.lt_or_ge ssbuf.uiMaxSortTime (sub32 ssbuf.maxtimestamp iframe.timestamp) with far | near
    · exact absurd ⟨empty, older, far⟩ punctual
    · exact absurd ⟨empty, older, near⟩ outside
  · exact put_early_count done

end Place

/-- The field is not above the number of late frames, or the sorter has just been cleared. -/
def CountBounded (watched : Watched) : Prop :=
  watched.ssbuf.u32LateFrameDrop ≤ watched.late ∨
    watched.ssbuf.phead = [] ∧ watched.ssbuf.frameaddr = []

section Step

variable {watched after : Watched} {call : PutCall} {outcome : Outcome}

/-- Where the sorter behind the check has frames, its count is not above that of the late ones. -/
theorem checked_count_le {checked : SsBuff} {events : List Event} (bounded : CountBounded watched)
    (check : checkStreambuff watched.ssbuf call.iframe.frame_len call.clock =
      some (checked, events))
    (present : checked.phead ≠ []) :
    checked.u32LateFrameDrop ≤ watched.late ∧ cleans events = false := by
  obtain ⟨count, uncleaned⟩ := check_counts check
  refine ⟨?_, uncleaned present⟩
  rcases bounded with bounded | ⟨empty, none⟩
  · dsimp only at count
    omega
  · have unchecked : watched.ssbuf.unchecked = true := by
      rw [SsBuff.unchecked, none]
      rfl
    rw [checkStreambuff, if_pos unchecked] at check
    have same := (Prod.mk.inj (Option.some.inj check)).1
    rw [← same] at present
    exact absurd empty present

theorem u32_le (value : Nat) : u32 value ≤ value := Nat.mod_le _ _

/-- The frame that clears the sorter as too late has 60 late ones before it. -/
theorem bounded_clears (bounded : CountBounded watched) (call : PutCall) :
    ClearsAfterLate watched call := by
  intro outcome done refused cleaned
  obtain ⟨small, checked', found, late⟩ := refused
  rcases put_parts done with ⟨big, -⟩ | ⟨-, checked, events, placed, check, place, same⟩
  · contradiction
  have known : checkedFor watched.ssbuf call = some checked := by
    rw [checkedFor, check, Option.map_some]
  rw [known] at found
  obtain rfl := Option.some.inj found
  obtain ⟨count, uncleaned⟩ := checked_count_le bounded check late.1
  rw [place_too_late late] at place
  rw [same, ← Option.some.inj place] at cleaned
  rw [Outcome.after, cleans_append, uncleaned, Bool.false_or] at cleaned
  rcases drop_late_count checked call.clock with ⟨many, -⟩ | ⟨kept, -⟩
  · have small := u32_le (checked.u32LateFrameDrop + 1)
    omega
  · rw [kept] at cleaned
    contradiction

theorem late_put {checked : SsBuff} {events : List Event} (bounded : CountBounded watched)
    (small : ¬TooBig watched.ssbuf call)
    (check : checkStreambuff watched.ssbuf call.iframe.frame_len call.clock =
      some (checked, events))
    (late : TooLate checked call.iframe)
    (place : placeFrame checked call.iframe call.clock call.callback = some outcome)
    (done : watched.put call = some after)
    (result : putFrameStreamSort watched.ssbuf call.iframe call.clock call.callback =
      some (outcome.after events)) : CountBounded after := by
  obtain ⟨count, uncleaned⟩ := checked_count_le bounded check late.1
  have refused : RefusedLate watched.ssbuf call :=
    ⟨small, checked, by rw [checkedFor, check, Option.map_some]; rfl, late⟩
  rw [Watched.put, result, Option.map_some] at done
  rw [← Option.some.inj done]
  rw [place_too_late late] at place
  rw [← Option.some.inj place]
  rcases drop_late_count checked call.clock with ⟨-, -, empty, none⟩ | ⟨kept, next⟩
  · exact Or.inr ⟨empty, none⟩
  · have kept' : cleans ((dropLate checked call.clock).after events).events = false := by
      rw [Outcome.after, cleans_append, uncleaned, kept]
      rfl
    have next' : ((dropLate checked call.clock).after events).ssbuf.u32LateFrameDrop =
        u32 (checked.u32LateFrameDrop + 1) := next
    left
    dsimp only
    rw [if_pos ⟨refused, kept'⟩, next']
    have small := u32_le (checked.u32LateFrameDrop + 1)
    omega

/-- A frame that is too late keeps the bound, and one that restarts the count too. -/
theorem bounded_put (bounded : CountBounded watched) (restarts : CountRestarts watched call)
    (done : watched.put call = some after) : CountBounded after := by
  obtain ⟨outcome, result, same⟩ := Option.map_eq_some_iff.mp done
  obtain ⟨big, small⟩ := restarts
  have zero (none : outcome.ssbuf.u32LateFrameDrop = 0) : CountBounded after := by
    left
    rw [← same]
    dsimp only
    rw [none]
    exact Nat.zero_le _
  rcases put_parts result with ⟨big', left⟩ | ⟨small', checked, events, placed, check, place, left⟩
  · apply zero
    rw [left]
    exact big big'
  rw [left] at result zero
  have known : checkedFor watched.ssbuf call = some checked := by
    rw [checkedFor, check, Option.map_some]
  by_cases late : TooLate checked call.iframe
  · exact late_put bounded small' check late place done result
  rcases small small' checked known with late' | ⟨inside, following⟩ | ⟨outside, none⟩
  · exact absurd late' late
  · have settled := place_in_window inside following place
    exact zero settled
  · have settled := place_outside late outside place
    exact zero (settled.trans none)

end Step

/-- From a new sorter on, a frame clears it as too late only behind 60 others that are. -/
theorem late_clear_counted (info : RegisterSortInfo) (freetime analytime : Nat) (ssbuf : SsBuff)
    (created : pCreateStreamSort info freetime analytime = some ssbuf) (calls : List PutCall)
    (watched : Watched) (meets : TryMeets Watched.put CountRestarts ⟨ssbuf, 0⟩ calls)
    (reached : tryRun Watched.put ⟨ssbuf, 0⟩ calls = some watched) (call : PutCall) :
    ClearsAfterLate watched call := by
  have start : CountBounded ⟨ssbuf, 0⟩ := by
    rw [pCreateStreamSort] at created
    split_ifs at created
    rw [← Option.some.inj created]
    exact Or.inl (Nat.le_refl 0)
  have bounded : CountBounded watched := try_run_reached
    (fun _ _ _ bounded restarts done => bounded_put bounded restarts done) calls _ watched start meets
    reached
  exact bounded_clears bounded call

/-- One frame and 60 that are too late for it. -/
def lateCalls : List PutCall := callAt 10 5000000 0 :: List.replicate 60 (callAt 10 0 0)

theorem late_clear_counted_sixty :
    ∃ watched, tryRun Watched.put ⟨smallestSorter 1000, 0⟩ lateCalls = some watched ∧
      ClearsAfterLate watched (callAt 10 0 0) := by
  have known : (tryRun Watched.put ⟨smallestSorter 1000, 0⟩ lateCalls).isSome = true := by
    decide +kernel
  obtain ⟨watched, reached⟩ := Option.isSome_iff_exists.mp known
  exact ⟨watched, reached, late_clear_counted ⟨MIM_SORT_BUFF_LEN, 1000, 0⟩ 0 0 (smallestSorter 1000)
    rfl lateCalls watched (by decide +kernel) reached (callAt 10 0 0)⟩

/-- A newer frame in between does not set the count back. -/
theorem late_count_survives :
    ¬∀ watched ∈ tryRun Watched.put ⟨smallestSorter 1000, 0⟩ (lateCalls ++ [callAt 10 5000001 0]),
      ClearsAfterLate watched (callAt 10 0 0) := by
  decide +kernel

end Mgw.StreamSort
