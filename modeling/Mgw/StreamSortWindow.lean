import Mgw.StreamSortRuns

/-!
# The sort window

The sort time is raised when a frame arrives that is older than the oldest one
kept, lowered by the periodic analysis, and set back when the sorter is cleaned.
It stays between its configured value and its limit as long as no raise runs
over the word and no analysis takes both of its steps where only one fits.
-/

namespace Mgw.StreamSort

open ByteArea WordArithmetic TransitionRuns

set_option autoImplicit false

/-- The fields that bound the span of the frames kept. -/
structure SortWindow where
  uiSortTimeBak : Nat
  uiSortTime : Nat
  uiMaxSortTime : Nat

namespace SortWindow

variable (window : SortWindow)

structure InRange : Prop where
  lower : window.uiSortTimeBak ≤ window.uiSortTime
  upper : window.uiSortTime ≤ max window.uiSortTimeBak window.uiMaxSortTime

/-- The sort time is lowered at most to the measured depth and the configured value. -/
structure LoweredTo (depth lowered : Nat) : Prop where
  enough : max window.uiSortTimeBak (min depth window.uiSortTime) ≤ lowered
  lower : lowered ≤ window.uiSortTime

def reset : SortWindow := { window with uiSortTime := window.uiSortTimeBak }

/-- The steps of the analysis for a measured `depth`. -/
def analysed (depth : Nat) : SortWindow :=
  if depth < window.uiSortTime ∧ 0 < depth then
    let defTime := window.uiSortTime - depth
    let lowered := if defTime > 200000 then sub32 window.uiSortTime 200000 else window.uiSortTime
    let lowered := if defTime > 100000 then sub32 lowered 100000 else depth
    { window with
      uiSortTime := if lowered < window.uiSortTimeBak then window.uiSortTimeBak else lowered }
  else window

/-- The raise for a frame older than the oldest one by `timedef`. -/
def raised (timedef : Nat) : SortWindow :=
  if u32 (window.uiSortTime + timedef) < window.uiMaxSortTime then
    { window with
      uiSortTime := u32 (window.uiSortTime + if timedef > 60000 then 20000 else timedef) }
  else window

/-- Where both steps of 200 ms and 100 ms are taken, the sort time is above the
measured depth by both of them, or the configured value makes up for it. -/
def AdaptsSafely (depth : Nat) : Prop :=
  0 < depth → depth < window.uiSortTime → 200000 < window.uiSortTime - depth →
    window.uiSortTime - depth < 300000 →
      300000 ≤ window.uiSortTime ∧ depth ≤ window.uiSortTimeBak

/-- What a safe analysis leaves. -/
def adapted (depth : Nat) : SortWindow :=
  if 0 < depth ∧ depth < window.uiSortTime then
    { window with
      uiSortTime := max window.uiSortTimeBak
        (if 200000 < window.uiSortTime - depth then window.uiSortTime - 300000
        else if 100000 < window.uiSortTime - depth then window.uiSortTime - 100000
        else depth) }
  else window

/-- The sum stays below the word, or it fails the test, or the 20 ms that are
taken of a long difference stay in range. -/
def RaisesSafely (timedef : Nat) : Prop :=
  window.uiSortTime + timedef < wordSize ∨
    window.uiMaxSortTime ≤ u32 (window.uiSortTime + timedef) ∨
    (60000 < timedef ∧
      window.uiSortTime + 20000 ≤ max window.uiSortTimeBak window.uiMaxSortTime)

instance adapts_safely_decidable (depth : Nat) : Decidable (window.AdaptsSafely depth) :=
  inferInstanceAs (Decidable ((_ : Nat) < _ → (_ : Nat) < _ → (_ : Nat) < _ → (_ : Nat) < _ →
    (_ : Nat) ≤ _ ∧ (_ : Nat) ≤ _))

instance raises_safely_decidable (timedef : Nat) : Decidable (window.RaisesSafely timedef) :=
  inferInstanceAs (Decidable (_ < _ ∨ _ ≤ _ ∨ (_ < _ ∧ (_ : Nat) ≤ _)))

end SortWindow

section Window

variable {window : SortWindow}

theorem reset_in_range : window.reset.InRange :=
  ⟨Nat.le_refl _, Nat.le_max_left _ _⟩

theorem in_range_iff (time : Nat) :
    ({ window with uiSortTime := time } : SortWindow).InRange ↔
      window.uiSortTimeBak ≤ time ∧ time ≤ max window.uiSortTimeBak window.uiMaxSortTime :=
  ⟨fun inRange => ⟨inRange.lower, inRange.upper⟩, fun ⟨lower, upper⟩ => ⟨lower, upper⟩⟩

theorem adapted_limits (window : SortWindow) (depth : Nat) :
    (window.adapted depth).uiSortTimeBak = window.uiSortTimeBak ∧
      (window.adapted depth).uiMaxSortTime = window.uiMaxSortTime := by
  rw [SortWindow.adapted]
  by_cases deep : 0 < depth ∧ depth < window.uiSortTime
  · rw [if_pos deep]
    exact ⟨rfl, rfl⟩
  · rw [if_neg deep]
    exact ⟨rfl, rfl⟩

theorem raised_limits (window : SortWindow) (timedef : Nat) :
    (window.raised timedef).uiSortTimeBak = window.uiSortTimeBak ∧
      (window.raised timedef).uiMaxSortTime = window.uiMaxSortTime := by
  rw [SortWindow.raised]
  by_cases below : u32 (window.uiSortTime + timedef) < window.uiMaxSortTime
  · rw [if_pos below]
    exact ⟨rfl, rfl⟩
  · rw [if_neg below]
    exact ⟨rfl, rfl⟩

theorem adapted_lowered (inRange : window.InRange) {depth : Nat}
    (safe : window.AdaptsSafely depth) :
    window.LoweredTo depth (window.adapted depth).uiSortTime := by
  have lower := inRange.lower
  rw [SortWindow.AdaptsSafely] at safe
  by_cases deep : 0 < depth ∧ depth < window.uiSortTime
  · rw [SortWindow.adapted, if_pos deep]
    constructor
    · simp only
      split_ifs <;> omega
    · simp only
      split_ifs <;> omega
  · rw [SortWindow.adapted, if_neg deep]
    constructor <;> omega

theorem adapted_in_range (inRange : window.InRange) {depth : Nat}
    (safe : window.AdaptsSafely depth) : (window.adapted depth).InRange := by
  obtain ⟨enough, lowered⟩ := adapted_lowered inRange safe
  obtain ⟨bak, limit⟩ := adapted_limits window depth
  constructor
  · rw [bak]
    exact Nat.le_trans (Nat.le_max_left _ _) enough
  · rw [bak, limit]
    exact Nat.le_trans lowered inRange.upper

theorem analysed_eq_adapted (small : window.uiSortTime < wordSize) (inRange : window.InRange)
    {depth : Nat} (safe : window.AdaptsSafely depth) :
    window.analysed depth = window.adapted depth := by
  have lower := inRange.lower
  simp only [wordSize] at small
  rw [SortWindow.AdaptsSafely] at safe
  by_cases deep : depth < window.uiSortTime ∧ 0 < depth
  · rw [SortWindow.analysed, if_pos deep, SortWindow.adapted, if_pos ⟨deep.2, deep.1⟩]
    simp only [sub32, wordSize, SortWindow.mk.injEq, true_and, and_true]
    split_ifs <;> omega
  · rw [SortWindow.analysed, if_neg deep, SortWindow.adapted, if_neg (fun both => deep both.symm)]

/-- Exactly the safe analyses lower the sort time as far as they may. -/
theorem analysed_lowered_iff (small : window.uiSortTime < wordSize) (inRange : window.InRange)
    (depth : Nat) :
    window.LoweredTo depth (window.analysed depth).uiSortTime ↔ window.AdaptsSafely depth := by
  constructor
  · rintro ⟨enough, lowered⟩ positive deep first second
    have lower := inRange.lower
    simp only [wordSize] at small
    simp only [SortWindow.analysed, if_pos (And.intro deep positive), if_pos first,
      if_pos (show window.uiSortTime - depth > 100000 by omega)] at enough lowered
    -- both steps are taken; the second one may run below zero
    generalize steps : sub32 (sub32 window.uiSortTime 200000) 100000 = time at enough lowered
    simp only [sub32, wordSize] at steps
    by_cases clamped : time < window.uiSortTimeBak
    · rw [if_pos clamped] at enough lowered
      omega
    · rw [if_neg clamped] at enough lowered
      omega
  · intro safe
    rw [analysed_eq_adapted small inRange safe]
    exact adapted_lowered inRange safe

/-- Exactly the safe raises leave the window in range and no shorter than before. -/
theorem raised_iff (bak : window.uiSortTimeBak < wordSize)
    (limit : window.uiMaxSortTime < wordSize) (inRange : window.InRange) {timedef : Nat}
    (word : timedef < wordSize) :
    ((window.raised timedef).InRange ∧ window.uiSortTime ≤ (window.raised timedef).uiSortTime) ↔
      window.RaisesSafely timedef := by
  obtain ⟨lower, upper⟩ := inRange
  rw [SortWindow.RaisesSafely, SortWindow.raised]
  by_cases below : u32 (window.uiSortTime + timedef) < window.uiMaxSortTime
  · rw [if_pos below, in_range_iff]
    change (_ ∧ window.uiSortTime ≤ u32 _) ↔ _
    simp only [u32, wordSize] at *
    by_cases long : timedef > 60000
    · simp only [if_pos long]
      omega
    · simp only [if_neg long]
      omega
  · rw [if_neg below]
    exact ⟨fun _ => Or.inr (Or.inl (by omega)), fun _ => ⟨⟨lower, upper⟩, Nat.le_refl _⟩⟩

end Window

namespace SsBuff

variable (ssbuf : SsBuff)

def window : SortWindow where
  uiSortTimeBak := ssbuf.uiSortTimeBak
  uiSortTime := ssbuf.uiSortTime
  uiMaxSortTime := ssbuf.uiMaxSortTime

/-- The call gets to the analysis, and the last one is five minutes old. -/
def Adapts (frame_len tdef : Nat) : Prop :=
  frame_len < ssbuf.datasize / 2 ∧ ssbuf.unchecked = false ∧ ssbuf.wraps frame_len = true ∧
    300 ≤ sub64 tdef ssbuf.analytime

/-- The call takes the branch of a buffer that has grown to its limit. -/
def Cleans (frame_len : Nat) : Prop :=
  ssbuf.unchecked = false ∧ ssbuf.tooLong frame_len = true ∧ MAX_SORT_BUFF_LEN < ssbuf.datasize

/-- The frame is older than the oldest one kept, but not too late. -/
def Raises (iframe : SortFrame) : Prop :=
  iframe.frame_len < ssbuf.datasize / 2 ∧ ¬ssbuf.Cleans iframe.frame_len ∧ ssbuf.phead ≠ [] ∧
    iframe.timestamp < ssbuf.maxtimestamp ∧ iframe.timestamp < ssbuf.mintimestamp ∧
    sub32 ssbuf.maxtimestamp iframe.timestamp ≤ ssbuf.uiMaxSortTime

instance adapts_decidable (frame_len tdef : Nat) : Decidable (ssbuf.Adapts frame_len tdef) :=
  inferInstanceAs (Decidable (_ < _ ∧ _ = _ ∧ _ = _ ∧ (_ : Nat) ≤ _))

instance cleans_decidable (frame_len : Nat) : Decidable (ssbuf.Cleans frame_len) :=
  inferInstanceAs (Decidable (_ = _ ∧ _ = _ ∧ (_ : Nat) < _))

instance raises_decidable (iframe : SortFrame) : Decidable (ssbuf.Raises iframe) :=
  inferInstanceAs (Decidable (_ < _ ∧ ¬ssbuf.Cleans _ ∧ _ ≠ _ ∧ _ < _ ∧ _ < _ ∧ (_ : Nat) ≤ _))

/-- What a call has to meet for the window to stay in range. -/
def WindowSafe (call : PutCall) : Prop :=
  (ssbuf.Adapts call.iframe.frame_len call.clock.tdef →
      ssbuf.window.AdaptsSafely ssbuf.uiAnalyTime) ∧
    (ssbuf.Raises call.iframe →
      SortWindow.RaisesSafely
        (if ssbuf.Adapts call.iframe.frame_len call.clock.tdef then
          ssbuf.window.adapted ssbuf.uiAnalyTime
        else ssbuf.window)
        (sub32 ssbuf.mintimestamp call.iframe.timestamp))

instance window_safe_decidable (call : PutCall) : Decidable (ssbuf.WindowSafe call) :=
  inferInstanceAs (Decidable ((ssbuf.Adapts _ _ → ssbuf.window.AdaptsSafely _) ∧
    (ssbuf.Raises _ → SortWindow.RaisesSafely _ _)))

end SsBuff

/-- Nothing but the content is changed. -/
def ContentOnly (before after : SsBuff) : Prop :=
  after = { before with toSsContent := after.toSsContent }

theorem content_only_window {before after : SsBuff} (only : ContentOnly before after) :
    after.window = before.window := by
  rw [only]
  rfl

theorem analyse_window (ssbuf : SsBuff) (tdef : Nat) :
    (ssbuf.analyse tdef).window =
      if 300 ≤ sub64 tdef ssbuf.analytime then ssbuf.window.analysed ssbuf.uiAnalyTime
      else ssbuf.window := by
  rw [SsBuff.analyse]
  by_cases due : 300 ≤ sub64 tdef ssbuf.analytime
  · rw [if_pos due, if_pos due, SortWindow.analysed]
    by_cases deep : ssbuf.uiAnalyTime < ssbuf.uiSortTime ∧ 0 < ssbuf.uiAnalyTime
    · simp only [if_pos deep]
      exact (if_pos deep).symm
    · simp only [if_neg deep]
      exact (if_neg deep).symm
  · rw [if_neg due, if_neg due]

theorem increase_delay_window (ssbuf : SsBuff) (timestamp : Nat) (clock : Clock) :
    (increaseDelay ssbuf timestamp clock).window =
      ssbuf.window.raised (sub32 ssbuf.mintimestamp timestamp) := by
  rw [increaseDelay, SortWindow.raised]
  by_cases below : u32 (ssbuf.uiSortTime + sub32 ssbuf.mintimestamp timestamp) < ssbuf.uiMaxSortTime
  · rw [if_pos below]
    exact (if_pos below).symm
  · rw [if_neg below]
    exact (if_neg below).symm

section Stages

variable {ssbuf checked : SsBuff} {iframe : SortFrame} {clock : Clock} {callback : Nat → Int}
  {outcome : Outcome}

theorem pop_loop_content (rounds invocation : Nat)
    (done : popLoop callback rounds invocation ssbuf = some outcome) :
    ContentOnly ssbuf outcome.ssbuf := by
  induction rounds generalizing invocation ssbuf outcome with
  | zero =>
      rw [← Option.some.inj done]
      rfl
  | succ rounds ih =>
      rw [popLoop] at done
      by_cases few : sub32 ssbuf.uiPutFrameCount ssbuf.u32PopFrameCount ≤ 3
      · rw [if_pos few] at done
        rw [← Option.some.inj done]
        rfl
      rw [if_neg few] at done
      by_cases wide : sub32 ssbuf.maxtimestamp ssbuf.mintimestamp > ssbuf.uiSortTime
      · rw [if_pos wide] at done
        split at done
        · contradiction
        · split at done
          · contradiction
          · dsimp only at done
            split at done
            · rw [← Option.some.inj done]
              rfl
            · split at done
              · rw [← Option.some.inj done]
                rfl
              · split at done
                · contradiction
                · obtain ⟨later, popped, same⟩ := Option.map_eq_some_iff.mp done
                  rw [← same]
                  have content := ih (invocation + 1) popped
                  exact content
      · rw [if_neg wide] at done
        rw [← Option.some.inj done]
        rfl

theorem put_first_content (done : putFirst ssbuf iframe = some outcome) :
    ContentOnly ssbuf outcome.ssbuf := by
  obtain ⟨copy, -, same⟩ := Option.map_eq_some_iff.mp done
  rw [← same]
  rfl

theorem append_frame_content (done : appendFrame ssbuf iframe callback = some outcome) :
    ContentOnly ssbuf outcome.ssbuf := by
  obtain ⟨⟨position, copied⟩, -, appended⟩ := Option.bind_eq_some_iff.mp done
  dsimp only at appended
  split at appended
  · split_ifs at appended with wide
    · obtain ⟨⟨revl, frameaddr⟩, -, recycled⟩ := Option.bind_eq_some_iff.mp appended
      dsimp only at recycled
      split_ifs at recycled with missing
      · rw [← Option.some.inj recycled]
        rfl
      · obtain ⟨later, popped, same⟩ := Option.map_eq_some_iff.mp recycled
        rw [← same]
        have content := pop_loop_content 2 1 popped
        exact content
    · rw [← Option.some.inj appended]
      rfl
  · rw [← Option.some.inj appended]
    rfl

theorem note_freesize_window (earliest willposi_e : Nat) :
    (ssbuf.noteFreesize earliest willposi_e).window = ssbuf.window := by
  simp only [SsBuff.noteFreesize]
  split_ifs
  all_goals rfl

/-- What of the sorter is read at a raise, the sort time apart. -/
structure SameRange (before after : SsBuff) : Prop where
  present : after.phead ≠ [] → before.phead ≠ []
  newest : after.maxtimestamp = before.maxtimestamp
  oldest : after.mintimestamp = before.mintimestamp

/-- A new buffer has the same window, as the limit is not below its least value. -/
theorem remalloc_window (limit : DEFAULT_SORT_TIME ≤ ssbuf.uiMaxSortTime) {newsize : Nat}
    {moved : SsBuff × List Event} (done : remallocSortBuff ssbuf newsize clock = some moved) :
    moved.1.window = ssbuf.window ∧ SameRange ssbuf moved.1 := by
  obtain ⟨created, new, same⟩ := Option.map_eq_some_iff.mp done
  rw [pCreateStreamSort] at new
  split_ifs at new
  rw [← same, ← Option.some.inj new]
  refine ⟨?_, ?_, rfl, rfl⟩
  · simp only [SsBuff.window, defaultStreamSortBuff, if_neg (Nat.not_lt.mpr limit)]
  · intro present empty
    simp only [empty, moveNodes] at present
    contradiction

theorem make_room_window (limit : DEFAULT_SORT_TIME ≤ ssbuf.uiMaxSortTime)
    {roomy : SsBuff × List Event} (done : ssbuf.makeRoom clock = some roomy) :
    (MAX_SORT_BUFF_LEN < ssbuf.datasize ∧ roomy.1.phead = [] ∧
        roomy.1.window = ssbuf.window.reset) ∨
      (ssbuf.datasize ≤ MAX_SORT_BUFF_LEN ∧ roomy.1.window = ssbuf.window ∧
        SameRange ssbuf roomy.1) := by
  rw [SsBuff.makeRoom] at done
  split_ifs at done with big
  · rw [← Option.some.inj done]
    exact Or.inl ⟨big, rfl, rfl⟩
  · exact Or.inr ⟨by omega, remalloc_window limit done⟩

/-- The window that the check of the buffer leaves unless it cleans the sorter. -/
def SsBuff.checkedWindow (ssbuf : SsBuff) (frame_len tdef : Nat) : SortWindow :=
  if ssbuf.unchecked = false ∧ ssbuf.wraps frame_len = true ∧ 300 ≤ sub64 tdef ssbuf.analytime then
    ssbuf.window.analysed ssbuf.uiAnalyTime
  else ssbuf.window

/-- What the check leaves behind the analysis, of which only the window is new. -/
def CheckLeaves (ssbuf : SsBuff) (frame_len : Nat) (window : SortWindow) (checked : SsBuff) :
    Prop :=
  (ssbuf.Cleans frame_len ∧ checked.phead = [] ∧ checked.window = window.reset) ∨
    (¬ssbuf.Cleans frame_len ∧ SameRange ssbuf checked ∧ checked.window = window)

theorem room_leaves {looked : SsBuff} (same : looked.toSsContent = ssbuf.toSsContent)
    (limit : DEFAULT_SORT_TIME ≤ looked.uiMaxSortTime) (unchecked : ssbuf.unchecked = false)
    {frame_len : Nat} (close : ssbuf.tooLong frame_len = true) {roomy : SsBuff × List Event}
    (done : looked.makeRoom clock = some roomy) :
    CheckLeaves ssbuf frame_len looked.window roomy.1 := by
  have size : looked.datasize = ssbuf.datasize := congrArg SsContent.datasize same
  rcases make_room_window limit done with ⟨big, clean, window⟩ | ⟨small, window, range⟩
  · rw [size] at big
    exact Or.inl ⟨⟨unchecked, close, big⟩, clean, window⟩
  · rw [size] at small
    obtain ⟨present, newest, oldest⟩ := range
    rw [same] at present newest oldest
    exact Or.inr ⟨fun cleans => absurd cleans.2.2 (by omega), ⟨present, newest, oldest⟩, window⟩

theorem free_leaves {looked : SsBuff} (same : looked.toSsContent = ssbuf.toSsContent)
    {frame_len : Nat} (free : ¬ssbuf.Cleans frame_len) (earliest willposi_e : Nat) :
    CheckLeaves ssbuf frame_len looked.window (looked.noteFreesize earliest willposi_e) := by
  have content := (note_freesize_content looked earliest willposi_e).1.trans same
  refine Or.inr ⟨free, ⟨?_, ?_, ?_⟩, note_freesize_window earliest willposi_e⟩
  · rw [content]
    exact fun present => present
  · rw [content]
  · rw [content]

theorem check_window (limit : DEFAULT_SORT_TIME ≤ ssbuf.uiMaxSortTime) {frame_len : Nat}
    {result : SsBuff × List Event} (done : checkStreambuff ssbuf frame_len clock = some result) :
    CheckLeaves ssbuf frame_len (ssbuf.checkedWindow frame_len clock.tdef) result.1 := by
  rw [checkStreambuff] at done
  by_cases unchecked : ssbuf.unchecked = true
  · rw [if_pos unchecked] at done
    have free : ¬ssbuf.Cleans frame_len := by
      rintro ⟨checked, -⟩
      rw [unchecked] at checked
      contradiction
    rw [← Option.some.inj done, SsBuff.checkedWindow, if_neg (by rw [unchecked]; simp)]
    exact Or.inr ⟨free, ⟨fun present => present, rfl, rfl⟩, rfl⟩
  rw [if_neg unchecked] at done
  have checked : ssbuf.unchecked = false := by simpa using unchecked
  simp only at done
  rw [shrink_never] at done
  by_cases wraps : ssbuf.wraps frame_len = true
  · have window : (ssbuf.analyse clock.tdef).window =
        ssbuf.checkedWindow frame_len clock.tdef := by
      rw [analyse_window, SsBuff.checkedWindow]
      simp only [checked, wraps, true_and]
    rw [if_pos wraps] at done
    rw [← window]
    by_cases close : ssbuf.tooLong frame_len = true
    · rw [if_pos close] at done
      exact room_leaves (analyse_content ssbuf clock.tdef).1
        (by rw [(analyse_content _ _).2]; exact limit) checked close done
    · rw [if_neg close] at done
      rw [← Option.some.inj done]
      exact free_leaves (analyse_content ssbuf clock.tdef).1
        (fun cleans => close cleans.2.1) ssbuf.earliest frame_len
  · have window : ssbuf.window = ssbuf.checkedWindow frame_len clock.tdef :=
      (if_neg (fun both => wraps both.2.1)).symm
    rw [if_neg wraps] at done
    rw [← window]
    by_cases close : ssbuf.tooLong frame_len = true
    · rw [if_pos close] at done
      exact room_leaves rfl limit checked close done
    · rw [if_neg close] at done
      rw [← Option.some.inj done]
      exact free_leaves rfl (fun cleans => close cleans.2.1) ssbuf.earliest
        (u32 (ssbuf.position + frame_len))

/-- What the tail of a call does to the window: nothing, a cleaning or a raise. -/
def PlaceLeaves (ssbuf : SsBuff) (iframe : SortFrame) (after : SsBuff) : Prop :=
  after.window = ssbuf.window ∨ after.window = ssbuf.window.reset ∨
    (ssbuf.phead ≠ [] ∧ iframe.timestamp < ssbuf.maxtimestamp ∧
      iframe.timestamp < ssbuf.mintimestamp ∧
      sub32 ssbuf.maxtimestamp iframe.timestamp ≤ ssbuf.uiMaxSortTime ∧
      after.window = ssbuf.window.raised (sub32 ssbuf.mintimestamp iframe.timestamp))

theorem drop_late_window (ssbuf : SsBuff) (iframe : SortFrame) (clock : Clock) :
    PlaceLeaves ssbuf iframe (dropLate ssbuf clock).ssbuf := by
  simp only [dropLate]
  split_ifs
  · exact Or.inr (Or.inl rfl)
  · exact Or.inl rfl

theorem memcpy_oldest {content : SsContent} {pframe : Bytes} {frame_len : Nat}
    {copied : Nat × SsContent} (done : memcpyToSortBuff content pframe frame_len = some copied) :
    copied.2.mintimestamp = content.mintimestamp := by
  rw [memcpyToSortBuff] at done
  split_ifs at done
  · rw [← Option.some.inj done]
  · rw [← Option.some.inj done]

theorem put_late_window (present : ssbuf.phead ≠ [])
    (older : iframe.timestamp < ssbuf.maxtimestamp)
    (done : putLate ssbuf iframe clock = some outcome) :
    PlaceLeaves ssbuf iframe outcome.ssbuf := by
  rw [putLate] at done
  by_cases late : sub32 ssbuf.maxtimestamp iframe.timestamp > ssbuf.uiMaxSortTime
  · rw [if_pos late] at done
    rw [← Option.some.inj done]
    exact drop_late_window ssbuf iframe clock
  rw [if_neg late] at done
  by_cases reversed : ssbuf.premintimestamp > iframe.timestamp
  · rw [if_pos reversed] at done
    rw [← Option.some.inj done]
    simp only [dropReversed]
    split_ifs with before
    · exact Or.inr (Or.inr ⟨present, older, before, by omega, increase_delay_window _ _ _⟩)
    · exact Or.inl rfl
  rw [if_neg reversed] at done
  obtain ⟨⟨position, copied⟩, copy, inserted⟩ := Option.bind_eq_some_iff.mp done
  have oldest : copied.mintimestamp = ssbuf.mintimestamp := memcpy_oldest copy
  dsimp only at inserted
  by_cases before : iframe.timestamp < copied.mintimestamp
  · rw [if_pos before] at inserted
    rw [← Option.some.inj inserted]
    rw [oldest] at before
    refine Or.inr (Or.inr ⟨present, older, before, by omega, ?_⟩)
    rw [← oldest]
    exact increase_delay_window _ iframe.timestamp clock
  · rw [if_neg before] at inserted
    obtain ⟨linked, -, same⟩ := Option.bind_eq_some_iff.mp inserted
    rw [← Option.some.inj same]
    exact Or.inl rfl

theorem put_early_window (done : putEarly ssbuf iframe clock callback = some outcome) :
    PlaceLeaves ssbuf iframe outcome.ssbuf := by
  simp only [putEarly] at done
  split_ifs at done
  · rw [← Option.some.inj done]
    exact Or.inr (Or.inl rfl)
  · exact Or.inl ((content_only_window (append_frame_content done)).trans rfl)
  · exact Or.inl ((content_only_window (append_frame_content done)).trans rfl)

theorem place_window (done : placeFrame ssbuf iframe clock callback = some outcome) :
    PlaceLeaves ssbuf iframe outcome.ssbuf := by
  rw [placeFrame] at done
  split_ifs at done with empty older
  · exact Or.inl (content_only_window (put_first_content done))
  · exact put_late_window empty older done
  · exact put_early_window done

end Stages

/-- A window in range between the configured values `bak` and `limit`. -/
structure WindowInvariant (bak limit : Nat) (window : SortWindow) : Prop where
  bak_eq : window.uiSortTimeBak = bak
  limit_eq : window.uiMaxSortTime = limit
  inRange : window.InRange

section Step

variable {bak limit : Nat} {window : SortWindow}

theorem invariant_reset (invariant : WindowInvariant bak limit window) :
    WindowInvariant bak limit window.reset :=
  ⟨invariant.bak_eq, invariant.limit_eq, reset_in_range⟩

theorem invariant_small (invariant : WindowInvariant bak limit window) (bakWord : bak < wordSize)
    (limitWord : limit < wordSize) : window.uiSortTime < wordSize := by
  obtain ⟨bakEq, limitEq, -, upper⟩ := invariant
  rw [bakEq, limitEq] at upper
  omega

theorem invariant_adapted (invariant : WindowInvariant bak limit window) {depth : Nat}
    (safe : window.AdaptsSafely depth) : WindowInvariant bak limit (window.adapted depth) := by
  obtain ⟨sameBak, sameLimit⟩ := adapted_limits window depth
  exact ⟨sameBak.trans invariant.bak_eq, sameLimit.trans invariant.limit_eq,
    adapted_in_range invariant.inRange safe⟩

theorem invariant_raised (invariant : WindowInvariant bak limit window) (bakWord : bak < wordSize)
    (limitWord : limit < wordSize) {timedef : Nat} (word : timedef < wordSize)
    (safe : window.RaisesSafely timedef) :
    WindowInvariant bak limit (window.raised timedef) := by
  obtain ⟨sameBak, sameLimit⟩ := raised_limits window timedef
  have inRange := ((raised_iff (by rw [invariant.bak_eq]; exact bakWord)
    (by rw [invariant.limit_eq]; exact limitWord) invariant.inRange word).mpr safe).1
  exact ⟨sameBak.trans invariant.bak_eq, sameLimit.trans invariant.limit_eq, inRange⟩

variable {ssbuf after : SsBuff} {call : PutCall}

/-- Behind the check the window is the adapted one, when there was an analysis. -/
theorem safe_checked_window (bakWord : bak < wordSize) (limitWord : limit < wordSize)
    (invariant : WindowInvariant bak limit ssbuf.window) {frame_len tdef : Nat}
    (fits : frame_len < ssbuf.datasize / 2)
    (safe : ssbuf.Adapts frame_len tdef → ssbuf.window.AdaptsSafely ssbuf.uiAnalyTime) :
    ssbuf.checkedWindow frame_len tdef =
      if ssbuf.Adapts frame_len tdef then ssbuf.window.adapted ssbuf.uiAnalyTime
      else ssbuf.window := by
  rw [SsBuff.checkedWindow]
  by_cases adapts : ssbuf.Adapts frame_len tdef
  · rw [if_pos adapts, if_pos adapts.2]
    exact analysed_eq_adapted (invariant_small invariant bakWord limitWord) invariant.inRange
      (safe adapts)
  · rw [if_neg adapts, if_neg (fun due => adapts ⟨fits, due⟩)]

/-- The tail of a call keeps the window, if the raise that it may make is safe. -/
theorem place_invariant {checked : SsBuff} {iframe : SortFrame} {clock : Clock}
    {callback : Nat → Int} {outcome : Outcome} (bakWord : bak < wordSize)
    (limitWord : limit < wordSize) (invariant : WindowInvariant bak limit checked.window)
    (raises : checked.phead ≠ [] → iframe.timestamp < checked.maxtimestamp →
      iframe.timestamp < checked.mintimestamp →
        sub32 checked.maxtimestamp iframe.timestamp ≤ checked.uiMaxSortTime →
          checked.window.RaisesSafely (sub32 checked.mintimestamp iframe.timestamp))
    (place : placeFrame checked iframe clock callback = some outcome) :
    WindowInvariant bak limit outcome.ssbuf.window := by
  rcases place_window place with same | reset | ⟨present, newer, older, near, raised⟩
  · exact same ▸ invariant
  · exact reset ▸ invariant_reset invariant
  · rw [raised]
    exact invariant_raised invariant bakWord limitWord (Nat.mod_lt _ (by decide))
      (raises present newer older near)

/-- A call takes the window through the analysis, a cleaning, and a raise at most. -/
theorem window_step (bakWord : bak < wordSize) (limitWord : limit < wordSize)
    (least : DEFAULT_SORT_TIME ≤ limit) (invariant : WindowInvariant bak limit ssbuf.window)
    (safe : ssbuf.WindowSafe call) (done : ssbuf.put call = some after) :
    WindowInvariant bak limit after.window := by
  obtain ⟨outcome, result, same⟩ := Option.map_eq_some_iff.mp done
  rw [← same]
  rcases put_parts result with ⟨-, left⟩ | ⟨big, checked, events, placed, check, place, left⟩
  · rw [left]
    exact invariant
  rw [left]
  obtain ⟨adaptsSafely, raisesSafely⟩ := safe
  have window := safe_checked_window bakWord limitWord invariant (by omega) adaptsSafely
  have kept : WindowInvariant bak limit
      (ssbuf.checkedWindow call.iframe.frame_len call.clock.tdef) := by
    rw [window]
    split_ifs with adapts
    · exact invariant_adapted invariant (adaptsSafely adapts)
    · exact invariant
  rw [← window] at raisesSafely
  have leaves := check_window (by rw [← invariant.limit_eq] at least; exact least) check
  rcases leaves with ⟨-, empty, cleaned⟩ | ⟨uncleaned, range, left⟩
  · apply place_invariant bakWord limitWord _ _ place
    · rw [cleaned]
      exact invariant_reset kept
    · intro present
      exact absurd empty present
  · have first : WindowInvariant bak limit checked.window := by
      rw [left]
      exact kept
    apply place_invariant bakWord limitWord first _ place
    intro present newer older near
    have maximum : checked.uiMaxSortTime = ssbuf.uiMaxSortTime :=
      first.limit_eq.trans invariant.limit_eq.symm
    rw [range.newest] at newer near
    rw [range.oldest] at older ⊢
    rw [maximum] at near
    rw [left]
    exact raisesSafely ⟨by omega, uncleaned, range.present present, newer, older, near⟩

end Step

theorem created_window {info : RegisterSortInfo} {freetime analytime : Nat} {ssbuf : SsBuff}
    (created : pCreateStreamSort info freetime analytime = some ssbuf) :
    WindowInvariant info.uiSortTime (max DEFAULT_SORT_TIME info.uiMaxSortTime) ssbuf.window := by
  rw [pCreateStreamSort] at created
  split_ifs at created
  rw [← Option.some.inj created]
  refine ⟨rfl, ?_, ⟨Nat.le_refl _, Nat.le_max_left _ _⟩⟩
  simp only [SsBuff.window, defaultStreamSortBuff]
  split_ifs <;> omega

/-- The window stays in range, and each analysis lowers it as far as it may, in
runs whose analyses and raises are safe. -/
theorem sort_window_in_range (info : RegisterSortInfo) (freetime analytime : Nat)
    (sortWord : info.uiSortTime < wordSize) (limitWord : info.uiMaxSortTime < wordSize)
    (ssbuf : SsBuff) (created : pCreateStreamSort info freetime analytime = some ssbuf)
    (calls : List PutCall) (meets : TryMeets SsBuff.put SsBuff.WindowSafe ssbuf calls) :
    (∀ final, tryRun SsBuff.put ssbuf calls = some final → final.window.InRange) ∧
      ∀ early call late before, calls = early ++ call :: late →
        tryRun SsBuff.put ssbuf early = some before →
          before.Adapts call.iframe.frame_len call.clock.tdef →
            before.window.LoweredTo before.uiAnalyTime
              (before.analyse call.clock.tdef).uiSortTime := by
  have maxWord : max DEFAULT_SORT_TIME info.uiMaxSortTime < wordSize :=
    max_lt (by decide) limitWord
  have reached : ∀ earlier final, TryMeets SsBuff.put SsBuff.WindowSafe ssbuf earlier →
      tryRun SsBuff.put ssbuf earlier = some final →
        WindowInvariant info.uiSortTime (max DEFAULT_SORT_TIME info.uiMaxSortTime)
          final.window :=
    fun earlier final met => try_run_reached
      (fun _ _ _ => window_step sortWord maxWord (Nat.le_max_left _ _))
      earlier ssbuf final (created_window created) met
  refine ⟨fun final run => (reached calls final meets run).inRange, ?_⟩
  intro early call late before parts run adapts
  rw [parts] at meets
  obtain ⟨metEarly, safe, -⟩ := try_meets_append early (call :: late) ssbuf before meets run
  have invariant := reached early before metEarly run
  have lowered := (analysed_lowered_iff (invariant_small invariant sortWord maxWord)
    invariant.inRange before.uiAnalyTime).mpr (safe.1 adapts)
  have window := analyse_window before call.clock.tdef
  rw [if_pos adapts.2.2.2] at window
  rwa [← window] at lowered

/-- A frame between two others, two more, and after five minutes one that wraps around. -/
def analysedCalls : List PutCall :=
  [callAt 200000 100000 0, callAt 200000 150000 0, callAt 200000 120000 0,
    callAt 200000 160000 0, callAt 200000 170000 0,
    { callAt 100000 180000 0 with clock := Clock.frozen 300 }]

theorem sort_window_in_range_analysed :
    (∀ final, tryRun SsBuff.put (smallestSorter 600000) analysedCalls = some final →
        final.window.InRange) ∧
      ∀ early call late before, analysedCalls = early ++ call :: late →
        tryRun SsBuff.put (smallestSorter 600000) early = some before →
          before.Adapts call.iframe.frame_len call.clock.tdef →
            before.window.LoweredTo before.uiAnalyTime
              (before.analyse call.clock.tdef).uiSortTime :=
  sort_window_in_range ⟨MIM_SORT_BUFF_LEN, 600000, 0⟩ 0 0 (by decide) (by decide)
    (smallestSorter 600000) rfl analysedCalls (by decide)

/-- Of 290 ms with a measured depth of 50 ms both 200 ms and 100 ms are taken. -/
theorem analysis_wraps_window :
    (∃ before, tryRun SsBuff.put (smallestSorter 290000) (analysedCalls.take 5) = some before ∧
      before.Adapts 100000 300 ∧ before.uiAnalyTime = 50000 ∧
      ¬before.window.LoweredTo before.uiAnalyTime (before.analyse 300).uiSortTime) ∧
    ∃ final, tryRun SsBuff.put (smallestSorter 290000) analysedCalls = some final ∧
      final.uiSortTime = 4294957296 ∧ ¬final.window.InRange := by
  refine ⟨⟨_, rfl, by decide, by decide, ?_⟩, ⟨_, rfl, by decide, ?_⟩⟩
  · intro lowered
    exact absurd lowered.lower (by decide)
  · intro inRange
    exact absurd inRange.upper (by decide)

end Mgw.StreamSort
