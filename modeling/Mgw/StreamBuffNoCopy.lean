import Mgw.StreamBuffFirstKey

/-!
# Reading without a copy

`GetOneFrameFromBuff2` gives out where a frame lies. Its stages are those of
`GetOneFrameFromBuff` but for the reader that waits for its first key frame: that
one is set back five frames also when there are not so many, which takes its
counter below zero.
-/

namespace Mgw.StreamBuff

open ByteArea CodecDef WordArithmetic

set_option autoImplicit false

/-- An entry of `faddr`, with the offset in the data area that `pframe` points to. -/
structure FramePiece where
  pframe : Nat
  len : Nat
  deriving DecidableEq

/-- `SGetFrameInfo`; `addrnum` is the number of pieces. -/
structure GetFrameInfo where
  faddr : List FramePiece
  timestamp : Nat
  frametype : FrameType
  deriving DecidableEq

/-- `info` is what is written through `pinfo`, if anything is. -/
structure GetResult2 where
  ret : Int
  reader : MemReader
  info : Option GetFrameInfo
  deriving DecidableEq

section Get2

variable (memory : SMemoryPosition) (reader : MemReader)

def waitingReader2 : MemReader :=
  { reader with u32RdFrameCount := sub32 memory.pstuHead.uiWritFrameCount 5 }

def keyFrameStage2 : Except (Int × MemReader) MemReader :=
  if reader.breIframe then
    match jumpTonewestIFrame memory (waitingReader2 memory reader) with
    | none => .error (0, waitingReader2 memory reader)
    | some jumped => .ok { jumped with breIframe := false }
  else .ok reader

def selectFrame2 : Except (Int × MemReader) MemReader := do
  let caught ← lagStage memory reader
  let started ← keyFrameStage2 memory caught
  validStage memory started

def framePieces (position len : Nat) : List FramePiece :=
  if position + len ≤ memory.pstuHead.datasize then [{ pframe := position, len := len }]
  else
    let left := memory.pstuHead.datasize - position
    [{ pframe := position, len := left }, { pframe := 0, len := len - left }]

def readStage2 : GetResult2 :=
  let slot := memory.pstuFrames (reader.u32RdFrameCount % memory.pstuHead.uiMaxValidFrames)
  { ret := slot.len
    reader := { reader with u32RdFrameCount := u32 (reader.u32RdFrameCount + 1) }
    info := some
      { faddr := framePieces memory slot.position slot.len
        timestamp := slot.stuFrameInfo.timestamp
        frametype := slot.stuFrameInfo.frametype } }

/-- Every early return is 0 here. -/
def getOneFrameFromBuff2 : GetResult2 :=
  if memory.pstuHead.uiWritFrameCount = reader.u32RdFrameCount then
    { ret := 0, reader := reader, info := none }
  else if memory.pstuHead.uiWritFrameCount < reader.u32RdFrameCount then
    { ret := 0, reader := (jumpToOldestIFrame memory reader).getD reader, info := none }
  else
    match selectFrame2 memory reader with
    | .error (_, stopped) => { ret := 0, reader := stopped, info := none }
    | .ok selected => readStage2 memory selected

/-- The bytes of the pieces, one behind the other. -/
def piecesBytes (pieces : List FramePiece) : List UInt8 :=
  pieces.flatMap fun piece => takeBytes (advance memory.pstuData piece.pframe) piece.len

end Get2

section Agreement

variable {memory : SMemoryPosition} {reader : MemReader}

/-- The two reads of one reader of one ring agree. -/
structure ReadsAgree (memory : SMemoryPosition) (reader : MemReader)
    (maxframelen timestamp : Nat) : Prop where
  positive : 0 < (getOneFrameFromBuff2 memory reader).ret ↔
    0 < (getOneFrameFromBuff memory reader maxframelen timestamp).ret
  same : 0 < (getOneFrameFromBuff memory reader maxframelen timestamp).ret →
    (getOneFrameFromBuff2 memory reader).ret =
        (getOneFrameFromBuff memory reader maxframelen timestamp).ret ∧
      ∃ info copied, (getOneFrameFromBuff2 memory reader).info = some info ∧
        (getOneFrameFromBuff memory reader maxframelen timestamp).copied = some copied ∧
        (info.faddr.length = 1 ∨ info.faddr.length = 2) ∧
        piecesBytes memory info.faddr = copied.bytes ∧ info.frametype = copied.frametype ∧
        info.timestamp = (getOneFrameFromBuff memory reader maxframelen timestamp).timestamp
  counter : (getOneFrameFromBuff2 memory reader).reader.u32RdFrameCount =
    (getOneFrameFromBuff memory reader maxframelen timestamp).reader.u32RdFrameCount
  flag : (getOneFrameFromBuff2 memory reader).reader.breIframe =
    (getOneFrameFromBuff memory reader maxframelen timestamp).reader.breIframe

/-- The search of a waiting reader begins with fewer than five frames written: it
is not caught up with the writer, and where it lags by more than the table there
is a key frame to go to. -/
def SearchesEarly (memory : SMemoryPosition) (reader : MemReader) : Prop :=
  reader.breIframe = true ∧ memory.pstuHead.uiWritFrameCount < 5 ∧
    reader.u32RdFrameCount < memory.pstuHead.uiWritFrameCount ∧
    (reader.u32RdFrameCount + memory.pstuHead.uiMaxValidFrames < memory.pstuHead.uiWritFrameCount →
      ∃ slot < memory.pstuHead.uiMaxValidFrames, (memory.pstuFrames slot).isKeyFrame = true)

theorem pieces_bytes (position len : Nat) :
    piecesBytes memory (framePieces memory position len) =
      circularCopyOut memory.pstuHead.datasize memory.pstuData position len := by
  unfold piecesBytes framePieces circularCopyOut
  split_ifs with straight
  · simp
  · have start : advance memory.pstuData 0 = memory.pstuData := by
      funext index
      rw [advance_apply, Nat.zero_add]
    simp [start]

theorem pieces_length (position len : Nat) :
    (framePieces memory position len).length = 1 ∨ (framePieces memory position len).length = 2 := by
  unfold framePieces
  split_ifs
  · exact Or.inl rfl
  · exact Or.inr rfl

theorem read_stages_agree {maxframelen : Nat} (timestamp : Nat)
    (byCount : reader.bReadByTime = false)
    (room : (memory.pstuFrames
      (reader.u32RdFrameCount % memory.pstuHead.uiMaxValidFrames)).len ≤ maxframelen) :
    readStage memory reader maxframelen timestamp =
      { ret := (readStage2 memory reader).ret
        reader := (readStage2 memory reader).reader
        timestamp := (memory.pstuFrames
          (reader.u32RdFrameCount % memory.pstuHead.uiMaxValidFrames)).stuFrameInfo.timestamp
        copied := some
          { bytes := piecesBytes memory (framePieces memory
              (memory.pstuFrames
                (reader.u32RdFrameCount % memory.pstuHead.uiMaxValidFrames)).position
              (memory.pstuFrames
                (reader.u32RdFrameCount % memory.pstuHead.uiMaxValidFrames)).len)
            frametype := (memory.pstuFrames (reader.u32RdFrameCount %
              memory.pstuHead.uiMaxValidFrames)).stuFrameInfo.frametype
            priority := (memory.pstuFrames (reader.u32RdFrameCount %
              memory.pstuHead.uiMaxValidFrames)).stuFrameInfo.priority } } := by
  unfold readStage
  dsimp only
  rw [if_neg (Nat.not_lt.mpr room), if_neg (fun late => by simp [byCount] at late), pieces_bytes]
  rfl

section Kept

variable {moved selected : MemReader}

theorem key_frame_stage_by_time (done : keyFrameStage memory reader = .ok moved) :
    moved.bReadByTime = reader.bReadByTime := by
  rw [keyFrameStage] at done
  split_ifs at done
  · cases found : jumpTonewestIFrame memory (waitingReader memory reader) with
    | none =>
        rw [found] at done
        contradiction
    | some jumped =>
        rw [found] at done
        obtain ⟨number, landed⟩ := newest_jump_keeps found
        rw [← Except.ok.inj done, landed]
        unfold waitingReader
        split_ifs
        · rfl
        · rfl
  · rw [Except.ok.inj done]

theorem select_frame_by_time (done : selectFrame memory reader = .ok selected) :
    selected.bReadByTime = reader.bReadByTime := by
  obtain ⟨caught, started, lag, key, valid⟩ := select_frame_stages done
  obtain ⟨number, caughtEq⟩ := lag_stage_keeps lag
  obtain ⟨other, selectedEq⟩ := valid_stage_keeps valid
  have startedEq := key_frame_stage_by_time key
  rw [selectedEq]
  change started.bReadByTime = reader.bReadByTime
  rw [startedEq, caughtEq]

end Kept

section Same

variable {maxframelen timestamp : Nat}

theorem get2_stopped (behind : reader.u32RdFrameCount < memory.pstuHead.uiWritFrameCount) {ret : Int}
    {stopped : MemReader} (selected : selectFrame2 memory reader = .error (ret, stopped)) :
    getOneFrameFromBuff2 memory reader = { ret := 0, reader := stopped, info := none } := by
  rw [getOneFrameFromBuff2, if_neg (by omega), if_neg (by omega), selected]

theorem get2_selected (behind : reader.u32RdFrameCount < memory.pstuHead.uiWritFrameCount)
    {chosen : MemReader} (selected : selectFrame2 memory reader = .ok chosen) :
    getOneFrameFromBuff2 memory reader = readStage2 memory chosen := by
  rw [getOneFrameFromBuff2, if_neg (by omega), if_neg (by omega), selected]

/-- Neither read has anything, and both leave the same reader. -/
theorem agree_of_nothing {ret : Int} {after : MemReader}
    (get : getOneFrameFromBuff memory reader maxframelen timestamp =
      { ret := ret, reader := after, timestamp := timestamp, copied := none })
    (get2 : getOneFrameFromBuff2 memory reader = { ret := 0, reader := after, info := none })
    (early : ret ≤ 0) : ReadsAgree memory reader maxframelen timestamp := by
  refine ⟨?_, ?_, ?_, ?_⟩
  · rw [get, get2]
    dsimp only
    omega
  · rw [get]
    intro positive
    dsimp only at positive
    omega
  · rw [get, get2]
  · rw [get, get2]

theorem agree_of_same (behind : reader.u32RdFrameCount < memory.pstuHead.uiWritFrameCount)
    (same : selectFrame2 memory reader = selectFrame memory reader)
    (byCount : reader.bReadByTime = false)
    (room : ∀ number, (memory.pstuFrames
      (number % memory.pstuHead.uiMaxValidFrames)).len ≤ maxframelen) :
    ReadsAgree memory reader maxframelen timestamp := by
  cases done : selectFrame memory reader with
  | error stop =>
      obtain ⟨ret, stopped⟩ := stop
      exact agree_of_nothing (get_stopped behind done maxframelen timestamp)
        (get2_stopped behind (same.trans done)) (select_frame_stops done).1
  | ok chosen =>
      have get := get_selected behind done maxframelen timestamp
      have get2 := get2_selected behind (same.trans done)
      rw [read_stages_agree timestamp ((select_frame_by_time done).trans byCount) (room _)] at get
      refine ⟨?_, ?_, ?_, ?_⟩
      · rw [get, get2]
      · intro _
        rw [get, get2]
        exact ⟨rfl, _, _, rfl, rfl, pieces_length _ _, rfl, rfl, rfl⟩
      · rw [get, get2]
      · rw [get, get2]

theorem key_frame_stages_same (word : memory.pstuHead.uiWritFrameCount < wordSize)
    (late : reader.breIframe = false ∨ 5 ≤ memory.pstuHead.uiWritFrameCount) :
    keyFrameStage2 memory reader = keyFrameStage memory reader := by
  unfold keyFrameStage2
  obtain off | five := late
  · rw [keyFrameStage, off, if_neg Bool.false_ne_true, if_neg Bool.false_ne_true]
  · have back : waitingReader2 memory reader = waitingReader memory reader := by
      unfold waitingReader2 waitingReader
      rw [if_pos five, sub32_of_le_of_lt five word]
    rw [back]
    rfl

theorem select_frames_same (word : memory.pstuHead.uiWritFrameCount < wordSize)
    (late : reader.breIframe = false ∨ 5 ≤ memory.pstuHead.uiWritFrameCount) :
    selectFrame2 memory reader = selectFrame memory reader := by
  unfold selectFrame2 selectFrame
  cases lag : lagStage memory reader with
  | error stop => rfl
  | ok caught =>
      obtain ⟨number, moved⟩ := lag_stage_keeps lag
      change (keyFrameStage2 memory caught >>= validStage memory) =
        (keyFrameStage memory caught >>= validStage memory)
      rw [key_frame_stages_same word]
      rw [moved]
      exact late

theorem stopped_lag_same {stop : Int × MemReader} (lag : lagStage memory reader = .error stop) :
    selectFrame2 memory reader = selectFrame memory reader := by
  unfold selectFrame2 selectFrame
  rw [lag]
  rfl

end Same

section Early

variable {maxframelen timestamp : Nat}

/-- Every slot is that of a number of the lap that the writer is about to begin. -/
theorem slot_number {slot : Nat} (bound : slot < memory.pstuHead.uiMaxValidFrames) :
    ∃ place < memory.pstuHead.uiMaxValidFrames,
      (memory.pstuHead.uiWritFrameCount + place) % memory.pstuHead.uiMaxValidFrames = slot := by
  have parts := Nat.div_add_mod memory.pstuHead.uiWritFrameCount memory.pstuHead.uiMaxValidFrames
  have rest := Nat.mod_lt memory.pstuHead.uiWritFrameCount (Nat.zero_lt_of_lt bound)
  refine ⟨(slot + memory.pstuHead.uiMaxValidFrames - memory.writeSlot) %
    memory.pstuHead.uiMaxValidFrames, Nat.mod_lt _ (Nat.zero_lt_of_lt bound), ?_⟩
  unfold SMemoryPosition.writeSlot
  have sum : memory.pstuHead.uiWritFrameCount + (slot + memory.pstuHead.uiMaxValidFrames -
      memory.pstuHead.uiWritFrameCount % memory.pstuHead.uiMaxValidFrames) =
      slot + memory.pstuHead.uiMaxValidFrames * (memory.pstuHead.uiWritFrameCount /
        memory.pstuHead.uiMaxValidFrames + 1) := by
    rw [Nat.mul_add, Nat.mul_one]
    omega
  rw [Nat.add_mod_mod, sum, Nat.add_mul_mod_self_left, Nat.mod_eq_of_lt bound]

theorem far_jump_finds (small : memory.pstuHead.uiWritFrameCount < 2147483648)
    (far : reader.u32RdFrameCount + memory.pstuHead.uiMaxValidFrames <
      memory.pstuHead.uiWritFrameCount) {slot : Nat}
    (bound : slot < memory.pstuHead.uiMaxValidFrames)
    (key : (memory.pstuFrames slot).isKeyFrame = true) :
    ∃ jumped, jumpToOldestIFrame memory reader = some jumped := by
  unfold jumpToOldestIFrame
  rw [if_neg (by omega)]
  cases found : oldestLoop memory reader memory.pstuHead.uiMaxValidFrames 0 with
  | none =>
      obtain ⟨place, inside, same⟩ := slot_number bound
      have clear := oldest_loop_none small far _ 0 (by omega) found place (by omega) (by omega)
      rw [KeyNumber, same] at clear
      contradiction
  | some jumped => exact ⟨jumped, rfl⟩

theorem far_jump_lands (small : memory.pstuHead.uiWritFrameCount < 2147483648)
    (far : reader.u32RdFrameCount + memory.pstuHead.uiMaxValidFrames <
      memory.pstuHead.uiWritFrameCount) {jumped : MemReader}
    (found : jumpToOldestIFrame memory reader = some jumped) :
    (∃ slot < memory.pstuHead.uiMaxValidFrames, (memory.pstuFrames slot).isKeyFrame = true) ∧
      ∃ number < memory.pstuHead.uiWritFrameCount,
        jumped = { reader with u32RdFrameCount := number } := by
  unfold jumpToOldestIFrame at found
  rw [if_neg (by omega)] at found
  obtain ⟨place, inside, key, landed⟩ := oldest_loop_far small far _ 0 (by omega) found
  exact ⟨⟨_, Nat.mod_lt _ (by omega), key⟩, ⟨_, by omega, landed⟩⟩

/-- Before five frames are written the copying read leaves the counter at most
where the writer stands. -/
theorem early_counter (few : memory.pstuHead.uiWritFrameCount < 5)
    (behind : reader.u32RdFrameCount < memory.pstuHead.uiWritFrameCount)
    (waiting : reader.breIframe = true) {number : Nat}
    (before : number < memory.pstuHead.uiWritFrameCount)
    (lag : lagStage memory reader = .ok { reader with u32RdFrameCount := number }) :
    (getOneFrameFromBuff memory reader maxframelen timestamp).reader.u32RdFrameCount ≤
      memory.pstuHead.uiWritFrameCount := by
  have stays : waitingReader memory { reader with u32RdFrameCount := number } =
      { reader with u32RdFrameCount := number } := by
    unfold waitingReader
    rw [if_neg (by omega)]
  have jump := @newest_jump_loop memory { reader with u32RdFrameCount := number } before (by omega)
  cases found : newestLoop memory { reader with u32RdFrameCount := number } number
      memory.pstuHead.uiWritFrameCount with
  | none =>
      rw [found, ← stays] at jump
      rw [get_stopped behind (select_waiting_none lag waiting jump), stays]
      exact Nat.le_of_lt before
  | some jumped =>
      obtain ⟨key, -, inside, -, keyNumber, landed, -⟩ := newest_loop_lands _ _ found
      rw [found, ← stays] at jump
      have selected := select_waiting_some lag waiting jump (landed ▸ keyNumber)
      rw [landed] at selected
      rw [get_selected behind selected]
      rcases read_stage_reader memory { reader with u32RdFrameCount := key, breIframe := false }
        maxframelen timestamp with same | next
      · rw [same]
        exact Nat.le_of_lt inside
      · rw [next]
        change u32 (key + 1) ≤ _
        rw [u32_of_lt (by simp only [wordSize]; omega)]
        exact inside

theorem newest_loop_refuses (min : Int) (count : Nat) (past : count ≤ reader.u32RdFrameCount) :
    newestLoop memory reader min count = none := by
  induction count with
  | zero => rfl
  | succ i ih =>
      rw [newestLoop, ih (by omega), if_neg (show ¬reader.u32RdFrameCount ≤ i by omega)]
      split_ifs
      · rfl
      · rfl
      · rfl

/-- The other one leaves it five below, with no key frame found for a reader that
is past them all. -/
theorem early_counter2 (few : memory.pstuHead.uiWritFrameCount < 5)
    (behind : reader.u32RdFrameCount < memory.pstuHead.uiWritFrameCount)
    (waiting : reader.breIframe = true) {number : Nat}
    (lag : lagStage memory reader = .ok { reader with u32RdFrameCount := number }) :
    (getOneFrameFromBuff2 memory reader).reader.u32RdFrameCount =
      memory.pstuHead.uiWritFrameCount + 4294967291 := by
  have below : sub32 memory.pstuHead.uiWritFrameCount 5 =
      memory.pstuHead.uiWritFrameCount + 4294967291 := by
    simp only [sub32, wordSize]
    omega
  have jump : jumpTonewestIFrame memory
      (waitingReader2 memory { reader with u32RdFrameCount := number }) = none := by
    rw [jumpTonewestIFrame, if_neg (by omega)]
    apply newest_loop_refuses
    rw [int32_of_lt (by omega), Int.toNat_natCast]
    change _ ≤ sub32 memory.pstuHead.uiWritFrameCount 5
    omega
  have selected : selectFrame2 memory reader =
      .error (0, waitingReader2 memory { reader with u32RdFrameCount := number }) := by
    unfold selectFrame2
    rw [lag]
    change (keyFrameStage2 memory _ >>= validStage memory) = _
    rw [keyFrameStage2, if_pos waiting, jump]
    rfl
  rw [get2_stopped behind selected]
  exact below

/-- The stage of the lag lets a reader through that is near enough or has a key frame to go to. -/
theorem lag_stage_passes_iff (small : memory.pstuHead.uiWritFrameCount < 2147483648)
    (behind : reader.u32RdFrameCount < memory.pstuHead.uiWritFrameCount) :
    (∃ caught, lagStage memory reader = .ok caught) ↔
      (reader.u32RdFrameCount + memory.pstuHead.uiMaxValidFrames < memory.pstuHead.uiWritFrameCount →
        ∃ slot < memory.pstuHead.uiMaxValidFrames, (memory.pstuFrames slot).isKeyFrame = true) := by
  unfold lagStage
  rw [sub32_of_le_of_lt (by omega) (by simp only [wordSize]; omega)]
  by_cases far : reader.u32RdFrameCount + memory.pstuHead.uiMaxValidFrames <
      memory.pstuHead.uiWritFrameCount
  · rw [if_pos (by omega)]
    cases found : jumpToOldestIFrame memory reader with
    | none =>
        constructor
        · intro passes
          obtain ⟨caught, passed⟩ := passes
          contradiction
        · intro keys
          obtain ⟨slot, bound, key⟩ := keys far
          obtain ⟨jumped, jumps⟩ := far_jump_finds small far bound key
          rw [found] at jumps
          contradiction
    | some jumped => exact ⟨fun _ _ => (far_jump_lands small far found).1, fun _ => ⟨jumped, rfl⟩⟩
  · rw [if_neg (by omega)]
    exact ⟨fun _ again => absurd again far, fun _ => ⟨reader, rfl⟩⟩

theorem lag_stage_before (small : memory.pstuHead.uiWritFrameCount < 2147483648)
    (behind : reader.u32RdFrameCount < memory.pstuHead.uiWritFrameCount) {caught : MemReader}
    (lag : lagStage memory reader = .ok caught) :
    ∃ number < memory.pstuHead.uiWritFrameCount,
      caught = { reader with u32RdFrameCount := number } := by
  unfold lagStage at lag
  rw [sub32_of_le_of_lt (by omega) (by simp only [wordSize]; omega)] at lag
  split_ifs at lag with far
  · cases found : jumpToOldestIFrame memory reader with
    | none =>
        rw [found] at lag
        contradiction
    | some jumped =>
        rw [found] at lag
        rw [← Except.ok.inj lag]
        exact (far_jump_lands small (by omega) found).2
  · exact ⟨reader.u32RdFrameCount, behind, (Except.ok.inj lag).symm⟩

theorem early_search_differs (early : SearchesEarly memory reader) :
    ¬ReadsAgree memory reader maxframelen timestamp := by
  obtain ⟨waiting, few, behind, keys⟩ := early
  obtain ⟨caught, lag⟩ := (lag_stage_passes_iff (by omega) behind).mpr keys
  obtain ⟨number, before, moved⟩ := lag_stage_before (by omega) behind lag
  rw [moved] at lag
  intro agree
  have same := agree.counter
  rw [early_counter2 few behind waiting lag] at same
  have inside := @early_counter memory reader maxframelen timestamp few behind waiting number before lag
  omega

theorem late_search_same (word : memory.pstuHead.uiWritFrameCount < wordSize)
    (behind : reader.u32RdFrameCount < memory.pstuHead.uiWritFrameCount)
    (late : ¬SearchesEarly memory reader) :
    selectFrame2 memory reader = selectFrame memory reader := by
  by_cases later : reader.breIframe = false ∨ 5 ≤ memory.pstuHead.uiWritFrameCount
  · exact select_frames_same word later
  · rw [not_or, Bool.not_eq_false, Nat.not_le] at later
    obtain ⟨waiting, few⟩ := later
    -- the lag cannot be made up, and the call ends before the search
    cases lag : lagStage memory reader with
    | error stop => exact stopped_lag_same lag
    | ok caught =>
        have keys := (lag_stage_passes_iff (by omega) behind).mp ⟨caught, lag⟩
        exact absurd ⟨waiting, few, behind, keys⟩ late

/-- Both reads agree, in every state of the ring and of the reader, unless the
search for the first key frame begins early. -/
theorem reads_agree_iff (memory : SMemoryPosition) (reader : MemReader)
    (maxframelen timestamp : Nat) (word : memory.pstuHead.uiWritFrameCount < wordSize)
    (byCount : reader.bReadByTime = false)
    (room : ∀ number, (memory.pstuFrames
      (number % memory.pstuHead.uiMaxValidFrames)).len ≤ maxframelen) :
    ReadsAgree memory reader maxframelen timestamp ↔ ¬SearchesEarly memory reader := by
  constructor
  · intro agree early
    exact early_search_differs early agree
  · intro late
    obtain behind | same | ahead := Nat.lt_trichotomy reader.u32RdFrameCount
      memory.pstuHead.uiWritFrameCount
    · exact agree_of_same behind (late_search_same word behind late) byCount room
    · apply @agree_of_nothing memory reader maxframelen timestamp frameConsumeFast reader
      · rw [getOneFrameFromBuff, if_pos same.symm]
      · rw [getOneFrameFromBuff2, if_pos same.symm]
      · decide
    · apply @agree_of_nothing memory reader maxframelen timestamp frameConsumeFast
        ((jumpToOldestIFrame memory reader).getD reader)
      · rw [getOneFrameFromBuff, if_neg (by omega), if_pos ahead]
      · rw [getOneFrameFromBuff2, if_neg (by omega), if_pos ahead]
      · decide

end Early

end Agreement

section Rings

theorem reads_agree_iff_five :
    ReadsAgree (ringOf [.I, .P, .I, .P, .P]) (MemReader.attach false) 4 0 :=
  (reads_agree_iff (ringOf [.I, .P, .I, .P, .P]) (MemReader.attach false) 4 0 (by decide) rfl
    (by
      intro number
      have slot : number % 6 < 6 := Nat.mod_lt _ (by decide)
      change ((ringOf [.I, .P, .I, .P, .P]).pstuFrames (number % 6)).len ≤ 4
      generalize number % 6 = place at slot ⊢
      interval_cases place <;> decide)).mpr fun early => absurd early.2.1 (by decide)

/-- The key frame is the second of two. The copying read delivers it; the other one
returns nothing and leaves the counter at `2 ^ 32 - 3`. -/
theorem early_search_fails :
    ¬ReadsAgree (ringOf [.P, .I]) (MemReader.attach false) 4 0 ∧
      (getOneFrameFromBuff (ringOf [.P, .I]) (MemReader.attach false) 4 0).ret = 4 ∧
      (getOneFrameFromBuff2 (ringOf [.P, .I]) (MemReader.attach false)).reader.u32RdFrameCount =
        4294967293 := by
  refine ⟨?_, by decide, by decide⟩
  intro agree
  have counters := agree.counter
  revert counters
  decide

end Rings

end Mgw.StreamBuff
