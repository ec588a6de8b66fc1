import Mgw.StreamBuffPut
import Mgw.TransitionRuns

/-!
# Runs of the writer

The payloads of all accepted frames form one stream; frame `k` starts in it at
the total length of the frames before it, and its slot's position is that
offset modulo the data size. The data area is the window of the last `datasize`
bytes of the stream, so a frame is intact as long as its start is not more than
`datasize` behind the end of the stream.
-/

namespace Mgw.StreamBuff

open ByteArea CodecDef WordArithmetic TransitionRuns

set_option autoImplicit false

/-- The ring with the frames accepted so far and the last one stored in each slot. -/
structure Writer where
  memory : SMemoryPosition
  accepted : List Frame
  stored : Nat → Option Frame

namespace Writer

def init (block : SMemoryPosition) (geometry : Geometry) : Writer where
  memory := initMemoryParam block geometry.frames geometry.size
  accepted := []
  stored := fun _ => none

def put (writer : Writer) (frame : Frame) : Writer :=
  let result := putOneFrameToBuff writer.memory frame
  if result.1 = 0 then
    { memory := result.2
      accepted := writer.accepted ++ [frame]
      stored := Function.update writer.stored writer.memory.writeSlot (some frame) }
  else { writer with memory := result.2 }

end Writer

/-- The payload in a slot is what was last stored there. -/
def Intact (writer : Writer) (slot : Nat) : Prop :=
  ∃ frame, writer.stored slot = some frame ∧
    (writer.memory.pstuFrames slot).len = frame.framelen ∧
    circularCopyOut writer.memory.pstuHead.datasize writer.memory.pstuData
      (writer.memory.pstuFrames slot).position (writer.memory.pstuFrames slot).len = frame.bytes

/-- A write of `framelen` bytes runs over the start of the slot's payload. -/
def SMemoryPosition.Overlaps (memory : SMemoryPosition) (framelen slot : Nat) : Prop :=
  ((memory.pstuFrames slot).position + memory.pstuHead.datasize -
    (memory.pstuFrames memory.writeSlot).position) % memory.pstuHead.datasize < framelen

/-- Every valid frame whose start the write runs over is one the cover walk
gets to: upwards from the writer's next slot, through slots that all pass the
interval test. -/
def SMemoryPosition.ReachesOverlapped (memory : SMemoryPosition) (framelen : Nat) : Prop :=
  ∀ slot < memory.pstuHead.uiMaxValidFrames, slot ≠ memory.writeSlot →
    slot ≠ (memory.writeSlot + 1) % memory.pstuHead.uiMaxValidFrames →
    (memory.pstuFrames slot).ucValidFlag = true → 0 < (memory.pstuFrames slot).len →
    memory.Overlaps framelen slot → memory.Clears framelen slot

/-- The frame counter does not wrap, or wraps to the adjacent slot. -/
def SMemoryPosition.CounterAdvances (memory : SMemoryPosition) : Prop :=
  u32 (memory.pstuHead.uiWritFrameCount + 1) % memory.pstuHead.uiMaxValidFrames =
    (memory.writeSlot + 1) % memory.pstuHead.uiMaxValidFrames

/-- A write that is refused, or one that the cover check handles completely. -/
def SMemoryPosition.CoverSuffices (memory : SMemoryPosition) (frame : Frame) : Prop :=
  memory.pstuHead.datasize / 2 ≤ frame.framelen ∨
    (memory.CounterAdvances ∧ memory.WalkFor frame.framelen ∧
      memory.ReachesOverlapped frame.framelen)

instance reaches_overlapped_decidable (memory : SMemoryPosition) (framelen : Nat) :
    Decidable (memory.ReachesOverlapped framelen) :=
  @Nat.decidableBallLT _ _ fun slot _ => inferInstanceAs (Decidable (slot ≠ memory.writeSlot →
    slot ≠ (memory.writeSlot + 1) % memory.pstuHead.uiMaxValidFrames →
    (memory.pstuFrames slot).ucValidFlag = true → 0 < (memory.pstuFrames slot).len →
    (_ : Nat) < framelen → memory.Clears framelen slot))

instance cover_suffices_decidable (memory : SMemoryPosition) (frame : Frame) :
    Decidable (memory.CoverSuffices frame) :=
  inferInstanceAs (Decidable (_ ≤ _ ∨ ((_ : Nat) = _ ∧ memory.WalkFor frame.framelen ∧
    memory.ReachesOverlapped frame.framelen)))

def totalLength (frames : List Frame) : Nat := (frames.map Frame.framelen).sum

@[simp] theorem total_length_append (left right : List Frame) :
    totalLength (left ++ right) = totalLength left + totalLength right := by
  simp [totalLength]

@[simp] theorem total_length_single (frame : Frame) : totalLength [frame] = frame.framelen := by
  simp [totalLength]

theorem total_length_take_add {frames : List Frame} {number : Nat} {frame : Frame}
    (present : frames[number]? = some frame) :
    totalLength (frames.take number) + frame.framelen ≤ totalLength frames := by
  obtain ⟨bound, value⟩ := List.getElem?_eq_some_iff.mp present
  have parts : frames = frames.take number ++ frame :: frames.drop (number + 1) := by
    rw [← value, ← List.drop_eq_getElem_cons bound, List.take_append_drop]
  have total : totalLength frames =
      totalLength (frames.take number) +
        (frame.framelen + totalLength (frames.drop (number + 1))) := by
    conv_lhs => rw [parts]
    simp [totalLength]
  omega

/-- What slot `number % capacity` holds of frame `number` while no later frame took the slot. -/
structure SlotHolds (size capacity : Nat) (writer : Writer) (number : Nat) (frame : Frame) :
    Prop where
  len : (writer.memory.pstuFrames (number % capacity)).len = frame.framelen
  info : (writer.memory.pstuFrames (number % capacity)).stuFrameInfo = frame.info
  position : (writer.memory.pstuFrames (number % capacity)).position =
    totalLength (writer.accepted.take number) % size
  stored : writer.stored (number % capacity) = some frame
  recent : (writer.memory.pstuFrames (number % capacity)).ucValidFlag = true →
    frame.framelen = 0 ∨
      totalLength writer.accepted ≤ totalLength (writer.accepted.take number) + size

structure WriterInvariant (size capacity : Nat) (writer : Writer) : Prop where
  capacity_eq : writer.memory.pstuHead.uiMaxValidFrames = capacity
  size_eq : writer.memory.pstuHead.datasize = size
  slot : writer.memory.writeSlot = writer.accepted.length % capacity
  position : (writer.memory.pstuFrames writer.memory.writeSlot).position =
    totalLength writer.accepted % size
  lengths : ∀ (number : Nat) (frame : Frame), writer.accepted[number]? = some frame →
    frame.framelen < size / 2
  stream : ∃ stream, Window size writer.memory.pstuData stream (totalLength writer.accepted) ∧
    ∀ (number : Nat) (frame : Frame), writer.accepted[number]? = some frame → ∀ index < frame.framelen,
      stream (totalLength (writer.accepted.take number) + index) = frame.pframe index
  holds : ∀ (number : Nat) (frame : Frame), writer.accepted[number]? = some frame →
    writer.accepted.length < number + capacity → SlotHolds size capacity writer number frame
  fresh : ∀ slot, writer.accepted.length ≤ slot → slot < capacity →
    (writer.memory.pstuFrames slot).ucValidFlag = false

theorem writer_invariant_init (block : SMemoryPosition) (geometry : Geometry) :
    WriterInvariant geometry.size geometry.frames (Writer.init block geometry) where
  capacity_eq := rfl
  size_eq := rfl
  slot := by simp [Writer.init, SMemoryPosition.writeSlot, initMemoryParam]
  position := by
    have capacity : 0 < geometry.frames := Nat.lt_of_lt_of_le (by decide) geometry.frames_ge
    simp [Writer.init, SMemoryPosition.writeSlot, initMemoryParam, zeroFrame, totalLength, capacity]
  lengths := by
    intro number frame present
    simp [Writer.init] at present
  stream := by
    refine ⟨fun _ => 0, window_empty _ _ _, ?_⟩
    intro number frame present
    simp [Writer.init] at present
  holds := by
    intro number frame present
    simp [Writer.init] at present
  fresh := by
    intro slot _ bound
    simp [Writer.init, initMemoryParam, zeroFrame, bound]

/-- Circular distance from `finish` forward to `start`, for a start at most one lap behind. -/
theorem circular_distance {size start finish : Nat} (before : start < finish)
    (recent : finish ≤ start + size) :
    (start % size + size - finish % size) % size = start + size - finish := by
  have positive : 0 < size := by omega
  have small : start + size - finish < size := by omega
  rw [← Nat.mod_eq_of_lt small]
  have bound : finish % size < size := Nat.mod_lt _ positive
  apply Nat.ModEq.add_right_cancel' (finish % size)
  have left : start % size + size - finish % size + finish % size = start % size + size := by
    omega
  rw [left]
  have shift : start + size - finish + finish % size ≡ start + size - finish + finish [MOD size] :=
    (Nat.mod_modEq finish size).add_left _
  rw [show start + size - finish + finish = start + size by omega] at shift
  exact ((Nat.mod_modEq start size).add_right size).trans shift.symm

theorem slot_ne_of_near {capacity left right : Nat} (ordered : left < right)
    (near : right < left + capacity) : left % capacity ≠ right % capacity := by
  intro same
  have equal := eq_of_mod_eq same (by omega) near
  omega

/-- The entry of frame `number` in its slot, whatever became of the payload. -/
structure SlotEntry (size capacity : Nat) (writer : Writer) (number : Nat) (frame : Frame) :
    Prop where
  len : (writer.memory.pstuFrames (number % capacity)).len = frame.framelen
  info : (writer.memory.pstuFrames (number % capacity)).stuFrameInfo = frame.info
  position : (writer.memory.pstuFrames (number % capacity)).position =
    totalLength (writer.accepted.take number) % size

/-- The part of the invariant that does not depend on what the cover check clears. -/
structure RingInvariant (size capacity : Nat) (writer : Writer) : Prop where
  capacity_eq : writer.memory.pstuHead.uiMaxValidFrames = capacity
  size_eq : writer.memory.pstuHead.datasize = size
  slot : writer.memory.writeSlot = writer.accepted.length % capacity
  position : (writer.memory.pstuFrames writer.memory.writeSlot).position =
    totalLength writer.accepted % size
  lengths : ∀ (number : Nat) (frame : Frame), writer.accepted[number]? = some frame →
    frame.framelen < size / 2
  stream : ∃ stream, Window size writer.memory.pstuData stream (totalLength writer.accepted) ∧
    ∀ (number : Nat) (frame : Frame), writer.accepted[number]? = some frame → ∀ index < frame.framelen,
      stream (totalLength (writer.accepted.take number) + index) = frame.pframe index
  entries : ∀ (number : Nat) (frame : Frame), writer.accepted[number]? = some frame →
    writer.accepted.length < number + capacity → SlotEntry size capacity writer number frame

section Step

variable {size capacity : Nat} {writer : Writer} {frame : Frame}

theorem WriterInvariant.ring (invariant : WriterInvariant size capacity writer) :
    RingInvariant size capacity writer := by
  obtain ⟨capacityEq, sizeEq, slot, position, lengths, stream, holds, -⟩ := invariant
  refine ⟨capacityEq, sizeEq, slot, position, lengths, stream, ?_⟩
  intro number frame present near
  obtain ⟨len, info, start, -, -⟩ := holds number frame present near
  exact ⟨len, info, start⟩

theorem put_refused (invariant : RingInvariant size capacity writer)
    (big : size / 2 ≤ frame.framelen) : writer.put frame = writer := by
  have refused := put_rejects writer.memory frame (by rw [invariant.size_eq]; exact big)
  simp [Writer.put, refused]

/-- The writer after an accepted write that leaves the block `after`. -/
def Writer.accept (writer : Writer) (frame : Frame) (after : SMemoryPosition) : Writer where
  memory := after
  accepted := writer.accepted ++ [frame]
  stored := Function.update writer.stored writer.memory.writeSlot (some frame)

theorem appended_cases {accepted : List Frame} {other : Frame} {number : Nat}
    (present : (accepted ++ [frame])[number]? = some other) :
    (number < accepted.length ∧ accepted[number]? = some other) ∨
      (number = accepted.length ∧ other = frame) := by
  rcases Nat.lt_or_ge number accepted.length with before | behind
  · rw [List.getElem?_append_left before] at present
    exact Or.inl ⟨before, present⟩
  · rw [List.getElem?_append_right behind, List.getElem?_singleton] at present
    split_ifs at present with last
    exact Or.inr ⟨by omega, (Option.some.inj present).symm⟩

/-- Where an accepted frame starts in the stream is settled by the frames before it. -/
theorem appended_start {accepted : List Frame} {number : Nat} (bound : number ≤ accepted.length) :
    totalLength ((accepted ++ [frame]).take number) = totalLength (accepted.take number) := by
  rw [List.take_append_of_le_length bound]

theorem ring_next_slot (invariant : RingInvariant size capacity writer) :
    (writer.memory.writeSlot + 1) % writer.memory.pstuHead.uiMaxValidFrames =
      (writer.accepted.length + 1) % capacity := by
  rw [invariant.capacity_eq, invariant.slot, Nat.mod_add_mod]

/-- The slot of an earlier number that the next number leaves alone. -/
theorem ring_other_slot (invariant : RingInvariant size capacity writer) {number : Nat}
    (before : number < writer.accepted.length)
    (near : writer.accepted.length + 1 < number + capacity) :
    number % capacity ≠ writer.memory.writeSlot ∧ number % capacity ≠
      (writer.memory.writeSlot + 1) % writer.memory.pstuHead.uiMaxValidFrames := by
  rw [ring_next_slot invariant, invariant.slot]
  exact ⟨slot_ne_of_near before (by omega), slot_ne_of_near (by omega) near⟩

section Accepted

variable {after : SMemoryPosition}

theorem accepted_stream (invariant : RingInvariant size capacity writer)
    (fits : frame.framelen < size / 2) (accepted : AcceptedPut writer.memory frame after) :
    ∃ stream, Window size after.pstuData stream (totalLength (writer.accepted ++ [frame])) ∧
      ∀ (number : Nat) (other : Frame), (writer.accepted ++ [frame])[number]? = some other →
        ∀ index < other.framelen,
          stream (totalLength ((writer.accepted ++ [frame]).take number) + index) =
            other.pframe index := by
  obtain ⟨bytes, window, content⟩ := invariant.stream
  refine ⟨extend bytes (totalLength writer.accepted) frame.pframe, ?_, ?_⟩
  · rw [accepted.data, invariant.size_eq, invariant.position, total_length_append,
      total_length_single]
    exact window_append frame.pframe frame.framelen (by omega) (by omega) window
  · intro number other present index indexBound
    rcases appended_cases present with ⟨bound, earlier⟩ | ⟨last, same⟩
    · have inside := total_length_take_add earlier
      rw [appended_start (Nat.le_of_lt bound), extend, if_pos (by omega)]
      exact content number other earlier index indexBound
    · rw [last, same, List.take_left, extend, if_neg (by omega), Nat.add_sub_cancel_left]

/-- The entry of the frame just written. -/
theorem accepted_entry_new (invariant : RingInvariant size capacity writer)
    (accepted : AcceptedPut writer.memory frame after) :
    SlotEntry size capacity (writer.accept frame after) writer.accepted.length frame := by
  have slot : writer.accepted.length % capacity = writer.memory.writeSlot := invariant.slot.symm
  have start : (writer.accept frame after).accepted.take writer.accepted.length =
      writer.accepted := List.take_left
  refine ⟨?_, ?_, ?_⟩
  · change (after.pstuFrames _).len = _
    rw [slot, accepted.written]
  · change (after.pstuFrames _).stuFrameInfo = _
    rw [slot, accepted.written]
  · change (after.pstuFrames _).position = _
    rw [slot, start, accepted.written]
    exact invariant.position

/-- The entry of a frame less than one lap back. -/
theorem accepted_entry_old (invariant : RingInvariant size capacity writer)
    (accepted : AcceptedPut writer.memory frame after) {number : Nat} {other : Frame}
    (present : writer.accepted[number]? = some other)
    (near : writer.accepted.length + 1 < number + capacity) :
    SlotEntry size capacity (writer.accept frame after) number other := by
  obtain ⟨bound, -⟩ := List.getElem?_eq_some_iff.mp present
  obtain ⟨len, info, position⟩ := invariant.entries number other present (by omega)
  obtain ⟨notWritten, notNext⟩ := ring_other_slot invariant bound near
  obtain ⟨lenKept, infoKept, -⟩ := accepted.kept _ notWritten
  refine ⟨lenKept.trans len, infoKept.trans info, ?_⟩
  rw [Writer.accept, appended_start (Nat.le_of_lt bound), ← position]
  exact accepted.keptPosition _ notWritten notNext

/-- One accepted write whose walk stays in the table. -/
theorem ring_invariant_accepted (invariant : RingInvariant size capacity writer)
    (fits : frame.framelen < size / 2) (advances : writer.memory.CounterAdvances)
    (accepted : AcceptedPut writer.memory frame after) :
    RingInvariant size capacity (writer.accept frame after) := by
  have count : (writer.accept frame after).accepted.length = writer.accepted.length + 1 :=
    List.length_append
  have nextSlot : after.writeSlot =
      (writer.memory.writeSlot + 1) % writer.memory.pstuHead.uiMaxValidFrames := by
    rw [SMemoryPosition.writeSlot, accepted.head]
    exact advances
  refine ⟨?_, ?_, ?_, ?_, ?_, accepted_stream invariant fits accepted, ?_⟩
  · change after.pstuHead.uiMaxValidFrames = capacity
    rw [accepted.head]
    exact invariant.capacity_eq
  · change after.pstuHead.datasize = size
    rw [accepted.head]
    exact invariant.size_eq
  · change after.writeSlot = _
    rw [nextSlot, ring_next_slot invariant, count]
  · change (after.pstuFrames after.writeSlot).position = totalLength (writer.accepted ++ [frame]) % size
    have inside : totalLength writer.accepted % size < size := Nat.mod_lt _ (by omega)
    rw [nextSlot, accepted.nextPosition, invariant.size_eq, invariant.position,
      circular_next_eq_mod inside (by omega), total_length_append, total_length_single,
      Nat.mod_add_mod]
  · intro number other present
    rcases appended_cases present with ⟨-, earlier⟩ | ⟨-, same⟩
    · exact invariant.lengths number other earlier
    · rwa [same]
  · intro number other present near
    rw [count] at near
    rcases appended_cases present with ⟨-, earlier⟩ | ⟨last, same⟩
    · exact accepted_entry_old invariant accepted earlier near
    · rw [last, same]
      exact accepted_entry_new invariant accepted

/-- A frame less than one lap back that the write ran over: the cover walk has
cleared its flag. -/
theorem accepted_recent (invariant : WriterInvariant size capacity writer)
    (reaches : writer.memory.ReachesOverlapped frame.framelen)
    (accepted : AcceptedPut writer.memory frame after) {number : Nat} {other : Frame}
    (present : writer.accepted[number]? = some other)
    (near : writer.accepted.length + 1 < number + capacity)
    (valid : (after.pstuFrames (number % capacity)).ucValidFlag = true) :
    other.framelen = 0 ∨ totalLength (writer.accepted ++ [frame]) ≤
      totalLength (writer.accepted.take number) + size := by
  have inside := total_length_take_add present
  obtain ⟨bound, -⟩ := List.getElem?_eq_some_iff.mp present
  have held := invariant.holds number other present (by omega)
  obtain ⟨notWritten, notNext⟩ := ring_other_slot invariant.ring bound near
  obtain ⟨validBefore, unwalked⟩ := (accepted.kept _ notWritten).2.2 valid
  rcases Nat.eq_zero_or_pos other.framelen with empty | nonempty
  · exact Or.inl empty
  · refine Or.inr (by_contra fun overrun => unwalked ?_)
    have recent := (held.recent validBefore).resolve_left (by omega)
    rw [total_length_append, total_length_single] at overrun
    apply reaches _ (by rw [invariant.capacity_eq]; exact Nat.mod_lt _ (by omega))
      notWritten notNext validBefore (by rwa [held.len])
    rw [SMemoryPosition.Overlaps, held.position, invariant.position, invariant.size_eq,
      circular_distance (by omega) recent]
    omega

theorem accepted_fresh (invariant : WriterInvariant size capacity writer)
    (accepted : AcceptedPut writer.memory frame after) {slot : Nat}
    (unwritten : writer.accepted.length + 1 ≤ slot) (bound : slot < capacity) :
    (after.pstuFrames slot).ucValidFlag = false := by
  have notWritten : slot ≠ writer.memory.writeSlot := by
    rw [invariant.slot, Nat.mod_eq_of_lt (by omega)]
    omega
  have before := invariant.fresh slot (by omega) bound
  by_contra valid
  have wasValid := ((accepted.kept slot notWritten).2.2 (by simpa using valid)).1
  rw [before] at wasValid
  contradiction

/-- One accepted write: what the cover check adds to the invariant of the ring. -/
theorem writer_invariant_accepted (invariant : WriterInvariant size capacity writer)
    (fits : frame.framelen < size / 2) (advances : writer.memory.CounterAdvances)
    (reaches : writer.memory.ReachesOverlapped frame.framelen)
    (accepted : AcceptedPut writer.memory frame after) :
    WriterInvariant size capacity (writer.accept frame after) := by
  have count : (writer.accept frame after).accepted.length = writer.accepted.length + 1 :=
    List.length_append
  obtain ⟨capacityEq, sizeEq, slot, position, lengths, stream, entries⟩ :=
    ring_invariant_accepted invariant.ring fits advances accepted
  refine ⟨capacityEq, sizeEq, slot, position, lengths, stream, ?_, ?_⟩
  · intro number other present near
    obtain ⟨len, info, start⟩ := entries number other present near
    rw [count] at near
    refine ⟨len, info, start, ?_, fun valid => ?_⟩
    · change Function.update writer.stored writer.memory.writeSlot (some frame) _ = _
      rcases appended_cases present with ⟨bound, earlier⟩ | ⟨last, same⟩
      · rw [Function.update_of_ne (ring_other_slot invariant.ring bound near).1]
        exact (invariant.holds number other earlier (by omega)).stored
      · rw [last, same, ← invariant.slot, Function.update_self]
    · rcases appended_cases present with ⟨bound, earlier⟩ | ⟨last, -⟩
      · rw [Writer.accept, appended_start (Nat.le_of_lt bound)]
        exact accepted_recent invariant reaches accepted earlier near valid
      · right
        rw [Writer.accept, last, List.take_left, total_length_append, total_length_single]
        omega
  · intro slot unwritten bound
    rw [count] at unwritten
    exact accepted_fresh invariant accepted unwritten bound

end Accepted

theorem writer_invariant_step (positive : 2 ≤ capacity) (small : capacity < 2147483648)
    (invariant : WriterInvariant size capacity writer)
    (suffices_ : writer.memory.CoverSuffices frame) :
    WriterInvariant size capacity (writer.put frame) := by
  by_cases big : size / 2 ≤ frame.framelen
  · rwa [put_refused invariant.ring big]
  · rcases suffices_ with refused | ⟨advances, inTable, reaches⟩
    · rw [invariant.size_eq] at refused
      contradiction
    · have accepted := put_accepts (by rw [invariant.capacity_eq]; exact positive)
        (by rw [invariant.capacity_eq]; exact small)
        (by rw [invariant.size_eq]; omega) inTable
      rw [Writer.put, if_pos accepted.1]
      exact writer_invariant_accepted invariant (by omega) advances reaches accepted.2

end Step

theorem writer_run_invariant (block : SMemoryPosition) (geometry : Geometry) (frames : List Frame)
    (meets : Meets Writer.put (fun writer frame => writer.memory.CoverSuffices frame)
      (Writer.init block geometry) frames) :
    WriterInvariant geometry.size geometry.frames
      (run Writer.put (Writer.init block geometry) frames) :=
  run_invariant
    (fun _ _ invariant suffices_ =>
      writer_invariant_step geometry.frames_ge geometry.frames_int invariant suffices_)
    frames _ (writer_invariant_init block geometry) meets

section Intact

variable {size capacity : Nat} {writer : Writer}

/-- The number of the frame that a written slot other than the writer's holds. -/
theorem latest_in_slot {count capacity slot : Nat} (bound : slot < capacity)
    (notNext : slot ≠ count % capacity) (written : slot < count) :
    ∃ number, number < count ∧ count < number + capacity ∧ number % capacity = slot := by
  have remainder := Nat.mod_lt count (show 0 < capacity by omega)
  have parts := Nat.mod_add_div count capacity
  rcases Nat.lt_or_gt_of_ne notNext with below | above
  · refine ⟨slot + capacity * (count / capacity), by omega, by omega, ?_⟩
    rw [Nat.add_mul_mod_self_left, Nat.mod_eq_of_lt bound]
  · have lap : 0 < count / capacity := by
      rcases Nat.eq_zero_or_pos (count / capacity) with zero | positive
      · rw [zero] at parts
        omega
      · exact positive
    obtain ⟨laps, lapsEq⟩ : ∃ laps, count / capacity = laps + 1 := ⟨_, (Nat.succ_pred_eq_of_pos lap).symm⟩
    rw [lapsEq, Nat.mul_succ] at parts
    refine ⟨slot + capacity * laps, by omega, by omega, ?_⟩
    rw [Nat.add_mul_mod_self_left, Nat.mod_eq_of_lt bound]

/-- The bytes of a frame that is not yet overrun, read from where its slot says they are. -/
theorem entry_bytes (positive : 0 < size) (invariant : RingInvariant size capacity writer)
    {number : Nat} {frame : Frame} (present : writer.accepted[number]? = some frame)
    (entry : SlotEntry size capacity writer number frame)
    (recent : frame.framelen = 0 ∨
      totalLength writer.accepted ≤ totalLength (writer.accepted.take number) + size) :
    circularCopyOut size writer.memory.pstuData
      (writer.memory.pstuFrames (number % capacity)).position
      (writer.memory.pstuFrames (number % capacity)).len = frame.bytes := by
  obtain ⟨bytes, window, content⟩ := invariant.stream
  have short := invariant.lengths number frame present
  have inside := total_length_take_add present
  rw [entry.position, entry.len, circular_copy_out_eq _ (Nat.mod_lt _ positive) (by omega)]
  apply take_bytes_congr
  intro index bound
  have near := recent.resolve_left (by omega)
  rw [← content number frame present index bound, add_mod_left_eq]
  exact window _ (by omega) (by omega)

theorem held_frame_bytes (positive : 0 < size) (invariant : WriterInvariant size capacity writer)
    {number : Nat} {frame : Frame} (present : writer.accepted[number]? = some frame)
    (held : SlotHolds size capacity writer number frame)
    (valid : (writer.memory.pstuFrames (number % capacity)).ucValidFlag = true) :
    circularCopyOut size writer.memory.pstuData
      (writer.memory.pstuFrames (number % capacity)).position
      (writer.memory.pstuFrames (number % capacity)).len = frame.bytes :=
  entry_bytes positive invariant.ring present ⟨held.len, held.info, held.position⟩
    (held.recent valid)

theorem intact_of_invariant (positive : 0 < size) (invariant : WriterInvariant size capacity writer)
    {slot : Nat} (bound : slot < capacity) (notNext : slot ≠ writer.memory.writeSlot)
    (valid : (writer.memory.pstuFrames slot).ucValidFlag = true) : Intact writer slot := by
  have written : slot < writer.accepted.length := by
    by_contra unwritten
    rw [invariant.fresh slot (by omega) bound] at valid
    contradiction
  rw [invariant.slot] at notNext
  obtain ⟨number, before, near, slotEq⟩ := latest_in_slot bound notNext written
  subst slotEq
  have present := List.getElem?_eq_getElem before
  have held := invariant.holds number _ present near
  refine ⟨_, held.stored, held.len, ?_⟩
  rw [invariant.size_eq]
  exact held_frame_bytes positive invariant present held valid

end Intact

/-- As long as the cover check gets to every frame that a write runs over, each
valid slot but the writer's next one holds its payload. -/
theorem valid_frames_intact (block : SMemoryPosition) (geometry : Geometry) (frames : List Frame)
    (meets : Meets Writer.put (fun writer frame => writer.memory.CoverSuffices frame)
      (Writer.init block geometry) frames) (slot : Nat) (bound : slot < geometry.frames)
    (notNext : slot ≠ (run Writer.put (Writer.init block geometry) frames).memory.writeSlot)
    (valid : ((run Writer.put (Writer.init block geometry) frames).memory.pstuFrames
      slot).ucValidFlag = true) :
    Intact (run Writer.put (Writer.init block geometry) frames) slot :=
  intact_of_invariant (Nat.lt_of_lt_of_le (by decide) geometry.size_ge)
    (writer_run_invariant block geometry frames meets) bound notNext valid

def frameOf (byte : UInt8) (framelen : Nat) (frametype : FrameType) : Frame where
  pframe := fun _ => byte
  framelen := framelen
  timestamp := byte.toNat
  frametype := frametype
  priority := 1

def tenBytes : Geometry := ⟨10, 4, by decide, by decide, by decide, by decide⟩

def lapFrames : List Frame := [frameOf 7 4 .I, frameOf 8 4 .P, frameOf 9 4 .P]

theorem valid_frames_intact_two :
    Intact (run Writer.put (Writer.init zeroedBlock tenBytes) (lapFrames.take 2)) 0 :=
  valid_frames_intact zeroedBlock tenBytes (lapFrames.take 2) (by decide) 0 (by decide)
    (by decide) (by decide)

/-- The third frame wraps around onto the first one; the walk starts at slot 3,
whose position is not in the written range, and stops there. -/
theorem wrapped_write_keeps_flag :
    let writer := run Writer.put (Writer.init zeroedBlock tenBytes) lapFrames
    (0 < 4 ∧ 0 ≠ writer.memory.writeSlot ∧ (writer.memory.pstuFrames 0).ucValidFlag = true) ∧
      ¬Intact writer 0 := by
  refine ⟨by decide, ?_⟩
  rintro ⟨frame, stored, -, bytes⟩
  have same : frameOf 7 4 .I = frame := Option.some.inj stored
  subst same
  exact absurd bytes (by decide)

end Mgw.StreamBuff
