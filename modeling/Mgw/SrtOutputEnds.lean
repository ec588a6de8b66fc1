import Mathlib.Algebra.Order.BigOperators.Group.List
import Mgw.SrtOutputWrites

/-!
# The end of the send loop

Where the payload size is positive a call ends, and its messages lie in the bytes
that it gathered. Any other payload size is the size of the first message, unless
there is nothing to send.
-/

namespace Mgw.SrtOutput

open ByteArea WordArithmetic

set_option autoImplicit false

/-- A message of some bytes among the first `total` of `data`. -/
structure Inside (data : Bytes) (total : Int) (message : Message) : Prop where
  source : message.send_data = data
  positive : 0 < message.size
  seek : 0 ≤ message.seek
  bound : message.seek + message.size ≤ total

/-- Bytes in the buffer that the gathered bytes are in. -/
def capacity (stream : SrtStream) (buf_size : Nat) : Nat :=
  if stream.left_size ≠ 0 then SRT_MAX_PACKET_SIZE else buf_size

/-- The call ends; its messages lie in the gathered bytes, and so do those that it saves, which
follow those it has sent. -/
def EndsInside (results : Nat → Int) (stream : SrtStream) (buf : Bytes) (buf_size : Nat) : Prop :=
  let gathered := stream.gather buf buf_size
  ∃ fuel outcome, srtStreamProcPacket fuel results stream buf buf_size = some outcome ∧
    gathered.left_size ≤ capacity stream buf_size ∧
    (∀ message ∈ outcome.messages, Inside gathered.send_data gathered.left_size message) ∧
    (outcome.messages = [] ∧ saved outcome.stream = saved stream ∨
      ∃ count : Nat, count ≤ gathered.left_size ∧
        sentBytes outcome.messages ++ saved outcome.stream = takeBytes gathered.send_data count)

/-- Between two writes of a call, whatever the results of the writes. -/
structure Progress (data : Bytes) (total : Int) (state : SendState) : Prop where
  source : state.send_data = data
  seek : 0 ≤ state.send_seek
  whole : state.send_seek + state.left_size = total
  inside : ∀ message ∈ state.messages, Inside data total message
  sent : sentBytes state.messages = takeBytes data state.send_seek.toNat
  nothing : state.stream.left_size = 0

/-- Behind a special error. -/
structure Stopped (data : Bytes) (total : Int) (state : SendState) : Prop where
  inside : ∀ message ∈ state.messages, Inside data total message
  sent : ∃ count : Nat, count ≤ total ∧ sentBytes state.messages = takeBytes data count
  nothing : state.stream.left_size = 0

/-- How a number of writes may end. -/
def Advances (data : Bytes) (total left : Int) : Except SendState SendState → Prop
  | .error failed => Stopped data total failed
  | .ok sent => Progress data total sent ∧ sent.left_size = left

section Writes

variable {results : Nat → Int} {payload_size size total : Int} {data : Bytes} {state : SendState}

theorem count_write_left (stream : SrtStream) (ret payload_size : Int) :
    (stream.countWrite ret payload_size).left_size = stream.left_size := by
  unfold SrtStream.countWrite
  split_ifs
  all_goals rfl

/-- A write sends the next bytes. -/
theorem write_advances (progress : Progress data total state) (positive : 0 < size)
    (available : size ≤ state.left_size) :
    Advances data total (state.left_size - size)
      ((state.write results payload_size size).map
        fun sent => { sent with left_size := sent.left_size - size }) := by
  obtain ⟨source, seek, whole, inside, sent, nothing⟩ := progress
  have here : Inside data total ⟨state.send_data, state.send_seek, size⟩ :=
    ⟨source, positive, seek, by dsimp only; omega⟩
  have inside' : ∀ message ∈ state.messages ++ [⟨state.send_data, state.send_seek, size⟩],
      Inside data total message := by
    intro message member
    rcases List.mem_append.mp member with old | new
    · exact inside message old
    · rw [List.mem_singleton.mp new]
      exact here
  have next : (state.send_seek + size).toNat = state.send_seek.toNat + size.toNat := by omega
  have sent' : sentBytes (state.messages ++ [⟨state.send_data, state.send_seek, size⟩]) =
      takeBytes data (state.send_seek + size).toNat := by
    rw [sent_bytes_append, sent, next, take_bytes_add, sentBytes, List.flatMap_cons,
      List.flatMap_nil, List.append_nil, Message.bytes, source]
  unfold SendState.write
  dsimp only
  split_ifs
  · exact ⟨inside', ⟨(state.send_seek + size).toNat, by omega, sent'⟩, nothing⟩
  · refine ⟨⟨source, ?_, ?_, inside', sent', ?_⟩, rfl⟩
    · change 0 ≤ state.send_seek + size
      omega
    · change state.send_seek + size + (state.left_size - size) = total
      omega
    · exact (count_write_left _ _ _).trans nothing

theorem write_all_advances (sizes : List Int) (progress : Progress data total state)
    (positive : ∀ size ∈ sizes, 0 < size) (available : sizes.sum ≤ state.left_size) :
    Advances data total (state.left_size - sizes.sum)
      (state.writeAll results payload_size sizes) := by
  induction sizes generalizing state with
  | nil => exact ⟨progress, by rw [List.sum_nil, Int.sub_zero]⟩
  | cons size sizes ih =>
      have rest : 0 ≤ sizes.sum := List.sum_nonneg fun other member =>
        Int.le_of_lt (positive other (List.mem_cons_of_mem size member))
      rw [List.sum_cons] at available
      have first := @write_advances results payload_size size _ _ _ progress
        (positive size List.mem_cons_self) (by omega)
      rw [SendState.writeAll]
      cases written : state.write results payload_size size with
      | error failed =>
          rw [written] at first
          exact first
      | ok sent =>
          rw [written] at first
          obtain ⟨after, left⟩ := first
          have behind := ih after (fun other member =>
            positive other (List.mem_cons_of_mem size member)) (by rw [left]; omega)
          rw [left, Int.sub_sub, ← List.sum_cons] at behind
          exact behind

/-- What is saved follows what has been sent. -/
theorem settle_inside {buf_size : Nat} {ts_left : Int} {ended : Except SendState SendState}
    (advances : Advances data total ts_left ended) (nonneg : 0 ≤ ts_left) :
    (∀ message ∈ (Outcome.settle buf_size ts_left ended).messages, Inside data total message) ∧
      ∃ count : Nat, count ≤ total ∧
        sentBytes (Outcome.settle buf_size ts_left ended).messages ++
          saved (Outcome.settle buf_size ts_left ended).stream = takeBytes data count := by
  cases ended with
  | error failed =>
      obtain ⟨inside, ⟨count, bound, sent⟩, nothing⟩ := advances
      have none : saved (Outcome.failed failed).stream = [] := by
        change takeBytes failed.stream.left_data failed.stream.left_size = []
        rw [nothing]
        rfl
      refine ⟨inside, count, bound, ?_⟩
      change sentBytes failed.messages ++ saved (Outcome.failed failed).stream = _
      rw [none, List.append_nil, sent]
  | ok sent =>
      obtain ⟨⟨source, seek, whole, inside, bytes, nothing⟩, left⟩ := advances
      refine ⟨?_, total.toNat, ?_, ?_⟩
      · change ∀ message ∈ (sent.saveLeft ts_left).messages, Inside data total message
        rw [save_left_messages]
        exact inside
      · omega
      · change sentBytes (sent.saveLeft ts_left).messages ++ saved (sent.saveLeft ts_left).stream = _
        have whole' : total.toNat = sent.send_seek.toNat + ts_left.toNat := by omega
        rw [save_left_messages, save_left_saved nothing, bytes, whole', take_bytes_add, source]

end Writes

section Gather

variable (stream : SrtStream) (buf : Bytes) (buf_size : Nat)

theorem gather_progress : Progress (stream.gather buf buf_size).send_data
    (stream.gather buf buf_size).left_size (stream.gather buf buf_size) := by
  unfold SrtStream.gather
  split_ifs with kept
  · exact ⟨rfl, Int.le_refl _, Int.zero_add _, fun _ member => by contradiction, rfl, rfl⟩
  · exact ⟨rfl, Int.le_refl _, Int.zero_add _, fun _ member => by contradiction, rfl,
      not_not.mp kept⟩

/-- The buffer is copied behind the saved bytes as far as there is room. -/
theorem gather_capacity (fits : stream.left_size ≤ SRT_MAX_PACKET_SIZE) :
    (stream.gather buf buf_size).left_size ≤ capacity stream buf_size := by
  unfold SrtStream.gather capacity
  split_ifs with kept
  · have room : sub32 SRT_MAX_PACKET_SIZE stream.left_size =
        SRT_MAX_PACKET_SIZE - stream.left_size := sub32_of_le_of_lt fits (by decide)
    dsimp only
    rw [room]
    split_ifs <;> omega
  · exact Int.le_refl _

theorem gather_empty : (stream.gather buf buf_size).left_size = 0 ↔
    stream.left_size = 0 ∧ buf_size = 0 := by
  unfold SrtStream.gather
  split_ifs with kept
  · dsimp only
    omega
  · dsimp only
    omega

end Gather

section Unsent

variable {results : Nat → Int} {payload_size : Int} {state : SendState} {message : Message}

theorem write_messages (size : Int) :
    (SendState.reached (state.write results payload_size size)).messages =
      state.messages ++ [⟨state.send_data, state.send_seek, size⟩] := by
  unfold SendState.write
  dsimp only
  split_ifs
  all_goals rfl

theorem write_keeps (member : message ∈ state.messages) (size : Int) :
    message ∈ (SendState.reached (state.write results payload_size size)).messages := by
  rw [write_messages]
  exact List.mem_append_left _ member

theorem send_loop_keeps {fuel : Nat} {looped : Except SendState SendState}
    (loop : state.sendLoop results payload_size fuel = some looped)
    (member : message ∈ state.messages) : message ∈ (SendState.reached looped).messages := by
  induction fuel generalizing state with
  | zero => contradiction
  | succ fuel ih =>
      rw [SendState.sendLoop] at loop
      split_ifs at loop
      · have kept := @write_keeps results payload_size state message member payload_size
        cases written : state.write results payload_size payload_size with
        | error failed =>
            rw [written] at loop kept
            rw [← Option.some.inj loop]
            exact kept
        | ok sent =>
            rw [written] at loop kept
            exact ih loop kept
      · rw [← Option.some.inj loop]
        exact member

theorem send_tail_keeps (member : message ∈ state.messages) :
    message ∈ (SendState.reached (state.sendTail results payload_size)).messages := by
  rw [SendState.sendTail]
  dsimp only
  generalize (if state.left_size % MPEGTS_FIX_SIZE ≠ 0 then
    state.left_size - state.left_size % MPEGTS_FIX_SIZE else state.left_size) = full
  split_ifs
  · have first := @write_keeps results payload_size state message member full
    cases written : state.write results payload_size full with
    | error failed =>
        rw [written] at first
        exact first
    | ok sent =>
        rw [written] at first
        change message ∈ (sent.saveLeft _).messages
        rw [save_left_messages]
        exact first
  · change message ∈ (state.saveLeft _).messages
    rw [save_left_messages]
    exact member
  · exact member

/-- A payload size below what is left is the size of the first message. -/
theorem send_loop_first {fuel : Nat} {looped : Except SendState SendState}
    (loop : state.sendLoop results payload_size fuel = some looped)
    (more : payload_size < state.left_size) :
    ⟨state.send_data, state.send_seek, payload_size⟩ ∈ (SendState.reached looped).messages := by
  cases fuel with
  | zero => contradiction
  | succ fuel =>
      rw [SendState.sendLoop, if_pos more] at loop
      have first := @write_messages results payload_size state payload_size
      have member : (⟨state.send_data, state.send_seek, payload_size⟩ : Message) ∈
          (SendState.reached (state.write results payload_size payload_size)).messages := by
        rw [first]
        exact List.mem_append_right _ (List.mem_singleton_self _)
      cases written : state.write results payload_size payload_size with
      | error failed =>
          rw [written] at loop member
          rw [← Option.some.inj loop]
          exact member
      | ok sent =>
          rw [written] at loop member
          exact send_loop_keeps loop member

theorem proc_packet_first {stream : SrtStream} {buf : Bytes} {buf_size fuel : Nat}
    {outcome : Outcome} (accepted : ¬Refused stream)
    (payload : mgwLibsrtGetPayloadSize stream.srt_context = payload_size)
    (more : payload_size < (stream.gather buf buf_size).left_size)
    (result : srtStreamProcPacket fuel results stream buf buf_size = some outcome) :
    ∃ message ∈ outcome.messages, message.size = payload_size := by
  obtain ⟨before, errors⟩ := not_or.mp accepted
  rw [srtStreamProcPacket, if_neg before, if_neg errors, payload] at result
  obtain ⟨looped, loop, same⟩ := Option.map_eq_some_iff.mp result
  have first := send_loop_first loop more
  suffices member : ⟨(stream.gather buf buf_size).send_data, (stream.gather buf buf_size).send_seek,
      payload_size⟩ ∈ outcome.messages from ⟨_, member, rfl⟩
  rw [← same]
  cases looped with
  | error failed => exact first
  | ok state =>
      have kept := @send_tail_keeps results payload_size state _ first
      rw [Except.bind]
      cases tail : state.sendTail results payload_size with
      | error failed =>
          rw [tail] at kept
          exact kept
      | ok sent =>
          rw [tail] at kept
          exact kept

end Unsent

section Call

variable {results : Nat → Int} {stream : SrtStream} {buf : Bytes} {buf_size : Nat}
  {payload_size : Int}

theorem refused_ends (fits : stream.left_size ≤ SRT_MAX_PACKET_SIZE) (refused : Refused stream) :
    EndsInside results stream buf buf_size := by
  have room := gather_capacity stream buf buf_size fits
  by_cases closed : (!stream.active || stream.stopping || stream.disconnected) = true
  · exact ⟨0, _, proc_packet_closed closed 0, room, fun _ member => by contradiction,
      Or.inl ⟨rfl, rfl⟩⟩
  · exact ⟨0, _, proc_packet_threshold closed (refused.resolve_left closed) 0, room,
      fun _ member => by contradiction, Or.inl ⟨rfl, rfl⟩⟩

theorem positive_ends (fits : stream.left_size ≤ SRT_MAX_PACKET_SIZE) (accepted : ¬Refused stream)
    (payload : mgwLibsrtGetPayloadSize stream.srt_context = payload_size)
    (positive : 0 < payload_size) : EndsInside results stream buf buf_size := by
  obtain ⟨total, gathered⟩ : ∃ total, (stream.gather buf buf_size).left_size = total := ⟨_, rfl⟩
  have nonneg := gather_nonneg stream buf buf_size
  have progress := gather_progress stream buf buf_size
  rw [gathered] at nonneg progress
  have sum := plan_sum positive nonneg
  have short : 0 ≤ lastPart payload_size total % MPEGTS_FIX_SIZE := Int.emod_nonneg _ (by decide)
  have advances := @write_all_advances results payload_size _ _ _ (plan payload_size total) progress
    (plan_positive positive) (by rw [gathered]; omega)
  have left : (stream.gather buf buf_size).left_size - (plan payload_size total).sum =
      lastPart payload_size total % MPEGTS_FIX_SIZE := by omega
  rw [left] at advances
  obtain ⟨inside, rest⟩ := @settle_inside _ _ buf_size _ _ advances short
  refine ⟨_, _, proc_packet_writes accepted payload positive gathered,
    gather_capacity stream buf buf_size fits, ?_, Or.inr ?_⟩
  · rw [gathered]
    exact inside
  · rw [gathered]
    exact rest

/-- Nothing is left for the loop. -/
theorem zero_ends (fits : stream.left_size ≤ SRT_MAX_PACKET_SIZE) (accepted : ¬Refused stream)
    (payload : mgwLibsrtGetPayloadSize stream.srt_context = 0) (kept : stream.left_size = 0) :
    EndsInside results stream buf 0 := by
  obtain ⟨before, errors⟩ := not_or.mp accepted
  have gathered : stream.gather buf 0 = ⟨stream, buf, 0, 0, 0, []⟩ := by
    rw [SrtStream.gather, if_neg (not_not.mpr kept)]
    rfl
  have call : srtStreamProcPacket 1 results stream buf 0 = some ⟨0, stream, []⟩ := by
    rw [srtStreamProcPacket, if_neg before, if_neg errors, payload, gathered]
    rfl
  exact ⟨1, _, call, gather_capacity stream buf 0 fits, fun _ member => by contradiction,
    Or.inl ⟨rfl, rfl⟩⟩

/-- With a payload size of zero nothing is ever taken off what is left. -/
theorem zero_loop_stuck (counted : ∀ i, specialError (results i) = false) (fuel : Nat)
    (state : SendState) (more : 0 < state.left_size) : state.sendLoop results 0 fuel = none := by
  induction fuel generalizing state with
  | zero => rfl
  | succ fuel ih =>
      have written : state.write results 0 0 = .ok { state with
          ret := results state.messages.length
          messages := state.messages ++ [⟨state.send_data, state.send_seek, 0⟩]
          stream := state.stream.countWrite (results state.messages.length) 0
          send_seek := state.send_seek + 0 } := by
        rw [SendState.write, counted]
        rfl
      rw [SendState.sendLoop, if_pos more, written]
      apply ih
      change 0 < state.left_size - 0
      omega

/-- A call ends inside its bytes if it is refused, if the payload size is positive, or if the
payload size is zero and there is nothing to send. -/
theorem ends_inside_iff (results : Nat → Int) (stream : SrtStream) (buf : Bytes) (buf_size : Nat)
    (fits : stream.left_size ≤ SRT_MAX_PACKET_SIZE) (payload_size : Int)
    (payload : mgwLibsrtGetPayloadSize stream.srt_context = payload_size) :
    EndsInside results stream buf buf_size ↔ Refused stream ∨ 0 < payload_size ∨
      payload_size = 0 ∧ stream.left_size = 0 ∧ buf_size = 0 := by
  have nonneg := gather_nonneg stream buf buf_size
  constructor
  · intro ends
    obtain ⟨fuel, outcome, result, -, inside, -⟩ := ends
    by_contra fails
    obtain ⟨accepted, fails⟩ := not_or.mp fails
    obtain ⟨negative, fails⟩ := not_or.mp fails
    have more : payload_size < (stream.gather buf buf_size).left_size := by
      by_contra ends
      have zero : payload_size = 0 := by omega
      have empty : (stream.gather buf buf_size).left_size = 0 := by omega
      exact fails ⟨zero, (gather_empty stream buf buf_size).mp empty⟩
    obtain ⟨message, member, size⟩ := proc_packet_first accepted payload more result
    have positive := (inside message member).positive
    omega
  · intro holds
    by_cases refused : Refused stream
    · exact refused_ends fits refused
    rcases holds.resolve_left refused with positive | ⟨rfl, kept, rfl⟩
    · exact positive_ends fits refused payload positive
    · exact zero_ends fits refused payload kept

theorem ends_inside_iff_message :
    EndsInside (fun _ => 0) (freshStream 376) (fun _ => 0x47) 1000 :=
  (ends_inside_iff (fun _ => 0) (freshStream 376) (fun _ => 0x47) 1000 (by decide) 376 rfl).mpr
    (Or.inr (Or.inl (by decide)))

/-- A payload size of zero. -/
theorem zero_payload_not_inside :
    ¬EndsInside (fun _ => 0) (freshStream 0) (fun _ => 0x47) 188 := by
  intro ends
  obtain ⟨fuel, outcome, result, -⟩ := ends
  rw [srtStreamProcPacket, if_neg (by decide), if_neg (by decide)] at result
  obtain ⟨looped, loop, -⟩ := Option.map_eq_some_iff.mp result
  have stuck := zero_loop_stuck (fun _ => not_special (Int.le_refl 0)) fuel
    ((freshStream 0).gather (fun _ => 0x47) 188) (by decide)
  have same := stuck.symm.trans loop
  contradiction

end Call

end Mgw.SrtOutput
