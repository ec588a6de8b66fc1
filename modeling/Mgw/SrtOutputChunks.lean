import Mgw.SrtOutput
import Mgw.TransitionRuns

/-!
# What the SRT stream sends

For a payload size that is a multiple of the TS packet size, all bytes that have
been sent, followed by those that the call has yet to send, are the bytes that
the call began with. The loop and the tail keep that, and between calls the
bytes yet to send are the saved ones.
-/

namespace Mgw.SrtOutput

open ByteArea WordArithmetic TransitionRuns

set_option autoImplicit false

/-- The size of the AVIO buffer of the muxer. -/
def avioBufferSize : Nat := 65536

/-- A message of whole TS packets, not longer than the payload size. -/
structure WellSized (payload_size : Int) (message : Message) : Prop where
  nonempty : message.bytes ≠ []
  packets : MPEGTS_FIX_SIZE ∣ message.bytes.length
  bounded : message.bytes.length ≤ payload_size

/-- What a call has yet to send. -/
def SendState.remaining (state : SendState) : List UInt8 :=
  takeBytes (advance state.send_data state.send_seek.toNat) state.left_size.toNat

/-- The stream is the one the call began with, except that it has counted more bytes. -/
def SameBut (stream after : SrtStream) : Prop :=
  after = { stream with total_sent_bytes := after.total_sent_bytes }

/-- All writes of a call succeed. -/
def Succeeds (results : Nat → Int) : Prop := ∀ i, 0 ≤ results i

/-- Between two writes of a call that has `pending` to send. -/
structure Sending (payload_size : Int) (stream : SrtStream) (pending : List UInt8)
    (state : SendState) : Prop where
  same : SameBut stream state.stream
  seek : 0 ≤ state.send_seek
  left : 0 ≤ state.left_size
  bytes : sentBytes state.messages ++ state.remaining = pending
  sized : ∀ message ∈ state.messages, WellSized payload_size message

section Call

variable {results : Nat → Int} {payload_size size : Int} {stream : SrtStream}
  {pending : List UInt8} {state : SendState}

theorem sent_bytes_append (left right : List Message) :
    sentBytes (left ++ right) = sentBytes left ++ sentBytes right := List.flatMap_append

theorem not_special {ret : Int} (success : 0 ≤ ret) : specialError ret = false := by
  simp only [specialError, Bool.or_eq_false_iff, Bool.and_eq_false_iff, decide_eq_false_iff_not]
  omega

theorem message_length (message : Message) : message.bytes.length = message.size.toNat :=
  take_bytes_length _ _

theorem message_sized {message : Message} (positive : 0 < message.size)
    (packets : (MPEGTS_FIX_SIZE : Int) ∣ message.size) (bounded : message.size ≤ payload_size) :
    WellSized payload_size message := by
  constructor
  · apply List.ne_nil_of_length_pos
    rw [message_length]
    omega
  · rw [message_length]
    simp only [MPEGTS_FIX_SIZE] at packets ⊢
    omega
  · rw [message_length]
    omega

theorem count_write_same {ret : Int} (success : 0 ≤ ret) (same : SameBut stream state.stream) :
    SameBut stream (state.stream.countWrite ret payload_size) := by
  have count : state.stream.countWrite ret payload_size =
      { state.stream with total_sent_bytes :=
        ((state.stream.total_sent_bytes + payload_size) % 18446744073709551616).toNat } := by
    rw [SrtStream.countWrite, if_neg (by omega)]
  rw [count, SameBut, same]

/-- A message is the first part of what remained. -/
theorem remaining_split (seek : 0 ≤ state.send_seek) (positive : 0 < size)
    (available : size ≤ state.left_size) :
    state.remaining = Message.bytes ⟨state.send_data, state.send_seek, size⟩ ++
      takeBytes (advance state.send_data (state.send_seek + size).toNat)
        (state.left_size - size).toNat := by
  have parts : state.left_size.toNat = size.toNat + (state.left_size - size).toNat := by omega
  have next : (state.send_seek + size).toNat = state.send_seek.toNat + size.toNat := by omega
  rw [SendState.remaining, parts, take_bytes_add, advance_advance, next]
  rfl

/-- The state after a write of `size` bytes that succeeds. -/
theorem write_succeeds (succeeds : Succeeds results) (sending : Sending payload_size stream pending state)
    (positive : 0 < size) (available : size ≤ state.left_size)
    (packets : (MPEGTS_FIX_SIZE : Int) ∣ size) (bounded : size ≤ payload_size) :
    ∃ sent, state.write results payload_size size = .ok sent ∧
      sent.send_data = state.send_data ∧ sent.left_size = state.left_size ∧
      sent.send_seek = state.send_seek + size ∧
      Sending payload_size stream pending { sent with left_size := sent.left_size - size } := by
  obtain ⟨same, seek, left, bytes, sized⟩ := sending
  have success := succeeds state.messages.length
  have written : state.write results payload_size size = .ok { state with
      ret := results state.messages.length
      messages := state.messages ++ [⟨state.send_data, state.send_seek, size⟩]
      stream := state.stream.countWrite (results state.messages.length) payload_size
      send_seek := state.send_seek + size } := by
    rw [SendState.write, not_special success]
    rfl
  refine ⟨_, written, rfl, rfl, rfl, ?_⟩
  constructor
  · exact count_write_same success same
  · change 0 ≤ state.send_seek + size
    omega
  · change 0 ≤ state.left_size - size
    omega
  · rw [remaining_split seek positive available] at bytes
    rw [← bytes]
    simp only [sent_bytes_append, List.append_assoc]
    rw [sentBytes, sentBytes, List.flatMap_cons, List.flatMap_nil, List.append_nil]
    rfl
  · intro other member
    rcases List.mem_append.mp member with old | new
    · exact sized other old
    · rw [List.mem_singleton.mp new]
      exact message_sized positive packets bounded

/-- The loop leaves at most one payload, and all of it if it was no more. -/
theorem send_loop_spec (succeeds : Succeeds results) (positive : 0 < payload_size)
    (packets : (MPEGTS_FIX_SIZE : Int) ∣ payload_size) (fuel : Nat) (state : SendState)
    (enough : state.left_size < fuel) (sending : Sending payload_size stream pending state) :
    ∃ looped, state.sendLoop results payload_size fuel = some (.ok looped) ∧
      looped.left_size ≤ payload_size ∧ Sending payload_size stream pending looped := by
  induction fuel generalizing state with
  | zero =>
      have left := sending.left
      omega
  | succ fuel ih =>
      by_cases more : payload_size < state.left_size
      · obtain ⟨sent, written, -, size, -, kept⟩ := write_succeeds succeeds sending positive
          (Int.le_of_lt more) packets (Int.le_refl _)
        obtain ⟨looped, result, bound, after⟩ :=
          ih { sent with left_size := sent.left_size - payload_size } (by simp only [size]; omega) kept
        refine ⟨looped, ?_, bound, after⟩
        rw [SendState.sendLoop, if_pos more, written]
        exact result
      · exact ⟨state, by rw [SendState.sendLoop, if_neg more], by omega, sending⟩

/-- The stream keeps what a call has not sent. -/
def saved (stream : SrtStream) : List UInt8 := takeBytes stream.left_data stream.left_size

/-- Behind a call that had `pending` to send. -/
structure Sent (payload_size : Int) (stream : SrtStream) (pending : List UInt8)
    (state : SendState) : Prop where
  same : state.stream = { stream with
    total_sent_bytes := state.stream.total_sent_bytes
    left_data := state.stream.left_data
    left_size := state.stream.left_size }
  short : state.stream.left_size < MPEGTS_FIX_SIZE
  bytes : sentBytes state.messages ++ saved state.stream = pending
  sized : ∀ message ∈ state.messages, WellSized payload_size message

/-- The saved bytes are the next ones that would be sent. -/
theorem save_left_saved (nothing : state.stream.left_size = 0) (ts_left : Int) :
    saved (state.saveLeft ts_left).stream =
      takeBytes (advance state.send_data state.send_seek.toNat) ts_left.toNat := by
  by_cases some : 0 < ts_left
  · rw [SendState.saveLeft, if_pos some]
    apply take_bytes_congr
    intro index bound
    have copied := copy_in_inside state.stream.left_data
      (advance state.send_data state.send_seek.toNat) 0 ts_left.toNat index bound
    rwa [Nat.zero_add] at copied
  · have none : ts_left.toNat = 0 := by omega
    rw [SendState.saveLeft, if_neg some, saved, nothing, none]
    rfl

theorem save_left_messages (ts_left : Int) :
    (state.saveLeft ts_left).messages = state.messages := by
  unfold SendState.saveLeft
  split_ifs
  all_goals rfl

/-- The rest is less than a TS packet. -/
theorem save_left_sent {ts_left : Int}
    (sending : Sending payload_size stream pending { state with left_size := ts_left })
    (nothing : stream.left_size = 0) (short : ts_left < MPEGTS_FIX_SIZE) :
    Sent payload_size stream pending (state.saveLeft ts_left) := by
  obtain ⟨same, seek, left, bytes, sized⟩ := sending
  change SameBut stream state.stream at same
  change 0 ≤ ts_left at left
  have size : state.stream.left_size = 0 := by
    rw [same]
    exact nothing
  constructor
  · unfold SendState.saveLeft
    split_ifs
    all_goals rw [same]
  · unfold SendState.saveLeft
    split_ifs
    · change ts_left.toNat < _
      omega
    · rw [size]
      decide
  · rw [save_left_messages, save_left_saved size]
    exact bytes
  · rw [save_left_messages]
    exact sized

/-- The full TS packets that are left go out in one message. -/
theorem send_tail_spec (succeeds : Succeeds results) (nothing : stream.left_size = 0)
    (sending : Sending payload_size stream pending state) (bound : state.left_size ≤ payload_size) :
    ∃ sent, state.sendTail results payload_size = .ok sent ∧
      Sent payload_size stream pending sent := by
  have left := sending.left
  have rest : (MPEGTS_FIX_SIZE : Int) * (state.left_size / MPEGTS_FIX_SIZE) +
      state.left_size % MPEGTS_FIX_SIZE = state.left_size := Int.mul_ediv_add_emod _ _
  have short : state.left_size % MPEGTS_FIX_SIZE < MPEGTS_FIX_SIZE :=
    Int.emod_lt_of_pos _ (by decide)
  have nonneg : 0 ≤ state.left_size % MPEGTS_FIX_SIZE := Int.emod_nonneg _ (by decide)
  have part : state.left_size % MPEGTS_FIX_SIZE ≤ state.left_size := by
    simp only [MPEGTS_FIX_SIZE]
    omega
  obtain ⟨full, fullDef⟩ : ∃ full, full = state.left_size - state.left_size % MPEGTS_FIX_SIZE :=
    ⟨_, rfl⟩
  have sizes : (if state.left_size % MPEGTS_FIX_SIZE ≠ 0 then
      state.left_size - state.left_size % MPEGTS_FIX_SIZE else state.left_size) = full := by
    split_ifs <;> omega
  by_cases some : 0 < state.left_size
  · have tail : state.sendTail results payload_size =
        if 0 < full then (state.write results payload_size full).map
          (SendState.saveLeft (state.left_size % MPEGTS_FIX_SIZE))
        else .ok (state.saveLeft (state.left_size % MPEGTS_FIX_SIZE)) := by
      rw [SendState.sendTail, if_pos some]
      simp only [sizes]
    rw [tail]
    by_cases packets : 0 < full
    · have whole : (MPEGTS_FIX_SIZE : Int) ∣ full :=
        ⟨state.left_size / MPEGTS_FIX_SIZE, by omega⟩
      obtain ⟨sent, written, -, size, -, kept⟩ :=
        write_succeeds succeeds sending packets (by omega) whole (by omega)
      have ts_left : sent.left_size - full = state.left_size % MPEGTS_FIX_SIZE := by omega
      rw [ts_left] at kept
      rw [if_pos packets, written]
      exact ⟨_, rfl, save_left_sent kept nothing short⟩
    · have same : state.left_size % MPEGTS_FIX_SIZE = state.left_size := by omega
      rw [if_neg packets, same]
      rw [same] at short
      exact ⟨_, rfl, save_left_sent sending nothing short⟩
  · have after := save_left_sent sending nothing (by
      have none : state.left_size = 0 := by omega
      rw [none]
      decide)
    rw [SendState.saveLeft, if_neg some] at after
    exact ⟨state, by rw [SendState.sendTail, if_neg some], after⟩

/-- There is room in `left_data` for every buffer of the muxer. -/
theorem gather_behind {buf : Bytes} {buf_size : Nat} (remaining : stream.left_size ≠ 0)
    (short : stream.left_size < MPEGTS_FIX_SIZE) (fits : buf_size ≤ avioBufferSize) :
    stream.gather buf buf_size =
      { stream := { stream with
          left_data := copyIn stream.left_data stream.left_size buf buf_size
          left_size := 0 }
        send_data := copyIn stream.left_data stream.left_size buf buf_size
        send_seek := 0
        left_size := stream.left_size + buf_size
        ret := 0
        messages := [] } := by
  have room : ¬sub32 SRT_MAX_PACKET_SIZE stream.left_size < buf_size := by
    simp only [MPEGTS_FIX_SIZE, avioBufferSize] at short fits
    simp only [sub32, wordSize, SRT_MAX_PACKET_SIZE]
    omega
  rw [SrtStream.gather, if_pos remaining]
  simp only [if_neg room]

/-- The call has the saved bytes and those of the buffer to send. -/
theorem gather_sending (stream : SrtStream) (buf : Bytes) (buf_size : Nat)
    (short : stream.left_size < MPEGTS_FIX_SIZE) (fits : buf_size ≤ avioBufferSize) :
    Sending payload_size (stream.gather buf buf_size).stream
      (saved stream ++ takeBytes buf buf_size) (stream.gather buf buf_size) := by
  by_cases remaining : stream.left_size ≠ 0
  · rw [gather_behind remaining short fits]
    have size : (stream.left_size + buf_size : Int).toNat = stream.left_size + buf_size := by omega
    refine ⟨rfl, Int.le_refl _, Int.add_nonneg (Int.natCast_nonneg _) (Int.natCast_nonneg _), ?_,
      fun _ member => by contradiction⟩
    change takeBytes (advance (copyIn stream.left_data stream.left_size buf buf_size) 0)
      (stream.left_size + buf_size : Int).toNat = _
    rw [size, take_bytes_add]
    congr 1
    · apply take_bytes_congr
      intro index bound
      rw [advance_apply, Nat.zero_add]
      exact copy_in_outside _ _ _ _ _ (Or.inl bound)
    · apply take_bytes_congr
      intro index bound
      rw [advance_advance, advance_apply, Nat.zero_add]
      exact copy_in_inside _ _ _ _ _ bound
  · have none : stream.left_size = 0 := by omega
    rw [SrtStream.gather, if_neg remaining, saved, none]
    refine ⟨rfl, Int.le_refl _, Int.natCast_nonneg _, ?_, fun _ member => by contradiction⟩
    apply take_bytes_congr
    intro index bound
    rw [advance_apply]
    exact congrArg buf (Nat.zero_add index)

theorem gather_stream (stream : SrtStream) (buf : Bytes) (buf_size : Nat)
    (short : stream.left_size < MPEGTS_FIX_SIZE) (fits : buf_size ≤ avioBufferSize) :
    (stream.gather buf buf_size).left_size = stream.left_size + buf_size ∧
      (stream.gather buf buf_size).stream = { stream with
        left_data := (stream.gather buf buf_size).stream.left_data
        left_size := 0 } := by
  by_cases remaining : stream.left_size ≠ 0
  · rw [gather_behind remaining short fits]
    exact ⟨rfl, rfl⟩
  · have none : stream.left_size = 0 := by omega
    rw [SrtStream.gather, if_neg remaining, none]
    refine ⟨(Int.zero_add _).symm, ?_⟩
    change stream = { stream with left_size := 0 }
    rw [← none]

end Call

/-- The stream is active and connected and has not counted too many errors. -/
structure Connected (payload_size : Int) (stream : SrtStream) : Prop where
  active : stream.active = true
  running : stream.stopping = false
  connected : stream.disconnected = false
  errors : stream.send_error_cnt ≤ SRT_ERROR_THRESHOLD
  payload : mgwLibsrtGetPayloadSize stream.srt_context = payload_size
  short : stream.left_size < MPEGTS_FIX_SIZE

theorem connected_kept {payload_size : Int} {stream after : SrtStream}
    (connected : Connected payload_size stream)
    (same : after = { stream with
      total_sent_bytes := after.total_sent_bytes
      left_data := after.left_data
      left_size := after.left_size })
    (short : after.left_size < MPEGTS_FIX_SIZE) : Connected payload_size after := by
  obtain ⟨active, running, linked, errors, payload, -⟩ := connected
  constructor
  · rwa [same]
  · rwa [same]
  · rwa [same]
  · rwa [same]
  · rwa [same]
  · exact short

/-- Everything a call does whose writes succeed. -/
theorem proc_packet_spec {results : Nat → Int} {payload_size : Int} {stream : SrtStream}
    (succeeds : Succeeds results) (positive : 0 < payload_size)
    (packets : (MPEGTS_FIX_SIZE : Int) ∣ payload_size) (connected : Connected payload_size stream)
    (buf : Bytes) (buf_size : Nat) (fits : buf_size ≤ avioBufferSize) (fuel : Nat)
    (enough : MPEGTS_FIX_SIZE + avioBufferSize ≤ fuel) :
    ∃ outcome, srtStreamProcPacket fuel results stream buf buf_size = some outcome ∧
      outcome.ret = buf_size ∧ Connected payload_size outcome.stream ∧
      sentBytes outcome.messages ++ saved outcome.stream = saved stream ++ takeBytes buf buf_size ∧
      ∀ message ∈ outcome.messages, WellSized payload_size message := by
  have before := connected
  obtain ⟨active, running, linked, errors, payload, short⟩ := connected
  obtain ⟨gathered, gatheredDef⟩ : ∃ gathered, gathered = stream.gather buf buf_size := ⟨_, rfl⟩
  have sending := @gather_sending payload_size stream buf buf_size short fits
  obtain ⟨size, same⟩ := gather_stream stream buf buf_size short fits
  rw [← gatheredDef] at sending size same
  have nothing : gathered.stream.left_size = 0 := by rw [same]
  obtain ⟨looped, loop, bound, after⟩ :=
    send_loop_spec succeeds positive packets fuel gathered (by omega) sending
  obtain ⟨sent, tail, result⟩ := send_tail_spec succeeds nothing after bound
  have call : srtStreamProcPacket fuel results stream buf buf_size =
      some ⟨buf_size, sent.stream, sent.messages⟩ := by
    rw [srtStreamProcPacket, active, running, linked, payload, ← gatheredDef]
    simp only [Bool.not_true, Bool.or_self, Bool.false_eq_true, if_false, loop, Option.map_some,
      Except.bind, tail, if_neg (Nat.not_lt.mpr errors)]
  refine ⟨_, call, rfl, ?_, result.bytes, result.sized⟩
  have final := result.same
  rw [same] at final
  exact connected_kept before final result.short

/-- A stream with everything that was given to it and to `mgw_libsrt_write` since it connected. -/
structure Session where
  stream : SrtStream
  input : List UInt8
  messages : List Message

structure PacketCall where
  results : Nat → Int
  buf : Bytes
  buf_size : Nat

namespace Session

def start (stream : SrtStream) : Session where
  stream := stream
  input := []
  messages := []

def send (fuel : Nat) (session : Session) (call : PacketCall) : Option Session :=
  (srtStreamProcPacket fuel call.results session.stream call.buf call.buf_size).map fun outcome =>
    { stream := outcome.stream
      input := session.input ++ takeBytes call.buf call.buf_size
      messages := session.messages ++ outcome.messages }

end Session

/-- A buffer of the muxer, all of whose writes succeed. -/
def Delivered (_ : Session) (call : PacketCall) : Prop :=
  Succeeds call.results ∧ call.buf_size ≤ avioBufferSize

/-- The messages and the saved bytes are the input. -/
structure Conserves (payload_size : Int) (session : Session) : Prop where
  connected : Connected payload_size session.stream
  bytes : sentBytes session.messages ++ saved session.stream = session.input
  sized : ∀ message ∈ session.messages, WellSized payload_size message

theorem send_conserves {payload_size : Int} {session : Session} {call : PacketCall}
    (positive : 0 < payload_size) (packets : (MPEGTS_FIX_SIZE : Int) ∣ payload_size) (fuel : Nat)
    (enough : MPEGTS_FIX_SIZE + avioBufferSize ≤ fuel) (conserves : Conserves payload_size session)
    (delivered : Delivered session call) :
    ∃ after, session.send fuel call = some after ∧ Conserves payload_size after := by
  obtain ⟨connected, bytes, sized⟩ := conserves
  obtain ⟨outcome, result, -, kept, moved, messages⟩ := proc_packet_spec delivered.1 positive packets
    connected call.buf call.buf_size delivered.2 fuel enough
  refine ⟨_, by rw [Session.send, result]; rfl, kept, ?_, ?_⟩
  · change sentBytes (session.messages ++ outcome.messages) ++ saved outcome.stream = _
    rw [sent_bytes_append, List.append_assoc, moved, ← List.append_assoc, bytes]
  · intro message member
    rcases List.mem_append.mp member with old | new
    · exact sized message old
    · exact messages message new

/-- From the connection on the messages and the saved rest are the transport
stream, cut into whole TS packets. -/
theorem transport_stream_kept (payload_size : Int) (positive : 0 < payload_size)
    (packets : (MPEGTS_FIX_SIZE : Int) ∣ payload_size) (stream : SrtStream)
    (active : stream.active = true) (running : stream.stopping = false)
    (payload : mgwLibsrtGetPayloadSize stream.srt_context = payload_size) (fuel : Nat)
    (enough : MPEGTS_FIX_SIZE + avioBufferSize ≤ fuel) (calls : List PacketCall)
    (meets : TryMeets (Session.send fuel) Delivered (Session.start (initConnect stream)) calls) :
    ∃ final, tryRun (Session.send fuel) (Session.start (initConnect stream)) calls = some final ∧
      sentBytes final.messages ++ takeBytes final.stream.left_data final.stream.left_size =
        final.input ∧
      (∀ message ∈ final.messages, message.bytes ≠ [] ∧ MPEGTS_FIX_SIZE ∣ message.bytes.length ∧
        message.bytes.length ≤ payload_size) ∧
      final.stream.left_size < MPEGTS_FIX_SIZE := by
  have start : Conserves payload_size (Session.start (initConnect stream)) :=
    ⟨⟨active, running, rfl, Nat.zero_le _, payload, Nat.zero_lt_succ _⟩, rfl,
      fun _ member => by contradiction⟩
  obtain ⟨final, result, conserves⟩ := try_run_invariant
    (fun session call => send_conserves positive packets fuel enough) calls _ start meets
  refine ⟨final, result, conserves.bytes, ?_, conserves.connected.short⟩
  intro message member
  obtain ⟨nonempty, whole, bounded⟩ := conserves.sized message member
  exact ⟨nonempty, whole, bounded⟩

def freshStream (payload_size : Int) : SrtStream where
  srt_context := some ⟨payload_size⟩
  send_error_cnt := 0
  total_sent_bytes := 0
  active := true
  stopping := false
  disconnected := false
  left_data := fun _ => 0
  left_size := 0

/-- A buffer of `buf_size` bytes, the first of them `first`. -/
def countingCall (first : UInt8) (buf_size : Nat) : PacketCall where
  results := fun _ => 0
  buf := fun index => first + UInt8.ofNat index
  buf_size := buf_size

/-- Two buffers that are cut inside a TS packet. -/
theorem transport_stream_kept_two :
    ∃ final, tryRun (Session.send 65724) (Session.start (initConnect (freshStream 376)))
        [countingCall 0 500, countingCall 7 300] = some final ∧
      sentBytes final.messages ++ takeBytes final.stream.left_data final.stream.left_size =
        final.input ∧
      (∀ message ∈ final.messages, message.bytes ≠ [] ∧ MPEGTS_FIX_SIZE ∣ message.bytes.length ∧
        message.bytes.length ≤ (376 : Int)) ∧
      final.stream.left_size < MPEGTS_FIX_SIZE :=
  transport_stream_kept 376 (by decide) (by decide) (freshStream 376) rfl rfl rfl 65724 (by decide)
    [countingCall 0 500, countingCall 7 300]
    ⟨⟨fun _ => Int.le_refl 0, by decide⟩, fun _ _ =>
      ⟨⟨fun _ => Int.le_refl 0, by decide⟩, fun _ _ => trivial⟩⟩

end Mgw.SrtOutput
