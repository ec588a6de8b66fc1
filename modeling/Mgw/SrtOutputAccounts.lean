import Mgw.SrtOutputEnds

/-!
# What the SRT stream counts

A ledger beside the stream has the sizes of the messages whose writes did not fail
and the number of the failures that are counted, from the connection on. The stream
charges every message of which the write succeeds with the payload size, also the
shorter one of the tail.
-/

namespace Mgw.SrtOutput

open ByteArea TransitionRuns WordArithmetic

set_option autoImplicit false

/-- The sizes of the messages whose writes did not fail. -/
def acceptedSize (results : Nat → Int) (messages : List Message) : Int :=
  (messages.zipIdx.map fun entry => if results entry.2 < 0 then 0 else entry.1.size).sum

/-- The messages whose writes failed without a special error. -/
def countedFailures (results : Nat → Int) (messages : List Message) : Nat :=
  messages.zipIdx.countP fun entry => results entry.2 < 0 && !specialError (results entry.2)

/-- A stream with what its writes amount to since it connected. -/
structure Ledger where
  stream : SrtStream
  accepted : Int
  failures : Nat

namespace Ledger

def start (stream : SrtStream) : Ledger where
  stream := stream
  accepted := 0
  failures := 0

/-- Behind a call with this outcome. -/
def behind (ledger : Ledger) (call : PacketCall) (outcome : Outcome) : Ledger where
  stream := outcome.stream
  accepted := ledger.accepted + acceptedSize call.results outcome.messages
  failures := ledger.failures + countedFailures call.results outcome.messages

def send (ledger : Ledger) (call : PacketCall) : Option Ledger :=
  (srtStreamProcPacket (callFuel ledger.stream call.buf_size) call.results ledger.stream call.buf
    call.buf_size).map (ledger.behind call)

end Ledger

/-- The writes of a call that is not refused. -/
def Ledger.writes (ledger : Ledger) (call : PacketCall) : Except SendState SendState :=
  let gathered := ledger.stream.gather call.buf call.buf_size
  let payload_size := mgwLibsrtGetPayloadSize ledger.stream.srt_context
  gathered.writeAll call.results payload_size (plan payload_size gathered.left_size)

section Tally

variable {results : Nat → Int}

theorem accepted_append (messages : List Message) (message : Message) :
    acceptedSize results (messages ++ [message]) = acceptedSize results messages +
      if results messages.length < 0 then 0 else message.size := by
  simp [acceptedSize, List.zipIdx_append]

theorem failures_append (messages : List Message) (message : Message) :
    countedFailures results (messages ++ [message]) = countedFailures results messages +
      if results messages.length < 0 ∧ specialError (results messages.length) = false then 1
      else 0 := by
  simp [countedFailures, List.zipIdx_append]

theorem special_negative {ret : Int} (special : specialError ret = true) : ret < 0 := by
  by_contra success
  rw [not_special (by omega)] at special
  contradiction

end Tally

/-- The stream has counted the messages of this call whose writes did not fail. -/
structure Tallied (results : Nat → Int) (before : Nat) (state : SendState) : Prop where
  counted : (state.stream.total_sent_bytes : Int) = before + acceptedSize results state.messages
  bounded : acceptedSize results state.messages ≤ state.send_seek

def Tallies (results : Nat → Int) (before : Nat) : Except SendState SendState → Prop
  | .error failed =>
      (failed.stream.total_sent_bytes : Int) = before + acceptedSize results failed.messages
  | .ok sent => Tallied results before sent

section Writes

variable {results : Nat → Int} {payload_size size : Int} {before : Nat} {state : SendState}

theorem count_write_total {stream : SrtStream} {ret : Int} (success : ¬ret < 0)
    (nonneg : 0 ≤ payload_size) (bound : stream.total_sent_bytes + payload_size < sizeRange) :
    ((stream.countWrite ret payload_size).total_sent_bytes : Int) =
      stream.total_sent_bytes + payload_size := by
  rw [SrtStream.countWrite, if_neg success]
  simp only [sizeRange] at bound
  dsimp only
  omega

/-- A message of the payload size, or one whose write fails. -/
theorem write_tallies (tallied : Tallied results before state) (nonneg : 0 ≤ size)
    (charged : size = payload_size ∨ results state.messages.length < 0)
    (bound : before + (state.send_seek + size) < sizeRange) :
    Tallies results before (state.write results payload_size size) := by
  obtain ⟨counted, bounded⟩ := tallied
  cases written : state.write results payload_size size with
  | error failed =>
      obtain ⟨special, same⟩ := write_error written
      rw [Tallies, same]
      dsimp only
      rw [accepted_append, if_pos (special_negative special), counted, Int.add_zero]
  | ok sent =>
      obtain ⟨fine, same⟩ := write_ok written
      rw [Tallies, same]
      by_cases failed : results state.messages.length < 0
      · have total : state.stream.countWrite (results state.messages.length) payload_size =
            { state.stream with send_error_cnt := (state.stream.send_error_cnt + 1) % 256 } := by
          rw [SrtStream.countWrite, if_pos failed]
        constructor
        · dsimp only
          rw [accepted_append, if_pos failed, total, Int.add_zero]
          exact counted
        · dsimp only
          rw [accepted_append, if_pos failed]
          omega
      · have whole := charged.resolve_right failed
        constructor
        · dsimp only
          rw [accepted_append, if_neg failed, count_write_total failed (by omega) (by omega), counted]
          dsimp only
          omega
        · dsimp only
          rw [accepted_append, if_neg failed]
          dsimp only
          omega

theorem write_all_tallies (sizes : List Int) (nonneg : 0 ≤ payload_size)
    (whole : ∀ size ∈ sizes, size = payload_size) (tallied : Tallied results before state)
    (bound : before + (state.send_seek + sizes.sum) < sizeRange) :
    Tallies results before (state.writeAll results payload_size sizes) := by
  induction sizes generalizing state with
  | nil => exact tallied
  | cons size sizes ih =>
      have rest : 0 ≤ sizes.sum := List.sum_nonneg fun other member => by
        rw [whole other (List.mem_cons_of_mem size member)]
        exact nonneg
      have same := whole size List.mem_cons_self
      rw [List.sum_cons] at bound
      have first := @write_tallies results payload_size size before state tallied (by omega)
        (Or.inl same) (by omega)
      rw [SendState.writeAll]
      cases written : state.write results payload_size size with
      | error failed =>
          rw [written] at first
          exact first
      | ok sent =>
          rw [written] at first
          have seek : sent.send_seek = state.send_seek + size := by rw [(write_ok written).2]
          refine ih (fun other member => whole other (List.mem_cons_of_mem size member))
            ⟨first.counted, first.bounded⟩ ?_
          dsimp only
          omega

end Writes

/-- The message of the tail is none, has the payload size, or fails. -/
def FairTail (results : Nat → Int) (payload_size total : Int) : Prop :=
  tailSize payload_size total = 0 ∨ tailSize payload_size total = payload_size ∨
    results (rounds payload_size total) < 0 ∨
      ∃ i < rounds payload_size total, specialError (results i) = true

/-- The call is refused, or its tail is fair and the count of the bytes stays in its range. -/
def Fair (ledger : Ledger) (call : PacketCall) : Prop :=
  let total := (ledger.stream.gather call.buf call.buf_size).left_size
  Refused ledger.stream ∨
    FairTail call.results (mgwLibsrtGetPayloadSize ledger.stream.srt_context) total ∧
      ledger.stream.total_sent_bytes + total < sizeRange

/-- The stream has counted what its ledger has. -/
structure Counts (payload_size : Int) (ledger : Ledger) : Prop where
  payload : mgwLibsrtGetPayloadSize ledger.stream.srt_context = payload_size
  counted : (ledger.stream.total_sent_bytes : Int) = ledger.accepted

section Call

variable {results : Nat → Int} {payload_size total : Int} {stream : SrtStream} {buf : Bytes}
  {buf_size before : Nat} {state : SendState}

/-- A tail of one message, if any. -/
theorem tail_tallies (tallied : Tallied results before state) {tail : Int} (nonneg : 0 ≤ tail)
    (charged : tail = 0 ∨ tail = payload_size ∨ results state.messages.length < 0)
    (bound : before + (state.send_seek + tail) < sizeRange) :
    Tallies results before
      (state.writeAll results payload_size (if 0 < tail then [tail] else [])) := by
  split_ifs with full
  · have last := @write_tallies results payload_size tail before state tallied nonneg
      (charged.resolve_left (Int.ne_of_gt full)) bound
    rw [SendState.writeAll]
    cases written : state.write results payload_size tail with
    | error failed =>
        rw [written] at last
        exact last
    | ok sent =>
        rw [written] at last
        exact ⟨last.counted, last.bounded⟩
  · exact tallied

/-- Where the loop is not broken off, a fair tail is charged with its size or fails. -/
theorem fair_charged (fair : FairTail results payload_size total)
    (fine : ∀ i < rounds payload_size total, specialError (results i) = false) :
    tailSize payload_size total = 0 ∨ tailSize payload_size total = payload_size ∨
      results (rounds payload_size total) < 0 := by
  rcases fair with none | whole | failed | ⟨i, inside, special⟩
  · exact Or.inl none
  · exact Or.inr (Or.inl whole)
  · exact Or.inr (Or.inr failed)
  · rw [fine i inside] at special
    contradiction

theorem plan_tallies (positive : 0 < payload_size) (nonneg : 0 ≤ total)
    (fair : FairTail results payload_size total) (start : state.messages = [])
    (seek : state.send_seek = 0) (counted : state.stream.total_sent_bytes = before)
    (bound : before + total < sizeRange) :
    Tallies results before (state.writeAll results payload_size (plan payload_size total)) := by
  have part : lastPart payload_size total = total - rounds payload_size total * payload_size := rfl
  obtain ⟨tail, last⟩ := tail_size_bounds positive nonneg
  have tallied : Tallied results before state := by
    constructor
    · rw [start, counted]
      exact (Int.add_zero _).symm
    · rw [start, seek]
      exact Int.le_refl 0
  have loop := @write_all_tallies results payload_size before state
    (List.replicate (rounds payload_size total) payload_size) (Int.le_of_lt positive)
    (fun size member => List.eq_of_mem_replicate member) tallied (by rw [loop_sum, seek]; omega)
  rw [plan, write_all_append]
  cases written : state.writeAll results payload_size
      (List.replicate (rounds payload_size total) payload_size) with
  | error failed =>
      rw [written] at loop
      exact loop
  | ok looped =>
      rw [written] at loop
      obtain ⟨count, fine⟩ := write_all_ok _ written
      obtain ⟨-, moved⟩ := write_all_left _ written
      rw [start, List.length_nil, Nat.zero_add, List.length_replicate] at count
      rw [seek, loop_sum, Int.zero_add] at moved
      simp only [start, List.length_nil, Nat.zero_add, List.length_replicate] at fine
      exact tail_tallies loop tail (by rw [count]; exact fair_charged fair fine)
        (by rw [moved]; omega)

theorem tallies_reached {ended : Except SendState SendState}
    (tallies : Tallies results before ended) :
    ((SendState.reached ended).stream.total_sent_bytes : Int) =
      before + acceptedSize results (SendState.reached ended).messages := by
  cases ended with
  | error failed => exact tallies
  | ok sent => exact tallies.counted

theorem count_write_context (stream : SrtStream) (ret payload_size : Int) :
    (stream.countWrite ret payload_size).srt_context = stream.srt_context := by
  unfold SrtStream.countWrite
  split_ifs
  all_goals rfl

theorem write_all_context (sizes : List Int) (state : SendState) :
    (SendState.reached (state.writeAll results payload_size sizes)).stream.srt_context =
      state.stream.srt_context := by
  apply @write_all_keeps results payload_size
    fun other => other.stream.srt_context = state.stream.srt_context
  · intro other size same
    cases written : other.write results payload_size size with
    | error failed =>
        rw [SendState.reached, (write_error written).2]
        exact same
    | ok sent =>
        rw [SendState.reached, (write_ok written).2]
        exact (count_write_context _ _ _).trans same
  · intro other left same
    exact same
  · rfl

theorem gather_kept (stream : SrtStream) (buf : Bytes) (buf_size : Nat) :
    (stream.gather buf buf_size).messages = [] ∧ (stream.gather buf buf_size).send_seek = 0 ∧
      (stream.gather buf buf_size).stream.total_sent_bytes = stream.total_sent_bytes ∧
      (stream.gather buf buf_size).stream.send_error_cnt = stream.send_error_cnt ∧
      (stream.gather buf buf_size).stream.disconnected = stream.disconnected ∧
      (stream.gather buf buf_size).stream.srt_context = stream.srt_context := by
  unfold SrtStream.gather
  split_ifs
  all_goals exact ⟨rfl, rfl, rfl, rfl, rfl, rfl⟩

/-- A call that is refused counts nothing. -/
theorem send_refused {ledger : Ledger} (refused : Refused ledger.stream) (call : PacketCall) :
    ∃ after, ledger.send call = some after ∧ after.accepted = ledger.accepted ∧
      after.failures = ledger.failures ∧
      after.stream.total_sent_bytes = ledger.stream.total_sent_bytes ∧
      after.stream.srt_context = ledger.stream.srt_context ∧
      (after.stream = ledger.stream ∨ after.stream.disconnected = true) := by
  by_cases closed : (!ledger.stream.active || ledger.stream.stopping ||
      ledger.stream.disconnected) = true
  · refine ⟨ledger.behind call ⟨-1, ledger.stream, []⟩, ?_, Int.add_zero _, Nat.add_zero _, rfl,
      rfl, Or.inl rfl⟩
    rw [Ledger.send, proc_packet_closed closed, Option.map_some]
  · refine ⟨ledger.behind call
      ⟨0, { ledger.stream with send_error_cnt := 0, disconnected := true }, []⟩, ?_,
      Int.add_zero _, Nat.add_zero _, rfl, rfl, Or.inr rfl⟩
    rw [Ledger.send, proc_packet_threshold closed (refused.resolve_left closed), Option.map_some]

/-- Any other call counts what its writes do. -/
theorem send_accepted (positive : 0 < payload_size) {ledger : Ledger}
    (accepted : ¬Refused ledger.stream)
    (payload : mgwLibsrtGetPayloadSize ledger.stream.srt_context = payload_size)
    (call : PacketCall) :
    ∃ after ended, ledger.send call = some after ∧ ended = SendState.reached (ledger.writes call) ∧
      after.accepted = ledger.accepted + acceptedSize call.results ended.messages ∧
      after.failures = ledger.failures + countedFailures call.results ended.messages ∧
      after.stream.total_sent_bytes = ended.stream.total_sent_bytes ∧
      after.stream.send_error_cnt = ended.stream.send_error_cnt ∧
      after.stream.srt_context = ledger.stream.srt_context := by
  have context := (gather_kept ledger.stream call.buf call.buf_size).2.2.2.2.2
  have result := @proc_packet_writes call.results payload_size _ call.buf call.buf_size accepted
    payload positive _ rfl
  obtain ⟨outcome, settled⟩ : ∃ outcome, outcome = Outcome.settle call.buf_size
      (lastPart payload_size (ledger.stream.gather call.buf call.buf_size).left_size %
        MPEGTS_FIX_SIZE) (ledger.writes call) := ⟨_, rfl⟩
  obtain ⟨messages, total, errors, kept⟩ := @settle_reached call.buf_size
    (lastPart payload_size (ledger.stream.gather call.buf call.buf_size).left_size % MPEGTS_FIX_SIZE)
    (ledger.writes call)
  rw [← settled] at messages total errors kept
  refine ⟨ledger.behind call outcome, _, ?_, rfl, ?_, ?_, total, errors, ?_⟩
  · rw [Ledger.send, result, Option.map_some, settled, Ledger.writes, payload]
  · rw [← messages]
    rfl
  · rw [← messages]
    rfl
  · exact kept.trans ((write_all_context _ _).trans context)

/-- What a call counts whose tail is fair. -/
theorem send_counts (positive : 0 < payload_size) {ledger : Ledger} {call : PacketCall}
    (counts : Counts payload_size ledger) (fair : Fair ledger call) :
    ∃ after, ledger.send call = some after ∧ Counts payload_size after := by
  obtain ⟨payload, counted⟩ := counts
  by_cases refused : Refused ledger.stream
  · obtain ⟨after, result, accepted, -, total, context, -⟩ := send_refused refused call
    exact ⟨after, result, by rw [context]; exact payload, by rw [total, accepted]; exact counted⟩
  rcases fair with impossible | ⟨fair, bound⟩
  · contradiction
  obtain ⟨messages, seek, total, -⟩ := gather_kept ledger.stream call.buf call.buf_size
  have nonneg := gather_nonneg ledger.stream call.buf call.buf_size
  obtain ⟨after, ended, result, writes, accepted, -, counter, -, context⟩ :=
    send_accepted positive refused payload call
  refine ⟨after, result, by rw [context]; exact payload, ?_⟩
  rw [payload] at fair
  have tallies := tallies_reached (plan_tallies positive nonneg fair messages seek total bound)
  rw [Ledger.writes, payload] at writes
  rw [counter, accepted, writes, tallies, counted]

end Call

/-- Calls whose tails are fair leave the count at the sizes of the accepted messages. -/
theorem accepted_bytes_counted (payload_size : Int) (positive : 0 < payload_size)
    (stream : SrtStream) (payload : mgwLibsrtGetPayloadSize stream.srt_context = payload_size)
    (calls : List PacketCall)
    (meets : TryMeets Ledger.send Fair (Ledger.start (initConnect stream)) calls) :
    ∃ final, tryRun Ledger.send (Ledger.start (initConnect stream)) calls = some final ∧
      (final.stream.total_sent_bytes : Int) = final.accepted := by
  have start : Counts payload_size (Ledger.start (initConnect stream)) := ⟨payload, rfl⟩
  obtain ⟨final, result, counts⟩ :=
    try_run_invariant (fun _ _ => send_counts positive) calls _ start meets
  exact ⟨final, result, counts.counted⟩

/-- Two messages of the payload size. -/
theorem accepted_bytes_counted_whole :
    ∃ final, tryRun Ledger.send (Ledger.start (initConnect (freshStream 376)))
        [countingCall 0 752] = some final ∧
      (final.stream.total_sent_bytes : Int) = final.accepted :=
  accepted_bytes_counted 376 (by decide) (freshStream 376) rfl [countingCall 0 752]
    ⟨Or.inr ⟨Or.inr (Or.inl (by decide)), by decide⟩, fun _ _ => trivial⟩

/-- One TS packet is charged as two. -/
theorem short_tail_overcounted :
    ¬∃ final, tryRun Ledger.send (Ledger.start (initConnect (freshStream 376)))
        [countingCall 0 188] = some final ∧
      (final.stream.total_sent_bytes : Int) = final.accepted := by
  intro counted
  obtain ⟨final, result, same⟩ := counted
  have total : (tryRun Ledger.send (Ledger.start (initConnect (freshStream 376)))
      [countingCall 0 188]).map (fun ledger => (ledger.stream.total_sent_bytes, ledger.accepted)) =
        some (376, 188) := by decide
  rw [result, Option.map_some] at total
  have parts := Prod.mk.inj (Option.some.inj total)
  rw [parts.1, parts.2] at same
  contradiction

end Mgw.SrtOutput
