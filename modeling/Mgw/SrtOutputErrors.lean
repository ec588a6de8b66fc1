import Mgw.SrtOutputAccounts

/-!
# The errors of the SRT stream

A special error ends its call at once and gives the connection up. The failures that
are only counted are counted in eight bits, and the call that finds more than the
threshold of them gives the connection up with the result 0.
-/

namespace Mgw.SrtOutput

open ByteArea TransitionRuns

set_option autoImplicit false

/-- A call that only finds that the connection is given up. -/
structure GivesUp (outcome : Outcome) : Prop where
  nothing : outcome.messages = []
  disconnected : outcome.stream.disconnected = true
  negative : outcome.ret < 0

/-- A message with a special error is the last of its call, which returns the error. -/
def SpecialEnds (results : Nat → Int) (outcome : Outcome) : Prop :=
  ∀ i < outcome.messages.length, specialError (results i) = true →
    outcome.messages.length = i + 1 ∧ outcome.stream.disconnected = true ∧
      outcome.ret = results i ∧ outcome.ret < 0

section Writes

variable {results : Nat → Int} {payload_size : Int} {state : SendState}

/-- The first special error ends the writes. -/
theorem write_all_error (sizes : List Int) {failed : SendState}
    (written : state.writeAll results payload_size sizes = .error failed) :
    ∃ i, failed.messages.length = state.messages.length + i + 1 ∧
      failed.ret = results (state.messages.length + i) ∧
      specialError (results (state.messages.length + i)) = true ∧
      ∀ j < i, specialError (results (state.messages.length + j)) = false := by
  induction sizes generalizing state with
  | nil => contradiction
  | cons size sizes ih =>
      rw [SendState.writeAll] at written
      cases first : state.write results payload_size size with
      | error other =>
          rw [first] at written
          obtain ⟨special, same⟩ := write_error first
          rw [← Except.error.inj written, same]
          exact ⟨0, List.length_append, rfl, special, fun j impossible => by contradiction⟩
      | ok sent =>
          rw [first] at written
          obtain ⟨fine, same⟩ := write_ok first
          obtain ⟨i, count, ret, special, earlier⟩ := ih written
          have one : sent.messages.length = state.messages.length + 1 := by
            rw [same]
            exact List.length_append
          dsimp only at count ret special earlier
          rw [one, Nat.add_assoc _ 1 i, Nat.add_comm 1 i] at count ret special
          refine ⟨i + 1, count, ret, special, ?_⟩
          intro j bound
          cases j with
          | zero => exact fine
          | succ j =>
              have later := earlier j (by omega)
              rwa [one, Nat.add_assoc, Nat.add_comm 1 j] at later

/-- The failures of a call are counted in eight bits. -/
theorem write_all_counts (sizes : List Int) {before : Nat}
    (counts : state.stream.send_error_cnt =
      (before + countedFailures results state.messages) % 256) :
    (SendState.reached (state.writeAll results payload_size sizes)).stream.send_error_cnt =
      (before + countedFailures results
        (SendState.reached (state.writeAll results payload_size sizes)).messages) % 256 := by
  apply @write_all_keeps results payload_size fun other => other.stream.send_error_cnt =
    (before + countedFailures results other.messages) % 256
  · intro other size same
    cases written : other.write results payload_size size with
    | error failed =>
        obtain ⟨special, after⟩ := write_error written
        rw [SendState.reached, after]
        dsimp only
        rw [failures_append, special, if_neg (by simp), same, Nat.add_zero]
    | ok sent =>
        obtain ⟨fine, after⟩ := write_ok written
        rw [SendState.reached, after]
        dsimp only
        rw [failures_append, fine]
        unfold SrtStream.countWrite
        split_ifs with failed counted uncounted
        · dsimp only
          omega
        · exact absurd ⟨failed, rfl⟩ counted
        · exact absurd uncounted.1 failed
        · exact same
  · intro other left same
    exact same
  · exact counts

end Writes

section Call

variable {results : Nat → Int} {payload_size : Int} {stream : SrtStream} {buf : Bytes}
  {buf_size : Nat}

/-- A call that writes does not give up without a message, and its special error is its last. -/
theorem settle_errors (ts_left : Int) (sizes : List Int) {state : SendState}
    (start : state.messages = []) {outcome : Outcome}
    (settled : outcome =
      Outcome.settle buf_size ts_left (state.writeAll results payload_size sizes)) :
    ¬GivesUp outcome ∧ SpecialEnds results outcome := by
  cases written : state.writeAll results payload_size sizes with
  | error failed =>
      rw [written] at settled
      obtain ⟨last, count, ret, special, earlier⟩ := write_all_error _ written
      rw [start, List.length_nil, Nat.zero_add] at count ret special
      rw [settled]
      constructor
      · intro givesUp
        have nothing : failed.messages = [] := givesUp.nothing
        rw [nothing] at count
        contradiction
      · intro i bound found
        change i < failed.messages.length at bound
        have same : i = last := by
          by_contra other
          have fine := earlier i (by omega)
          rw [start, List.length_nil, Nat.zero_add, found] at fine
          contradiction
        rw [same]
        refine ⟨count, rfl, ret, ?_⟩
        change failed.ret < 0
        rw [ret]
        exact special_negative special
  | ok sent =>
      rw [written] at settled
      obtain ⟨count, fine⟩ := write_all_ok _ written
      rw [start, List.length_nil, Nat.zero_add] at count
      rw [settled]
      constructor
      · intro givesUp
        have negative : (buf_size : Int) < 0 := givesUp.negative
        omega
      · intro i bound found
        change i < (sent.saveLeft ts_left).messages.length at bound
        rw [save_left_messages, count] at bound
        have other := fine i bound
        rw [start, List.length_nil, Nat.zero_add, found] at other
        contradiction

end Call

/-- While it is connected the stream has the number of the failures in eight bits. -/
structure Wraps (payload_size : Int) (ledger : Ledger) : Prop where
  payload : mgwLibsrtGetPayloadSize ledger.stream.srt_context = payload_size
  counted : ledger.stream.disconnected = true ∨
    ledger.stream.send_error_cnt = ledger.failures % 256

theorem send_wraps {payload_size : Int} (positive : 0 < payload_size) {ledger : Ledger}
    (call : PacketCall) (wraps : Wraps payload_size ledger) :
    ∃ after, ledger.send call = some after ∧ Wraps payload_size after := by
  obtain ⟨payload, counted⟩ := wraps
  by_cases refused : Refused ledger.stream
  · obtain ⟨after, result, -, failures, -, context, same⟩ := send_refused refused call
    refine ⟨after, result, by rw [context]; exact payload, ?_⟩
    rcases same with same | gone
    · rw [same, failures]
      exact counted
    · exact Or.inl gone
  · obtain ⟨after, ended, result, writes, -, failures, -, errors, context⟩ :=
      send_accepted positive refused payload call
    refine ⟨after, result, by rw [context]; exact payload, Or.inr ?_⟩
    obtain ⟨messages, -, -, before, -⟩ := gather_kept ledger.stream call.buf call.buf_size
    have connected : ¬ledger.stream.disconnected = true := by
      intro gone
      apply refused
      left
      rw [gone, Bool.or_true]
    have counts := @write_all_counts call.results payload_size
      (ledger.stream.gather call.buf call.buf_size)
      (plan payload_size (ledger.stream.gather call.buf call.buf_size).left_size) ledger.failures
      (by rw [messages, before]; exact counted.resolve_left connected)
    rw [Ledger.writes, payload] at writes
    rw [errors, failures, writes]
    exact counts

section Runs

variable {payload_size : Int} {stream : SrtStream} {ledger : Ledger}

/-- Whatever the writes return, the stream counts its failures modulo 256. -/
theorem failures_wrap (positive : 0 < payload_size)
    (payload : mgwLibsrtGetPayloadSize stream.srt_context = payload_size) (calls : List PacketCall) :
    ∃ final, tryRun Ledger.send (Ledger.start (initConnect stream)) calls = some final ∧
      Wraps payload_size final := by
  have start : Wraps payload_size (Ledger.start (initConnect stream)) := ⟨payload, Or.inr rfl⟩
  exact try_run_invariant (fun ledger call wraps (_ : True) => send_wraps positive call wraps) calls
    _ start (try_meets_of_forall (fun _ _ => trivial) calls _)

/-- Only a connection that is lost already is given up as it should be. -/
theorem gives_up_iff (positive : 0 < payload_size)
    (payload : mgwLibsrtGetPayloadSize ledger.stream.srt_context = payload_size)
    (call : PacketCall) :
    ∃ outcome, srtStreamProcPacket (callFuel ledger.stream call.buf_size) call.results
        ledger.stream call.buf call.buf_size = some outcome ∧
      (GivesUp outcome ↔ ledger.stream.disconnected = true) ∧ SpecialEnds call.results outcome := by
  by_cases closed : (!ledger.stream.active || ledger.stream.stopping ||
      ledger.stream.disconnected) = true
  · refine ⟨_, proc_packet_closed closed _, ?_, fun i impossible => by contradiction⟩
    exact ⟨fun givesUp => givesUp.disconnected,
      fun gone => ⟨rfl, gone, show (-1 : Int) < 0 by decide⟩⟩
  have connected : ¬ledger.stream.disconnected = true := by
    intro gone
    apply closed
    rw [gone, Bool.or_true]
  by_cases errors : SRT_ERROR_THRESHOLD < ledger.stream.send_error_cnt
  · refine ⟨_, proc_packet_threshold closed errors _, ?_, fun i impossible => by contradiction⟩
    exact ⟨fun givesUp => absurd givesUp.negative (Int.lt_irrefl 0),
      fun gone => absurd gone connected⟩
  · have messages := (gather_kept ledger.stream call.buf call.buf_size).1
    obtain ⟨givesUp, special⟩ := @settle_errors call.results payload_size call.buf_size
      (lastPart payload_size (ledger.stream.gather call.buf call.buf_size).left_size %
        MPEGTS_FIX_SIZE) (plan payload_size _) _ messages _ rfl
    exact ⟨_, proc_packet_writes (not_or.mpr ⟨closed, errors⟩) payload positive rfl,
      ⟨fun holds => absurd holds givesUp, fun gone => absurd gone connected⟩, special⟩

/-- Behind every run from a connection on. -/
theorem threshold_given_up_iff (positive : 0 < payload_size)
    (payload : mgwLibsrtGetPayloadSize stream.srt_context = payload_size) (calls : List PacketCall)
    (reached : tryRun Ledger.send (Ledger.start (initConnect stream)) calls = some ledger)
    (call : PacketCall) :
    ∃ outcome, srtStreamProcPacket (callFuel ledger.stream call.buf_size) call.results
        ledger.stream call.buf call.buf_size = some outcome ∧
      ((SRT_ERROR_THRESHOLD < ledger.failures → GivesUp outcome) ↔
        ledger.failures ≤ SRT_ERROR_THRESHOLD ∨ ledger.stream.disconnected = true) ∧
      SpecialEnds call.results outcome := by
  obtain ⟨final, result, wraps⟩ := failures_wrap positive payload calls
  obtain rfl := Option.some.inj (reached.symm.trans result)
  obtain ⟨outcome, called, givesUp, special⟩ := gives_up_iff positive wraps.payload call
  refine ⟨outcome, called, ?_, special⟩
  rw [givesUp, ← Nat.not_lt]
  exact Decidable.imp_iff_not_or

/-- A buffer of `buf_size` bytes all of whose writes fail. -/
def failingCall (buf_size : Nat) : PacketCall where
  results := fun _ => -1
  buf := fun _ => 0x47
  buf_size := buf_size

/-- One failure, and then a special error. -/
theorem threshold_given_up_iff_special :
    ∃ ledger outcome, tryRun Ledger.send (Ledger.start (initConnect (freshStream 188)))
        [failingCall 188] = some ledger ∧
      srtStreamProcPacket (callFuel ledger.stream 188) (fun _ => -17) ledger.stream
        (fun _ => 0x47) 188 = some outcome ∧ SpecialEnds (fun _ => -17) outcome := by
  obtain ⟨ledger, reached, -⟩ := @failures_wrap 188 (freshStream 188) (by decide) rfl [failingCall 188]
  obtain ⟨outcome, called, -, special⟩ := @threshold_given_up_iff 188 (freshStream 188) ledger
    (by decide) rfl [failingCall 188] reached ⟨fun _ => -17, fun _ => 0x47, 188⟩
  exact ⟨ledger, outcome, reached, called, special⟩

/-- After 101 failures the next call returns 0. -/
theorem threshold_returns_zero :
    ¬∀ ledger ∈ tryRun Ledger.send (Ledger.start (initConnect (freshStream 188)))
        [failingCall 18988],
      ∀ outcome ∈ srtStreamProcPacket (callFuel ledger.stream 188) (fun _ => 0) ledger.stream
          (fun _ => 0x47) 188,
        SRT_ERROR_THRESHOLD < ledger.failures → GivesUp outcome := by
  intro claimed
  have numbers : (tryRun Ledger.send (Ledger.start (initConnect (freshStream 188)))
      [failingCall 18988]).map (fun ledger => (ledger.failures, ledger.stream.send_error_cnt,
        !ledger.stream.active || ledger.stream.stopping || ledger.stream.disconnected)) =
          some (101, 101, false) := by decide +kernel
  obtain ⟨ledger, reached, same⟩ := Option.map_eq_some_iff.mp numbers
  obtain ⟨failures, rest⟩ := Prod.mk.inj same
  obtain ⟨errors, running⟩ := Prod.mk.inj rest
  have beyond : SRT_ERROR_THRESHOLD < ledger.stream.send_error_cnt := by
    rw [errors]
    decide
  have call := @proc_packet_threshold (fun _ => 0) ledger.stream (fun _ => 0x47) 188
    (by rw [running]; decide) beyond (callFuel ledger.stream 188)
  have givesUp := claimed ledger reached _ call (by rw [failures]; decide)
  exact absurd givesUp.negative (Int.lt_irrefl 0)

end Runs

end Mgw.SrtOutput
