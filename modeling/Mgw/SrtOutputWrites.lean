import Mathlib.Algebra.BigOperators.Group.List.Basic
import Mathlib.Algebra.Ring.Int.Defs
import Mgw.SrtOutputChunks

/-!
# The messages of one call

For a positive payload size the sizes of the messages of a call are settled before
the first of them is written: as many of the payload size as leave something behind
them, and the full TS packets of what is left. The loop and the tail write these
one after another, up to the first special error.
-/

namespace Mgw.SrtOutput

open ByteArea

set_option autoImplicit false

/-- The call returns before it sends anything. -/
def Refused (stream : SrtStream) : Prop :=
  (!stream.active || stream.stopping || stream.disconnected) = true ∨
    SRT_ERROR_THRESHOLD < stream.send_error_cnt

/-- The number of full payloads with something behind them. -/
def rounds (payload_size total : Int) : Nat := ((total - 1) / payload_size).toNat

/-- What the loop leaves to the tail. -/
def lastPart (payload_size total : Int) : Int := total - rounds payload_size total * payload_size

def tailSize (payload_size total : Int) : Int :=
  lastPart payload_size total - lastPart payload_size total % MPEGTS_FIX_SIZE

def plan (payload_size total : Int) : List Int :=
  List.replicate (rounds payload_size total) payload_size ++
    if 0 < tailSize payload_size total then [tailSize payload_size total] else []

namespace SendState

variable (results : Nat → Int) (payload_size : Int)

/-- Messages of these sizes. -/
def writeAll : List Int → SendState → Except SendState SendState
  | [], state => .ok state
  | size :: sizes, state =>
      (state.write results payload_size size).bind fun sent =>
        writeAll sizes { sent with left_size := sent.left_size - size }

end SendState

/-- Where a part of a call ends, in one way or the other. -/
def SendState.reached : Except SendState SendState → SendState
  | .error failed => failed
  | .ok sent => sent

/-- What a call makes of the end of its writes. -/
def Outcome.settle (buf_size : Nat) (ts_left : Int) : Except SendState SendState → Outcome
  | .error failed => Outcome.failed failed
  | .ok sent => ⟨buf_size, (sent.saveLeft ts_left).stream, (sent.saveLeft ts_left).messages⟩

section Plan

variable {payload_size total : Int}

/-- The loop leaves at most one payload, and something unless there was nothing. -/
theorem last_part_bounds (positive : 0 < payload_size) (nonneg : 0 ≤ total) :
    0 ≤ lastPart payload_size total ∧ lastPart payload_size total ≤ payload_size ∧
      (rounds payload_size total = 0 ∨ 0 < lastPart payload_size total) := by
  unfold lastPart rounds
  have parts := Int.mul_ediv_add_emod (total - 1) payload_size
  have rest := Int.emod_nonneg (total - 1) (Int.ne_of_gt positive)
  have below := Int.emod_lt_of_pos (total - 1) positive
  by_cases some : 0 < total
  · have quotient : 0 ≤ (total - 1) / payload_size :=
      Int.ediv_nonneg (by omega) (Int.le_of_lt positive)
    rw [Int.toNat_of_nonneg quotient, Int.mul_comm ((total - 1) / payload_size)]
    omega
  · have none : total = 0 := by omega
    have quotient : (total - 1) / payload_size < 0 := by
      apply Int.ediv_neg_of_neg_of_pos _ positive
      omega
    rw [Int.toNat_of_nonpos (Int.le_of_lt quotient)]
    refine ⟨?_, ?_, Or.inl rfl⟩
    all_goals omega

/-- All rounds leave something behind them, and one more would not. -/
theorem rounds_bounds (positive : 0 < payload_size) (nonneg : 0 ≤ total) :
    (rounds payload_size total = 0 ∨ rounds payload_size total * payload_size < total) ∧
      total ≤ (rounds payload_size total + 1) * payload_size := by
  obtain ⟨-, bound, behind⟩ := last_part_bounds positive nonneg
  have part : lastPart payload_size total =
      total - rounds payload_size total * payload_size := rfl
  constructor
  · exact behind.imp_right fun some => by omega
  · rw [Int.add_mul, Int.one_mul]
    omega

/-- The loop has no more rounds than bytes. -/
theorem rounds_le (positive : 0 < payload_size) (nonneg : 0 ≤ total) :
    rounds payload_size total ≤ total := by
  rcases (rounds_bounds positive nonneg).1 with none | some
  · rw [none]
    exact nonneg
  · have each : (rounds payload_size total : Int) * 1 ≤ rounds payload_size total * payload_size :=
      Int.mul_le_mul_of_nonneg_left positive (Int.natCast_nonneg _)
    omega

theorem tail_size_bounds (positive : 0 < payload_size) (nonneg : 0 ≤ total) :
    0 ≤ tailSize payload_size total ∧ tailSize payload_size total ≤ lastPart payload_size total := by
  have bounds := last_part_bounds positive nonneg
  unfold tailSize
  simp only [MPEGTS_FIX_SIZE]
  omega

theorem plan_positive (positive : 0 < payload_size) :
    ∀ size ∈ plan payload_size total, 0 < size := by
  intro size member
  rcases List.mem_append.mp member with full | tail
  · rw [List.eq_of_mem_replicate full]
    exact positive
  · split_ifs at tail with some
    · rw [List.mem_singleton.mp tail]
      exact some
    · contradiction

theorem loop_sum (count : Nat) (payload_size : Int) :
    (List.replicate count payload_size).sum = count * payload_size := by
  simp

/-- What is not in a message is less than a TS packet. -/
theorem plan_sum (positive : 0 < payload_size) (nonneg : 0 ≤ total) :
    (plan payload_size total).sum + lastPart payload_size total % MPEGTS_FIX_SIZE = total := by
  have bounds := tail_size_bounds positive nonneg
  have tail : (if 0 < tailSize payload_size total then [tailSize payload_size total] else []).sum =
      tailSize payload_size total := by
    split_ifs with some
    · exact List.sum_singleton
    · rw [List.sum_nil]
      omega
  rw [plan, List.sum_append, loop_sum, tail, tailSize, lastPart]
  omega

end Plan

section Writes

variable {results : Nat → Int} {payload_size : Int} {state : SendState} {stream : SrtStream}
  {buf : Bytes} {buf_size : Nat}

theorem write_all_append (left right : List Int) (state : SendState) :
    state.writeAll results payload_size (left ++ right) =
      (state.writeAll results payload_size left).bind
        (SendState.writeAll results payload_size right) := by
  induction left generalizing state with
  | nil => rfl
  | cons size left ih =>
      rw [List.cons_append, SendState.writeAll, SendState.writeAll]
      cases state.write results payload_size size with
      | error failed => rfl
      | ok sent => exact ih _

/-- A write that the call goes on behind. -/
theorem write_ok {size : Int} {sent : SendState}
    (written : state.write results payload_size size = .ok sent) :
    specialError (results state.messages.length) = false ∧ sent = { state with
      ret := results state.messages.length
      messages := state.messages ++ [⟨state.send_data, state.send_seek, size⟩]
      stream := state.stream.countWrite (results state.messages.length) payload_size
      send_seek := state.send_seek + size } := by
  unfold SendState.write at written
  dsimp only at written
  split_ifs at written with special
  exact ⟨Bool.eq_false_of_not_eq_true special, (Except.ok.inj written).symm⟩

/-- A write that ends the call. -/
theorem write_error {size : Int} {failed : SendState}
    (written : state.write results payload_size size = .error failed) :
    specialError (results state.messages.length) = true ∧ failed = { state with
      ret := results state.messages.length
      messages := state.messages ++ [⟨state.send_data, state.send_seek, size⟩] } := by
  unfold SendState.write at written
  dsimp only at written
  split_ifs at written with special
  exact ⟨special, (Except.error.inj written).symm⟩

/-- The messages are taken off one after another. -/
theorem write_all_left (sizes : List Int) {state after : SendState}
    (written : state.writeAll results payload_size sizes = .ok after) :
    after.left_size = state.left_size - sizes.sum ∧
      after.send_seek = state.send_seek + sizes.sum := by
  induction sizes generalizing state with
  | nil =>
      rw [← Except.ok.inj written, List.sum_nil, Int.sub_zero, Int.add_zero]
      exact ⟨rfl, rfl⟩
  | cons size sizes ih =>
      rw [SendState.writeAll] at written
      cases first : state.write results payload_size size with
      | error failed =>
          rw [first] at written
          contradiction
      | ok sent =>
          rw [first] at written
          obtain ⟨left, seek⟩ := ih written
          rw [(write_ok first).2] at left seek
          dsimp only at left seek
          rw [left, seek, List.sum_cons, Int.sub_sub, Int.add_assoc]
          exact ⟨rfl, rfl⟩

/-- What every write keeps. -/
theorem write_all_keeps {Holds : SendState → Prop}
    (writes : ∀ state size, Holds state →
      Holds (SendState.reached (state.write results payload_size size)))
    (taken : ∀ state left, Holds state → Holds { state with left_size := left })
    (sizes : List Int) {state : SendState} (holds : Holds state) :
    Holds (SendState.reached (state.writeAll results payload_size sizes)) := by
  induction sizes generalizing state with
  | nil => exact holds
  | cons size sizes ih =>
      have first := writes state size holds
      rw [SendState.writeAll]
      cases written : state.write results payload_size size with
      | error failed =>
          rw [written] at first
          exact first
      | ok sent =>
          rw [written] at first
          exact ih (taken sent _ first)

/-- Where all messages are written, none of the results is a special error. -/
theorem write_all_ok (sizes : List Int) {state after : SendState}
    (written : state.writeAll results payload_size sizes = .ok after) :
    after.messages.length = state.messages.length + sizes.length ∧
      ∀ i < sizes.length, specialError (results (state.messages.length + i)) = false := by
  induction sizes generalizing state with
  | nil =>
      rw [← Except.ok.inj written]
      exact ⟨rfl, fun i impossible => by contradiction⟩
  | cons size sizes ih =>
      rw [SendState.writeAll] at written
      cases first : state.write results payload_size size with
      | error failed =>
          rw [first] at written
          contradiction
      | ok sent =>
          rw [first] at written
          obtain ⟨fine, same⟩ := write_ok first
          obtain ⟨count, rest⟩ := ih written
          have one : sent.messages.length = state.messages.length + 1 := by
            rw [same]
            exact List.length_append
          dsimp only at count rest
          rw [one] at count rest
          rw [List.length_cons]
          refine ⟨by omega, ?_⟩
          intro i bound
          cases i with
          | zero => exact fine
          | succ i =>
              have later := rest i (by omega)
              rwa [Nat.add_assoc, Nat.add_comm 1 i] at later

theorem send_loop_writes (positive : 0 < payload_size) (count fuel : Nat) (state : SendState)
    (enough : count < fuel) (more : count = 0 ∨ count * payload_size < state.left_size)
    (last : state.left_size ≤ (count + 1) * payload_size) :
    state.sendLoop results payload_size fuel =
      some (state.writeAll results payload_size (List.replicate count payload_size)) := by
  induction count generalizing fuel state with
  | zero =>
      obtain ⟨fuel, rfl⟩ := Nat.exists_eq_add_of_lt enough
      have ends : ¬payload_size < state.left_size := by omega
      rw [SendState.sendLoop, if_neg ends]
      rfl
  | succ count ih =>
      obtain ⟨fuel, rfl⟩ : ∃ left, fuel = left + 1 := ⟨fuel - 1, by omega⟩
      have parts : ((count + 1 : Nat) : Int) * payload_size = count * payload_size + payload_size := by
        rw [Int.natCast_succ, Int.add_mul, Int.one_mul]
      have behind := more.resolve_left (Nat.succ_ne_zero count)
      have nonneg : 0 ≤ (count : Int) * payload_size :=
        Int.mul_nonneg (Int.natCast_nonneg count) (Int.le_of_lt positive)
      rw [Int.add_mul, parts, Int.one_mul] at last
      rw [parts] at behind
      rw [SendState.sendLoop, if_pos (by omega), List.replicate_succ, SendState.writeAll]
      cases written : state.write results payload_size payload_size with
      | error failed => rfl
      | ok sent =>
          have left : sent.left_size = state.left_size := by rw [(write_ok written).2]
          apply ih
          · omega
          · right
            dsimp only
            omega
          · dsimp only
            rw [Int.add_mul, Int.one_mul]
            omega

theorem save_nothing (state : SendState) : state.saveLeft 0 = state := by
  rw [SendState.saveLeft, if_neg (by decide)]

/-- What is saved does not depend on what was left. -/
theorem settle_left (sent : SendState) (left ts_left : Int) :
    Outcome.settle buf_size ts_left (.ok { sent with left_size := left }) =
      Outcome.settle buf_size ts_left (.ok sent) := by
  unfold Outcome.settle SendState.saveLeft
  dsimp only
  split_ifs
  all_goals rfl

theorem settle_saved (sent : SendState) (ts_left : Int) :
    Outcome.settle buf_size 0 (.ok (sent.saveLeft ts_left)) =
      Outcome.settle buf_size ts_left (.ok sent) := by
  rw [Outcome.settle, save_nothing]
  rfl

/-- Saving the rest changes neither the counters nor the messages. -/
theorem settle_reached (ts_left : Int) (ended : Except SendState SendState) :
    (Outcome.settle buf_size ts_left ended).messages = (SendState.reached ended).messages ∧
      (Outcome.settle buf_size ts_left ended).stream.total_sent_bytes =
        (SendState.reached ended).stream.total_sent_bytes ∧
      (Outcome.settle buf_size ts_left ended).stream.send_error_cnt =
        (SendState.reached ended).stream.send_error_cnt ∧
      (Outcome.settle buf_size ts_left ended).stream.srt_context =
        (SendState.reached ended).stream.srt_context := by
  cases ended with
  | error failed => exact ⟨rfl, rfl, rfl, rfl⟩
  | ok sent =>
      unfold Outcome.settle SendState.saveLeft
      dsimp only [SendState.reached]
      split_ifs
      all_goals exact ⟨rfl, rfl, rfl, rfl⟩

/-- The tail writes at most one message and saves the rest. -/
theorem send_tail_settle (nonneg : 0 ≤ state.left_size) {tail : Int}
    (full : tail = state.left_size - state.left_size % MPEGTS_FIX_SIZE) :
    Outcome.settle buf_size 0 (state.sendTail results payload_size) =
      Outcome.settle buf_size (state.left_size % MPEGTS_FIX_SIZE)
        (state.writeAll results payload_size (if 0 < tail then [tail] else [])) := by
  have sizes : (if state.left_size % MPEGTS_FIX_SIZE ≠ 0 then
      state.left_size - state.left_size % MPEGTS_FIX_SIZE else state.left_size) = tail := by
    split_ifs <;> omega
  rw [SendState.sendTail]
  dsimp only
  rw [sizes]
  split_ifs with some packets
  · rw [SendState.writeAll]
    cases state.write results payload_size tail with
    | error failed => rfl
    | ok sent =>
        exact (settle_saved sent _).trans (settle_left sent _ _).symm
  · exact settle_saved state _
  · have none : state.left_size = 0 := by omega
    rw [none, Int.zero_emod] at full
    omega
  · have none : state.left_size = 0 := by omega
    rw [none]
    rfl

/-- The tail behind the loop is the end of the plan. -/
theorem looped_settle (positive : 0 < payload_size) {total : Int} (nonneg : 0 ≤ total)
    {looped : SendState} (rest : looped.left_size = lastPart payload_size total) :
    Outcome.settle buf_size 0 (looped.sendTail results payload_size) =
      Outcome.settle buf_size (lastPart payload_size total % MPEGTS_FIX_SIZE)
        (looped.writeAll results payload_size
          (if 0 < tailSize payload_size total then [tailSize payload_size total] else [])) := by
  obtain ⟨left, -, -⟩ := last_part_bounds positive nonneg
  have tail : tailSize payload_size total =
      looped.left_size - looped.left_size % MPEGTS_FIX_SIZE := by
    rw [rest]
    rfl
  rw [← rest] at left ⊢
  exact send_tail_settle left tail

theorem gather_nonneg (stream : SrtStream) (buf : Bytes) (buf_size : Nat) :
    0 ≤ (stream.gather buf buf_size).left_size := by
  unfold SrtStream.gather
  split_ifs
  · exact Int.add_nonneg (Int.natCast_nonneg _) (Int.natCast_nonneg _)
  · exact Int.natCast_nonneg _

theorem proc_packet_closed (closed : (!stream.active || stream.stopping || stream.disconnected) = true)
    (fuel : Nat) : srtStreamProcPacket fuel results stream buf buf_size = some ⟨-1, stream, []⟩ := by
  rw [srtStreamProcPacket, if_pos closed]

theorem proc_packet_threshold
    (running : ¬(!stream.active || stream.stopping || stream.disconnected) = true)
    (errors : SRT_ERROR_THRESHOLD < stream.send_error_cnt) (fuel : Nat) :
    srtStreamProcPacket fuel results stream buf buf_size =
      some ⟨0, { stream with send_error_cnt := 0, disconnected := true }, []⟩ := by
  rw [srtStreamProcPacket, if_neg running, if_pos errors]

/-- The fuel of a call with a positive payload size. -/
def callFuel (stream : SrtStream) (buf_size : Nat) : Nat := stream.left_size + buf_size + 1

theorem gather_le (stream : SrtStream) (buf : Bytes) (buf_size : Nat) :
    (stream.gather buf buf_size).left_size ≤ stream.left_size + buf_size := by
  unfold SrtStream.gather
  dsimp only
  split_ifs
  · dsimp only
    omega
  · dsimp only
    omega
  · dsimp only
    omega

/-- A call that is not refused. -/
theorem proc_packet_writes (accepted : ¬Refused stream)
    (payload : mgwLibsrtGetPayloadSize stream.srt_context = payload_size)
    (positive : 0 < payload_size) {total : Int}
    (gathered : (stream.gather buf buf_size).left_size = total) :
    srtStreamProcPacket (callFuel stream buf_size) results stream buf buf_size =
      some (Outcome.settle buf_size (lastPart payload_size total % MPEGTS_FIX_SIZE)
        ((stream.gather buf buf_size).writeAll results payload_size (plan payload_size total))) := by
  have nonneg := gather_nonneg stream buf buf_size
  have all := gather_le stream buf buf_size
  rw [gathered] at nonneg all
  have rounds_total := rounds_le positive nonneg
  have enough : rounds payload_size total < callFuel stream buf_size := by
    rw [callFuel]
    omega
  obtain ⟨more, last⟩ := rounds_bounds positive nonneg
  obtain ⟨before, errors⟩ := not_or.mp accepted
  have loop := @send_loop_writes results payload_size positive _ _ (stream.gather buf buf_size)
    enough (by rw [gathered]; exact more) (by rw [gathered]; exact last)
  rw [srtStreamProcPacket, if_neg before, if_neg errors, payload]
  dsimp only
  rw [loop, Option.map_some, plan, write_all_append]
  cases written : (stream.gather buf buf_size).writeAll results payload_size
      (List.replicate (rounds payload_size total) payload_size) with
  | error failed => rfl
  | ok looped =>
      have rest := (write_all_left _ written).1
      rw [loop_sum, gathered] at rest
      refine Eq.trans ?_ (congrArg some (looped_settle positive nonneg rest))
      rw [Except.bind]
      cases looped.sendTail results payload_size with
      | error failed => rfl
      | ok sent => rw [Outcome.settle, save_nothing]

end Writes

end Mgw.SrtOutput
