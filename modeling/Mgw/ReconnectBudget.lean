import Mathlib.Algebra.Ring.Nat
import Mgw.Reconnect

/-!
# The budget of reconnect attempts

The number of attempts scheduled since the plugin last connected, the retries
were used up, or a stop cancelled them, is the retry counter, and it fixes the
delay. This holds as long as no disconnect finds the flag `reconnecting` still
set although no attempt has been made since.
-/

namespace Mgw.Reconnect

open TransitionRuns

set_option autoImplicit false

def Event.countAttempt (attempts : Nat) : Event → Nat
  | .scheduled _ _ => attempts + 1
  | .connected => 0
  | .gaveUp => 0
  | .cancelled => 0
  | _ => attempts

/-- The consecutive attempts at the end of a run, none of which has connected. -/
def attempts (trace : List Event) : Nat := summary Event.countAttempt 0 trace

/-- The event is in order after that many consecutive attempts. -/
def InBudget (attempts : Nat) : Event → Prop
  | .scheduled retries delay =>
      retries = attempts + 1 ∧ delay = min (2 ^ (attempts + 1)) MAX_RETRY_SEC
  | .gaveUp => attempts = RETRY_MAX
  | _ => True

/-- Each attempt of the run has the number and the delay of its place among the
consecutive ones, and the machine gives up only after `RETRY_MAX` of them. -/
def BudgetKept (trace : List Event) : Prop := EachAllowed Event.countAttempt 0 InBudget trace

theorem attempts_append (trace : List Event) (event : Event) :
    attempts (trace ++ [event]) = event.countAttempt (attempts trace) := summary_append event

/-- The retry counter and the delay are those of the attempts made. -/
structure BudgetInvariant (retry : Retry) : Prop where
  delay : retry.reconnect_retry_sec = RETRY_SEC
  limit : retry.reconnect_retry_max = RETRY_MAX
  attempting : 0 < attempts retry.trace → retry.reconnecting = true ∧
    retry.reconnect_retries = attempts retry.trace ∧
    retry.reconnect_retry_cur_sec = min (2 ^ attempts retry.trace) MAX_RETRY_SEC
  cancelled : retry.reconnect_stop_event = true → attempts retry.trace = 0
  few : attempts retry.trace ≤ RETRY_MAX
  kept : BudgetKept retry.trace

section Retry

variable {retry : Retry}

/-- Nothing is left to say of the counter when no attempt is under way. -/
theorem invariant_idle {event : Event} (invariant : BudgetInvariant retry)
    (ends : ∀ count, event.countAttempt count = 0) (inBudget : InBudget (attempts retry.trace) event)
    (after : Retry) (trace : after.trace = retry.trace ++ [event])
    (delay : after.reconnect_retry_sec = retry.reconnect_retry_sec)
    (limit : after.reconnect_retry_max = retry.reconnect_retry_max) : BudgetInvariant after := by
  have none : attempts after.trace = 0 := by rw [trace, attempts_append, ends]
  refine ⟨delay.trans invariant.delay, limit.trans invariant.limit, ?_, fun _ => none, ?_, ?_⟩
  · intro some
    omega
  · rw [none]
    exact Nat.zero_le _
  · rw [trace]
    exact each_allowed_append invariant.kept inBudget

/-- An event that is no part of the reconnect logic. -/
theorem invariant_note {event : Event} (invariant : BudgetInvariant retry)
    (apart : ∀ count, event.countAttempt count = count)
    (inBudget : InBudget (attempts retry.trace) event) : BudgetInvariant (retry.note event) := by
  have same : attempts (retry.note event).trace = attempts retry.trace := by
    rw [Retry.note, attempts_append, apart]
  obtain ⟨delay, limit, attempting, cancelled, few, kept⟩ := invariant
  refine ⟨delay, limit, ?_, ?_, ?_, each_allowed_append kept inBudget⟩
  · rw [same]
    exact attempting
  · rw [same]
    exact cancelled
  · rw [same]
    exact few

theorem doubled_delay (attempts : Nat) :
    min (min (2 ^ attempts) MAX_RETRY_SEC * 2) MAX_RETRY_SEC =
      min (2 ^ (attempts + 1)) MAX_RETRY_SEC := by
  rw [Nat.pow_succ]
  omega

/-- The first attempt starts the budget afresh if the flag is not set. -/
theorem first_attempt (invariant : BudgetInvariant retry) (idle : retry.reconnecting = false) :
    retry.attempt = Retry.startThread { retry with
      reconnecting := true
      reconnect_stop_event := false
      reconnect_retry_cur_sec := RETRY_SEC
      reconnect_retries := 1 } := by
  have restarted : retry.restartBudget = { retry with
      reconnect_retry_cur_sec := RETRY_SEC, reconnect_retries := 0 } := by
    rw [Retry.restartBudget, idle, invariant.delay]
    rfl
  have left : retry.restartBudget.exhausted = false := by
    rw [restarted, Retry.exhausted, invariant.limit]
    rfl
  rw [Retry.attempt, left, restarted, Retry.enterReconnecting]
  simp only [idle, Bool.false_eq_true, if_false, Retry.countRetry, ne_eq, not_true, Nat.zero_add]

/-- A further attempt counts on. -/
theorem further_attempt (flag : retry.reconnecting = true) (some : retry.reconnect_retries ≠ 0) :
    retry.attempt = if retry.exhausted then retry.giveUp else Retry.startThread { retry with
      reconnect_retry_cur_sec := min (retry.reconnect_retry_cur_sec * 2) MAX_RETRY_SEC
      reconnect_retries := retry.reconnect_retries + 1 } := by
  have restarted : retry.restartBudget = retry := by rw [Retry.restartBudget, flag, if_pos rfl]
  have entered : retry.enterReconnecting = retry := by
    rw [Retry.enterReconnecting, flag, if_pos rfl]
  rw [Retry.attempt, restarted, entered, Retry.countRetry, if_pos some]

theorem first_attempt_invariant (invariant : BudgetInvariant retry)
    (idle : retry.reconnecting = false) (none : attempts retry.trace = 0) :
    BudgetInvariant retry.attempt := by
  rw [first_attempt invariant idle]
  obtain ⟨delay, limit, -, -, -, kept⟩ := invariant
  have one : attempts (retry.trace ++ [.scheduled 1 RETRY_SEC]) = 1 := by
    rw [attempts_append, none]
    rfl
  refine ⟨delay, limit, ?_, ?_, ?_, ?_⟩
  · intro _
    change true = true ∧ 1 = attempts (retry.trace ++ [.scheduled 1 RETRY_SEC]) ∧
      RETRY_SEC = min (2 ^ attempts (retry.trace ++ [.scheduled 1 RETRY_SEC])) MAX_RETRY_SEC
    rw [one]
    exact ⟨rfl, rfl, rfl⟩
  · intro impossible
    contradiction
  · change attempts (retry.trace ++ [.scheduled 1 RETRY_SEC]) ≤ RETRY_MAX
    rw [one]
    decide
  · apply each_allowed_append kept
    change InBudget (attempts retry.trace) (.scheduled 1 RETRY_SEC)
    rw [none]
    exact ⟨rfl, rfl⟩

theorem further_attempt_invariant (invariant : BudgetInvariant retry)
    (some : 0 < attempts retry.trace) : BudgetInvariant retry.attempt := by
  obtain ⟨flag, retries, current⟩ := invariant.attempting some
  rw [further_attempt flag (by omega)]
  cases used : retry.exhausted with
  | true =>
      have all : attempts retry.trace = RETRY_MAX := by
        have bound := invariant.few
        simp only [Retry.exhausted, invariant.limit, retries, decide_eq_true_eq] at used
        omega
      exact @invariant_idle _ .gaveUp invariant (fun _ => rfl) all _ rfl rfl rfl
  | false =>
      have more : attempts retry.trace < RETRY_MAX := by
        simpa [Retry.exhausted, invariant.limit, retries] using used
      have cancelled := invariant.cancelled
      obtain ⟨delay, limit, -, -, -, kept⟩ := invariant
      have next : ∀ retries delay, attempts (retry.trace ++ [.scheduled retries delay]) =
          attempts retry.trace + 1 := fun _ _ => attempts_append _ _
      simp only [Bool.false_eq_true, if_false, Retry.startThread, Retry.note, current, retries,
        doubled_delay]
      refine ⟨delay, limit, ?_, ?_, ?_, ?_⟩
      · intro _
        simp only [next]
        exact ⟨flag, trivial, trivial⟩
      · intro signalled
        have impossible := cancelled signalled
        omega
      · simp only [next]
        exact more
      · exact each_allowed_append kept ⟨rfl, rfl⟩

/-- A report that reaches the reconnect logic, unless it finds a stale flag. -/
theorem attempt_invariant (invariant : BudgetInvariant retry)
    (fresh : attempts retry.trace = 0 → retry.reconnecting = false) :
    BudgetInvariant retry.attempt := by
  obtain none | some : attempts retry.trace = 0 ∨ 0 < attempts retry.trace := Nat.eq_zero_or_pos _
  · exact first_attempt_invariant invariant (fresh none) none
  · exact further_attempt_invariant invariant some

/-- A thread that was told to end clears the flag, a thread that timed out keeps it. -/
theorem end_thread_invariant (invariant : BudgetInvariant retry) :
    BudgetInvariant retry.endThread := by
  have cancelled := invariant.cancelled
  obtain ⟨delay, limit, attempting, -, few, kept⟩ := invariant
  refine ⟨delay, limit, ?_, cancelled, few, kept⟩
  intro some
  obtain ⟨flag, retries, current⟩ := attempting some
  refine ⟨?_, retries, current⟩
  change (if retry.reconnect_stop_event then false else retry.reconnecting) = true
  cases signalled : retry.reconnect_stop_event with
  | true =>
      have none := cancelled signalled
      change 0 < attempts retry.trace at some
      omega
  | false => exact flag

theorem cancel_invariant (invariant : BudgetInvariant retry) : BudgetInvariant retry.cancel := by
  have signalled : BudgetInvariant
      (Retry.note .cancelled { retry with reconnect_stop_event := true }) :=
    @invariant_idle _ .cancelled invariant (fun _ => rfl) trivial _ rfl rfl rfl
  rw [Retry.cancel]
  split_ifs
  · exact end_thread_invariant signalled
  · exact signalled

end Retry

/-- The step calls `info.stop` of a source in such a way that the plugin reports
`MGW_DISCONNECTED`. -/
def Machine.disconnects (machine : Machine) : Bool :=
  machine.valid && machine.buffer && machine.actived && machine.info_impl && machine.plugin_active

/-- The step passes a stop report to the reconnect logic. -/
def Machine.reconnects (kind : Kind) (machine : Machine) : Action → Bool
  | .report code => machine.canReconnect code
  | .start _ => kind = .source && machine.disconnects
  | .stop => kind = .source && machine.disconnects
  | .release => kind = .source && machine.disconnects
  | .timer _ => kind = .source && machine.disconnects && machine.timers ≠ 0 &&
      !machine.reconnect_stop_event
  | .connected => false

/-- A report that reaches the reconnect logic before any attempt has been made
does not find `reconnecting` still set. -/
def FlagFresh (kind : Kind) (machine : Machine) (action : Action) : Prop :=
  machine.reconnects kind action = true → attempts machine.trace = 0 →
    machine.reconnecting = false

instance flag_fresh_decidable (kind : Kind) (machine : Machine) (action : Action) :
    Decidable (FlagFresh kind machine action) :=
  inferInstanceAs (Decidable (_ → _ → _))

section Steps

variable {machine : Machine}

theorem signal_stop_invariant {infoStop : Machine → Machine} {code : Int} (quiet : Quiet infoStop)
    (invariant : BudgetInvariant machine.toRetry)
    (fresh : machine.canReconnect code = true → attempts machine.trace = 0 →
      machine.reconnecting = false) :
    BudgetInvariant (machine.signalStopWith infoStop code).toRetry := by
  rw [signal_stop_retry quiet]
  cases can : machine.canReconnect code with
  | true => exact attempt_invariant invariant (fresh can)
  | false => exact invariant

theorem output_stop_invariant (invariant : BudgetInvariant machine.toRetry) :
    BudgetInvariant machine.outputStop.toRetry := by
  rw [output_stop_retry]
  split_ifs
  · exact cancel_invariant invariant
  · exact invariant

theorem output_destroy_invariant (invariant : BudgetInvariant machine.toRetry) :
    BudgetInvariant machine.outputDestroy.toRetry := by
  rw [output_destroy_retry]
  split_ifs
  · exact cancel_invariant invariant
  · exact invariant

theorem output_start_invariant {after : Machine} {success : Bool}
    (invariant : BudgetInvariant machine.toRetry)
    (started : machine.outputStart success = some after) : BudgetInvariant after.toRetry := by
  rcases output_start_retry started with same | noted
  · rwa [same]
  · rw [noted]
    exact invariant_note invariant (fun _ => rfl) trivial

theorem actual_start_invariant {after : Machine} {success : Bool}
    (invariant : BudgetInvariant machine.toRetry)
    (started : machine.actualStart success = some after) : BudgetInvariant after.toRetry := by
  rcases actual_start_retry started with same | noted
  · rwa [same]
  · rw [noted]
    exact invariant_note invariant (fun _ => rfl) trivial

theorem source_stop_invariant (invariant : BudgetInvariant machine.toRetry)
    (fresh : machine.disconnects = true → attempts machine.trace = 0 →
      machine.reconnecting = false) : BudgetInvariant machine.sourceStop.toRetry := by
  rw [Machine.sourceStop]
  split_ifs with unusable missing active
  · exact invariant
  · exact invariant
  · change BudgetInvariant machine.sourceInfoStop.toRetry
    rw [Machine.sourceInfoStop]
    cases plugin : machine.plugin_active with
    | true =>
        apply signal_stop_invariant (fun _ => rfl) invariant
        intro _
        apply fresh
        simp only [Bool.and_eq_true] at active
        simp only [Machine.disconnects, plugin, active, Bool.and_true]
        simpa using unusable
    | false =>
        change BudgetInvariant (machine.signalStopWith id MGW_SUCCESS).toRetry
        rw [success_retry]
        exact invariant
  · exact invariant

theorem source_start_invariant {after : Machine} {success : Bool}
    (invariant : BudgetInvariant machine.toRetry)
    (fresh : machine.disconnects = true → attempts machine.trace = 0 →
      machine.reconnecting = false)
    (started : machine.sourceStart success = some after) : BudgetInvariant after.toRetry := by
  obtain ⟨stopped, stoppedDef⟩ : ∃ stopped, stopped = if machine.actived then
      { machine.sourceStop with stop_code := 0, actived := false } else machine := ⟨_, rfl⟩
  have kept : BudgetInvariant stopped.toRetry := by
    rw [stoppedDef]
    split_ifs
    · exact source_stop_invariant invariant fresh
    · exact invariant
  rw [Machine.sourceStart, ← stoppedDef] at started
  simp only at started
  split_ifs at started
  · obtain rfl := Option.some.inj started
    exact invariant
  · obtain rfl := Option.some.inj started
    exact invariant
  · obtain rfl := Option.some.inj started
    exact invariant_note kept (fun _ => rfl) trivial
  · obtain rfl := Option.some.inj started
    exact kept

theorem reconnect_thread_invariant {start : Machine → Option Machine}
    (invariant : BudgetInvariant machine.toRetry)
    (starts : machine.timers ≠ 0 → machine.reconnect_stop_event = false →
      ∀ after, start machine = some after → BudgetInvariant after.toRetry) :
    BudgetInvariant (machine.reconnectThread start).toRetry := by
  rw [Machine.reconnectThread]
  split_ifs with none told
  · exact invariant
  · exact end_thread_invariant invariant
  · cases result : start machine with
    | none => exact invariant
    | some started =>
        exact end_thread_invariant (starts none (by simpa using told) started result)

theorem called_budget (invariant : BudgetInvariant machine.toRetry) :
    BudgetInvariant (machine.note .userStart).toRetry :=
  invariant_note invariant (fun _ => rfl) trivial

theorem returned_budget (invariant : BudgetInvariant machine.toRetry) :
    BudgetInvariant (machine.note .userStop).toRetry :=
  invariant_note invariant (fun _ => rfl) trivial

/-- The steps of a source in which the plugin may report a disconnect. -/
theorem source_fresh {action : Action} (fresh : FlagFresh .source machine action)
    (passes : machine.disconnects = true → machine.reconnects .source action = true) :
    machine.disconnects = true → attempts machine.trace = 0 → machine.reconnecting = false := by
  intro disconnects
  exact fresh (passes disconnects)

theorem user_start_budget (kind : Kind) {success : Bool}
    (invariant : BudgetInvariant machine.toRetry) (fresh : FlagFresh kind machine (.start success)) :
    BudgetInvariant (machine.userStart kind success).toRetry := by
  have called := called_budget invariant
  cases kind with
  | output =>
      rw [Machine.userStart]
      cases result : (machine.note .userStart).outputStart success with
      | none => exact called
      | some after => exact output_start_invariant called result
  | source =>
      rw [Machine.userStart]
      cases result : (machine.note .userStart).sourceStart success with
      | none => exact called
      | some after =>
          apply source_start_invariant called _ result
          intro disconnects none
          change machine.disconnects = true at disconnects
          rw [Machine.note, Retry.note, attempts_append] at none
          exact @source_fresh machine _ fresh (by simp [Machine.reconnects]) disconnects none

theorem user_stop_budget (kind : Kind) (invariant : BudgetInvariant machine.toRetry)
    (fresh : FlagFresh kind machine .stop) :
    BudgetInvariant (machine.userStop kind).toRetry := by
  cases kind with
  | output => exact returned_budget (output_stop_invariant invariant)
  | source =>
      apply returned_budget
      apply source_stop_invariant invariant
      exact source_fresh fresh (by simp [Machine.reconnects])

theorem timer_budget (kind : Kind) {success : Bool} (invariant : BudgetInvariant machine.toRetry)
    (fresh : FlagFresh kind machine (.timer success)) :
    BudgetInvariant (machine.timerExpires kind success).toRetry := by
  cases kind with
  | output =>
      exact reconnect_thread_invariant invariant fun _ _ after => actual_start_invariant invariant
  | source =>
      apply reconnect_thread_invariant invariant
      intro some told after
      apply source_start_invariant invariant
      apply source_fresh fresh
      intro disconnects
      simp [Machine.reconnects, disconnects, some, told]

theorem release_budget (kind : Kind) (invariant : BudgetInvariant machine.toRetry)
    (fresh : FlagFresh kind machine .release) :
    BudgetInvariant (machine.release kind).toRetry := by
  cases kind with
  | output => exact output_destroy_invariant (returned_budget (output_stop_invariant invariant))
  | source =>
      apply returned_budget
      change BudgetInvariant (if machine.valid && (machine.buffer && machine.actived) then
        machine.sourceStop else machine).toRetry
      split_ifs
      · apply source_stop_invariant invariant
        exact source_fresh fresh (by simp [Machine.reconnects])
      · exact invariant

/-- Every step keeps the budget, unless it finds a stale flag. -/
theorem step_invariant (kind : Kind) (machine : Machine) (action : Action)
    (invariant : BudgetInvariant machine.toRetry) (fresh : FlagFresh kind machine action) :
    BudgetInvariant (machine.step kind action).toRetry := by
  apply @step_keeps (fun after => BudgetInvariant after.toRetry) _ _ _ invariant
  cases action with
  | start success => exact user_start_budget kind invariant fresh
  | stop => exact user_stop_budget kind invariant fresh
  | connected =>
      exact @invariant_idle _ .connected invariant (fun _ => rfl) trivial _ rfl rfl rfl
  | report code => exact signal_stop_invariant info_stop_quiet invariant fresh
  | timer success => exact timer_budget kind invariant fresh
  | release => exact release_budget kind invariant fresh

end Steps

theorem created_budget (info_impl buffer is_private : Bool) :
    BudgetInvariant (created info_impl buffer is_private).toRetry where
  delay := rfl
  limit := rfl
  attempting := fun impossible => absurd impossible (Nat.lt_irrefl 0)
  cancelled := fun _ => rfl
  few := Nat.zero_le _
  kept := each_allowed_nil

/-- In runs in which no disconnect finds a stale flag, the attempts are numbered
and delayed by their place among the consecutive ones, and the machine gives up
after `RETRY_MAX` of them only. -/
theorem budget_kept_after_run (kind : Kind) (info_impl buffer is_private : Bool)
    (actions : List Action)
    (meets : Meets (Machine.step kind) (FlagFresh kind) (created info_impl buffer is_private)
      actions) :
    BudgetKept (run (Machine.step kind) (created info_impl buffer is_private) actions).trace :=
  (run_invariant (step_invariant kind) actions _ (created_budget info_impl buffer is_private)
    meets).kept

/-- Two attempts that fail, a third one that connects, and a stop. -/
def failingActions : List Action :=
  [.start true, .connected, .report MGW_DISCONNECTED, .timer true, .report (-4), .timer true,
    .report (-4), .timer true, .connected, .stop]

theorem budget_kept_failing :
    BudgetKept (run (Machine.step .output) (created true true false) failingActions).trace ∧
      BudgetKept (run (Machine.step .source) (created true true false)
        (failingActions.take 9)).trace :=
  ⟨budget_kept_after_run .output true true false failingActions (by decide),
    budget_kept_after_run .source true true false (failingActions.take 9) (by decide)⟩

/-- `count` disconnects, each behind a connection and followed by an attempt. -/
def reconnectingActions (count : Nat) : List Action :=
  .start true :: (List.replicate count
    [.connected, .report MGW_DISCONNECTED, .timer true]).flatten

def reconnectingTrace (kind : Kind) (count : Nat) : List Event :=
  (run (Machine.step kind) (created true true false) (reconnectingActions count)).trace

/-- A successful reconnection leaves the flag set: the next disconnect counts as
the second attempt, and after twenty of them the machine gives up. -/
theorem reconnection_spends_budget :
    ¬BudgetKept (reconnectingTrace .output 2) ∧ ¬BudgetKept (reconnectingTrace .source 2) ∧
      .gaveUp ∈ reconnectingTrace .output 21 ∧ .gaveUp ∈ reconnectingTrace .source 21 := by
  have second : ∀ kind, reconnectingTrace kind 2 =
      [.userStart, .infoStart, .connected, .scheduled 1 2, .infoStart, .connected] ++
        .scheduled 2 4 :: [.infoStart] → ¬BudgetKept (reconnectingTrace kind 2) := by
    intro kind trace kept
    exact absurd (kept _ _ _ trace).1 (by decide)
  refine ⟨second .output (by decide), second .source (by decide), ?_, ?_⟩
  · decide +kernel
  · decide +kernel

end Mgw.Reconnect
