import Mgw.OutputLifecycle

/-!
# Whoever waits for an output's `stopping_event` goes on

A stop resets the event and signals it again, but in between it may wait for a
reconnect thread, and that thread may wait for the event. The event also stays
unsignalled until the first accepted start, and it is gone once the output has
been freed.
-/

namespace Mgw.OutputLifecycle

open Reconnect TransitionRuns

set_option autoImplicit false

/-- A stop is in progress that has not come to its signal. -/
def Caller.beforeSignal : Caller → Bool
  | .stopping .signalled _ => false
  | .stopping _ _ => true
  | _ => false

/-- A stop has signalled `reconnect_stop_event` and not chosen a thread to join. -/
def Caller.hasCancelled : Caller → Bool
  | .stopping .cancelled _ => true
  | _ => false

namespace Lifecycle

/-- Somebody waits for `stopping_event`. -/
def Waits (lifecycle : Lifecycle) : Prop :=
  lifecycle.caller = .starting ∨ lifecycle.caller = .destroying ∨ Phase.starting ∈ lifecycle.threads

/-- The thread that the stop in progress joins, or is going to join. -/
def joined (lifecycle : Lifecycle) : Option Nat :=
  match lifecycle.caller with
  | .stopping .reset _ =>
      if lifecycle.machine.reconnecting && lifecycle.machine.reconnect_thread_active then
        some (lifecycle.threads.length - 1)
      else none
  | .stopping .cancelled _ =>
      if lifecycle.machine.reconnect_thread_active then some (lifecycle.threads.length - 1)
      else none
  | .stopping (.joining thread) _ => some thread
  | _ => none

def joinedPhase (lifecycle : Lifecycle) : Option Phase :=
  lifecycle.joined.bind fun thread => lifecycle.threads[thread]?

/-- A thread that the stop joins has been told to end. -/
def Told (lifecycle : Lifecycle) : Prop :=
  match lifecycle.caller with
  | .stopping .cancelled _ => lifecycle.machine.reconnect_stop_event = true
  | .stopping (.joining thread) _ =>
      thread < lifecycle.threads.length ∧
        (lifecycle.threads[thread]? = some .sleeping →
          lifecycle.machine.reconnect_stop_event = true)
  | _ => True

/-- A stop is in progress that will signal `stopping_event`: it does not wait for a
thread that waits for the event itself or that sleeps until its timeout. -/
def StopWillSignal (lifecycle : Lifecycle) : Prop :=
  lifecycle.caller.beforeSignal = true ∧ lifecycle.joinedPhase ≠ some .starting ∧ lifecycle.Told

/-- Whoever waits for `stopping_event` finds it signalled, now or by a stop. -/
def NeverBlocks (lifecycle : Lifecycle) : Prop :=
  lifecycle.Waits → lifecycle.stopping_event_exists = true ∧
    (lifecycle.machine.stopping_event = true ∨ lifecycle.StopWillSignal)

/-- The newest reconnect thread would be joined by a stop, and is in
`mgw_output_actual_start`. -/
def RestartsNow (lifecycle : Lifecycle) : Prop :=
  lifecycle.machine.reconnecting = true ∧ lifecycle.machine.reconnect_thread_active = true ∧
    lifecycle.threads.getLast? = some .starting

/-- `mgw_output_destroy` stops the output first. -/
def StopsFirst (lifecycle : Lifecycle) : Prop :=
  (lifecycle.machine.valid && (lifecycle.machine.info_impl && lifecycle.machine.actived)) = true

end Lifecycle

def Creation.succeeds : Creation → Bool
  | .failed _ => false
  | .created _ => true

/-- The creation succeeds. An output is destroyed only after `info.start` has been
called, and freed only when no reconnect thread is in `mgw_output_actual_start`. A
stop does not begin while it would join a thread that is there, the thread it joins
does not time out before the signal, and neither does a thread of a freed output.
Once a stop has cancelled the reconnect, no report begins another before the
signal. -/
def Safe (lifecycle : Lifecycle) : Action → Prop
  | .create creation => lifecycle.caller = .nothing → creation.succeeds = true
  | .stop =>
      lifecycle.caller = .idle → lifecycle.machine.actived = true → ¬lifecycle.RestartsNow
  | .destroy =>
      lifecycle.caller = .idle →
        lifecycle.Started ∧ (lifecycle.StopsFirst → ¬lifecycle.RestartsNow)
  | .proceed _ => lifecycle.caller = .destroying → Phase.starting ∉ lifecycle.threads
  | .timeOut thread =>
      lifecycle.threads[thread]? = some .sleeping →
        lifecycle.caller ≠ .freed ∧
          (lifecycle.machine.stopping_event = false → lifecycle.joined ≠ some thread)
  | .report code =>
      lifecycle.caller.beforeSignal = true → lifecycle.machine.stopping_event = false →
        lifecycle.machine.reconnecting = false → code = MGW_DISCONNECTED →
          lifecycle.caller.hasCancelled = false ∧ lifecycle.joinedPhase ≠ some .sleeping
  | _ => True

instance (lifecycle : Lifecycle) : Decidable lifecycle.RestartsNow :=
  inferInstanceAs (Decidable (lifecycle.machine.reconnecting = true ∧
    lifecycle.machine.reconnect_thread_active = true ∧
    lifecycle.threads.getLast? = some .starting))

instance (lifecycle : Lifecycle) : Decidable lifecycle.StopsFirst :=
  inferInstanceAs (Decidable ((lifecycle.machine.valid &&
    (lifecycle.machine.info_impl && lifecycle.machine.actived)) = true))

instance (lifecycle : Lifecycle) : ∀ action, Decidable (Safe lifecycle action)
  | .create creation =>
      inferInstanceAs (Decidable (lifecycle.caller = .nothing → creation.succeeds = true))
  | .stop =>
      inferInstanceAs (Decidable (lifecycle.caller = .idle → lifecycle.machine.actived = true →
        ¬lifecycle.RestartsNow))
  | .destroy =>
      inferInstanceAs (Decidable (lifecycle.caller = .idle →
        lifecycle.Started ∧ (lifecycle.StopsFirst → ¬lifecycle.RestartsNow)))
  | .proceed _ =>
      inferInstanceAs (Decidable (lifecycle.caller = .destroying →
        Phase.starting ∉ lifecycle.threads))
  | .timeOut thread =>
      inferInstanceAs (Decidable (lifecycle.threads[thread]? = some .sleeping →
        lifecycle.caller ≠ .freed ∧
          (lifecycle.machine.stopping_event = false → lifecycle.joined ≠ some thread)))
  | .report code =>
      inferInstanceAs (Decidable (lifecycle.caller.beforeSignal = true →
        lifecycle.machine.stopping_event = false → lifecycle.machine.reconnecting = false →
          code = MGW_DISCONNECTED →
            lifecycle.caller.hasCancelled = false ∧ lifecycle.joinedPhase ≠ some .sleeping))
  | .start | .connected | .wake _ | .startAgain _ _ | .finish _ =>
      inferInstanceAs (Decidable True)

section Attempts

variable {retry : Retry}

/-- A report that can reconnect either gives up or starts one thread. -/
theorem attempt_cases (retry : Retry) :
    (retry.attempt.timers = retry.timers ∧ retry.attempt.reconnecting = false ∧
        retry.attempt.reconnect_thread_active = retry.reconnect_thread_active ∧
        retry.attempt.reconnect_stop_event = retry.reconnect_stop_event) ∨
      (retry.attempt.timers = retry.timers + 1 ∧ retry.attempt.reconnecting = true ∧
        retry.attempt.reconnect_thread_active = true ∧
        retry.attempt.reconnect_stop_event =
          (retry.reconnecting && retry.reconnect_stop_event)) := by
  have budget : retry.restartBudget.timers = retry.timers ∧
      retry.restartBudget.reconnecting = retry.reconnecting ∧
      retry.restartBudget.reconnect_thread_active = retry.reconnect_thread_active ∧
      retry.restartBudget.reconnect_stop_event = retry.reconnect_stop_event := by
    rw [Retry.restartBudget]
    split_ifs <;> exact ⟨rfl, rfl, rfl, rfl⟩
  obtain ⟨timers, reconnecting, active, event⟩ := budget
  rw [Retry.attempt]
  cases retry.restartBudget.exhausted with
  | true =>
      left
      exact ⟨timers, rfl, active, event⟩
  | false =>
      right
      refine ⟨?_, ?_, rfl, ?_⟩
      · rw [← timers, if_neg Bool.false_ne_true, Retry.enterReconnecting]
        split_ifs <;> rfl
      · rw [if_neg Bool.false_ne_true, Retry.enterReconnecting]
        split_ifs with running
        · exact running
        · rfl
      · rw [← reconnecting, ← event, if_neg Bool.false_ne_true, Retry.enterReconnecting]
        split_ifs with running
        · rw [running]
          rfl
        · rw [Bool.not_eq_true] at running
          rw [running]
          rfl

/-- What reports of a machine that is reconnecting or not can ask for. -/
theorem reconnect_code {machine : Machine} {code : Int} (can : machine.canReconnect code = true)
    (idle : machine.reconnecting = false) : code = MGW_DISCONNECTED := by
  rw [Machine.canReconnect, idle] at can
  simp only [Bool.false_and, Bool.false_or, Bool.and_eq_true, decide_eq_true_eq] at can
  exact can.2

end Attempts

section Signals

/-- A routine of the plugin that leaves `stopping_event` signalled. -/
def KeepsSignal (infoStop : Machine → Machine) : Prop :=
  ∀ machine : Machine, machine.stopping_event = true → (infoStop machine).stopping_event = true

theorem reconnect_keeps_signal {infoStop : Machine → Machine} (keeps : KeepsSignal infoStop) :
    KeepsSignal (Machine.reconnect infoStop) := by
  intro machine signalled
  rw [Machine.reconnect]
  dsimp only
  split
  · exact signalled
  · exact keeps _ signalled

theorem signal_stop_keeps_signal {infoStop : Machine → Machine} (keeps : KeepsSignal infoStop)
    (code : Int) : KeepsSignal (Machine.signalStopWith infoStop code) := by
  intro machine signalled
  obtain ⟨noted, -, kept, result⟩ := signal_stop_noted infoStop code machine
  rw [result]
  cases machine.canReconnect code with
  | true => exact reconnect_keeps_signal keeps noted (kept.trans signalled)
  | false => rfl

theorem info_stop_keeps_signal : KeepsSignal Machine.infoStop := by
  intro machine signalled
  rw [Machine.infoStop]
  split_ifs
  · exact signalled
  · exact signal_stop_keeps_signal (fun _ same => same) MGW_SUCCESS machine signalled

theorem report_keeps_signal (code : Int) : KeepsSignal (Machine.signalStop code) :=
  fun machine signalled => signal_stop_keeps_signal info_stop_keeps_signal code machine signalled

theorem finish_stop_keeps_signal : KeepsSignal finishStop := by
  intro machine signalled
  rw [finishStop]
  split_ifs
  · exact info_stop_keeps_signal machine signalled
  · exact signalled
  · exact signalled

end Signals

section Reports

variable (lifecycle : Lifecycle) (code : Int)

/-- A report leaves the threads alone, except that it may end the reconnecting. -/
def ReportsQuietly : Prop :=
  (lifecycle.report code).threads = lifecycle.threads ∧
    ((lifecycle.report code).machine.reconnecting = lifecycle.machine.reconnecting ∨
      (lifecycle.report code).machine.reconnecting = false) ∧
    (lifecycle.report code).machine.reconnect_thread_active =
      lifecycle.machine.reconnect_thread_active ∧
    (lifecycle.report code).machine.reconnect_stop_event = lifecycle.machine.reconnect_stop_event

/-- A report starts a reconnect thread. -/
def ReportsReconnect : Prop :=
  (lifecycle.report code).threads = lifecycle.threads ++ [.sleeping] ∧
    (lifecycle.report code).machine.reconnecting = true ∧
    (lifecycle.report code).machine.reconnect_thread_active = true ∧
    (lifecycle.report code).machine.reconnect_stop_event =
      (lifecycle.machine.reconnecting && lifecycle.machine.reconnect_stop_event) ∧
    (lifecycle.machine.reconnecting = false → code = MGW_DISCONNECTED)

theorem report_cases : ReportsQuietly lifecycle code ∨ ReportsReconnect lifecycle code := by
  have retry : (lifecycle.report code).machine.toRetry =
      if lifecycle.machine.canReconnect code then lifecycle.machine.toRetry.attempt
      else lifecycle.machine.toRetry := signal_stop_retry info_stop_quiet code lifecycle.machine
  have threads : (lifecycle.report code).threads = lifecycle.threads ++
      List.replicate ((lifecycle.report code).machine.timers - lifecycle.machine.timers)
        .sleeping := rfl
  cases can : lifecycle.machine.canReconnect code with
  | false =>
      rw [can, if_neg Bool.false_ne_true] at retry
      rw [retry, Nat.sub_self, List.replicate_zero, List.append_nil] at threads
      left
      rw [ReportsQuietly, retry]
      exact ⟨threads, Or.inl rfl, rfl, rfl⟩
  | true =>
      rw [can, if_pos rfl] at retry
      rw [retry] at threads
      rcases attempt_cases lifecycle.machine.toRetry with
        ⟨timers, reconnecting, active, event⟩ | ⟨timers, reconnecting, active, event⟩
      · rw [timers, Nat.sub_self, List.replicate_zero, List.append_nil] at threads
        left
        rw [ReportsQuietly, retry]
        exact ⟨threads, Or.inr reconnecting, active, event⟩
      · rw [timers, Nat.add_sub_cancel_left, List.replicate_one] at threads
        right
        rw [ReportsReconnect, retry]
        exact ⟨threads, reconnecting, active, event, reconnect_code can⟩

end Reports

/-- What holds in every state that a safe run reaches, by the place of the caller. -/
def Held (lifecycle : Lifecycle) : Prop :=
  match lifecycle.caller with
  | .nothing => lifecycle.threads = [] ∧ ¬lifecycle.Started
  | .idle =>
      lifecycle.stopping_event_exists = true ∧
        (lifecycle.machine.stopping_event = true ∨ lifecycle.threads = [] ∧ ¬lifecycle.Started)
  | .freed => Phase.starting ∉ lifecycle.threads
  | _ =>
      lifecycle.stopping_event_exists = true ∧
        (lifecycle.machine.stopping_event = true ∨ lifecycle.StopWillSignal)

/-- A thread that counts as active is there to be joined. -/
def Joinable (lifecycle : Lifecycle) : Prop :=
  lifecycle.machine.reconnect_thread_active = true → lifecycle.threads ≠ []

theorem held_never_blocks {lifecycle : Lifecycle} (held : Held lifecycle) :
    lifecycle.NeverBlocks := by
  intro waits
  rw [Held] at held
  rw [Lifecycle.Waits] at waits
  cases place : lifecycle.caller with
  | nothing =>
      rw [place] at held waits
      simp [held.1] at waits
  | idle =>
      rw [place] at held waits
      obtain ⟨present, signalled | ⟨none, -⟩⟩ := held
      · exact ⟨present, Or.inl signalled⟩
      · simp [none] at waits
  | freed =>
      rw [place] at held waits
      simp only [reduceCtorEq, false_or] at waits
      exact absurd waits held
  | starting =>
      rw [place] at held
      exact held
  | stopping stage destroys =>
      rw [place] at held
      exact held
  | destroying =>
      rw [place] at held
      exact held

/-- A step under which the caller stays where it is. -/
theorem held_unmoved {before after : Lifecycle} (held : Held before)
    (live : before.Started ∨ before.threads ≠ []) (caller : after.caller = before.caller)
    (present : after.stopping_event_exists = before.stopping_event_exists)
    (signalled : before.machine.stopping_event = true → after.machine.stopping_event = true)
    (will : before.machine.stopping_event = false → before.StopWillSignal → after.StopWillSignal)
    (freed : before.caller = .freed → Phase.starting ∉ before.threads →
      Phase.starting ∉ after.threads) : Held after := by
  have goesOn : (before.machine.stopping_event = true ∨ before.StopWillSignal) →
      after.machine.stopping_event = true ∨ after.StopWillSignal := by
    intro goes
    cases event : before.machine.stopping_event with
    | true => exact Or.inl (signalled event)
    | false =>
        rw [event] at goes
        exact Or.inr (will event (goes.resolve_left Bool.false_ne_true))
  rw [Held] at held ⊢
  rw [caller]
  cases place : before.caller with
  | nothing =>
      rw [place] at held
      exact absurd live (not_or.mpr ⟨held.2, not_not.mpr held.1⟩)
  | idle =>
      rw [place] at held
      obtain ⟨exists_, event | ⟨none, unstarted⟩⟩ := held
      · exact ⟨present.trans exists_, Or.inl (signalled event)⟩
      · exact absurd live (not_or.mpr ⟨unstarted, not_not.mpr none⟩)
  | freed =>
      rw [place] at held
      exact freed place held
  | starting =>
      rw [place] at held
      exact ⟨present.trans held.1, goesOn held.2⟩
  | stopping stage destroys =>
      rw [place] at held
      exact ⟨present.trans held.1, goesOn held.2⟩
  | destroying =>
      rw [place] at held
      exact ⟨present.trans held.1, goesOn held.2⟩

/-- With less left to join, a stop that would signal the event still does. -/
theorem will_signal_mono {before after : Lifecycle} (will : before.StopWillSignal)
    (caller : after.caller = before.caller) (threads : after.threads = before.threads)
    (reconnecting : after.machine.reconnecting = true → before.machine.reconnecting = true)
    (active : after.machine.reconnect_thread_active = true →
      before.machine.reconnect_thread_active = true)
    (event : after.machine.reconnect_stop_event = before.machine.reconnect_stop_event) :
    after.StopWillSignal := by
  have joined : after.joined = before.joined ∨ after.joined = none := by
    rw [Lifecycle.joined, Lifecycle.joined, caller, threads]
    cases before.caller with
    | stopping stage destroys =>
        cases stage with
        | reset =>
            dsimp only
            split_ifs with joins joined
            · exact Or.inl rfl
            · rw [Bool.and_eq_true] at joins joined
              exact absurd ⟨reconnecting joins.1, active joins.2⟩ joined
            · exact Or.inr rfl
            · exact Or.inr rfl
        | cancelled =>
            dsimp only
            split_ifs with joins joined
            · exact Or.inl rfl
            · exact absurd (active joins) joined
            · exact Or.inr rfl
            · exact Or.inr rfl
        | _ => exact Or.inl rfl
    | _ => exact Or.inl rfl
  refine ⟨?_, ?_, ?_⟩
  · rw [caller]
    exact will.1
  · rw [Lifecycle.joinedPhase, threads]
    rcases joined with same | nothing
    · rw [same]
      exact will.2.1
    · rw [nothing]
      exact Option.some_ne_none _ ∘ Eq.symm
  · rw [Lifecycle.Told, caller, threads, event]
    exact will.2.2

section Threads

variable {lifecycle : Lifecycle} {thread : Nat} {phase : Phase}

theorem moved_joined : (lifecycle.moveThread thread phase).joined = lifecycle.joined := by
  rw [Lifecycle.joined, Lifecycle.joined, Lifecycle.moveThread]
  simp only [List.length_set]

theorem moved_other (other : lifecycle.joined ≠ some thread) :
    (lifecycle.moveThread thread phase).joinedPhase = lifecycle.joinedPhase := by
  rw [Lifecycle.joinedPhase, moved_joined, Lifecycle.joinedPhase]
  cases place : lifecycle.joined with
  | none => rfl
  | some joined =>
      have apart : thread ≠ joined := fun same => other (by rw [place, same])
      exact List.getElem?_set_ne apart

theorem moved_phase : (lifecycle.moveThread thread phase).joinedPhase = lifecycle.joinedPhase ∨
    (lifecycle.moveThread thread phase).joinedPhase = some phase := by
  by_cases same : lifecycle.joined = some thread
  · by_cases bound : thread < lifecycle.threads.length
    · right
      rw [Lifecycle.joinedPhase, moved_joined, same]
      exact List.getElem?_set_self bound
    · left
      rw [Lifecycle.joinedPhase, moved_joined, Lifecycle.joinedPhase, same]
      have unchanged : lifecycle.threads.set thread phase = lifecycle.threads :=
        List.set_eq_of_length_le (Nat.le_of_not_lt bound)
      exact congrArg (fun threads : List Phase => threads[thread]?) unchanged
  · exact Or.inl (moved_other same)

/-- A thread that has been told stays so when it moves on, and when another moves. -/
theorem moved_told (told : lifecycle.Told)
    (awake : phase ≠ .sleeping) : (lifecycle.moveThread thread phase).Told := by
  rw [Lifecycle.Told] at told ⊢
  rw [show (lifecycle.moveThread thread phase).caller = lifecycle.caller from rfl]
  cases place : lifecycle.caller with
  | stopping stage destroys =>
      rw [place] at told
      cases stage with
      | joining joined =>
          refine ⟨lt_of_lt_of_eq told.1 List.length_set.symm, fun sleeps => told.2 ?_⟩
          by_cases same : thread = joined
          · subst same
            have moved : (lifecycle.threads.set thread phase)[thread]? = some phase :=
              List.getElem?_set_self told.1
            exact absurd (Option.some.inj (moved.symm.trans sleeps)) awake
          · exact (List.getElem?_set_ne same).symm.trans sleeps
      | cancelled => exact told
      | _ => trivial
  | _ => trivial

theorem moved_other_will (other : lifecycle.joined ≠ some thread) (awake : phase ≠ .sleeping)
    (will : lifecycle.StopWillSignal) : (lifecycle.moveThread thread phase).StopWillSignal := by
  refine ⟨will.1, ?_, moved_told will.2.2 awake⟩
  rw [moved_other other]
  exact will.2.1

theorem moved_will (awake : phase ≠ .sleeping) (behind : phase ≠ .starting)
    (will : lifecycle.StopWillSignal) : (lifecycle.moveThread thread phase).StopWillSignal := by
  refine ⟨will.1, ?_, moved_told will.2.2 awake⟩
  rcases @moved_phase lifecycle thread phase with same | moved
  · rw [same]
    exact will.2.1
  · rw [moved]
    exact fun starts => behind (Option.some.inj starts)

theorem moved_not_starting (behind : phase ≠ .starting)
    (none : Phase.starting ∉ lifecycle.threads) :
    Phase.starting ∉ (lifecycle.moveThread thread phase).threads := by
  intro member
  rcases List.mem_or_eq_of_mem_set member with old | new
  · exact none old
  · exact behind new.symm

end Threads

end Mgw.OutputLifecycle
