import Mgw.OutputSteps

/-!
# Nobody waits for ever for an output's `stopping_event`

The invariant gives it for every run of safe steps. A stop that will signal the
event does so with its own steps and those of the thread it has told to end, and
a step that is not safe leads to a wait that nobody ends.
-/

namespace Mgw.OutputLifecycle

open Reconnect TransitionRuns

set_option autoImplicit false

section Signalling

variable {lifecycle : Lifecycle} {thread : Nat} {destroys : Bool}

/-- The steps of a stop and of a thread that has been told to end. -/
def Action.ofStop : Action → Bool
  | .proceed _ | .wake _ | .finish _ => true
  | _ => false

/-- Some steps of the stop and its threads lead to the signal. -/
def SignalsAlone (lifecycle : Lifecycle) : Prop :=
  ∃ steps : List Action, (∀ step ∈ steps, step.ofStop = true) ∧
    (run next lifecycle steps).machine.stopping_event = true

theorem signals_behind {step : Action} (stops : step.ofStop = true)
    (later : SignalsAlone (next lifecycle step)) : SignalsAlone lifecycle := by
  obtain ⟨steps, each, signalled⟩ := later
  refine ⟨step :: steps, ?_, signalled⟩
  intro other member
  rcases List.mem_cons.mp member with same | rest
  · rw [same]
    exact stops
  · exact each other rest

theorem ended_signals (place : lifecycle.caller = .stopping (.joining thread) destroys)
    (ended : lifecycle.threads.getD thread .ended = .ended) : SignalsAlone lifecycle := by
  refine ⟨[.proceed true], by decide, ?_⟩
  rw [run_cons, next_stopping true place, Lifecycle.continueStop, if_pos ended]
  rfl

theorem ending_signals (place : lifecycle.caller = .stopping (.joining thread) destroys)
    (ending : lifecycle.threads[thread]? = some .ending) : SignalsAlone lifecycle := by
  apply @signals_behind lifecycle (.finish thread) rfl
  rw [next, if_pos ending]
  apply @ended_signals (lifecycle.finish thread) thread destroys place
  have last : (lifecycle.threads.set thread .ended)[thread]? = some Phase.ended :=
    List.getElem?_set_self (List.getElem?_eq_some_iff.mp ending).1
  rw [List.getD_eq_getElem?_getD]
  exact congrArg (fun phase : Option Phase => phase.getD .ended) last

theorem joining_signals (place : lifecycle.caller = .stopping (.joining thread) destroys)
    (will : lifecycle.StopWillSignal) : SignalsAlone lifecycle := by
  obtain ⟨-, behind, told⟩ := will
  rw [Lifecycle.joinedPhase, Lifecycle.joined, place] at behind
  rw [Lifecycle.Told, place] at told
  obtain ⟨bound, tells⟩ := told
  have found : lifecycle.threads[thread]? = some lifecycle.threads[thread] :=
    List.getElem?_eq_getElem bound
  cases phase : lifecycle.threads[thread] with
  | sleeping =>
      rw [phase] at found
      apply @signals_behind lifecycle (.wake thread) rfl
      rw [next, if_pos ⟨found, tells found⟩]
      exact @ending_signals (lifecycle.moveThread thread .ending) thread destroys place
        (List.getElem?_set_self bound)
  | starting =>
      rw [phase] at found
      exact absurd found behind
  | ending =>
      rw [phase] at found
      exact ending_signals place found
  | ended =>
      rw [phase] at found
      exact ended_signals place (by rw [List.getD_eq_getElem?_getD, found]; rfl)

theorem signal_stopping_signals (step : next lifecycle (.proceed true) =
    lifecycle.signalStopping destroys) : SignalsAlone lifecycle := by
  refine ⟨[.proceed true], by decide, ?_⟩
  rw [run_cons, step]
  rfl

theorem cancelled_signals (place : lifecycle.caller = .stopping .cancelled destroys)
    (joinable : Joinable lifecycle) (will : lifecycle.StopWillSignal) :
    SignalsAlone lifecycle := by
  have goes := next_stopping true place
  cases active : lifecycle.machine.reconnect_thread_active with
  | true =>
      apply @signals_behind lifecycle (.proceed true) rfl
      rw [goes, continue_cancelled active]
      exact joining_signals rfl (joining_will place active (joinable active) will)
  | false =>
      rw [Lifecycle.continueStop, active, if_neg Bool.false_ne_true] at goes
      exact signal_stopping_signals goes

/-- A stop that will signal the event needs nobody else for it. -/
theorem stop_signals (joinable : Joinable lifecycle) (will : lifecycle.StopWillSignal) :
    SignalsAlone lifecycle := by
  have before := will.1
  cases place : lifecycle.caller with
  | stopping stage destroys =>
      cases stage with
      | reset =>
          have goes := next_stopping true place
          cases reconnecting : lifecycle.machine.reconnecting with
          | true =>
              apply @signals_behind lifecycle (.proceed true) rfl
              rw [goes, continue_reset reconnecting]
              exact cancelled_signals rfl joinable (cancelled_will place reconnecting will)
          | false =>
              rw [Lifecycle.continueStop, reconnecting, if_neg Bool.false_ne_true] at goes
              exact signal_stopping_signals goes
      | cancelled => exact cancelled_signals place joinable will
      | joining thread => exact joining_signals place will
      | signalled =>
          rw [place] at before
          exact absurd before Bool.false_ne_true
  | _ =>
      rw [place] at before
      exact absurd before Bool.false_ne_true

end Signalling

section Blocking

variable {lifecycle : Lifecycle}

theorem failed_create_blocks (step : CreateStep) :
    ¬(Lifecycle.create (.failed step)).NeverBlocks := by
  intro claimed
  obtain ⟨-, signalled | will⟩ := claimed (Or.inr (Or.inl rfl))
  · exact Bool.false_ne_true signalled
  · exact Bool.false_ne_true will.1

theorem unsignalled_destroy_blocks (unsignalled : lifecycle.machine.stopping_event = false)
    (active : ¬lifecycle.StopsFirst) : ¬lifecycle.destroy.NeverBlocks := by
  have waits : lifecycle.destroy = { lifecycle with caller := .destroying } := if_neg active
  intro claimed
  rw [waits] at claimed
  obtain ⟨-, signalled | will⟩ := claimed (Or.inr (Or.inl rfl))
  · exact Bool.false_ne_true (unsignalled.symm.trans signalled)
  · exact Bool.false_ne_true will.1

/-- The stop joins a thread that waits for the event that the stop has reset. -/
theorem begun_stop_blocks {destroys : Bool} (restarts : lifecycle.RestartsNow) :
    ¬(lifecycle.beginStop destroys).NeverBlocks := by
  intro claimed
  obtain ⟨reconnecting, active, newest⟩ := restarts
  obtain ⟨-, signalled | will⟩ := claimed (Or.inr (Or.inr (List.mem_of_getLast? newest)))
  · exact Bool.false_ne_true signalled
  · apply will.2.1
    rw [Lifecycle.joinedPhase, Lifecycle.joined, Lifecycle.beginStop]
    dsimp only
    rw [reconnecting, active, Bool.and_self, if_pos rfl, Option.bind_some,
      ← List.getLast?_eq_getElem?]
    exact newest

theorem joined_time_out_blocks {thread : Nat} (joins : lifecycle.joined = some thread)
    (sleeps : lifecycle.threads[thread]? = some .sleeping)
    (unsignalled : lifecycle.machine.stopping_event = false) :
    ¬(lifecycle.moveThread thread .starting).NeverBlocks := by
  intro claimed
  have moved : (lifecycle.threads.set thread .starting)[thread]? = some Phase.starting :=
    List.getElem?_set_self (List.getElem?_eq_some_iff.mp sleeps).1
  obtain ⟨-, signalled | will⟩ := claimed (Or.inr (Or.inr (List.mem_of_getElem? moved)))
  · exact Bool.false_ne_true (unsignalled.symm.trans signalled)
  · apply will.2.1
    rw [Lifecycle.joinedPhase, moved_joined, joins]
    exact moved

theorem freed_start_blocks (freed : lifecycle.stopping_event_exists = false)
    (starts : Phase.starting ∈ lifecycle.threads) : ¬lifecycle.NeverBlocks := by
  intro claimed
  have present := (claimed (Or.inr (Or.inr starts))).1
  exact Bool.false_ne_true (freed.symm.trans present)

/-- A step that is not safe leads to a wait without end, unless it is a report, where
the event is gone with the output and has not been signalled before the first start. -/
theorem unsafe_step_blocks {action : Action} (held : Held lifecycle)
    (gone : lifecycle.caller = .freed → lifecycle.stopping_event_exists = false)
    (unstarted : lifecycle.caller = .idle → ¬lifecycle.Started →
      lifecycle.machine.stopping_event = false ∧ lifecycle.machine.actived = false)
    (silent : ∀ code, action ≠ .report code) (wrong : ¬Safe lifecycle action) :
    ¬(next lifecycle action).NeverBlocks := by
  cases action with
  | create creation =>
      obtain ⟨nothing, fails⟩ := Classical.not_imp.mp wrong
      rw [next, if_pos nothing]
      cases creation with
      | failed step => exact failed_create_blocks step
      | created info_impl => exact absurd rfl fails
  | stop =>
      obtain ⟨idle, more⟩ := Classical.not_imp.mp wrong
      obtain ⟨actived, restarts⟩ := Classical.not_imp.mp more
      rw [next_stop idle actived]
      exact begun_stop_blocks (not_not.mp restarts)
  | destroy =>
      obtain ⟨idle, refused⟩ := Classical.not_imp.mp wrong
      rw [next, if_pos idle]
      by_cases started : lifecycle.Started
      · obtain ⟨stops, restarts⟩ := Classical.not_imp.mp fun ready => refused ⟨started, ready⟩
        rw [show lifecycle.destroy = lifecycle.beginStop true from if_pos stops]
        exact begun_stop_blocks (not_not.mp restarts)
      · obtain ⟨unsignalled, inactive⟩ := unstarted idle started
        apply unsignalled_destroy_blocks unsignalled
        intro stops
        rw [Lifecycle.StopsFirst, inactive, Bool.and_false, Bool.and_false] at stops
        exact Bool.false_ne_true stops
  | proceed success =>
      obtain ⟨destroying, starts⟩ := Classical.not_imp.mp wrong
      have going := held
      rw [Held, destroying] at going
      obtain ⟨present, signalled | will⟩ := going
      · have frees : next lifecycle (.proceed success) =
            { lifecycle with stopping_event_exists := false, caller := .freed } := by
          rw [next, Lifecycle.proceed, destroying]
          exact if_pos (by rw [present, signalled]; rfl)
        rw [frees]
        exact freed_start_blocks rfl (not_not.mp starts)
      · have before := will.1
        rw [destroying] at before
        exact absurd before Bool.false_ne_true
  | timeOut thread =>
      obtain ⟨sleeps, refused⟩ := Classical.not_imp.mp wrong
      have moved : next lifecycle (.timeOut thread) = lifecycle.moveThread thread .starting :=
        if_pos sleeps
      have bound := (List.getElem?_eq_some_iff.mp sleeps).1
      rw [moved]
      by_cases freed : lifecycle.caller = .freed
      · exact freed_start_blocks (gone freed) (List.mem_set bound _)
      · obtain ⟨unsignalled, joins⟩ := Classical.not_imp.mp fun apart => refused ⟨freed, apart⟩
        exact joined_time_out_blocks (not_not.mp joins) sleeps unsignalled
  | report code => exact absurd rfl (silent code)
  | start => exact absurd trivial wrong
  | connected => exact absurd trivial wrong
  | wake thread => exact absurd trivial wrong
  | startAgain thread success => exact absurd trivial wrong
  | finish thread => exact absurd trivial wrong

end Blocking

/-- An output never blocks for ever on `stopping_event` in a run of safe steps. -/
theorem outputs_never_block (actions : List Action) (safe : Meets next Safe initial actions) :
    (run next initial actions).NeverBlocks := by
  have start : Held initial ∧ Joinable initial :=
    ⟨⟨rfl, List.not_mem_nil⟩, fun active => absurd active Bool.false_ne_true⟩
  have step : ∀ lifecycle action, Held lifecycle ∧ Joinable lifecycle → Safe lifecycle action →
      Held (next lifecycle action) ∧ Joinable (next lifecycle action) := by
    intro lifecycle action before condition
    exact ⟨held_next before.1 before.2 condition, joinable_next before.2⟩
  have reached := run_invariant step actions initial start safe
  exact held_never_blocks reached.1

/-- A connection lost and restored, then a stop and the end of the output. -/
theorem outputs_never_block_restarted :
    (run next initial [.create (.created true), .start, .proceed true, .connected,
      .report MGW_DISCONNECTED, .timeOut 0, .startAgain 0 true, .finish 0, .stop, .proceed true,
      .proceed true, .proceed true, .destroy, .proceed true]).NeverBlocks :=
  outputs_never_block _ (by decide)

/-- The start of an output without a plugin instance is refused, and its destruction
then waits for ever. -/
theorem unstarted_output_blocks :
    ¬∀ actions : List Action, (run next initial actions).NeverBlocks := by
  intro claimed
  obtain ⟨-, signalled | will⟩ :=
    claimed [.create (.created false), .start, .destroy] (Or.inr (Or.inl (by decide)))
  · exact absurd signalled (by decide)
  · exact absurd will.1 (by decide)

end Mgw.OutputLifecycle
