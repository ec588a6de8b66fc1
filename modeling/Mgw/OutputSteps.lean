import Mgw.OutputWaits

/-!
# Each safe step of an output keeps its waits short

One lemma per kind of step: what holds by the place of the caller holds again
behind the step.
-/

namespace Mgw.OutputLifecycle

open Reconnect

set_option autoImplicit false

section Steps

variable {lifecycle : Lifecycle} {thread : Nat} {phase : Phase}

theorem threads_present (found : lifecycle.threads[thread]? = some phase) :
    lifecycle.threads ≠ [] := by
  intro none
  rw [none] at found
  exact absurd found (by simp)

theorem timed_out_held (held : Held lifecycle) (safe : Safe lifecycle (.timeOut thread)) :
    Held (next lifecycle (.timeOut thread)) := by
  rw [next]
  split_ifs with sleeps
  · obtain ⟨live, apart⟩ := safe sleeps
    refine held_unmoved held (Or.inr (threads_present sleeps)) rfl rfl
      (fun signalled => signalled) ?_ ?_
    · intro unsignalled will
      exact moved_other_will (apart unsignalled) (by decide) will
    · intro freed
      exact absurd freed live
  · exact held

theorem woken_held (held : Held lifecycle) : Held (next lifecycle (.wake thread)) := by
  rw [next]
  split_ifs with sleeps
  · refine held_unmoved held (Or.inr (threads_present sleeps.1)) rfl rfl
      (fun signalled => signalled) ?_ ?_
    · intro _ will
      exact moved_will (by decide) (by decide) will
    · intro _ none
      exact moved_not_starting (by decide) none
  · exact held

theorem finished_held (held : Held lifecycle) : Held (next lifecycle (.finish thread)) := by
  rw [next]
  split_ifs with ending
  · refine held_unmoved held (Or.inr (threads_present ending)) rfl rfl
      (fun signalled => signalled) ?_ ?_
    · intro _ will
      have moved := @moved_will lifecycle thread .ended (by decide) (by decide) will
      refine will_signal_mono moved rfl rfl ?_ ?_ rfl
      · intro reconnecting
        simp only [Lifecycle.finish, Retry.endThread] at reconnecting
        split_ifs at reconnecting
        exact reconnecting
      · intro active
        exact absurd active Bool.false_ne_true
    · intro _ none
      exact moved_not_starting (by decide) none
  · exact held

/-- What a start that has got through its wait leaves of the state. -/
theorem actual_start_keeps {success : Bool} {machine after : Machine}
    (started : machine.actualStart success = some after) :
    machine.stopping_event = true ∧ after.stopping_event = true ∧
      after.reconnecting = machine.reconnecting ∧
      after.reconnect_thread_active = machine.reconnect_thread_active ∧
      after.reconnect_stop_event = machine.reconnect_stop_event := by
  rw [Machine.actualStart] at started
  split_ifs at started with waits ready <;> obtain rfl := Option.some.inj started
  · rw [Bool.not_eq_true', Bool.not_eq_false] at waits
    exact ⟨waits, waits, rfl, rfl, rfl⟩
  · rw [Bool.not_eq_true', Bool.not_eq_false] at waits
    exact ⟨waits, waits, rfl, rfl, rfl⟩

theorem started_again_held {success : Bool} (held : Held lifecycle) :
    Held (next lifecycle (.startAgain thread success)) := by
  rw [next]
  split_ifs with starts
  · rw [Lifecycle.startAgain]
    cases result : lifecycle.machine.actualStart success with
    | none => exact held
    | some machine =>
        obtain ⟨-, signalled, reconnecting, active, event⟩ := actual_start_keeps result
        refine held_unmoved held (Or.inr (threads_present starts.1)) rfl rfl
          (fun _ => signalled) ?_ ?_
        · intro _ will
          have moved := @moved_will lifecycle thread .ending (by decide) (by decide) will
          exact will_signal_mono moved rfl rfl reconnecting.symm.trans active.symm.trans event
        · intro _ none
          exact moved_not_starting (by decide) none
  · exact held

theorem connected_held (held : Held lifecycle) : Held (next lifecycle .connected) := by
  rw [next]
  split_ifs with live
  · refine held_unmoved held (Or.inl live.1) rfl rfl (fun signalled => signalled) ?_ ?_
    · intro _ will
      exact will_signal_mono will rfl rfl (fun same => same) (fun same => same) rfl
    · intro _ none
      exact none
  · exact held

/-- A new reconnect thread does not stand in the way of a stop. -/
theorem reconnect_will {code : Int} (safe : Safe lifecycle (.report code))
    (unsignalled : lifecycle.machine.stopping_event = false) (will : lifecycle.StopWillSignal)
    (reports : ReportsReconnect lifecycle code) : (lifecycle.report code).StopWillSignal := by
  obtain ⟨threads, -, active, event, asks⟩ := reports
  obtain ⟨before, behind, told⟩ := will
  have allowed := safe before unsignalled
  have caller : (lifecycle.report code).caller = lifecycle.caller := rfl
  have newest : (lifecycle.report code).threads[(lifecycle.report code).threads.length - 1]? =
      some .sleeping := by
    rw [threads, List.length_append, List.length_singleton, Nat.add_sub_cancel]
    exact List.getElem?_concat_length
  refine ⟨before, ?_, ?_⟩
  · rw [Lifecycle.joinedPhase, Lifecycle.joined, caller]
    rw [Lifecycle.Told] at told
    rw [Lifecycle.joinedPhase, Lifecycle.joined] at behind
    cases place : lifecycle.caller with
    | stopping stage destroys =>
        rw [place] at told behind
        cases stage with
        | reset =>
            dsimp only
            split_ifs
            · rw [Option.bind_some, newest]
              decide
            · exact Option.some_ne_none _ ∘ Eq.symm
        | cancelled =>
            dsimp only
            split_ifs
            rw [Option.bind_some, newest]
            decide
        | joining thread =>
            rw [Option.bind_some, threads, List.getElem?_append_left told.1]
            exact behind
        | signalled => exact Option.some_ne_none _ ∘ Eq.symm
    | _ => exact Option.some_ne_none _ ∘ Eq.symm
  · rw [Lifecycle.Told, caller]
    rw [Lifecycle.Told] at told
    rw [Lifecycle.joinedPhase, Lifecycle.joined] at allowed
    cases place : lifecycle.caller with
    | stopping stage destroys =>
        rw [place] at told allowed
        cases stage with
        | cancelled =>
            have running : lifecycle.machine.reconnecting = true := by
              rw [← Bool.not_eq_false]
              exact fun idle => Bool.false_ne_true (allowed idle (asks idle)).1.symm
            exact event.trans (by rw [running, told]; rfl)
        | joining thread =>
            refine ⟨?_, fun sleeps => ?_⟩
            · rw [threads, List.length_append]
              exact Nat.lt_add_right 1 told.1
            · rw [threads, List.getElem?_append_left told.1] at sleeps
              have running : lifecycle.machine.reconnecting = true := by
                rw [← Bool.not_eq_false]
                exact fun idle => (allowed idle (asks idle)).2 sleeps
              exact event.trans (by rw [running, told.2 sleeps]; rfl)
        | _ => trivial
    | _ => trivial

theorem reported_held {code : Int} (held : Held lifecycle) (safe : Safe lifecycle (.report code)) :
    Held (next lifecycle (.report code)) := by
  rw [next]
  split_ifs with live
  · refine held_unmoved held (Or.inl live.1) rfl rfl (report_keeps_signal code _) ?_ ?_
    · intro unsignalled will
      rcases report_cases lifecycle code with quiet | reconnects
      · obtain ⟨threads, reconnecting, active, event⟩ := quiet
        refine will_signal_mono will rfl threads ?_ active.symm.trans event
        intro running
        rcases reconnecting with same | ended
        · exact same.symm.trans running
        · exact absurd (ended.symm.trans running) Bool.false_ne_true
      · exact reconnect_will safe unsignalled will reconnects
    · intro _ none
      rcases report_cases lifecycle code with quiet | reconnects
      · rw [quiet.1]
        exact none
      · rw [reconnects.1, List.mem_append, not_or]
        exact ⟨none, by decide⟩
  · exact held

theorem begin_stop_will {destroys : Bool} (ready : ¬lifecycle.RestartsNow) :
    (lifecycle.beginStop destroys).StopWillSignal := by
  refine ⟨rfl, ?_, trivial⟩
  rw [Lifecycle.joinedPhase, Lifecycle.joined, Lifecycle.beginStop]
  dsimp only
  split_ifs with joins
  · rw [Bool.and_eq_true] at joins
    intro starts
    apply ready
    refine ⟨joins.1, joins.2, ?_⟩
    rw [List.getLast?_eq_getElem?]
    exact starts
  · exact Option.some_ne_none _ ∘ Eq.symm

theorem idle_present (held : Held lifecycle) (idle : lifecycle.caller = .idle) :
    lifecycle.stopping_event_exists = true := by
  rw [Held, idle] at held
  exact held.1

theorem created_held {creation : Creation} (held : Held lifecycle)
    (safe : Safe lifecycle (.create creation)) : Held (next lifecycle (.create creation)) := by
  rw [next]
  split_ifs with nothing
  · have succeeds := safe nothing
    cases creation with
    | failed step => exact absurd succeeds Bool.false_ne_true
    | created info_impl => exact ⟨rfl, Or.inr ⟨rfl, List.not_mem_nil⟩⟩
  · exact held

theorem started_held (held : Held lifecycle) : Held (next lifecycle .start) := by
  rw [next]
  split_ifs with idle
  · have present := idle_present held idle
    rw [Lifecycle.start]
    split_ifs
    · exact held
    · exact held
    · exact ⟨present, Or.inl rfl⟩
  · exact held

theorem stopped_held (held : Held lifecycle) (safe : Safe lifecycle .stop) :
    Held (next lifecycle .stop) := by
  rw [next]
  split_ifs with idle
  · have present := idle_present held idle
    rw [Lifecycle.stop]
    split_ifs with actived
    · exact ⟨present, Or.inr (begin_stop_will (safe idle actived))⟩
    · exact held
  · exact held

theorem destroyed_held (held : Held lifecycle) (safe : Safe lifecycle .destroy) :
    Held (next lifecycle .destroy) := by
  rw [next]
  split_ifs with idle
  · have present := idle_present held idle
    obtain ⟨started, ready⟩ := safe idle
    rw [Lifecycle.destroy]
    split_ifs with stops
    · exact ⟨present, Or.inr (begin_stop_will (ready stops))⟩
    · have signalled : lifecycle.machine.stopping_event = true := by
        rw [Held, idle] at held
        exact held.2.resolve_right fun unstarted => unstarted.2 started
      exact ⟨present, Or.inl signalled⟩
  · exact held

theorem signal_stopping_held {destroys : Bool}
    (present : lifecycle.stopping_event_exists = true) :
    Held (lifecycle.signalStopping destroys) := ⟨present, Or.inl rfl⟩

/-- A stop of a reconnecting output behind its second step. -/
def cancelReconnect (destroys : Bool) (lifecycle : Lifecycle) : Lifecycle :=
  { lifecycle with
    machine := { lifecycle.machine with
      toRetry := Retry.note .cancelled
        { lifecycle.machine.toRetry with reconnect_stop_event := true } }
    caller := .stopping .cancelled destroys }

/-- A stop that joins the newest thread. -/
def joinNewest (destroys : Bool) (lifecycle : Lifecycle) : Lifecycle :=
  { lifecycle with caller := .stopping (.joining (lifecycle.threads.length - 1)) destroys }

theorem continue_reset {destroys : Bool} (reconnecting : lifecycle.machine.reconnecting = true) :
    lifecycle.continueStop .reset destroys = cancelReconnect destroys lifecycle := by
  rw [Lifecycle.continueStop, if_pos reconnecting, cancelReconnect]

theorem continue_cancelled {destroys : Bool}
    (active : lifecycle.machine.reconnect_thread_active = true) :
    lifecycle.continueStop .cancelled destroys = joinNewest destroys lifecycle := by
  rw [Lifecycle.continueStop, if_pos active, joinNewest]

theorem cancelled_will {destroys : Bool} (place : lifecycle.caller = .stopping .reset destroys)
    (reconnecting : lifecycle.machine.reconnecting = true) (will : lifecycle.StopWillSignal) :
    (cancelReconnect destroys lifecycle).StopWillSignal := by
  refine ⟨rfl, ?_, rfl⟩
  have behind := will.2.1
  rw [Lifecycle.joinedPhase, Lifecycle.joined, place] at behind
  simp only [reconnecting, Bool.true_and] at behind
  exact behind

theorem joining_will {destroys : Bool} (place : lifecycle.caller = .stopping .cancelled destroys)
    (active : lifecycle.machine.reconnect_thread_active = true) (present : lifecycle.threads ≠ [])
    (will : lifecycle.StopWillSignal) : (joinNewest destroys lifecycle).StopWillSignal := by
  refine ⟨rfl, ?_, ?_⟩
  · have behind := will.2.1
    rw [Lifecycle.joinedPhase, Lifecycle.joined, place] at behind
    simp only [active, if_true] at behind
    exact behind
  · have told := will.2.2
    rw [Lifecycle.Told, place] at told
    exact ⟨Nat.sub_lt (List.length_pos_iff.mpr present) Nat.one_pos, fun _ => told⟩

/-- A stop in progress stays on its way to its signal, and leaves the event
signalled behind it. -/
theorem continue_held {stage : Stage} {destroys : Bool} (held : Held lifecycle)
    (joinable : Joinable lifecycle) (place : lifecycle.caller = .stopping stage destroys) :
    Held (lifecycle.continueStop stage destroys) := by
  have kept := held
  rw [Held, place] at held
  obtain ⟨present, goes⟩ := held
  cases stage with
  | reset =>
      cases reconnecting : lifecycle.machine.reconnecting with
      | true =>
          rw [continue_reset reconnecting]
          exact ⟨present, goes.imp_right (cancelled_will place reconnecting)⟩
      | false =>
          rw [Lifecycle.continueStop, reconnecting]
          exact signal_stopping_held present
  | cancelled =>
      cases active : lifecycle.machine.reconnect_thread_active with
      | true =>
          rw [continue_cancelled active]
          exact ⟨present, goes.imp_right (joining_will place active (joinable active))⟩
      | false =>
          rw [Lifecycle.continueStop, active]
          exact signal_stopping_held present
  | joining thread =>
      rw [Lifecycle.continueStop]
      split_ifs
      · exact signal_stopping_held present
      · exact kept
  | signalled =>
      have signalled : lifecycle.machine.stopping_event = true := by
        refine goes.resolve_right fun will => ?_
        have before := will.1
        rw [place] at before
        exact Bool.false_ne_true before
      have left := finish_stop_keeps_signal lifecycle.machine signalled
      rw [Lifecycle.continueStop]
      cases destroys with
      | true => exact ⟨present, Or.inl left⟩
      | false => exact ⟨present, Or.inl left⟩

theorem proceeded_held {success : Bool} (held : Held lifecycle) (joinable : Joinable lifecycle)
    (safe : Safe lifecycle (.proceed success)) : Held (next lifecycle (.proceed success)) := by
  rw [next, Lifecycle.proceed]
  cases place : lifecycle.caller with
  | starting =>
      cases result : lifecycle.machine.actualStart success with
      | none => exact held
      | some machine =>
          rw [Held, place] at held
          exact ⟨held.1, Or.inl (actual_start_keeps result).2.1⟩
  | stopping stage destroys => exact continue_held held joinable place
  | destroying =>
      dsimp only
      split_ifs
      · exact safe place
      · exact held
  | _ => exact held

theorem joinable_of {before after : Lifecycle} (joinable : Joinable before)
    (active : after.machine.reconnect_thread_active = true →
      before.machine.reconnect_thread_active = true)
    (threads : before.threads ≠ [] → after.threads ≠ []) : Joinable after :=
  fun now => threads (joinable (active now))

theorem finish_stop_retry (machine : Machine) : (finishStop machine).toRetry = machine.toRetry := by
  rw [finishStop]
  split_ifs
  · exact info_stop_quiet machine
  · rfl
  · rfl

theorem continued_joinable {stage : Stage} {destroys : Bool} (joinable : Joinable lifecycle) :
    Joinable (lifecycle.continueStop stage destroys) := by
  cases stage with
  | reset =>
      rw [Lifecycle.continueStop]
      split_ifs <;> exact joinable
  | cancelled =>
      rw [Lifecycle.continueStop]
      split_ifs <;> exact joinable
  | joining thread =>
      rw [Lifecycle.continueStop]
      split_ifs <;> exact joinable
  | signalled =>
      intro active
      have same := congrArg Retry.reconnect_thread_active (finish_stop_retry lifecycle.machine)
      exact joinable (same.symm.trans active)

theorem moved_present (present : lifecycle.threads ≠ []) :
    (lifecycle.moveThread thread phase).threads ≠ [] := by
  rw [Lifecycle.moveThread]
  intro none
  exact present ((List.set_eq_nil_iff _ _).mp none)

theorem joinable_next {action : Action} (joinable : Joinable lifecycle) :
    Joinable (next lifecycle action) := by
  cases action with
  | create creation =>
      rw [next]
      split_ifs
      · cases creation <;> exact fun active => absurd active Bool.false_ne_true
      · exact joinable
  | start =>
      rw [next, Lifecycle.start]
      split_ifs <;> exact joinable
  | stop =>
      rw [next, Lifecycle.stop]
      split_ifs <;> exact joinable
  | destroy =>
      rw [next, Lifecycle.destroy]
      split_ifs <;> exact joinable
  | proceed success =>
      rw [next, Lifecycle.proceed]
      cases lifecycle.caller with
      | starting =>
          cases result : lifecycle.machine.actualStart success with
          | none => exact joinable
          | some machine =>
              obtain ⟨-, -, -, active, -⟩ := actual_start_keeps result
              exact joinable_of joinable active.symm.trans fun present => present
      | stopping stage destroys => exact continued_joinable joinable
      | destroying =>
          dsimp only
          split_ifs <;> exact joinable
      | _ => exact joinable
  | connected =>
      rw [next]
      split_ifs <;> exact joinable
  | report code =>
      rw [next]
      split_ifs
      · rcases report_cases lifecycle code with ⟨threads, -, active, -⟩ | ⟨threads, -⟩
        · exact joinable_of joinable active.symm.trans fun present => by rw [threads]; exact present
        · intro _
          rw [threads]
          exact List.append_ne_nil_of_right_ne_nil _ (List.cons_ne_nil _ _)
      · exact joinable
  | timeOut thread =>
      rw [next]
      split_ifs
      · exact joinable_of joinable (fun same => same) moved_present
      · exact joinable
  | wake thread =>
      rw [next]
      split_ifs
      · exact joinable_of joinable (fun same => same) moved_present
      · exact joinable
  | startAgain thread success =>
      rw [next, Lifecycle.startAgain]
      split_ifs
      · cases result : lifecycle.machine.actualStart success with
        | none => exact joinable
        | some machine =>
            obtain ⟨-, -, -, active, -⟩ := actual_start_keeps result
            exact joinable_of joinable active.symm.trans moved_present
      · exact joinable
  | finish thread =>
      rw [next]
      split_ifs
      · exact fun active => absurd active Bool.false_ne_true
      · exact joinable

theorem held_next {action : Action} (held : Held lifecycle) (joinable : Joinable lifecycle)
    (safe : Safe lifecycle action) : Held (next lifecycle action) := by
  cases action with
  | create creation => exact created_held held safe
  | start => exact started_held held
  | stop => exact stopped_held held safe
  | destroy => exact destroyed_held held safe
  | proceed success => exact proceeded_held held joinable safe
  | connected => exact connected_held held
  | report code => exact reported_held held safe
  | timeOut thread => exact timed_out_held held safe
  | wake thread => exact woken_held held
  | startAgain thread success => exact started_again_held held
  | finish thread => exact finished_held held

end Steps

end Mgw.OutputLifecycle
