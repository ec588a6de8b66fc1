import Mgw.Reconnect

/-!
# The stop of an output is final

Once a stop has returned, no reconnect thread may call `info.start` before the
next start. That holds as long as each stop finds either no reconnect thread or
one that it can tell to end, and the plugin does not ask for a reconnect in
between.
-/

namespace Mgw.Reconnect

open TransitionRuns

set_option autoImplicit false

def Event.countStop (stopped : Bool) : Event → Bool
  | .userStart => false
  | .userStop => true
  | _ => stopped

/-- The last call of the user was a stop. -/
def stoppedByUser (trace : List Event) : Bool := summary Event.countStop false trace

/-- `info.start` is not called between a stop and the next start. -/
def StopFinal (trace : List Event) : Prop :=
  EachAllowed Event.countStop false (fun stopped event => event = .infoStart → stopped = false) trace

theorem stopped_append (trace : List Event) (event : Event) :
    stoppedByUser (trace ++ [event]) = event.countStop (stoppedByUser trace) :=
  summary_append event

/-- No reconnect thread is left, or those that are have been told to end. -/
def Cancelled (retry : Retry) : Prop := retry.timers = 0 ∨ retry.reconnect_stop_event = true

/-- After a stop all reconnects are cancelled. -/
structure StopInvariant (retry : Retry) : Prop where
  final : StopFinal retry.trace
  cancelled : stoppedByUser retry.trace = true → Cancelled retry

section Retry

variable {retry : Retry}

/-- An event other than a stop and `info.start`. -/
theorem stop_invariant_note {event : Event} (invariant : StopInvariant retry)
    (quiet : ∀ stopped, event.countStop stopped = true → stopped = true)
    (allowed : event = .infoStart → stoppedByUser retry.trace = false) :
    StopInvariant (retry.note event) := by
  refine ⟨each_allowed_append invariant.final allowed, ?_⟩
  intro stopped
  rw [Retry.note, stopped_append] at stopped
  exact invariant.cancelled (quiet _ stopped)

theorem end_thread_cancelled (cancelled : Cancelled retry) : Cancelled retry.endThread := by
  rcases cancelled with none | told
  · left
    change retry.timers - 1 = 0
    omega
  · exact Or.inr told

theorem cancel_cancelled : Cancelled retry.cancel := by
  rw [Retry.cancel]
  split_ifs <;> exact Or.inr rfl

theorem end_thread_stop (invariant : StopInvariant retry) : StopInvariant retry.endThread :=
  ⟨invariant.final, fun stopped => end_thread_cancelled (invariant.cancelled stopped)⟩

theorem cancel_stop (invariant : StopInvariant retry) : StopInvariant retry.cancel := by
  refine ⟨?_, fun _ => cancel_cancelled⟩
  have trace : retry.cancel.trace = retry.trace ++ [.cancelled] := by
    rw [Retry.cancel]
    split_ifs <;> rfl
  rw [trace]
  exact each_allowed_append invariant.final fun impossible => by contradiction

/-- A report that asks for a reconnect, while the user has not stopped the output. -/
theorem attempt_stop (invariant : StopInvariant retry)
    (running : stoppedByUser retry.trace = false) : StopInvariant retry.attempt := by
  have kept : ∀ event : Event, event ≠ .infoStart → event.countStop false = false →
      ∀ after : Retry, after.trace = retry.trace ++ [event] → StopInvariant after := by
    intro event other neutral after trace
    refine ⟨?_, ?_⟩
    · rw [trace]
      exact each_allowed_append invariant.final fun same => absurd same other
    · intro stopped
      rw [trace, stopped_append, running, neutral] at stopped
      contradiction
  have budget : retry.restartBudget.trace = retry.trace := by
    rw [Retry.restartBudget]
    split_ifs <;> rfl
  have entered : retry.restartBudget.enterReconnecting.trace = retry.trace := by
    rw [Retry.enterReconnecting]
    split_ifs <;> exact budget
  rw [Retry.attempt]
  split_ifs
  · exact kept .gaveUp (by decide) rfl _ (by rw [Retry.giveUp, Retry.note, budget])
  · exact kept (.scheduled _ _) (by simp) rfl _ (by
      rw [Retry.startThread, Retry.note, Retry.countRetry, entered])

end Retry

/-- A stop finds no reconnect thread, or one that has been told to end, or the
flags by which it tells one; between a stop and the next start the plugin does
not ask for a reconnect. -/
def StopSafe (machine : Machine) : Action → Prop
  | .stop => Cancelled machine.toRetry ∨ (machine.actived && machine.reconnecting) = true
  | .release => Cancelled machine.toRetry ∨ (machine.actived && machine.reconnecting) = true
  | .report code => stoppedByUser machine.trace = true → machine.canReconnect code = false
  | _ => True

instance stop_safe_decidable (machine : Machine) : (action : Action) → Decidable (StopSafe machine action)
  | .stop => inferInstanceAs (Decidable ((_ ∨ _) ∨ _))
  | .release => inferInstanceAs (Decidable ((_ ∨ _) ∨ _))
  | .report _ => inferInstanceAs (Decidable (_ → _))
  | .start _ => inferInstanceAs (Decidable True)
  | .connected => inferInstanceAs (Decidable True)
  | .timer _ => inferInstanceAs (Decidable True)

section Steps

variable {machine : Machine}

theorem output_stop_cancelled
    (safe : Cancelled machine.toRetry ∨ (machine.actived && machine.reconnecting) = true) :
    Cancelled machine.outputStop.toRetry := by
  rw [output_stop_retry]
  split_ifs with tells
  · exact cancel_cancelled
  · exact safe.resolve_right tells

theorem user_stop_invariant (invariant : StopInvariant machine.toRetry)
    (safe : Cancelled machine.toRetry ∨ (machine.actived && machine.reconnecting) = true) :
    StopInvariant (machine.outputStop.note .userStop).toRetry := by
  have stopped : StopInvariant machine.outputStop.toRetry := by
    rw [output_stop_retry]
    split_ifs
    · exact cancel_stop invariant
    · exact invariant
  exact ⟨each_allowed_append stopped.final fun impossible => by contradiction,
    fun _ => output_stop_cancelled safe⟩

theorem user_start_invariant (invariant : StopInvariant machine.toRetry) (success : Bool) :
    StopInvariant (machine.userStart .output success).toRetry := by
  have called : StopInvariant (machine.note .userStart).toRetry :=
    stop_invariant_note invariant (fun _ impossible => by contradiction)
      fun impossible => by contradiction
  have running : stoppedByUser (machine.note .userStart).trace = false := stopped_append _ _
  rw [Machine.userStart]
  cases result : (machine.note .userStart).outputStart success with
  | none => exact called
  | some after =>
      change StopInvariant after.toRetry
      rcases output_start_retry result with same | noted
      · rwa [same]
      · rw [noted]
        exact stop_invariant_note called (fun _ stopped => stopped) fun _ => running

theorem report_invariant (invariant : StopInvariant machine.toRetry) {code : Int}
    (safe : stoppedByUser machine.trace = true → machine.canReconnect code = false) :
    StopInvariant (machine.signalStop code).toRetry := by
  change StopInvariant (machine.signalStopWith Machine.infoStop code).toRetry
  rw [signal_stop_retry info_stop_quiet]
  cases can : machine.canReconnect code with
  | false => exact invariant
  | true =>
      apply attempt_stop invariant
      by_contra stopped
      have cannot := safe (by simpa using stopped)
      rw [can] at cannot
      contradiction

/-- A thread that times out has not been told to end, so the user has not stopped the output. -/
theorem timer_invariant (invariant : StopInvariant machine.toRetry) (success : Bool) :
    StopInvariant (machine.timerExpires .output success).toRetry := by
  change StopInvariant (machine.reconnectThread (Machine.actualStart success)).toRetry
  unfold Machine.reconnectThread
  split_ifs with none told
  · exact invariant
  · exact end_thread_stop invariant
  · have running : stoppedByUser machine.trace = false := by
      by_contra stopped
      rcases invariant.cancelled (by simpa using stopped) with empty | signalled
      · exact none empty
      · exact told signalled
    cases result : machine.actualStart success with
    | none => exact invariant
    | some after =>
        apply end_thread_stop
        rcases actual_start_retry result with same | noted
        · rwa [same]
        · rw [noted]
          exact stop_invariant_note invariant (fun _ stopped => stopped) fun _ => running

theorem release_invariant (invariant : StopInvariant machine.toRetry)
    (safe : Cancelled machine.toRetry ∨ (machine.actived && machine.reconnecting) = true) :
    StopInvariant (machine.release .output).toRetry := by
  have stopped := user_stop_invariant invariant safe
  change StopInvariant (machine.outputStop.note .userStop).outputDestroy.toRetry
  rw [output_destroy_retry]
  split_ifs
  · exact cancel_stop stopped
  · exact stopped

/-- Every step of an output keeps the stop final, under the condition. -/
theorem step_stop_invariant (machine : Machine) (action : Action)
    (invariant : StopInvariant machine.toRetry) (safe : StopSafe machine action) :
    StopInvariant (machine.step .output action).toRetry := by
  apply @step_keeps (fun after => StopInvariant after.toRetry) _ _ _ invariant
  cases action with
  | start success => exact user_start_invariant invariant success
  | stop => exact user_stop_invariant invariant safe
  | connected =>
      exact stop_invariant_note invariant (fun _ stopped => stopped)
        fun impossible => by contradiction
  | report code => exact report_invariant invariant safe
  | timer success => exact timer_invariant invariant success
  | release => exact release_invariant invariant safe

end Steps

/-- A stop of a streaming output, and one while it waits to reconnect. -/
def stoppingActions : List Action :=
  [.start true, .connected, .stop, .start true, .connected, .report MGW_DISCONNECTED, .stop,
    .timer true, .release, .timer true]

/-- An output whose reconnect attempt has failed is not `actived`: a stop returns
at once, and the thread of the next attempt starts the output again. -/
def stoppedTrace : List Event :=
  (run (Machine.step .output) (created true true false)
    [.start true, .connected, .report MGW_DISCONNECTED, .timer true, .report (-4), .stop,
      .timer true]).trace

end Mgw.Reconnect
