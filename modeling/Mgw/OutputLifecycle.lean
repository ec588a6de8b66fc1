import Mgw.Reconnect

/-!
# An output from its creation to its end, thread by thread

The machine of `Mgw.Reconnect` takes a stop, a destroy and the end of a
reconnect thread in one step each. Here each of them is taken apart at the
places where it waits: a caller waits for `stopping_event` and in the join of
the reconnect thread, and a reconnect thread waits for `reconnect_stop_event`,
then for `stopping_event`.

One caller uses the interface of the output at a time. A report of the plugin is
one step. A reconnect thread begins at once, and may time out although
`reconnect_stop_event` is signalled, because the signal wakes one thread only.
-/

namespace Mgw.OutputLifecycle

open Reconnect

set_option autoImplicit false

/-- The steps of `mgw_output_create_internal` that can fail. -/
inductive CreateStep where
  | stopping_event | reconnect_stop_event | context_data_init | output_init
  deriving DecidableEq, Repr

inductive Creation where
  | failed (step : CreateStep)
  /-- `info_impl` tells whether there is a plugin instance. -/
  | created (info_impl : Bool)
  deriving DecidableEq, Repr

inductive Phase where
  /-- In `os_event_timedwait` for `reconnect_stop_event`. -/
  | sleeping
  /-- In `mgw_output_actual_start`, which waits for `stopping_event`. -/
  | starting
  | ending
  | ended
  deriving DecidableEq, Repr

/-- How far `mgw_output_actual_stop` has got. -/
inductive Stage where
  /-- `stopping_event` has been reset. -/
  | reset
  /-- `reconnect_stop_event` has been signalled. -/
  | cancelled
  | joining (thread : Nat)
  /-- `stopping_event` has been signalled. -/
  | signalled
  deriving DecidableEq, Repr

inductive Caller where
  /-- There is no output yet. -/
  | nothing
  | idle
  /-- In `mgw_output_actual_start`, which waits for `stopping_event`. -/
  | starting
  /-- In `mgw_output_actual_stop`, called by `mgw_output_destroy` or not. -/
  | stopping (stage : Stage) (destroys : Bool)
  /-- In `mgw_output_destroy`, which waits for `stopping_event`. -/
  | destroying
  | freed
  deriving DecidableEq, Repr

/-- The fields of the output, its reconnect threads in the order of their
creation, and where the caller is. -/
structure Lifecycle where
  machine : Machine
  stopping_event_exists : Bool
  threads : List Phase
  caller : Caller

inductive Action where
  | create (creation : Creation)
  | start
  | stop
  | destroy
  /-- The caller goes on. `success` is what `info.start` returns, should it call it. -/
  | proceed (success : Bool)
  | connected
  | report (code : Int)
  | timeOut (thread : Nat)
  | wake (thread : Nat)
  | startAgain (thread : Nat) (success : Bool)
  | finish (thread : Nat)
  deriving DecidableEq, Repr

namespace Lifecycle

/-- `info.start` has been called. -/
def Started (lifecycle : Lifecycle) : Prop := Event.infoStart ∈ lifecycle.machine.trace

instance (lifecycle : Lifecycle) : Decidable lifecycle.Started :=
  inferInstanceAs (Decidable (Event.infoStart ∈ lifecycle.machine.trace))

/-- `mgw_output_create_internal`, which destroys an output that it could not finish. -/
def create (creation : Creation) : Lifecycle :=
  match creation with
  | .failed step =>
      { machine := { created false false false with valid := false }
        stopping_event_exists := decide (step ≠ .stopping_event)
        threads := []
        caller := .destroying }
  | .created info_impl =>
      { machine := created info_impl true false
        stopping_event_exists := true
        threads := []
        caller := .idle }

/-- `mgw_output_start` up to its wait. -/
def start (lifecycle : Lifecycle) : Lifecycle :=
  if !lifecycle.machine.is_private && !lifecycle.machine.info_impl then lifecycle
  else if !lifecycle.machine.buffer then lifecycle
  else { lifecycle with
    machine := { lifecycle.machine with stopping_event := true }
    caller := .starting }

def beginStop (destroys : Bool) (lifecycle : Lifecycle) : Lifecycle :=
  { lifecycle with
    machine := { lifecycle.machine with stopping_event := false }
    caller := .stopping .reset destroys }

def stop (lifecycle : Lifecycle) : Lifecycle :=
  if lifecycle.machine.actived then lifecycle.beginStop false else lifecycle

def destroy (lifecycle : Lifecycle) : Lifecycle :=
  if lifecycle.machine.valid && (lifecycle.machine.info_impl && lifecycle.machine.actived) then
    lifecycle.beginStop true
  else { lifecycle with caller := .destroying }

def signalStopping (destroys : Bool) (lifecycle : Lifecycle) : Lifecycle :=
  { lifecycle with
    machine := { lifecycle.machine with stopping_event := true }
    caller := .stopping .signalled destroys }

end Lifecycle

/-- The end of a forced `mgw_output_actual_stop`. -/
def finishStop (machine : Machine) : Machine :=
  { (if machine.info_impl then machine.infoStop
    else if machine.reconnecting then { machine with stop_code := MGW_SUCCESS }
    else machine) with actived := false }

namespace Lifecycle

/-- The next step of a stop; a join goes on when the thread has ended. -/
def continueStop (stage : Stage) (destroys : Bool) (lifecycle : Lifecycle) : Lifecycle :=
  match stage with
  | .reset =>
      if lifecycle.machine.reconnecting then
        { lifecycle with
          machine := { lifecycle.machine with
            toRetry := Retry.note .cancelled
              { lifecycle.machine.toRetry with reconnect_stop_event := true } }
          caller := .stopping .cancelled destroys }
      else lifecycle.signalStopping destroys
  | .cancelled =>
      if lifecycle.machine.reconnect_thread_active then
        { lifecycle with caller := .stopping (.joining (lifecycle.threads.length - 1)) destroys }
      else lifecycle.signalStopping destroys
  | .joining thread =>
      if lifecycle.threads.getD thread .ended = .ended then lifecycle.signalStopping destroys
      else lifecycle
  | .signalled =>
      { lifecycle with
        machine := finishStop lifecycle.machine
        caller := if destroys then .destroying else .idle }

def proceed (success : Bool) (lifecycle : Lifecycle) : Lifecycle :=
  match lifecycle.caller with
  | .starting =>
      match lifecycle.machine.actualStart success with
      | some machine => { lifecycle with machine := machine, caller := .idle }
      | none => lifecycle
  | .stopping stage destroys => lifecycle.continueStop stage destroys
  | .destroying =>
      if lifecycle.stopping_event_exists && lifecycle.machine.stopping_event then
        { lifecycle with stopping_event_exists := false, caller := .freed }
      else lifecycle
  | _ => lifecycle

/-- `output_signal_stop`, whose new reconnect thread goes to sleep. -/
def report (code : Int) (lifecycle : Lifecycle) : Lifecycle :=
  let machine := lifecycle.machine.signalStop code
  { lifecycle with
    machine := machine
    threads := lifecycle.threads ++
      List.replicate (machine.timers - lifecycle.machine.timers) .sleeping }

def moveThread (thread : Nat) (phase : Phase) (lifecycle : Lifecycle) : Lifecycle :=
  { lifecycle with threads := lifecycle.threads.set thread phase }

/-- The thread's part of `mgw_output_actual_start`. -/
def startAgain (thread : Nat) (success : Bool) (lifecycle : Lifecycle) : Lifecycle :=
  match lifecycle.machine.actualStart success with
  | some machine => { lifecycle.moveThread thread .ending with machine := machine }
  | none => lifecycle

/-- The end of `reconnect_thread`. -/
def finish (thread : Nat) (lifecycle : Lifecycle) : Lifecycle :=
  { lifecycle.moveThread thread .ended with
    machine := { lifecycle.machine with toRetry := lifecycle.machine.toRetry.endThread } }

end Lifecycle

/-- The plugin reports after `info.start` and before `info.destroy`. -/
def next (lifecycle : Lifecycle) : Action → Lifecycle
  | .create creation =>
      if lifecycle.caller = .nothing then Lifecycle.create creation else lifecycle
  | .start => if lifecycle.caller = .idle then lifecycle.start else lifecycle
  | .stop => if lifecycle.caller = .idle then lifecycle.stop else lifecycle
  | .destroy => if lifecycle.caller = .idle then lifecycle.destroy else lifecycle
  | .proceed success => lifecycle.proceed success
  | .connected =>
      if lifecycle.Started ∧ lifecycle.stopping_event_exists then
        { lifecycle with machine := lifecycle.machine.signalStarted }
      else lifecycle
  | .report code =>
      if lifecycle.Started ∧ lifecycle.stopping_event_exists then lifecycle.report code
      else lifecycle
  | .timeOut thread =>
      if lifecycle.threads[thread]? = some .sleeping then lifecycle.moveThread thread .starting
      else lifecycle
  | .wake thread =>
      if lifecycle.threads[thread]? = some .sleeping ∧ lifecycle.machine.reconnect_stop_event then
        lifecycle.moveThread thread .ending
      else lifecycle
  | .startAgain thread success =>
      if lifecycle.threads[thread]? = some .starting ∧ lifecycle.stopping_event_exists then
        lifecycle.startAgain thread success
      else lifecycle
  | .finish thread =>
      if lifecycle.threads[thread]? = some .ending then lifecycle.finish thread else lifecycle

def initial : Lifecycle where
  machine := created false false false
  stopping_event_exists := false
  threads := []
  caller := .nothing

section Uninterrupted

open TransitionRuns

variable {lifecycle : Lifecycle}

theorem next_stopping {stage : Stage} {destroys : Bool} (success : Bool)
    (place : lifecycle.caller = .stopping stage destroys) :
    next lifecycle (.proceed success) = lifecycle.continueStop stage destroys := by
  rw [next, Lifecycle.proceed, place]

theorem next_stop (idle : lifecycle.caller = .idle) (actived : lifecycle.machine.actived = true) :
    next lifecycle .stop = lifecycle.beginStop false := by
  rw [next, if_pos idle, Lifecycle.stop, if_pos actived]

/-- The part of a forced stop behind the join. -/
theorem actual_stop_eq (machine : Machine) :
    machine.actualStop true = finishStop { machine with
      toRetry := if machine.reconnecting then machine.toRetry.cancel else machine.toRetry
      stopping_event := true } := by
  rw [Machine.actualStop, Bool.not_true, Bool.and_false, if_neg Bool.false_ne_true, finishStop]
  simp only [Bool.true_and]

/-- The stages of a stop come to what the machine does in one step. -/
theorem stop_alone (idle : lifecycle.caller = .idle) (actived : lifecycle.machine.actived = true)
    (alone : lifecycle.machine.reconnecting = false) :
    (run next lifecycle [.stop, .proceed true, .proceed true]).machine =
      lifecycle.machine.actualStop true := by
  have signals : (lifecycle.beginStop false).continueStop .reset false =
      (lifecycle.beginStop false).signalStopping false :=
    if_neg (fun reconnecting => Bool.false_ne_true (alone.symm.trans reconnecting))
  rw [run_cons, next_stop idle actived, run_cons, next_stopping true rfl, signals, run_cons,
    next_stopping true rfl, run_nil, actual_stop_eq, alone]
  rfl

/-- The same with a reconnect thread that sleeps. -/
theorem stop_joins {thread : Nat} (idle : lifecycle.caller = .idle)
    (actived : lifecycle.machine.actived = true)
    (reconnecting : lifecycle.machine.reconnecting = true)
    (active : lifecycle.machine.reconnect_thread_active = true)
    (newest : lifecycle.threads.length = thread + 1)
    (sleeps : lifecycle.threads[thread]? = some .sleeping) :
    (run next lifecycle [.stop, .proceed true, .proceed true, .wake thread, .finish thread,
      .proceed true, .proceed true]).machine = lifecycle.machine.actualStop true := by
  have bound : thread < lifecycle.threads.length := by omega
  obtain ⟨cancelled, cancelledDef⟩ : ∃ cancelled : Lifecycle, cancelled = { lifecycle with
      machine := { lifecycle.machine with
        toRetry := Retry.note .cancelled
          { lifecycle.machine.toRetry with reconnect_stop_event := true }
        stopping_event := false }
      caller := .stopping (.joining thread) false } := ⟨_, rfl⟩
  have joins : run next lifecycle [.stop, .proceed true, .proceed true] = cancelled := by
    rw [run_cons, next_stop idle actived, run_cons, next_stopping true rfl, Lifecycle.continueStop,
      if_pos (by exact reconnecting), run_cons, next_stopping true rfl, Lifecycle.continueStop,
      if_pos (by exact active), run_nil, cancelledDef]
    simp only [Lifecycle.beginStop, newest, Nat.add_sub_cancel]
  have wakes : next cancelled (.wake thread) = cancelled.moveThread thread .ending := by
    rw [next, cancelledDef]
    exact if_pos ⟨sleeps, rfl⟩
  have ending : (cancelled.moveThread thread .ending).threads[thread]? = some .ending := by
    rw [cancelledDef]
    exact List.getElem?_set_self bound
  have ends : next (cancelled.moveThread thread .ending) (.finish thread) =
      (cancelled.moveThread thread .ending).finish thread := by
    rw [next, if_pos ending]
  have ended : ((cancelled.moveThread thread .ending).finish thread).threads.getD thread .ended =
      .ended := by
    rw [List.getD_eq_getElem?_getD]
    have last := @List.getElem?_set_self _ _ thread Phase.ended
      (List.getElem?_eq_some_iff.mp ending).1
    exact congrArg (fun phase : Option Phase => phase.getD .ended) last
  have signals : ((cancelled.moveThread thread .ending).finish thread).continueStop
      (.joining thread) false =
        ((cancelled.moveThread thread .ending).finish thread).signalStopping false :=
    if_pos ended
  have place : ((cancelled.moveThread thread .ending).finish thread).caller =
      .stopping (.joining thread) false := by rw [cancelledDef]; rfl
  have cancels : lifecycle.machine.toRetry.cancel = (Retry.note .cancelled
      { lifecycle.machine.toRetry with reconnect_stop_event := true }).endThread := if_pos active
  rw [show ([.stop, .proceed true, .proceed true, .wake thread, .finish thread, .proceed true,
      .proceed true] : List Action) = [.stop, .proceed true, .proceed true] ++
        [.wake thread, .finish thread, .proceed true, .proceed true] from rfl,
    run_append, joins, run_cons, wakes, run_cons, ends, run_cons, next_stopping true place, signals,
    run_cons, next_stopping true rfl, run_nil, actual_stop_eq, reconnecting, if_pos rfl, cancels,
    cancelledDef]
  rfl

end Uninterrupted

end Mgw.OutputLifecycle
