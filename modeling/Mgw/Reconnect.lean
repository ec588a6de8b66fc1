import Mgw.TransitionRuns

/-!
# Starting, stopping and reconnecting an output or a source

`mgw-output.c` and `mgw-source.c` have the same reconnect logic with different
start and stop routines. A step of the machine is a call from the user, a report
of the plugin, or the end of a reconnect thread. Threads are created
successfully and begin at once. Where a thread waits for an event that is not
signalled, its step does nothing: it happens when the event has been signalled.

The plugins differ in what `info.stop` reports before it returns. On an inactive
plugin it reports `MGW_SUCCESS`. On an active one `rtmp_stream_stop` and
`srt_stream_stop` report nothing, while `ffmpeg_source_stop`, called from outside
its own thread, joins a thread that reports `MGW_DISCONNECTED` and during whose
report `info.stop` returns at once.
-/

namespace Mgw.Reconnect

set_option autoImplicit false

def MGW_SUCCESS : Int := 0
def MGW_DISCONNECTED : Int := -5

/-- `MGW_OUTPUT_RETRY_SEC` and `MGW_SOURCE_RETRY_SEC`. -/
def RETRY_SEC : Nat := 2

/-- `MGW_OUTPUT_RETRY_MAX` and `MGW_SOURCE_RETRY_MAX`. -/
def RETRY_MAX : Nat := 20

def MAX_RETRY_SEC : Nat := 15 * 60

inductive Kind where
  | output | source
  deriving DecidableEq, Repr

/-- What can be seen of a run from outside. -/
inductive Event where
  /-- A call of `mgw_output_start` or `mgw_source_start` by the user. -/
  | userStart
  /-- A call of the stop or release routine by the user has returned. -/
  | userStop
  /-- `info.start` has been called. -/
  | infoStart
  | connected
  /-- A reconnect thread has been started that waits `delay` seconds. -/
  | scheduled (retries delay : Nat)
  /-- The retries are used up. -/
  | gaveUp
  /-- A stop has signalled `reconnect_stop_event`. -/
  | cancelled
  deriving DecidableEq, Repr

/-- The fields of the reconnect logic, the number of reconnect threads that have
not ended, and the events so far. -/
structure Retry where
  reconnecting : Bool
  reconnect_stop_event : Bool
  reconnect_retries : Nat
  reconnect_retry_cur_sec : Nat
  reconnect_retry_sec : Nat
  reconnect_retry_max : Nat
  reconnect_thread_active : Bool
  timers : Nat
  trace : List Event

/-- An output or a source; `valid` is the field `enabled` of the latter, and
`plugin_active` the flag of the plugin. -/
structure Machine extends Retry where
  valid : Bool
  info_impl : Bool
  buffer : Bool
  is_private : Bool
  actived : Bool
  stopping_event : Bool
  stop_code : Int
  last_error_status : Int
  plugin_active : Bool
  released : Bool

namespace Retry

def note (event : Event) (retry : Retry) : Retry :=
  { retry with trace := retry.trace ++ [event] }

def restartBudget (retry : Retry) : Retry :=
  if retry.reconnecting then retry
  else { retry with
    reconnect_retry_cur_sec := retry.reconnect_retry_sec
    reconnect_retries := 0 }

def exhausted (retry : Retry) : Bool := retry.reconnect_retry_max ≤ retry.reconnect_retries

def giveUp (retry : Retry) : Retry := Retry.note .gaveUp { retry with reconnecting := false }

def enterReconnecting (retry : Retry) : Retry :=
  if retry.reconnecting then retry
  else { retry with reconnecting := true, reconnect_stop_event := false }

def countRetry (retry : Retry) : Retry :=
  { retry with
    reconnect_retry_cur_sec :=
      if retry.reconnect_retries ≠ 0 then min (retry.reconnect_retry_cur_sec * 2) MAX_RETRY_SEC
      else retry.reconnect_retry_cur_sec
    reconnect_retries := retry.reconnect_retries + 1 }

def startThread (retry : Retry) : Retry :=
  Retry.note (.scheduled retry.reconnect_retries retry.reconnect_retry_cur_sec)
    { retry with timers := retry.timers + 1, reconnect_thread_active := true }

/-- The end of `reconnect_thread`. -/
def endThread (retry : Retry) : Retry :=
  { retry with
    timers := retry.timers - 1
    reconnecting := if retry.reconnect_stop_event then false else retry.reconnecting
    reconnect_thread_active := false }

/-- A stop tells the reconnect thread to end and joins it. -/
def cancel (retry : Retry) : Retry :=
  let signalled := Retry.note .cancelled { retry with reconnect_stop_event := true }
  if signalled.reconnect_thread_active then signalled.endThread else signalled

end Retry

namespace Machine

def note (event : Event) (machine : Machine) : Machine :=
  { machine with toRetry := machine.toRetry.note event }

def canReconnect (machine : Machine) (code : Int) : Bool :=
  (machine.reconnecting && code ≠ MGW_SUCCESS) ||
    (machine.reconnect_retry_max ≠ 0 && code = MGW_DISCONNECTED)

/-- `output_reconnect`, `source_reconnect`. -/
def reconnect (infoStop : Machine → Machine) (machine : Machine) : Machine :=
  let budget := machine.toRetry.restartBudget
  if budget.exhausted then { machine with toRetry := budget.giveUp, stop_code := MGW_DISCONNECTED }
  else
    let stopped := infoStop { machine with toRetry := budget.enterReconnecting.countRetry }
    { stopped with toRetry := stopped.toRetry.startThread, stop_code := MGW_DISCONNECTED }

/-- `output_signal_stop`, `signal_stop`, with the plugin's `info.stop`. -/
def signalStopWith (infoStop : Machine → Machine) (code : Int) (machine : Machine) : Machine :=
  let noted := { machine with
    stop_code := code
    last_error_status :=
      if machine.reconnect_retries = 0 ∧ code ≠ MGW_DISCONNECTED then code
      else machine.last_error_status }
  if noted.canReconnect code then noted.reconnect infoStop
  else { noted with stopping_event := true, actived := false }

/-- `info.stop` of an output, and of a source in a report of its own thread. The
report that it makes itself does not get to the inner `info.stop`. -/
def infoStop (machine : Machine) : Machine :=
  if machine.plugin_active then { machine with plugin_active := false }
  else machine.signalStopWith id MGW_SUCCESS

/-- `info.stop` of a source from another thread. -/
def sourceInfoStop (machine : Machine) : Machine :=
  if machine.plugin_active then
    { machine.signalStopWith id MGW_DISCONNECTED with plugin_active := false }
  else machine.signalStopWith id MGW_SUCCESS

/-- A report of the plugin's thread, which then ends. -/
def signalStop (code : Int) (machine : Machine) : Machine :=
  { machine.signalStopWith infoStop code with plugin_active := false }

def signalStarted (machine : Machine) : Machine :=
  { machine.note .connected with plugin_active := true }

section Output

/-- `mgw_output_actual_start`, where `success` is what `info.start` returns;
`none` while it waits for `stopping_event`. -/
def actualStart (success : Bool) (machine : Machine) : Option Machine :=
  if !machine.stopping_event then none
  else if machine.valid && machine.info_impl then
    some { machine.note .infoStart with stop_code := 0, actived := success }
  else some { machine with stop_code := 0, actived := false }

def actualStop (force : Bool) (machine : Machine) : Machine :=
  if !machine.stopping_event && !force then machine
  else
    let cancelled := if machine.reconnecting then machine.toRetry.cancel else machine.toRetry
    let ready := { machine with toRetry := cancelled, stopping_event := true }
    let stopped :=
      if force && ready.info_impl then ready.infoStop
      else if ready.reconnecting then { ready with stop_code := MGW_SUCCESS }
      else ready
    { stopped with actived := false }

def outputStart (success : Bool) (machine : Machine) : Option Machine :=
  if !machine.is_private && !machine.info_impl then some machine
  else if !machine.buffer then some machine
  else { machine with stopping_event := true }.actualStart success

def outputStop (machine : Machine) : Machine :=
  if machine.actived then machine.actualStop true else machine

/-- The end of `mgw_output_destroy`, which waits for `stopping_event`. -/
def freeOnceStopped (machine : Machine) : Machine :=
  if machine.stopping_event then { machine with released := true } else machine

def outputDestroy (machine : Machine) : Machine :=
  (if machine.valid && (machine.info_impl && machine.actived) then machine.actualStop true
    else machine).freeOnceStopped

end Output

section Source

def sourceStop (machine : Machine) : Machine :=
  if !machine.valid || !machine.buffer then machine
  else if !machine.is_private && !machine.info_impl then machine
  else if machine.actived && machine.info_impl then
    { machine.sourceInfoStop with stopping_event := true, stop_code := 0, actived := false }
  else { machine with actived := false }

/-- `mgw_source_start`; `none` while it waits for `stopping_event`. -/
def sourceStart (success : Bool) (machine : Machine) : Option Machine :=
  if !machine.valid || !machine.buffer then some machine
  else if machine.is_private && !machine.info_impl then some machine
  else
    let stopped :=
      if machine.actived then { machine.sourceStop with stop_code := 0, actived := false }
      else machine
    if (machine.actived || stopped.reconnecting) && !stopped.stopping_event then none
    else if stopped.info_impl then some { stopped.note .infoStart with actived := success }
    else some { stopped with actived := true }

def sourceDestroy (machine : Machine) : Machine :=
  let stopped :=
    if machine.valid && (machine.buffer && machine.actived) then machine.sourceStop else machine
  { stopped with released := true }

end Source

/-- `reconnect_thread` behind its timed wait: it has timed out, or
`reconnect_stop_event` has ended it. -/
def reconnectThread (start : Machine → Option Machine) (machine : Machine) : Machine :=
  if machine.timers = 0 then machine
  else if machine.reconnect_stop_event then
    { machine with toRetry := machine.toRetry.endThread }
  else
    match start machine with
    | none => machine
    | some started => { started with toRetry := started.toRetry.endThread }

end Machine

/-- `success` is what `info.start` returns, should the step call it. -/
inductive Action where
  | start (success : Bool)
  | stop
  | connected
  | report (code : Int)
  | timer (success : Bool)
  | release
  deriving DecidableEq, Repr

namespace Machine

def userStart (kind : Kind) (success : Bool) (machine : Machine) : Machine :=
  let called := machine.note .userStart
  match kind with
  | .output => (called.outputStart success).getD called
  | .source => (called.sourceStart success).getD called

def userStop (kind : Kind) (machine : Machine) : Machine :=
  match kind with
  | .output => machine.outputStop.note .userStop
  | .source => machine.sourceStop.note .userStop

def timerExpires (kind : Kind) (success : Bool) (machine : Machine) : Machine :=
  match kind with
  | .output => machine.reconnectThread (actualStart success)
  | .source => machine.reconnectThread (sourceStart success)

/-- `mgw_stream_release_output` with the last reference, `mgw_source_release`. -/
def release (kind : Kind) (machine : Machine) : Machine :=
  match kind with
  | .output => (machine.outputStop.note .userStop).outputDestroy
  | .source => machine.sourceDestroy.note .userStop

/-- After the release only the reconnect threads are left. -/
def step (kind : Kind) (machine : Machine) (action : Action) : Machine :=
  match action with
  | .timer success => machine.timerExpires kind success
  | .start success => if machine.released then machine else machine.userStart kind success
  | .stop => if machine.released then machine else machine.userStop kind
  | .connected => if machine.released then machine else machine.signalStarted
  | .report code => if machine.released then machine else machine.signalStop code
  | .release => if machine.released then machine else machine.release kind

end Machine

/-- An output or a source as its create routine leaves it. -/
def created (info_impl buffer is_private : Bool) : Machine where
  reconnecting := false
  reconnect_stop_event := false
  reconnect_retries := 0
  reconnect_retry_cur_sec := 0
  reconnect_retry_sec := RETRY_SEC
  reconnect_retry_max := RETRY_MAX
  reconnect_thread_active := false
  timers := 0
  trace := []
  valid := true
  info_impl := info_impl
  buffer := buffer
  is_private := is_private
  actived := false
  stopping_event := false
  stop_code := 0
  last_error_status := 0
  plugin_active := false
  released := false

section Effects

variable {infoStop : Machine → Machine}

/-- `info.stop` does not touch the reconnect logic. -/
def Quiet (infoStop : Machine → Machine) : Prop :=
  ∀ machine, (infoStop machine).toRetry = machine.toRetry

/-- What a report that can reconnect does to the reconnect logic. -/
def Retry.attempt (retry : Retry) : Retry :=
  if retry.restartBudget.exhausted then retry.restartBudget.giveUp
  else retry.restartBudget.enterReconnecting.countRetry.startThread

theorem success_cannot_reconnect (machine : Machine) :
    machine.canReconnect MGW_SUCCESS = false := by
  simp [Machine.canReconnect, MGW_SUCCESS, MGW_DISCONNECTED]

/-- A report notes its code and either reconnects or signals the end. -/
theorem signal_stop_noted (infoStop : Machine → Machine) (code : Int) (machine : Machine) :
    ∃ noted : Machine, noted.toRetry = machine.toRetry ∧
      noted.stopping_event = machine.stopping_event ∧
      machine.signalStopWith infoStop code =
        if machine.canReconnect code then noted.reconnect infoStop
        else { noted with stopping_event := true, actived := false } :=
  ⟨{ machine with
      stop_code := code
      last_error_status :=
        if machine.reconnect_retries = 0 ∧ code ≠ MGW_DISCONNECTED then code
        else machine.last_error_status }, rfl, rfl, rfl⟩

theorem signal_stop_retry (quiet : Quiet infoStop) (code : Int) (machine : Machine) :
    (machine.signalStopWith infoStop code).toRetry =
      if machine.canReconnect code then machine.toRetry.attempt else machine.toRetry := by
  obtain ⟨noted, same, -, result⟩ := signal_stop_noted infoStop code machine
  rw [result]
  cases machine.canReconnect code with
  | false => exact same
  | true =>
      simp only [if_true, Machine.reconnect, Retry.attempt, same]
      cases machine.toRetry.restartBudget.exhausted with
      | true => rfl
      | false => simp only [Bool.false_eq_true, if_false, quiet _]

theorem success_retry (infoStop : Machine → Machine) (machine : Machine) :
    (machine.signalStopWith infoStop MGW_SUCCESS).toRetry = machine.toRetry := by
  obtain ⟨noted, same, -, result⟩ := signal_stop_noted infoStop MGW_SUCCESS machine
  rw [result, success_cannot_reconnect]
  exact same

theorem info_stop_quiet : Quiet Machine.infoStop := by
  intro machine
  rw [Machine.infoStop]
  cases machine.plugin_active with
  | true => rfl
  | false => exact success_retry id machine

theorem actual_stop_retry (force : Bool) (machine : Machine) :
    (machine.actualStop force).toRetry =
      if !machine.stopping_event && !force then machine.toRetry
      else if machine.reconnecting then machine.toRetry.cancel else machine.toRetry := by
  obtain ⟨ready, readyDef⟩ : ∃ ready : Machine, ready = { machine with
      toRetry := if machine.reconnecting then machine.toRetry.cancel else machine.toRetry
      stopping_event := true } := ⟨_, rfl⟩
  have stopped : (if force && ready.info_impl then ready.infoStop
      else if ready.reconnecting then { ready with stop_code := MGW_SUCCESS }
      else ready).toRetry = ready.toRetry := by
    split_ifs
    · exact info_stop_quiet ready
    · rfl
    · rfl
  have result : machine.actualStop force =
      if !machine.stopping_event && !force then machine
      else { (if force && ready.info_impl then ready.infoStop
        else if ready.reconnecting then { ready with stop_code := MGW_SUCCESS }
        else ready) with actived := false } := by rw [readyDef]; rfl
  rw [result]
  cases !machine.stopping_event && !force with
  | true => rfl
  | false =>
      simp only [Bool.false_eq_true, if_false, stopped]
      rw [readyDef]

theorem output_stop_retry (machine : Machine) :
    machine.outputStop.toRetry =
      if machine.actived && machine.reconnecting then machine.toRetry.cancel
      else machine.toRetry := by
  rw [Machine.outputStop]
  cases machine.actived with
  | true =>
      rw [if_pos rfl, actual_stop_retry, Bool.not_true, Bool.and_false, Bool.true_and]
      rfl
  | false => rfl

theorem free_once_stopped_retry (machine : Machine) :
    machine.freeOnceStopped.toRetry = machine.toRetry := by
  rw [Machine.freeOnceStopped]
  split_ifs <;> rfl

theorem output_destroy_retry (machine : Machine) :
    machine.outputDestroy.toRetry =
      if machine.valid && (machine.info_impl && machine.actived) && machine.reconnecting then
        machine.toRetry.cancel
      else machine.toRetry := by
  rw [Machine.outputDestroy, free_once_stopped_retry]
  cases machine.valid && (machine.info_impl && machine.actived) with
  | true =>
      rw [if_pos rfl, actual_stop_retry, Bool.not_true, Bool.and_false, Bool.true_and]
      rfl
  | false => rfl

/-- A start notes at most that `info.start` has been called. -/
theorem actual_start_retry {success : Bool} {machine after : Machine}
    (started : machine.actualStart success = some after) :
    after.toRetry = machine.toRetry ∨ after.toRetry = machine.toRetry.note .infoStart := by
  rw [Machine.actualStart] at started
  split_ifs at started <;> obtain rfl := Option.some.inj started
  · exact Or.inr rfl
  · exact Or.inl rfl

theorem output_start_retry {success : Bool} {machine after : Machine}
    (started : machine.outputStart success = some after) :
    after.toRetry = machine.toRetry ∨ after.toRetry = machine.toRetry.note .infoStart := by
  rw [Machine.outputStart] at started
  split_ifs at started
  · exact Or.inl (congrArg Machine.toRetry (Option.some.inj started).symm)
  · exact Or.inl (congrArg Machine.toRetry (Option.some.inj started).symm)
  · exact @actual_start_retry success { machine with stopping_event := true } after started

end Effects

/-- A step of a machine that has not been released. -/
def Machine.perform (kind : Kind) (machine : Machine) : Action → Machine
  | .timer success => machine.timerExpires kind success
  | .start success => machine.userStart kind success
  | .stop => machine.userStop kind
  | .connected => machine.signalStarted
  | .report code => machine.signalStop code
  | .release => machine.release kind

/-- What holds before a step and behind it while the machine is live. -/
theorem step_keeps {kept : Machine → Prop} {kind : Kind} {machine : Machine} {action : Action}
    (before : kept machine) (performed : kept (machine.perform kind action)) :
    kept (machine.step kind action) := by
  unfold Machine.step
  cases action with
  | timer success => exact performed
  | start success =>
      dsimp only
      split_ifs
      · exact before
      · exact performed
  | stop =>
      dsimp only
      split_ifs
      · exact before
      · exact performed
  | connected =>
      dsimp only
      split_ifs
      · exact before
      · exact performed
  | report code =>
      dsimp only
      split_ifs
      · exact before
      · exact performed
  | release =>
      dsimp only
      split_ifs
      · exact before
      · exact performed

end Mgw.Reconnect
