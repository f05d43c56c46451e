import Multiloop.Framework.Transition

/-!
# The lifespan of an application

`LifespanManager` runs the application on a task of its own, and `startup()`
and `shutdown()` wait for what the application sends there. `LifespanManager`
below is the object with the fields these functions read and write; each
function is cut where it awaits, and every piece gives the object after it and
how it goes on: `Progress.done`, or the await it stops at.

A run is what happens to one manager on its loop: calls come, wait for the
lock, are woken, time out and are cancelled, and the application does what it
likes with the three things it is given. `exits` has the calls of `startup()`
that ended, the latest first, with the state each of them left.
-/

namespace Multiloop

/-- `LifespanState`. -/
inductive LifespanState
  | uninitialized
  | starting
  | running
  | stopping
  | stopped
  | failed
deriving DecidableEq, Repr

/-- A message of the application: its `type` and its `message`, if it has
them. -/
structure LifespanMessage where
  type : Option String
  message : Option String

/-- `_startup_status`, of an exception its `str`. -/
structure StartupStatus where
  complete : Bool
  failed : Bool
  unsupported : Bool
  message : String
  exception : Option String

/-- `_shutdown_status`. -/
structure ShutdownStatus where
  complete : Bool
  failed : Bool
  message : String

/-- `_lifespan_task`: a task that is done had its coroutine run to its end
(`ended`), saw another `BaseException` than `CancelledError` leave it
(`crashed`), or was cancelled before its first step (`dropped`). -/
inductive LifespanTask
  | none
  | created
  | running
  | ended
  | crashed
  | dropped
deriving DecidableEq, Repr

def LifespanTask.isDone : LifespanTask → Bool
  | .ended | .crashed | .dropped => true
  | .none | .created | .running => false

/-- The application has been called, so that it holds `scope`, `receive` and
`send`. -/
def LifespanTask.called : LifespanTask → Bool
  | .running | .ended | .crashed => true
  | .none | .created | .dropped => false

/-- What `_scope` has under `state`: nothing, a mapping, or an object that
`dict` refuses. -/
inductive ScopeState
  | missing
  | mapping (entries : List (String × String))
  | other
deriving DecidableEq, Repr

/-- `dict(scope.setdefault("state", {}))`, `none` where it raises. -/
def ScopeState.toDict : ScopeState → Option (List (String × String))
  | .missing => some []
  | .mapping entries => some entries
  | .other => none

structure LifespanManager where
  lifespan : String
  /-- `startup_timeout` as an f-string writes it. -/
  startupTimeout : String
  state : LifespanState
  startupEvent : Bool
  shutdownTrigger : Bool
  shutdownEvent : Bool
  startupStatus : StartupStatus
  shutdownStatus : ShutdownStatus
  lifespanTask : LifespanTask
  /-- `cancel()` was called on the task. -/
  taskCancelled : Bool
  startupSent : Bool
  scopeState : ScopeState
  frozenState : Option (List (String × String))

/-- What leaves a call. -/
inductive LifespanError
  | runtimeError (text : String)
  | cancelledError
  | typeError
  | baseException
deriving DecidableEq, Repr

inductive LifespanOutcome
  | returned
  | raised (error : LifespanError)
deriving DecidableEq, Repr

/-- Which `await self._lifespan_task` a call stands at: the one after a timeout
of `startup()`, the one after an exception of the application, or the one of
`shutdown()`. -/
inductive LifespanJoin
  | startupTimedOut
  | startupException
  | shutdown
deriving DecidableEq, Repr

inductive Progress
  | done (outcome : LifespanOutcome)
  | waits
  | joins (join : LifespanJoin)

namespace LifespanManager

/-- `__init__`. -/
def init (lifespan startupTimeout : String) : LifespanManager where
  lifespan := lifespan
  startupTimeout := startupTimeout
  state := .uninitialized
  startupEvent := false
  shutdownTrigger := false
  shutdownEvent := false
  startupStatus := { complete := false, failed := false, unsupported := false, message := "", exception := none }
  shutdownStatus := { complete := false, failed := false, message := "" }
  lifespanTask := .none
  taskCancelled := false
  startupSent := false
  scopeState := .mapping []
  frozenState := none

/-- `startup` from the lock to the wait for `_startup_event`. -/
def startup (m : LifespanManager) : LifespanManager × Progress :=
  if m.state ≠ .uninitialized then (m, .done .returned)
  else if m.lifespan = "off" then ({ m with state := .running }, .done .returned)
  else ({ m with state := .starting, lifespanTask := .created }, .waits)

/-- What `startup` raises after a timeout. -/
def timedOut (m : LifespanManager) : LifespanOutcome :=
  if m.lifespan = "on" then .raised (.runtimeError "Lifespan startup timed out")
  else .raised (.runtimeError ("Lifespan startup timed out after " ++ m.startupTimeout ++ "s"))

/-- `startup` from `except TimeoutError`. -/
def startupTimesOut (m : LifespanManager) : LifespanManager × Progress :=
  if m.lifespanTask ≠ .none ∧ m.lifespanTask.isDone = false then
    ({ m with state := .failed, taskCancelled := true }, .joins .startupTimedOut)
  else ({ m with state := .failed }, .done m.timedOut)

/-- `startup` once `_startup_event` is set. -/
def startupResumes (m : LifespanManager) : LifespanManager × Progress :=
  if m.startupStatus.unsupported then
    if m.lifespan = "on" then
      ({ m with state := .failed },
        .done (.raised (.runtimeError "Application does not support ASGI lifespan protocol")))
    else ({ m with state := .running }, .done .returned)
  else if m.startupStatus.failed then
    ({ m with state := .failed },
      .done (.raised (.runtimeError ("Application startup failed: " ++ m.startupStatus.message))))
  else
    match m.startupStatus.exception with
    | some exc =>
      if m.lifespan = "on" ∨ m.startupSent = true then
        ({ m with state := .failed }, .done (.raised (.runtimeError ("Application startup failed: " ++ exc))))
      else if m.lifespanTask ≠ .none ∧ m.lifespanTask.isDone = false then
        ({ m with taskCancelled := true }, .joins .startupException)
      else ({ m with state := .running }, .done .returned)
    | none =>
      match m.scopeState.toDict with
      | some entries =>
        let scope := match m.scopeState with
          | .missing => .mapping []
          | scope => scope
        ({ m with scopeState := scope, frozenState := some entries, state := .running }, .done .returned)
      | none => (m, .done (.raised .typeError))

/-- `shutdown` from the lock to the wait for `_shutdown_event`. -/
def shutdown (m : LifespanManager) : LifespanManager × Progress :=
  if m.state ≠ .running then (m, .done .returned)
  else if m.lifespan = "off" ∨ m.lifespanTask = .none then ({ m with state := .stopped }, .done .returned)
  else ({ m with state := .stopping, shutdownTrigger := true }, .waits)

/-- `shutdown` once `_shutdown_event` is set or the wait has raised an
`Exception`. -/
def shutdownResumes (m : LifespanManager) : LifespanManager × Progress :=
  if m.lifespanTask ≠ .none ∧ m.lifespanTask.isDone = false then
    ({ m with taskCancelled := true }, .joins .shutdown)
  else ({ m with state := .stopped }, .done .returned)

/-- What follows an `await self._lifespan_task` that ended: `CancelledError`
and every `Exception` are passed over, and another `BaseException` of the task
goes on unless the call itself is `cancelled` at that point. -/
def joined (m : LifespanManager) (join : LifespanJoin) (cancelled : Bool) : LifespanManager × Progress :=
  if m.lifespanTask = .crashed ∧ cancelled = false then (m, .done (.raised .baseException))
  else match join with
    | .startupTimedOut => (m, .done m.timedOut)
    | .startupException => ({ m with state := .running }, .done .returned)
    | .shutdown => ({ m with state := .stopped }, .done .returned)

/-- `_lifespan_receive`, `none` while it waits for the trigger. -/
def receive (m : LifespanManager) : Option (LifespanManager × String) :=
  if m.startupSent = false then some ({ m with startupSent := true }, "lifespan.startup")
  else if m.shutdownTrigger then some (m, "lifespan.shutdown")
  else none

/-- `_lifespan_send`. -/
def send (m : LifespanManager) (message : LifespanMessage) : LifespanManager :=
  let type := message.type.getD ""
  if type = "lifespan.startup.complete" then
    { m with startupStatus := { m.startupStatus with complete := true }, startupEvent := true }
  else if type = "lifespan.startup.failed" then
    { m with
      startupStatus := { m.startupStatus with failed := true, message := message.message.getD "" },
      startupEvent := true }
  else if type = "lifespan.shutdown.complete" then
    { m with shutdownStatus := { m.shutdownStatus with complete := true }, shutdownEvent := true }
  else if type = "lifespan.shutdown.failed" then
    { m with
      shutdownStatus := { m.shutdownStatus with failed := true, message := message.message.getD "" },
      shutdownEvent := true }
  else m

/-- How the call of the application ends: of an exception its `str`. -/
inductive Ending
  | returns
  | raises (exc : String)
  | cancelled
  | crashes
deriving DecidableEq, Repr

/-- The two `except` clauses of `_lifespan_runner`. -/
def excepts (m : LifespanManager) : Ending → LifespanManager
  | .cancelled =>
    let m := if m.startupEvent then m else
      { m with
        startupStatus := { m.startupStatus with failed := true, message := "Lifespan startup cancelled" },
        startupEvent := true }
    if m.shutdownEvent then m else
      { m with
        shutdownStatus := { m.shutdownStatus with failed := true, message := "Lifespan shutdown cancelled" },
        shutdownEvent := true }
  | .raises exc =>
    let m := if m.startupEvent then m else
      { m with
        startupStatus := { m.startupStatus with exception := some exc, message := exc },
        startupEvent := true }
    if m.shutdownEvent then m else
      { m with
        shutdownStatus := { m.shutdownStatus with failed := true, message := exc },
        shutdownEvent := true }
  | .returns | .crashes => m

/-- The `finally` of `_lifespan_runner`. -/
def finishes (m : LifespanManager) : LifespanManager :=
  let m := if m.startupEvent then m else
    { m with startupStatus := { m.startupStatus with unsupported := true }, startupEvent := true }
  if m.shutdownEvent then m else { m with shutdownEvent := true }

/-- `_lifespan_runner` from the end of the application on. -/
def runnerEnds (m : LifespanManager) (how : Ending) : LifespanManager :=
  { (m.excepts how).finishes with
    lifespanTask := match how with
      | .crashes => .crashed
      | _ => .ended }

end LifespanManager

inductive LifespanCall
  | startup
  | shutdown
deriving DecidableEq, Repr

/-- Where a call is: not made, at the lock, at the wait for its event, at an
`await self._lifespan_task`, or over. -/
inductive CallPhase
  | idle
  | queued (call : LifespanCall)
  | waiting (call : LifespanCall)
  | joining (join : LifespanJoin)
  | finished
deriving DecidableEq, Repr

def LifespanJoin.call : LifespanJoin → LifespanCall
  | .startupTimedOut | .startupException => .startup
  | .shutdown => .shutdown

/-- A call of `startup()` that ended, and the state it left. -/
structure StartupExit where
  outcome : LifespanOutcome
  state : LifespanState
deriving DecidableEq, Repr

structure LifespanRun where
  manager : LifespanManager
  calls : Nat → CallPhase
  /-- The call that holds `_lock`. -/
  holder : Option Nat
  exits : List StartupExit
  /-- The types of the messages sent, the latest first. -/
  sent : List String

inductive LifespanAction
  | make (i : Nat) (call : LifespanCall)
  | acquire (i : Nat)
  /-- The event of call `i` is set, and the call goes on. -/
  | resume (i : Nat)
  | timeout (i : Nat)
  /-- `CancelledError` reaches call `i` at the lock or at the wait. -/
  | cancel (i : Nat)
  | joined (i : Nat) (cancelled : Bool)
  /-- The first step of the task, which calls the application. -/
  | begins
  /-- The task is cancelled before its first step. -/
  | dropped
  | receive
  | send (message : LifespanMessage)
  /-- The application changes `scope["state"]`. -/
  | assign (scope : ScopeState)
  | ends (how : LifespanManager.Ending)

namespace LifespanRun

/-- The state before any call. -/
def Starts (s : LifespanRun) : Prop :=
  (∃ lifespan timeout, s.manager = .init lifespan timeout) ∧ (∀ i, s.calls i = .idle) ∧ s.holder = none ∧
    s.exits = [] ∧ s.sent = []

/-- What the end of a call adds to `exits`. -/
def left (call : LifespanCall) (outcome : LifespanOutcome) (state : LifespanState) : List StartupExit :=
  if call = .startup then [{ outcome := outcome, state := state }] else []

/-- Call `i`, which holds the lock, goes on to the end or to its next await. -/
def goesOn (s : LifespanRun) (i : Nat) (call : LifespanCall) (r : LifespanManager × Progress) : LifespanRun :=
  match r.2 with
  | .done outcome =>
    { s with
      manager := r.1
      calls := Function.update s.calls i .finished
      holder := none
      exits := left call outcome r.1.state ++ s.exits }
  | .waits => { s with manager := r.1, calls := Function.update s.calls i (.waiting call), holder := some i }
  | .joins join => { s with manager := r.1, calls := Function.update s.calls i (.joining join), holder := some i }

/-- `CancelledError` leaves call `i` where it does not hold the lock. -/
def gaveUp (s : LifespanRun) (i : Nat) (call : LifespanCall) : LifespanRun :=
  { s with
    calls := Function.update s.calls i .finished
    exits := left call (.raised .cancelledError) s.manager.state ++ s.exits }

def step (s : LifespanRun) : LifespanAction → Option LifespanRun
  | .make i call =>
    if s.calls i = .idle then some { s with calls := Function.update s.calls i (.queued call) } else none
  | .acquire i =>
    if s.holder = none then
      match s.calls i with
      | .queued .startup => some (s.goesOn i .startup s.manager.startup)
      | .queued .shutdown => some (s.goesOn i .shutdown s.manager.shutdown)
      | _ => none
    else none
  | .resume i =>
    match s.calls i with
    | .waiting .startup =>
      if s.manager.startupEvent then some (s.goesOn i .startup s.manager.startupResumes) else none
    | .waiting .shutdown =>
      if s.manager.shutdownEvent then some (s.goesOn i .shutdown s.manager.shutdownResumes) else none
    | _ => none
  | .timeout i =>
    match s.calls i with
    | .waiting .startup => some (s.goesOn i .startup s.manager.startupTimesOut)
    | .waiting .shutdown => some (s.goesOn i .shutdown s.manager.shutdownResumes)
    | _ => none
  | .cancel i =>
    match s.calls i with
    | .queued call => some (s.gaveUp i call)
    | .waiting call => some (s.goesOn i call (s.manager, .done (.raised .cancelledError)))
    | _ => none
  | .joined i cancelled =>
    match s.calls i with
    | .joining join =>
      if s.manager.lifespanTask.isDone then
        some (s.goesOn i join.call (s.manager.joined join cancelled))
      else none
    | _ => none
  | .begins =>
    if s.manager.lifespanTask = .created then
      some { s with manager := { s.manager with lifespanTask := .running } }
    else none
  | .dropped =>
    if s.manager.lifespanTask = .created ∧ s.manager.taskCancelled = true then
      some { s with manager := { s.manager with lifespanTask := .dropped } }
    else none
  | .receive =>
    if s.manager.lifespanTask.called then s.manager.receive.map fun r => { s with manager := r.1 } else none
  | .send message =>
    if s.manager.lifespanTask.called then
      some { s with manager := s.manager.send message, sent := message.type.getD "" :: s.sent }
    else none
  | .assign scope =>
    if s.manager.lifespanTask.called then
      some { s with manager := { s.manager with scopeState := scope } }
    else none
  | .ends how =>
    if s.manager.lifespanTask = .running then some { s with manager := s.manager.runnerEnds how } else none

/-- The runs of one manager. -/
def system : System LifespanRun LifespanAction where
  init := Starts
  step := step

end LifespanRun

end Multiloop
