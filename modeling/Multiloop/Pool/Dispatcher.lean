import Multiloop.Pool.Places
import Multiloop.Pool.EventLoops

/-!
# The dispatchers

`_worker_dispatcher` of each worker over the native pool, and `submit` as far
as it pushes a task and wakes a worker, in the runs of a pool that was started.
Every step of the native pool, every critical section of the pool's lock, every
access of an event and every `call_soon_threadsafe` is one step. A worker is
born when its thread has put its own event in the place of the one that `start`
made; nobody waits on that one.

What the tasks do, and the futures of `submit`, are in `EventLoops`.
-/

namespace Multiloop.Dispatcher

open EventLoopThreadPool (PinTarget resolveTargetWorker)

/-- Who calls the native pool. -/
inductive Party (Thread : Type) (n : Nat)
  | worker (i : Fin n)
  | caller (t : Thread)
deriving DecidableEq

/-- Where a worker is in `_worker_dispatcher`; `processed` is `processed_any`. -/
inductive Pc
  /-- The thread has not begun. -/
  | unborn
  /-- Phase 1: about to call `pop_work`. -/
  | drain (processed : Bool)
  /-- Phase 1: in `pop_work`. -/
  | popping (processed : Bool)
  /-- `await asyncio.sleep(0)`, after a task. -/
  | yielding
  /-- Phase 2: about to read `is_running`. -/
  | checkRunning (processed : Bool)
  /-- Phase 2: about to call `is_closed`. -/
  | checkClosed (processed : Bool)
  /-- `await asyncio.sleep(0.01)`. -/
  | napping
  /-- Phase 3: about to clear the event. -/
  | clearing
  /-- The second look, in `pop_work`. -/
  | again
  /-- About to join `_idle_workers`. -/
  | joining
  /-- Waiting on the event, for `_WORKER_POLL_INTERVAL` at most. -/
  | waiting
  /-- About to leave `_idle_workers`. -/
  | leaving
  /-- The dispatcher has returned. -/
  | ended
  /-- The loop is closed. -/
  | closed
deriving DecidableEq

/-- Where a thread is in `submit` or `close`. -/
inductive Call (n : Nat)
  | idle
  /-- `_resolve_target_worker`. -/
  | resolve (pin : PinTarget (Fin n))
  /-- In `push_local` or `push_global`. -/
  | pushing (target : Option Nat)
  /-- About to choose the loop and the event to set. -/
  | notify (target : Option Nat)
  /-- `loop.call_soon_threadsafe(event.set)`; `own` tells the worker's own event
  from the first one. -/
  | schedule (i : Fin n) (own : Bool)
  /-- `close` or `abort`: about to enter the first section. -/
  | close
  /-- In the native pool's `close`. -/
  | closing

inductive Action (Thread τ : Type) (n : Nat)
  /-- The thread of a worker begins. -/
  | begin (i : Fin n)
  /-- The dispatcher goes on, outside of `pop_work`. -/
  | work (i : Fin n)
  /-- `pop_work` makes its next step. -/
  | pop (i : Fin n)
  /-- The wait for the event ends. -/
  | resume (i : Fin n) (timedOut : Bool)
  /-- The loop of a worker runs a callback that sets an event. -/
  | callback (i : Fin n) (own : Bool)
  /-- The loop of a worker is stopped and closed. -/
  | stop (i : Fin n)
  | submit (t : Thread) (pin : PinTarget (Fin n))
  | close (t : Thread)
  /-- The thread goes on; `choice` is the worker that the iteration over
  `_idle_workers` gives first. -/
  | advance (t : Thread) (task : τ) (choice : Nat)

structure Sys (Thread : Type) (n : Nat) (τ : Type) where
  native : NativeWorkerPool.Sys (Party Thread n) n τ
  running : Bool
  loops : List (Fin n)
  /-- The event of a worker in `_notify_events` is its own. -/
  ownEvent : Fin n → Bool
  /-- The event that the dispatcher waits on. -/
  isSet : Fin n → Bool
  /-- The callbacks that set an event, among those scheduled in the loop. -/
  scheduled : Fin n → List Bool
  idleWorkers : List (Fin n)
  index : Nat
  pc : Fin n → Pc
  calls : Thread → Call n

namespace Sys

variable {Thread τ : Type} {n : Nat}

/-- A pool after the first section of `start`. -/
def new : Sys Thread n τ where
  native := .new
  running := true
  loops := List.finRange n
  ownEvent _ := false
  isSet _ := false
  scheduled _ := []
  idleWorkers := []
  index := 0
  pc _ := .unborn
  calls _ := .idle

variable [DecidableEq Thread] (s : Sys Thread n τ)

def goto (i : Fin n) (p : Pc) : Sys Thread n τ := { s with pc := Function.update s.pc i p }

def call (t : Thread) (c : Call n) : Sys Thread n τ := { s with calls := Function.update s.calls t c }

/-- A call of `pop_work` begins. -/
def popWork (i : Fin n) (p : Pc) : Option (Sys Thread n τ) :=
  (s.native.step (.popWork (.worker i) i)).map fun native => { s with native }.goto i p

/-- The dispatcher, once `pop_work` has returned. -/
def popped (native : NativeWorkerPool.Sys (Party Thread n) n τ) : Pc → Pc
  | .again => if s.native.popped.length < native.popped.length then .drain false else .joining
  | .popping processed =>
    if s.native.popped.length < native.popped.length then .yielding
    else if s.native.raised.length < native.raised.length then .ended
    else .checkRunning processed
  | p => p

/-- `pop_work` of worker `i` makes its next step. -/
def pop (i : Fin n) : Option (Sys Thread n τ) :=
  (s.native.step (.advance (.worker i))).map fun native =>
    if native.isIdle (.worker i) then { s with native }.goto i (s.popped native (s.pc i)) else { s with native }

/-- `is_closed` of the native pool; `none` while another thread holds the sender. -/
def isClosed : Option Bool :=
  if s.native.pool.isClosed then some true
  else if s.native.globalMutex.isNone then some (!s.native.pool.globalSender)
  else none

def work (i : Fin n) : Option (Sys Thread n τ) :=
  match s.pc i with
  | .drain processed => s.popWork i (.popping processed)
  | .yielding => some (s.goto i (.drain true))
  | .checkRunning processed => some (s.goto i (if s.running then .checkClosed processed else .napping))
  | .checkClosed processed =>
    s.isClosed.map fun closed =>
      if closed then s.goto i .napping
      else if processed then s.goto i (.drain false)
      else s.goto i .clearing
  | .napping => some (s.goto i (.drain false))
  | .clearing => { s with isSet := Function.update s.isSet i false }.popWork i .again
  | .joining => some ({ s with idleWorkers := i :: s.idleWorkers }.goto i .waiting)
  | .leaving => some ({ s with idleWorkers := s.idleWorkers.filter (· ≠ i) }.goto i (.drain false))
  | _ => none

/-- The worker that `submit` wakes for a task that is not pinned. -/
def choose (choice : Nat) : Option (Nat × Nat) :=
  if s.idleWorkers.isEmpty then some (s.index, (s.index + 1) % s.loops.length)
  else (s.idleWorkers[choice]?).map fun i => (i.val, s.index)

/-- The section of `_notify_worker`, or of `submit`. -/
def notify (t : Thread) (choice : Nat) : Option Nat → Option (Sys Thread n τ)
  | some target =>
    match s.loops[target]? with
    | some i => some (if s.running then s.call t (.schedule i (s.ownEvent i)) else s.call t .idle)
    | none => some (s.call t .idle)
  | none =>
    if s.loops.isEmpty ∨ ¬ s.running then some (s.call t .idle)
    else
      (s.choose choice).bind fun (target, index) =>
        (s.loops[target]?).map fun i => { s with index }.call t (.schedule i (s.ownEvent i))

/-- The native pool's call of a thread makes its next step; `after` is where the
thread is when the call has returned. -/
def onNative (t : Thread) (after : NativeWorkerPool.Sys (Party Thread n) n τ → Call n) : Option (Sys Thread n τ) :=
  (s.native.step (.advance (.caller t))).map fun native =>
    if native.isIdle (.caller t) then { s with native }.call t (after native) else { s with native }

/-- A call of the native pool begins. -/
def enter (t : Thread) (a : NativeWorkerPool.Action (Party Thread n) τ) (c : Call n) : Option (Sys Thread n τ) :=
  (s.native.step a).map fun native => { s with native }.call t c

def advance (t : Thread) (task : τ) (choice : Nat) : Option (Sys Thread n τ) :=
  match s.calls t with
  | .idle => none
  | .resolve pin =>
    match resolveTargetWorker s.running s.loops pin with
    | .error _ => some (s.call t .idle)
    | .ok none => s.enter t (.pushGlobal (.caller t) (some task)) (.pushing none)
    | .ok (some target) => s.enter t (.pushLocal (.caller t) target (some task)) (.pushing (some target))
  | .pushing target =>
    -- A push that raises discards the future.
    s.onNative t fun native => if s.native.accepted.length < native.accepted.length then .notify target else .idle
  | .notify target => s.notify t choice target
  | .schedule i own =>
    -- A loop that is closed raises `RuntimeError`, which is passed over.
    if s.pc i = .closed then some (s.call t .idle)
    else some ({ s with scheduled := Function.update s.scheduled i (s.scheduled i ++ [own]) }.call t .idle)
  | .close =>
    if s.running then { s with running := false, loops := [] }.enter t (.close (.caller t)) .closing
    else some (s.call t .idle)
  | .closing => s.onNative t fun _ => .idle

def isIdle (t : Thread) : Bool :=
  match s.calls t with
  | .idle => true
  | _ => false

/-- The worker is in a call of `pop_work`. -/
def inPop (i : Fin n) : Bool :=
  match s.pc i with
  | .popping _ | .again => true
  | _ => false

def step : Action Thread τ n → Option (Sys Thread n τ)
  | .begin i =>
    if s.pc i = .unborn then some ({ s with ownEvent := Function.update s.ownEvent i true }.goto i (.drain false))
    else none
  | .work i => s.work i
  | .pop i => if s.inPop i then s.pop i else none
  | .resume i timedOut => if s.pc i = .waiting ∧ (timedOut ∨ s.isSet i) then some (s.goto i .leaving) else none
  | .callback i own =>
    if s.pc i ≠ .closed ∧ own ∈ s.scheduled i then
      some { s with
        scheduled := Function.update s.scheduled i ((s.scheduled i).erase own)
        isSet := if own then Function.update s.isSet i true else s.isSet }
    else none
  | .stop i =>
    if ¬ s.running ∧ s.inPop i = false then
      some ({ s with idleWorkers := s.idleWorkers.filter (· ≠ i) }.goto i .closed)
    else none
  | .submit t pin => if s.isIdle t then some (s.call t (.resolve pin)) else none
  | .close t => if s.isIdle t then some (s.call t .close) else none
  | .advance t task choice => s.advance t task choice

end Sys

/-- The pool under every interleaving. -/
def system (Thread : Type) (n : Nat) (τ : Type) [DecidableEq Thread] : System (Sys Thread n τ) (Action Thread τ n) where
  init s := s = .new
  step := Sys.step

end Multiloop.Dispatcher
