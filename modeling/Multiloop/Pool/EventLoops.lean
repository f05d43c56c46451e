import Mathlib.Data.List.Basic
import Multiloop.Asyncio
import Multiloop.Framework.Transition

/-!
# `EventLoopThreadPool`

The thread pool of `pool.py` in the runs with any number of `submit` calls
and one `close` or `abort`. Every critical section of the pool's lock, every
call of the native pool and every `call_soon_threadsafe` is one step. The
native pool is seen from outside: what was pushed is queued until a worker
pops it, and its `close` takes the global sender away, then the local ones. A
future is known by the thread whose `submit` created it and how many futures
that thread had created before.

A worker pops a queued task and makes it an asyncio task, whose body
(`_execute_task`) begins and ends when it likes; how it ends does not matter,
since each way out completes the future unless it is done and then discards
it from `_outstanding`. When a worker's loop is stopped, tasks that have not
begun are cancelled and never run. The loops that the futures belong to stay
open, so every `_safe_complete` schedules a callback.

Which worker is woken, the metrics, the time `close` waits and
`_multiloop_target` are left out.
-/

namespace Multiloop.EventLoopThreadPool

/-- The argument `pin_to`. -/
inductive PinTarget (Loop : Type)
  | none
  | index (i : Int)
  | loop (l : Loop)
  | other

/-- What `submit` raises before it has registered a future. -/
inductive SubmitError
  /-- `ThreadPoolClosedError("ThreadPool is not running")` -/
  | notRunning
  /-- `ValueError`: the index is out of range, or the loop is not a worker's. -/
  | value
  /-- `TypeError("pin_to argument must be an AbstractEventLoop, int index, or None")` -/
  | type
deriving DecidableEq

/-- `_resolve_target_worker`, with `_running` and `_loops`; of the result the
index only, since `submit` does not use the loop. -/
def resolveTargetWorker {Loop : Type} [DecidableEq Loop] (running : Bool) (loops : List Loop)
    (pin : PinTarget Loop) : Except SubmitError (Option Nat) :=
  if !running || loops.isEmpty then .error .notRunning
  else
    match pin with
    | .none => .ok none
    | .index i => if 0 ≤ i ∧ i < loops.length then .ok (some i.toNat) else .error .value
    | .loop l => if l ∈ loops then .ok (some (loops.idxOf l)) else .error .value
    | .other => .error .type

/-- Where a thread is in `submit`; `target` is the worker it is pinned to. -/
inductive Pc (Thread Loop : Type)
  | idle
  /-- About to call `_resolve_target_worker`. -/
  | resolve (pin : PinTarget Loop)
  /-- About to get the running loop and create the future. -/
  | create (target : Option Nat)
  /-- About to add the future to `_outstanding`. -/
  | register (target : Option Nat) (f : Fut Thread)
  /-- About to push the task. -/
  | push (target : Option Nat) (f : Fut Thread)
  /-- The push raised: about to discard the future and raise. -/
  | refuse (f : Fut Thread)
  /-- About to wake a worker and return the future. -/
  | notify (f : Fut Thread)

/-- Where the task of a future is. -/
inductive TaskStage
  | absent
  | queued
  /-- Popped, an asyncio task that has not begun. -/
  | created
  | running
  /-- The body has ended: about to test `fut.done()`. -/
  | ending
  /-- About to complete the future. -/
  | completing
  /-- About to discard the future. -/
  | discarding
  | ended
  /-- Cancelled before it began. -/
  | dropped
deriving DecidableEq

/-- What a future has had done to it; `scheduled` is a completion among the
callbacks of its loop. -/
structure FutState where
  done : Bool := false
  scheduled : Bool := false
deriving DecidableEq

/-- Which of the two ends the pool. -/
inductive Kind
  | close
  | abort
deriving DecidableEq

/-- Where the `close` or `abort` is; `snap` are the futures `abort` took out of
`_outstanding` in its first section. -/
inductive Shutdown (Thread : Type)
  | notCalled
  /-- About to enter the first section. -/
  | begin (kind : Kind)
  /-- `native_pool.close()`: about to take the global sender away. -/
  | nativeGlobal (kind : Kind) (snap : List (Fut Thread))
  | nativeLocal (kind : Kind) (snap : List (Fut Thread))
  /-- `close`: about to wait for the tasks to drain, for as long as it likes. -/
  | drain
  /-- About to stop the workers' loops. -/
  | stop (kind : Kind) (snap : List (Fut Thread))
  /-- About to join the threads, which need not have ended in time. -/
  | join (kind : Kind) (snap : List (Fut Thread))
  /-- `close`: about to take what is left out of `_outstanding`. -/
  | leftover
  /-- About to test `fut.done()` of the first of `fs`. -/
  | settle (fs : List (Fut Thread))
  /-- About to complete `f`, which was not done, and go on with `fs`. -/
  | complete (f : Fut Thread) (fs : List (Fut Thread))
  | returned
deriving DecidableEq

structure Sys (Thread Loop : Type) where
  running : Bool
  loops : List Loop
  outstanding : List (Fut Thread)
  /-- The native pool's global sender is there. -/
  globalOpen : Bool
  /-- Its local senders are. -/
  localOpen : Bool
  pc : Thread → Pc Thread Loop
  /-- The futures each thread has created. -/
  created : Thread → Nat
  futs : Fut Thread → FutState
  task : Fut Thread → TaskStage
  shutdown : Shutdown Thread
  /-- The workers' loops have been told to stop. -/
  stopping : Bool
  /-- Recorded and never read: the first section of `abort` has run. -/
  aborted : Bool
  /-- Recorded and never read: the shutdown has taken its futures out of `_outstanding`. -/
  taken : Bool
  /-- Recorded and never read: the future was registered after that. -/
  late : Fut Thread → Bool
  /-- What `submit` calls have returned. -/
  returned : List (Fut Thread)
  /-- The futures of the calls that raised after registering them. -/
  raised : List (Fut Thread)

inductive Action (Thread Loop : Type)
  /-- The thread calls `submit`. -/
  | submit (t : Thread) (pin : PinTarget Loop)
  /-- The thread makes the next step of its `submit`. `choice` is whether it has
  a running loop, and whether the local queue of its target is full. -/
  | advance (t : Thread) (choice : Bool)
  | shutdown (kind : Kind)
  /-- `close` or `abort` makes its next step. -/
  | advanceShutdown
  /-- A worker pops the task of a future. -/
  | pop (f : Fut Thread)
  /-- The task's body begins. -/
  | begin (f : Fut Thread)
  /-- The body returns, raises or is cancelled. -/
  | finish (f : Fut Thread)
  /-- The task makes the next step after its body. -/
  | advanceTask (f : Fut Thread)
  /-- The worker's loop is stopped before the task has begun. -/
  | drop (f : Fut Thread)
  /-- The future's loop runs the scheduled completion. -/
  | deliver (f : Fut Thread)
  /-- The future is cancelled from outside. -/
  | cancel (f : Fut Thread)

namespace Sys

variable {Thread Loop : Type}

/-- A pool with the loops of its workers; none if it was not started. -/
def new (loops : List Loop) : Sys Thread Loop where
  running := !loops.isEmpty
  loops := loops
  outstanding := []
  globalOpen := true
  localOpen := true
  pc _ := .idle
  created _ := 0
  futs _ := {}
  task _ := .absent
  shutdown := .notCalled
  stopping := false
  aborted := false
  taken := false
  late _ := false
  returned := []
  raised := []

variable [DecidableEq Thread] [DecidableEq Loop] (s : Sys Thread Loop)

def goto (t : Thread) (p : Pc Thread Loop) : Sys Thread Loop := { s with pc := Function.update s.pc t p }

def setTask (f : Fut Thread) (p : TaskStage) : Sys Thread Loop := { s with task := Function.update s.task f p }

def setFut (f : Fut Thread) (x : FutState) : Sys Thread Loop := { s with futs := Function.update s.futs f x }

def discard (f : Fut Thread) : Sys Thread Loop := { s with outstanding := s.outstanding.filter (· ≠ f) }

/-- `_safe_complete` -/
def safeComplete (f : Fut Thread) : Sys Thread Loop := s.setFut f { s.futs f with scheduled := true }

/-- Whether the native pool takes a task for `target`; `full` is whether the
target's local queue is, in which case the task goes to the global queue. -/
def takes (target : Option Nat) (full : Bool) : Bool :=
  match target with
  | none => s.globalOpen
  | some _ => s.localOpen && (!full || s.globalOpen)

/-- The next step of the `submit` thread `t` is in. -/
def advance (t : Thread) (choice : Bool) : Option (Sys Thread Loop) :=
  match s.pc t with
  | .idle => none
  | .resolve pin =>
    match resolveTargetWorker s.running s.loops pin with
    | .error _ => some (s.goto t .idle)
    | .ok target => some (s.goto t (.create target))
  | .create target =>
    -- `RuntimeError` in a thread without a running loop
    if choice then
      some ({ s with created := Function.update s.created t (s.created t + 1) }.goto t
        (.register target ⟨t, s.created t, false⟩))
    else some (s.goto t .idle)
  | .register target f =>
    some ({ s with
      outstanding := s.outstanding ++ [f]
      late := Function.update s.late f s.taken }.goto t (.push target f))
  | .push target f =>
    if s.takes target choice then some ((s.setTask f .queued).goto t (.notify f)) else some (s.goto t (.refuse f))
  | .refuse f => some ({ s.discard f with raised := s.raised ++ [f] }.goto t .idle)
  | .notify f => some ({ s with returned := s.returned ++ [f] }.goto t .idle)

/-- The next step of `close` or `abort`. -/
def advanceShutdown : Option (Sys Thread Loop) :=
  match s.shutdown with
  | .notCalled => none
  | .begin kind =>
    if !s.running then some { s with shutdown := .returned }
    else
      match kind with
      | .close => some { s with running := false, loops := [], shutdown := .nativeGlobal .close [] }
      | .abort =>
        some { s with
          running := false, loops := [], outstanding := [], aborted := true, taken := true
          shutdown := .nativeGlobal .abort s.outstanding }
  | .nativeGlobal kind snap => some { s with globalOpen := false, shutdown := .nativeLocal kind snap }
  | .nativeLocal .close _ => some { s with localOpen := false, shutdown := .drain }
  | .nativeLocal .abort snap => some { s with localOpen := false, shutdown := .stop .abort snap }
  | .drain => some { s with shutdown := .stop .close [] }
  | .stop kind snap => some { s with stopping := true, shutdown := .join kind snap }
  | .join .close _ => some { s with shutdown := .leftover }
  | .join .abort snap => some { s with shutdown := .settle snap }
  | .leftover => some { s with outstanding := [], taken := true, shutdown := .settle s.outstanding }
  | .settle [] => some { s with shutdown := .returned }
  | .settle (f :: fs) => some { s with shutdown := if (s.futs f).done then .settle fs else .complete f fs }
  | .complete f fs => some { s.safeComplete f with shutdown := .settle fs }
  | .returned => none

/-- The next step of a task after its body. -/
def advanceTask (f : Fut Thread) : Option (Sys Thread Loop) :=
  match s.task f with
  | .ending => some (s.setTask f (if (s.futs f).done then .discarding else .completing))
  | .completing => some ((s.safeComplete f).setTask f .discarding)
  | .discarding => some ((s.discard f).setTask f .ended)
  | _ => none

def isIdle (t : Thread) : Bool :=
  match s.pc t with
  | .idle => true
  | _ => false

def notCalled : Bool :=
  match s.shutdown with
  | .notCalled => true
  | _ => false

def step : Action Thread Loop → Option (Sys Thread Loop)
  | .submit t pin => if s.isIdle t then some (s.goto t (.resolve pin)) else none
  | .advance t choice => s.advance t choice
  | .shutdown kind => if s.notCalled then some { s with shutdown := .begin kind } else none
  | .advanceShutdown => s.advanceShutdown
  | .pop f => if s.task f = .queued then some (s.setTask f .created) else none
  | .begin f => if s.task f = .created then some (s.setTask f .running) else none
  | .finish f => if s.task f = .running then some (s.setTask f .ending) else none
  | .advanceTask f => s.advanceTask f
  | .drop f => if s.task f = .created ∧ s.stopping then some (s.setTask f .dropped) else none
  | .deliver f => if (s.futs f).scheduled then some (s.setFut f { s.futs f with done := true }) else none
  | .cancel f => if f.serial < s.created f.owner then some (s.setFut f { s.futs f with done := true }) else none

end Sys

/-- The pool under every interleaving. -/
def system (Thread Loop : Type) [DecidableEq Thread] [DecidableEq Loop] :
    System (Sys Thread Loop) (Action Thread Loop) where
  init s := ∃ loops, s = .new loops
  step := Sys.step

end Multiloop.EventLoopThreadPool
