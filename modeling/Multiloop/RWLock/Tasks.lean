import Multiloop.Asyncio
import Multiloop.Framework.Transition
import Multiloop.RWLock.Raw

/-!
# Tasks over one `AsyncRWMutex`

Any number of tasks that enter and leave `reader()` and `writer()` of one lock
(`rwlock.py`, the Rust path). Every call of a Rust method is one atomic step,
with the task-local bookkeeping beside it; the steps of different tasks, the
`_do` callbacks of `_wake_all`, and cancellations come in any order.
-/

namespace Multiloop.RWLock

/-- Where a task is: `idle` is in the body of what it has entered, or outside. -/
inductive Pc (Task : Type)
  | idle
  /-- `reader`: about to `try_acquire_read`. -/
  | readTry
  /-- `reader`: about to create a future and `acquire_read_or_register`. -/
  | readRegister
  | readAwait (fut : Fut Task)
  /-- `reader`: the await raised, about to `remove_waiter`. -/
  | readRemove (fut : Fut Task)
  | writeTry
  | writeRegister
  | writeAwait (fut : Fut Task)
  | writeRemove (fut : Fut Task)
deriving DecidableEq

/-- The steps of a run. -/
inductive Action (Task : Type)
  /-- The task enters `reader()`. -/
  | reader (t : Task)
  | writer (t : Task)
  /-- The task makes the next Rust call of its `reader()` or `writer()`. -/
  | advance (t : Task)
  /-- The event loop resumes the task, whose future is done. -/
  | resume (t : Task)
  /-- The task leaves the body of `reader()`. -/
  | exitReader (t : Task)
  | exitWriter (t : Task)
  | cancel (t : Task)
  /-- The event loop runs the `i`-th scheduled `_do`. -/
  | wake (i : Nat)

/-- The lock, and what its tasks and their loops have in hand. -/
structure Sys (Loop Task : Type) where
  raw : RWMutexInner Loop (Fut Task)
  futs : Fut Task → FutState Unit
  /-- The futures whose `_do` is scheduled. -/
  scheduled : List (Fut Task)
  pc : Task → Pc Task
  mustCancel : Task → Bool
  /-- The futures each task has created. -/
  created : Task → Nat
  /-- `_reader_depth`, `0` for a task that is not in it. -/
  readerDepth : Task → Nat
  writerTask : Option Task

variable {Loop Task : Type}

namespace Sys

/-- Nobody has entered yet. -/
def new : Sys Loop Task where
  raw := RWLock.new
  futs _ := .pending
  scheduled := []
  pc _ := .idle
  mustCancel _ := false
  created _ := 0
  readerDepth _ := 0
  writerTask := none

variable (s : Sys Loop Task)

/-- `_wake_all(wakers)`. -/
def wakeAll (wakers : Option (List (Waiter Loop (Fut Task)))) : Sys Loop Task :=
  { s with
    scheduled := s.scheduled ++ (wakers.getD []).filterMap fun w =>
      match s.futs w.2 with
      | .pending => some w.2
      | _ => none }

/-- The future task `t` is suspended on. -/
def awaited (t : Task) : Option (Fut Task) :=
  match s.pc t with
  | .readAwait f | .writeAwait f => some f
  | _ => none

variable [DecidableEq Task]

/-- A task goes on. -/
def goto (t : Task) (p : Pc Task) : Sys Loop Task :=
  { s with pc := Function.update s.pc t p }

/-- Task `t` holds the read lock: `self._reader_depth[task] = 1`. -/
def enterReader (t : Task) : Sys Loop Task :=
  { s with pc := Function.update s.pc t .idle, readerDepth := Function.update s.readerDepth t 1 }

/-- Task `t` holds the write lock: `self._writer_task = task`. -/
def enterWriter (t : Task) : Sys Loop Task :=
  { s with pc := Function.update s.pc t .idle, writerTask := some t }

/-- Task `t` starts to await `f`, which a cancellation asked for earlier
cancels at once. -/
def await (t : Task) (f : Fut Task) (p : Pc Task) : Sys Loop Task :=
  { s with
    pc := Function.update s.pc t p
    futs := if s.mustCancel t then Function.update s.futs f .cancelled else s.futs
    mustCancel := Function.update s.mustCancel t false }

/-- The await of task `t` raises. -/
def raise (t : Task) (p : Pc Task) : Sys Loop Task :=
  { s with pc := Function.update s.pc t p, mustCancel := Function.update s.mustCancel t false }

/-- `loop.create_future()` in task `t`. -/
def createFuture (t : Task) : Fut Task × Sys Loop Task :=
  ({ owner := t, serial := s.created t },
    { s with created := Function.update s.created t (s.created t + 1) })

/-- The next Rust call of task `t`, whose event loop is `home t`. -/
def advance (home : Task → Loop) (t : Task) : Option (Sys Loop Task) :=
  match s.pc t with
  | .readTry =>
    let (acquired, raw) := s.raw.tryAcquireRead
    if acquired then some ({ s with raw }.enterReader t) else some ({ s with raw }.goto t .readRegister)
  | .readRegister =>
    let (f, s) := s.createFuture t
    let (acquired, raw) := s.raw.acquireReadOrRegister (home t) f
    if acquired then some ({ s with raw }.enterReader t)
    else some ({ s with raw }.await t f (.readAwait f))
  | .readRemove f =>
    let (wakers, raw) := s.raw.removeWaiter f false
    some (({ s with raw }.wakeAll wakers).goto t .idle)
  | .writeTry =>
    let (acquired, raw) := s.raw.tryAcquireWrite
    if acquired then some ({ s with raw }.enterWriter t) else some ({ s with raw }.goto t .writeRegister)
  | .writeRegister =>
    let (f, s) := s.createFuture t
    let (acquired, raw) := s.raw.acquireWriteOrRegister (home t) f
    if acquired then some ({ s with raw }.enterWriter t)
    else some ({ s with raw }.await t f (.writeAwait f))
  | .writeRemove f =>
    let (wakers, raw) := s.raw.removeWaiter f true
    some (({ s with raw }.wakeAll wakers).goto t .idle)
  | .idle | .readAwait _ | .writeAwait _ => none

/-- The event loop resumes task `t`. -/
def resume (t : Task) : Option (Sys Loop Task) :=
  match s.pc t with
  | .readAwait f =>
    match s.futs f with
    | .pending => none
    | .result _ => if s.mustCancel t then some (s.raise t (.readRemove f)) else some (s.enterReader t)
    | .exception | .cancelled => some (s.raise t (.readRemove f))
  | .writeAwait f =>
    match s.futs f with
    | .pending => none
    | .result _ => if s.mustCancel t then some (s.raise t (.writeRemove f)) else some (s.enterWriter t)
    | .exception | .cancelled => some (s.raise t (.writeRemove f))
  | _ => none

/-- `task.cancel()`. -/
def cancel (t : Task) : Sys Loop Task :=
  match s.awaited t with
  | some f =>
    match s.futs f with
    | .pending => { s with futs := Function.update s.futs f .cancelled }
    | _ => { s with mustCancel := Function.update s.mustCancel t true }
  | none => { s with mustCancel := Function.update s.mustCancel t true }

/-- `_do`: `InvalidStateError` is ignored. -/
def setResult (f : Fut Task) : Sys Loop Task :=
  match s.futs f with
  | .pending => { s with futs := Function.update s.futs f (.result ()) }
  | _ => s

/-- The steps of the tasks; `none` for one that cannot be taken. -/
def step (home : Task → Loop) (s : Sys Loop Task) : Action Task → Option (Sys Loop Task)
  | .reader t =>
    match s.pc t with
    | .idle =>
      -- The task that holds the writer gets a `RuntimeError`.
      if s.writerTask = some t then some s
      else if s.readerDepth t > 0 then
        some { s with readerDepth := Function.update s.readerDepth t (s.readerDepth t + 1) }
      else some (s.goto t .readTry)
    | _ => none
  | .writer t =>
    match s.pc t with
    | .idle =>
      if s.readerDepth t > 0 ∨ s.writerTask = some t then some s else some (s.goto t .writeTry)
    | _ => none
  | .advance t => s.advance home t
  | .resume t => s.resume t
  | .exitReader t =>
    match s.pc t, s.readerDepth t with
    | .idle, depth + 1 =>
      if depth + 1 > 1 then some { s with readerDepth := Function.update s.readerDepth t depth }
      else
        let (wakers, raw) := s.raw.releaseRead
        some ({ s with raw, readerDepth := Function.update s.readerDepth t 0 }.wakeAll wakers)
    | _, _ => none
  | .exitWriter t =>
    match s.pc t with
    | .idle =>
      if s.writerTask = some t then
        let (wakers, raw) := s.raw.releaseWrite
        some ({ s with raw, writerTask := none }.wakeAll wakers)
      else none
    | _ => none
  | .cancel t => some (s.cancel t)
  | .wake i =>
    match s.scheduled[i]? with
    | some f => some ({ s with scheduled := s.scheduled.eraseIdx i }.setResult f)
    | none => none

end Sys

/-- The runs of tasks over a fresh lock. -/
def tasks [DecidableEq Task] (home : Task → Loop) : System (Sys Loop Task) (Action Task) where
  init s := s = Sys.new
  step := Sys.step home

end Multiloop.RWLock
