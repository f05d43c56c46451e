import Multiloop.Sync.Condition
import Multiloop.Sync.Frames

/-!
# `AsyncRWMutex` without the extension module

`reader()` and `writer()` of `rwlock.py` over a `Lock` and two conditions of
this lock, and the runs of any number of tasks over one: they enter and leave,
wait, are notified and cancelled in any order, and loops are closed. The lock is
that of `Sync.Lock`. What a task does with the lock comes in several steps: it
looks whether it has to wait, registers its waiter or takes its permit, counts
itself out of the writers that wait, and releases the lock.

A wait on the event of a waiter raises at any time, and returns if a `notify`
has popped the waiter.
-/

namespace Multiloop.RWLock.Fallback

open Sync
open Sync.Condition (Branch)

variable {Loop Task : Type}

/-- The two ways to enter the lock. -/
inductive Kind
  | reader
  | writer
deriving DecidableEq

/-- Where a task is in `reader` or `writer`. -/
inductive Pc
  /-- Outside, or in the body of what it has entered. -/
  | outside
  /-- About to acquire the lock, or waiting for it. -/
  | entering (k : Kind)
  /-- Before the checks under the lock. -/
  | arrived (k : Kind)
  /-- At the condition of the loop. -/
  | testing (k : Kind)
  /-- `wait`: registered, about to release the lock. -/
  | releasing (k : Kind)
  /-- `wait`: suspended on the event. -/
  | suspended (k : Kind)
  /-- `wait`: the wait on the event raised, about to discard the waiter. -/
  | raised (k : Kind)
  /-- `except`: the waiter was popped, about to forward the notification. -/
  | forwarding (k : Kind)
  /-- `_reacquire_lock`, with its flag. -/
  | reacquiring (k : Kind) (branch : Branch) (cancelled : Bool)
  /-- `else`: `_reacquire_lock` raised, about to forward the notification. -/
  | passingOn (k : Kind)
  /-- Behind the loop. -/
  | granting (k : Kind)
  /-- `writer`: at the `finally` around the loop. -/
  | settling
  /-- About to release the lock. -/
  | unlocking
  /-- Behind the body, about to acquire the lock, or waiting for it. -/
  | exiting (k : Kind)
  | departing (k : Kind)
deriving DecidableEq

/-- The task holds the lock. -/
def Pc.locked : Pc → Bool
  | .arrived _ | .testing _ | .releasing _ | .passingOn _ | .granting _ | .settling | .unlocking | .departing _ => true
  | _ => false

/-- The task is about to acquire the lock, or waits for it. -/
def Pc.acquires : Pc → Bool
  | .entering _ | .reacquiring _ _ _ | .exiting _ => true
  | _ => false

/-- Where an exception of `wait` leads. -/
def Pc.afterRaise : Kind → Pc
  | .reader => .unlocking
  | .writer => .settling

/-- Where the task goes on with the lock. -/
def Pc.acquired : Pc → Pc
  | .entering k => .arrived k
  | .reacquiring k .handler _ => .afterRaise k
  | .reacquiring k .notified true => .passingOn k
  | .reacquiring k .notified false => .testing k
  | .exiting k => .departing k
  | p => p

/-- Where the task goes on if `acquire` raises: the two loops try again. -/
def Pc.interrupted : Pc → Pc
  | .entering _ => .outside
  | .reacquiring k branch _ => .reacquiring k branch true
  | p => p

/-- Where the task goes on without the lock. -/
def Pc.released : Pc → Pc
  | .releasing k => .suspended k
  | _ => .outside

/-- What the lock guards. -/
structure Mutex (Task : Type) where
  readers : Nat
  writer : Bool
  pendingWriters : Nat
  /-- `_reader_depth`, `0` for a task that is not in it. -/
  readerDepth : Task → Nat
  writerTask : Option Task
  /-- The waiters of `_read_ok` and of `_write_ok`, in the order of registration. -/
  waiters : Kind → List Task
  /-- A `notify` has popped the task's last waiter, and sets its event if the loop
  is open. -/
  popped : Task → Bool

/-- What a task does that is no call of the lock. -/
inductive Move
  /-- It calls `reader` or `writer`. -/
  | start (k : Kind)
  /-- The next lines with the lock. -/
  | body
  /-- The wait on the event returns. -/
  | resume
  /-- It raises. -/
  | interrupt
  | discard
  | forward
  /-- The task leaves the body of `reader` or `writer`. -/
  | leave (k : Kind)

namespace Mutex

/-- `AsyncRWMutex.__init__`. -/
def new : Mutex Task where
  readers := 0
  writer := false
  pendingWriters := 0
  readerDepth _ := 0
  writerTask := none
  waiters _ := []
  popped _ := false

variable [DecidableEq Task] (m : Mutex Task)

/-- `RuntimeError`: the nesting is not allowed. -/
def refuses (t : Task) : Kind → Bool
  | .reader => m.writerTask = some t
  | .writer => 0 < m.readerDepth t ∨ m.writerTask = some t

/-- The condition of the loop. -/
def blocks : Kind → Bool
  | .reader => m.writer || decide (0 < m.pendingWriters)
  | .writer => m.writer || decide (0 < m.readers)

/-- The task is in the body of `reader` or `writer`. -/
def holds (t : Task) : Kind → Bool
  | .reader => 0 < m.readerDepth t
  | .writer => m.writerTask = some t

/-- The first lines of `wait`. -/
def register (t : Task) (k : Kind) : Mutex Task :=
  { m with
    waiters := Function.update m.waiters k (m.waiters k ++ [t])
    popped := Function.update m.popped t false }

/-- `_pop_waiters`. -/
def pop (k : Kind) (n : Nat) : Mutex Task :=
  { m with
    waiters := Function.update m.waiters k ((m.waiters k).drop n)
    popped := fun t => m.popped t || decide (t ∈ (m.waiters k).take n) }

/-- `Condition.notify_all` of the readers or the writers: the waiters counted are those popped. -/
def notifyAll (k : Kind) : Mutex Task := m.pop k (m.waiters k).length

/-- `_forward_notify`: waiters on closed loops are popped, and one on an open loop. -/
def forwardNotify (isOpen : Task → Bool) (k : Kind) : Mutex Task :=
  m.pop k (((m.waiters k).takeWhile fun t => !isOpen t).length + 1)

/-- `_discard_waiter`. -/
def discardWaiter (t : Task) (k : Kind) : Mutex Task :=
  { m with waiters := Function.update m.waiters k ((m.waiters k).filter (· ≠ t)) }

/-- The permit is taken. -/
def grant (t : Task) : Kind → Mutex Task
  | .reader => { m with
      readers := if m.readerDepth t = 0 then m.readers + 1 else m.readers
      readerDepth := Function.update m.readerDepth t (m.readerDepth t + 1) }
  | .writer => { m with writer := true, writerTask := some t }

/-- The `finally` around the loop of `writer`. -/
def settle : Mutex Task :=
  let m := { m with pendingWriters := m.pendingWriters - 1 }
  if m.pendingWriters = 0 ∧ m.writer = false then m.notifyAll .reader else m

/-- The permit is given back. -/
def depart (t : Task) : Kind → Mutex Task
  | .reader =>
    if m.readerDepth t = 1 then
      let m := { m with readerDepth := Function.update m.readerDepth t 0, readers := m.readers - 1 }
      if m.readers = 0 then m.notifyAll .writer else m
    else { m with readerDepth := Function.update m.readerDepth t (m.readerDepth t - 1) }
  | .writer =>
    let m := { m with writer := false, writerTask := none }
    if 0 < m.pendingWriters then m.notifyAll .writer else m.notifyAll .reader

/-- The next lines of a task that holds the lock, up to the release of it. -/
def body (isOpen : Task → Bool) (t : Task) : Pc → Option (Mutex Task × Pc)
  | .arrived k =>
    if m.refuses t k then some (m, .unlocking)
    else
      match k with
      | .reader => some (m, if m.readerDepth t = 0 then .testing .reader else .granting .reader)
      | .writer => some ({ m with pendingWriters := m.pendingWriters + 1 }, .testing .writer)
  | .testing k => some (if m.blocks k then (m.register t k, .releasing k) else (m, .granting k))
  | .granting k => some (m.grant t k, if k = .writer then .settling else .unlocking)
  | .settling => some (m.settle, .unlocking)
  | .passingOn k => some (m.forwardNotify isOpen k, .afterRaise k)
  | .departing k => some (m.depart t k, .unlocking)
  | _ => none

/-- The next lines of a task in `reader` or `writer`, and where it is afterwards. -/
def move (isOpen : Task → Bool) (t : Task) : Move → Pc → Option (Mutex Task × Pc)
  | .start k, .outside => some (m, if m.refuses t k then .outside else .entering k)
  | .body, p => m.body isOpen t p
  | .resume, .suspended k => if m.popped t then some (m, .reacquiring k .notified false) else none
  | .interrupt, .suspended k => some (m, .raised k)
  | .discard, .raised k =>
    some (if t ∈ m.waiters k then (m.discardWaiter t k, .reacquiring k .handler false) else (m, .forwarding k))
  | .forward, .forwarding k => some (m.forwardNotify isOpen k, .reacquiring k .handler false)
  | .leave k, .outside => if m.holds t k then some (m, .exiting k) else none
  | _, _ => none

end Mutex

/-- The steps of a run. -/
inductive Action (Loop Task : Type)
  /-- A step of a loop, or of a task that does not call the lock. -/
  | lock (a : Lock.Action Loop Task)
  | move (t : Task) (a : Move)
  /-- The task calls `acquire`. -/
  | acquire (t : Task)
  /-- The event loop resumes the task in `acquire`. -/
  | resumeAcquire (t : Task)
  /-- `acquire` discards its waiter and raises. -/
  | discardAcquire (t : Task)
  | release (t : Task)

/-- The mutex, the `Lock` that both conditions share, and where each task is. -/
structure Sys (Loop Task : Type) where
  lock : Lock.Sys Loop Task
  mutex : Mutex Task
  pc : Task → Pc

namespace Sys

/-- Nobody has entered yet. -/
def new : Sys Loop Task where
  lock := .new
  mutex := .new
  pc _ := .outside

variable [DecidableEq Task] (home : Task → Loop) (s : Sys Loop Task)

/-- A task goes on. -/
def goto (t : Task) (p : Pc) : Sys Loop Task := { s with pc := Function.update s.pc t p }

/-- A task that holds the lock goes on. -/
def proceed (t : Task) : Sys Loop Task := if s.lock.holding t then s.goto t (s.pc t).acquired else s

/-- The steps of the lock that are no call of it. -/
def allows : Lock.Action Loop Task → Bool
  | .acquire _ | .resume _ | .discard _ | .release _ => false
  | .finish t => decide (s.pc t = .outside)
  | _ => true

variable [DecidableEq Loop]

/-- A step of the lock. -/
def onLock (a : Lock.Action Loop Task) (f : Sys Loop Task → Sys Loop Task) : Option (Sys Loop Task) :=
  (s.lock.step home a).map fun lock => f { s with lock }

/-- The steps of the tasks over their loops; `none` for one that cannot be taken. -/
def step : Action Loop Task → Option (Sys Loop Task)
  | .lock a => if s.allows a then s.onLock home a id else none
  | .move t a =>
    if s.lock.live home t ∧ s.lock.pc t = .outside then
      (s.mutex.move (s.lock.isOpen home) t a (s.pc t)).map fun r => { s with mutex := r.1 }.goto t r.2
    else none
  | .acquire t => if (s.pc t).acquires then s.onLock home (.acquire t) fun s => s.proceed t else none
  | .resumeAcquire t => if (s.pc t).acquires then s.onLock home (.resume t) fun s => s.proceed t else none
  | .discardAcquire t =>
    if (s.pc t).acquires then s.onLock home (.discard t) fun s => s.goto t (s.pc t).interrupted else none
  | .release t =>
    match s.pc t with
    | .releasing _ | .unlocking => s.onLock home (.release t) fun s => s.goto t (s.pc t).released
    | _ => none

end Sys

/-- The runs of tasks over a fresh mutex. -/
def tasks [DecidableEq Task] [DecidableEq Loop] (home : Task → Loop) : System (Sys Loop Task) (Action Loop Task) where
  init s := s = Sys.new
  step s := s.step home

end Multiloop.RWLock.Fallback
