import Mathlib.Data.List.Basic

/-!
# `RawAsyncRWMutex`

The state machine of `rwlock.rs`: the readers and the writer that hold the
lock, and the queues of registered waiters. A method is a function to what it
returns and the state it leaves; the waiters a release returns hold the lock
already (they are counted as readers, or the writer flag is set for them), and
the caller wakes them.
-/

namespace Multiloop.RWLock

/-- A registered waiter: (event loop, future). -/
abbrev Waiter (Loop Fut : Type) := Loop × Fut

/-- `RWMutexInner` of `rwlock.rs`: the counters, and the two queues. -/
structure RWMutexInner (Loop Fut : Type) where
  readers : Nat
  writer : Bool
  pendingWriters : Nat
  readWaiters : List (Waiter Loop Fut)
  writeWaiters : List (Waiter Loop Fut)

variable {Loop Fut : Type}

/-- `RawAsyncRWMutex::new`. -/
def new : RWMutexInner Loop Fut :=
  { readers := 0, writer := false, pendingWriters := 0, readWaiters := [], writeWaiters := [] }

namespace RWMutexInner

variable (s : RWMutexInner Loop Fut)

/-- `try_acquire_read`: refused while a writer has the lock or is queued. -/
def tryAcquireRead : Bool × RWMutexInner Loop Fut :=
  if ¬ s.writer ∧ s.pendingWriters = 0 then (true, { s with readers := s.readers + 1 }) else (false, s)

/-- `acquire_read_or_register`, under one lock. -/
def acquireReadOrRegister (loopObj : Loop) (futObj : Fut) : Bool × RWMutexInner Loop Fut :=
  if ¬ s.writer ∧ s.pendingWriters = 0 then (true, { s with readers := s.readers + 1 })
  else (false, { s with readWaiters := s.readWaiters ++ [(loopObj, futObj)] })

/-- `release_read`: the last reader hands the lock to the next writer. -/
def releaseRead : Option (List (Waiter Loop Fut)) × RWMutexInner Loop Fut :=
  let readers := if s.readers > 0 then s.readers - 1 else s.readers
  match readers, s.writeWaiters with
  | 0, nextWriter :: writeWaiters =>
    let pendingWriters := if s.pendingWriters > 0 then s.pendingWriters - 1 else s.pendingWriters
    (some [nextWriter], { s with readers, writer := true, pendingWriters, writeWaiters })
  | _, _ => (none, { s with readers })

/-- `try_acquire_write`: refused unless the lock is free and nobody is queued for it. -/
def tryAcquireWrite : Bool × RWMutexInner Loop Fut :=
  if ¬ s.writer ∧ s.readers = 0 ∧ s.pendingWriters = 0 then (true, { s with writer := true })
  else (false, s)

/-- `acquire_write_or_register`, under one lock. -/
def acquireWriteOrRegister (loopObj : Loop) (futObj : Fut) : Bool × RWMutexInner Loop Fut :=
  if ¬ s.writer ∧ s.readers = 0 ∧ s.pendingWriters = 0 then (true, { s with writer := true })
  else
    (false, { s with
      pendingWriters := s.pendingWriters + 1
      writeWaiters := s.writeWaiters ++ [(loopObj, futObj)] })

/-- `release_write`: to the next writer, else to all queued readers. -/
def releaseWrite : Option (List (Waiter Loop Fut)) × RWMutexInner Loop Fut :=
  match s.writeWaiters, s.readWaiters with
  | nextWriter :: writeWaiters, _ =>
    let pendingWriters := if s.pendingWriters > 0 then s.pendingWriters - 1 else s.pendingWriters
    (some [nextWriter], { s with writer := true, pendingWriters, writeWaiters })
  | [], reader :: readers =>
    (some (reader :: readers),
      { s with writer := false, readWaiters := [], readers := s.readers + (reader :: readers).length })
  | [], [] => (none, { s with writer := false })

variable [DecidableEq Fut]

/-- `retain(|(_, f)| !f.is(fut_obj))`. -/
def retain (futObj : Fut) (ws : List (Waiter Loop Fut)) : List (Waiter Loop Fut) :=
  ws.filter fun w => w.2 ≠ futObj

/-- `remove_waiter`: when the last queued writer leaves, the queued readers get the lock. -/
def removeWaiter (futObj : Fut) (isWriter : Bool) :
    Option (List (Waiter Loop Fut)) × RWMutexInner Loop Fut :=
  if isWriter then
    let writeWaiters := retain futObj s.writeWaiters
    let removed := s.writeWaiters.length - writeWaiters.length
    let pendingWriters :=
      if removed > 0 ∧ s.pendingWriters ≥ removed then s.pendingWriters - removed else s.pendingWriters
    match s.readWaiters with
    | reader :: readers =>
      if pendingWriters = 0 ∧ ¬ s.writer then
        (some (reader :: readers),
          { s with
            pendingWriters, writeWaiters
            readWaiters := []
            readers := s.readers + (reader :: readers).length })
      else (none, { s with pendingWriters, writeWaiters })
    | [] => (none, { s with pendingWriters, writeWaiters })
  else (none, { s with readWaiters := retain futObj s.readWaiters })

end RWMutexInner

end Multiloop.RWLock
