import Multiloop.Framework.Ledger
import Multiloop.Framework.Transition
import Multiloop.Sync.Event

/-!
# `Lock`

The mutex of `_sync.py`, and the runs of any number of tasks over one lock:
they acquire and release, are woken, resumed, cancelled and finish (holding the
lock or not) in any order, and loops are closed. Between two calls a task runs
code of its own: it waits on events of other kinds and is woken from them, and
is cancelled there.
-/

namespace Multiloop.Sync

variable {Loop Task : Type}

/-- `Lock`. -/
structure Lock (Task : Type) where
  owner : Option Task
  /-- event → task, in the order of registration. -/
  waiters : List (Fut Task × Task)

namespace Lock

/-- `Lock.__init__`. -/
def new : Lock Task := { owner := none, waiters := [] }

/-- The loop of `_release_locked` over the waiters: the events it sets, and the
lock it leaves. -/
def releaseLocked (done isOpen : Task → Bool) : List (Fut Task × Task) → List (Fut Task) × Lock Task
  | [] => ([], { owner := none, waiters := [] })
  | (event, waiterTask) :: waiters =>
    if done waiterTask then releaseLocked done isOpen waiters
    else if isOpen waiterTask then ([event], { owner := some waiterTask, waiters })
    -- The owner that a waiter on a closed loop becomes is replaced in a later round.
    else releaseLocked done isOpen waiters

/-- Where a task is in `acquire`. -/
inductive Pc (Task : Type)
  /-- Outside of `acquire`. -/
  | outside
  /-- `acquire`: suspended on the event. -/
  | acquiring (event : Fut Task)
  /-- `acquire`: the wait raised, about to discard the waiter. -/
  | discarding (event : Fut Task)
deriving DecidableEq

/-- The event of a task's call. -/
def Pc.event? : Pc Task → Option (Fut Task)
  | .acquiring e | .discarding e => some e
  | .outside => none

/-- The steps of a run. -/
inductive Action (Loop Task : Type)
  | acquire (t : Task)
  /-- The event loop resumes the task in `acquire`. -/
  | resume (t : Task)
  | discard (t : Task)
  | release (t : Task)
  /-- The task is done. -/
  | finish (t : Task)
  /-- `other` is the event of another kind that the task waits on, if any. -/
  | cancel (t : Task) (other : Option (Fut Task))
  /-- An event loop runs the `i`-th scheduled `event.set`. -/
  | runCallback (i : Nat)
  | closeLoop (l : Loop)
  /-- The task starts to wait on an event of another kind. -/
  | waitElsewhere (t : Task)
  /-- An event of another kind is handed to its loop. -/
  | wakeElsewhere (e : Fut Task)
  /-- The task runs code of its own, which leaves its cancellation flag `b`. -/
  | elsewhere (t : Task) (b : Bool)

/-- The lock, its tasks and their loops. -/
structure Sys (Loop Task : Type) where
  lock : Lock Task
  host : Host Loop Task
  pc : Task → Pc Task
  done : Task → Bool
  /-- The task's `acquire` has returned, and it has not released since. -/
  holding : Task → Bool
  ledger : Ledger (Fut Task × Task)

namespace Sys

/-- A fresh lock. -/
def new : Sys Loop Task where
  lock := .new
  host := .new
  pc _ := .outside
  done _ := false
  holding _ := false
  ledger := {}

variable [DecidableEq Task] (home : Task → Loop) (s : Sys Loop Task)

/-- The event each task waits on in `acquire`. -/
def waits (t : Task) : Option (Fut Task) := (s.pc t).event?

/-- The loop of task `t` is open. -/
def isOpen (t : Task) : Bool := ! s.host.closed (home t)

/-- Task `t` can run. -/
def live (t : Task) : Bool := ! s.done t && s.isOpen home t

/-- A task goes on. -/
def goto (t : Task) (p : Pc Task) : Sys Loop Task := { s with pc := Function.update s.pc t p }

/-- Whether the task holds the lock from now on. -/
def hold (t : Task) (b : Bool) : Sys Loop Task := { s with holding := Function.update s.holding t b }

/-- `_release_locked`, and the events that it sets. -/
def releaseLocked : Sys Loop Task :=
  let (woken, lock) := Lock.releaseLocked s.done (s.isOpen home) s.lock.waiters
  { s with
    lock
    host := s.host.callSoon woken
    ledger := s.ledger.handOff (fun w => s.live home w.2)
      (s.lock.waiters.take (s.lock.waiters.length - lock.waiters.length)) }

/-- Task `t` takes the lock, or is registered behind its owner. -/
def enter (t : Task) : Sys Loop Task :=
  match s.lock.owner with
  | none => { s with lock := { s.lock with owner := some t } }.hold t true
  | some _ =>
    let (e, host) := s.host.wait t
    { s with
      lock := { s.lock with waiters := s.lock.waiters ++ [(e, t)] }
      host
      ledger := s.ledger.register (e, t) }.goto t (.acquiring e)

/-- The owner is done: it did not release the lock. -/
def ownerDied : Bool := s.lock.owner.any s.done

/-- `acquire`, up to the wait. -/
def acquire (t : Task) : Sys Loop Task :=
  -- `RuntimeError`: the lock is not reentrant.
  if s.lock.owner = some t then s
  else if s.ownerDied then (s.releaseLocked home).enter t
  else s.enter t

/-- The event loop resumes the task, whose wait returns or raises. -/
def resume (t : Task) (e : Fut Task) : Option (Sys Loop Task) :=
  match s.host.resumption t e with
  | some .returns => some ((s.hold t true).goto t .outside)
  | some .raises => some ({ s with host := s.host.setMustCancel t false }.goto t (.discarding e))
  | none => none

/-- `_discard_waiter`. -/
def discardWaiter (e : Fut Task) : Sys Loop Task :=
  { s with
    lock := { s.lock with waiters := s.lock.waiters.filter fun w => w.1 ≠ e }
    ledger := s.ledger.leave (s.lock.waiters.filter fun w => w.1 = e) }

/-- The `except` block of `acquire`. -/
def discard (t : Task) (e : Fut Task) : Sys Loop Task :=
  let wasWaiter := decide (e ∈ s.lock.waiters.map Prod.fst)
  let s := s.discardWaiter e
  if s.lock.owner = some t ∧ ¬ wasWaiter then (s.releaseLocked home).goto t .outside else s.goto t .outside

/-- `release`. -/
def release (t : Task) : Sys Loop Task :=
  -- Otherwise a `RuntimeError`: the task does not own the lock.
  if s.lock.owner = some t then (s.releaseLocked home).hold t false else s

variable [DecidableEq Loop]

/-- The steps of the tasks; `none` for one that cannot be taken. -/
def step : Action Loop Task → Option (Sys Loop Task)
  | .acquire t => if s.live home t ∧ s.pc t = .outside then some (s.acquire home t) else none
  | .resume t =>
    match s.pc t with
    | .acquiring e => if s.live home t then s.resume t e else none
    | _ => none
  | .discard t =>
    match s.pc t with
    | .discarding e => if s.live home t then some (s.discard home t e) else none
    | _ => none
  | .release t => if s.live home t ∧ s.pc t = .outside then some (s.release home t) else none
  | .finish t =>
    if s.live home t ∧ s.pc t = .outside then some { s with done := Function.update s.done t true } else none
  | .cancel t other =>
    match s.pc t with
    | .acquiring e => some { s with host := s.host.cancel t (some e) }
    | .discarding _ => some { s with host := s.host.cancel t none }
    | .outside => if other.all (·.owner = t) then some { s with host := s.host.cancel t other } else none
  | .runCallback i => (s.host.runCallback home i).map fun host => { s with host }
  | .closeLoop l => some { s with host := s.host.closeLoop l }
  | .waitElsewhere t =>
    if s.live home t ∧ s.pc t = .outside then some { s with host := (s.host.wait t).2 } else none
  | .wakeElsewhere e =>
    if s.waits e.owner ≠ some e ∧ e.serial < s.host.created e.owner then
      some { s with host := s.host.callSoon [e] }
    else none
  | .elsewhere t b => if s.pc t = .outside then some { s with host := s.host.setMustCancel t b } else none

end Sys

/-- The runs of tasks over a fresh lock. -/
def tasks [DecidableEq Task] [DecidableEq Loop] (home : Task → Loop) : System (Sys Loop Task) (Action Loop Task) where
  init s := s = Sys.new
  step s := s.step home

end Lock

end Multiloop.Sync
