import Multiloop.Sync.Lock
import Multiloop.Sync.Pool

/-!
# `Condition`

The condition variable of `_sync.py` over its `Lock`, and the runs of any
number of tasks over one: they wait (also through `wait_for`), notify, use the
lock, and are woken, resumed and cancelled in any order, and loops are closed.
`notify` pops waiters under `_waiters_lock` and then hands their events to
their loops one by one, so that two steps of one call have any steps of other
tasks between them.
-/

namespace Multiloop.Sync.Condition

variable {Loop Task : Type}

/-- How `wait` or `wait_for` ends. -/
inductive Outcome
  | returned
  /-- `CancelledError`. -/
  | cancelled
  /-- `RuntimeError`. -/
  | error
deriving DecidableEq

/-- The two branches of `wait` that acquire the lock again. -/
inductive Branch
  /-- `except`: the wait on the event raised. -/
  | handler
  /-- `else`: the event was set. -/
  | notified
deriving DecidableEq

/-- Where a task is in `wait` or `wait_for`. -/
inductive Pc (Task : Type)
  | outside
  /-- `wait_for`: the predicate runs. It may suspend, and leaves the lock alone. -/
  | evaluating
  /-- `wait`: registered, about to release the lock. -/
  | releasing (event : Fut Task)
  /-- `wait`: suspended on the event. -/
  | waiting (event : Fut Task)
  /-- `wait`: the wait on the event raised, about to discard the waiter. -/
  | discarding (event : Fut Task)
  /-- `except`: the waiter was popped, about to forward the notification. -/
  | forwarding
  /-- `_reacquire_lock`, with its flag. -/
  | reacquiring (branch : Branch) (cancelled : Bool)
  /-- `else`: `_reacquire_lock` raised, about to forward the notification. -/
  | passingOn (o : Outcome)
deriving DecidableEq

/-- The event of a task's call. -/
def Pc.event? : Pc Task → Option (Fut Task)
  | .releasing e | .waiting e | .discarding e => some e
  | _ => none

/-- A call of `notify`: the waiters it has popped and not yet woken. -/
structure Call (Loop Task : Type) where
  n : Nat
  /-- The registered waiters on open loops when the call popped its waiters. -/
  registered : Nat
  popped : List (Waiter Loop Task)
  delivered : Nat

/-- The steps of a run. -/
inductive Action (Loop Task : Type)
  /-- A step of the lock's users, of a loop, or of a predicate. -/
  | lock (a : Lock.Action Loop Task)
  | wait (t : Task)
  | waitFor (t : Task)
  /-- The predicate of `wait_for` returns, with this truth value. -/
  | predicate (t : Task) (b : Bool)
  /-- The predicate of `wait_for` raises. -/
  | predicateRaises (t : Task)
  | release (t : Task)
  /-- The event loop resumes the task in `wait`. -/
  | resume (t : Task)
  | discard (t : Task)
  | forward (t : Task)
  /-- `_reacquire_lock` calls `acquire`. -/
  | acquire (t : Task)
  /-- The event loop resumes the task in that `acquire`. -/
  | resumeAcquire (t : Task)
  /-- That `acquire` discards its waiter and raises. -/
  | discardAcquire (t : Task)
  /-- `other` is the event of another kind that the task waits on, if any. -/
  | cancel (t : Task) (other : Option (Fut Task))
  /-- `notify`; `notify_all` passes the number of waiters it has read. -/
  | notify (n : Int)
  /-- The `i`-th call of `notify` hands the next popped event to its loop. -/
  | deliver (i : Nat)

/-- The condition and its lock, and where each task is. -/
structure Sys (Loop Task : Type) where
  lock : Lock.Sys Loop Task
  /-- event → loop, in the order of registration. -/
  waiters : List (Waiter Loop Task)
  pc : Task → Pc Task
  /-- The task is in `wait_for`. -/
  looping : Task → Bool
  /-- The calls of `notify` made so far. -/
  calls : List (Call Loop Task)
  /-- The task was cancelled while suspended in its last `wait`. -/
  asked : Task → Bool
  /-- How the task's last `wait` ended. -/
  outcome : Task → Option Outcome
  /-- The task has a notification that it has not used or forwarded yet. -/
  notified : Task → Bool
  /-- The notifications used by a `wait` that returned. -/
  used : Nat
  /-- The notifications that `_forward_notify` found no waiter for. -/
  dropped : Nat

namespace Sys

/-- `Condition.__init__`, for no task yet. -/
def new : Sys Loop Task where
  lock := .new
  waiters := []
  pc _ := .outside
  looping _ := false
  calls := []
  asked _ := false
  outcome _ := none
  notified _ := false
  used := 0
  dropped := 0

variable [DecidableEq Task] (home : Task → Loop) (s : Sys Loop Task)

/-- The event each task waits on in `wait`. -/
def waits (t : Task) : Option (Fut Task) := (s.pc t).event?

/-- The loop is not closed. -/
def isOpen (l : Loop) : Bool := ! s.lock.host.closed l

/-- A task goes on. -/
def goto (t : Task) (p : Pc Task) : Sys Loop Task := { s with pc := Function.update s.pc t p }

/-- A change to the loops and their events only. -/
def onHost (f : Host Loop Task → Host Loop Task) : Sys Loop Task :=
  { s with lock := { s.lock with host := f s.lock.host } }

/-- `wait` ends; `wait_for` goes on with the predicate if it returned. -/
def leave (t : Task) (o : Outcome) : Sys Loop Task :=
  let s := { s with outcome := Function.update s.outcome t (some o) }
  if s.looping t ∧ o = .returned then s.goto t .evaluating
  else { s with looping := Function.update s.looping t false }.goto t .outside

/-- `wait`, up to the release of the lock. -/
def wait (t : Task) : Sys Loop Task :=
  if s.lock.lock.owner = some t then
    { s with
      waiters := s.waiters ++ [((s.lock.host.wait t).1, home t)]
      asked := Function.update s.asked t false
      outcome := Function.update s.outcome t none }.onHost (fun h => (h.wait t).2)
      |>.goto t (.releasing (s.lock.host.wait t).1)
  -- `RuntimeError`: the task does not own the lock.
  else s.leave t .error

/-- `_discard_waiter`. -/
def discardWaiter (e : Fut Task) : Sys Loop Task :=
  { s with waiters := s.waiters.filter fun w => w.1 ≠ e }

/-- `_forward_notify`, by task `t`. -/
def forwardNotify (t : Task) : Sys Loop Task :=
  let s := { s with notified := Function.update s.notified t false }
  match wakeNext s.isOpen s.waiters with
  | (some event, waiters) =>
    { s with waiters, notified := Function.update s.notified event.owner true }.onHost fun h => h.callSoon [event]
  | (none, waiters) => { s with waiters, dropped := s.dropped + 1 }

/-- `acquire` has returned in `_reacquire_lock`. -/
def reacquired (t : Task) : Branch → Bool → Sys Loop Task
  -- Either `_reacquire_lock` raises, or the `except` block.
  | .handler, _ => s.leave t .cancelled
  | .notified, true => s.goto t (.passingOn .cancelled)
  | .notified, false =>
    { s with notified := Function.update s.notified t false, used := s.used + 1 }.leave t .returned

/-- `_reacquire_lock` goes on if the task has acquired the lock. -/
def settle (t : Task) (branch : Branch) (cancelled : Bool) : Sys Loop Task :=
  if s.lock.holding t then s.reacquired t branch cancelled else s

/-- `RuntimeError` in `_reacquire_lock`: the task owns the lock. -/
def reentrant (t : Task) : Branch → Sys Loop Task
  | .handler => s.leave t .error
  | .notified => s.goto t (.passingOn .error)

/-- `_pop_waiters`, at the start of `notify`. -/
def notify (n : Int) : Sys Loop Task :=
  if n ≤ 0 then s
  else
    let count := min n.toNat s.waiters.length
    let popped := s.waiters.take count
    { s with
      waiters := s.waiters.drop count
      notified := fun t => s.notified t || popped.any fun w => s.isOpen w.2 && decide (w.1.owner = t)
      calls := s.calls ++
        [{ n := n.toNat, registered := s.waiters.countP fun w => s.isOpen w.2, popped, delivered := 0 }] }

/-- The `i`-th call of `notify` goes on with waiter `w`; the `RuntimeError` of
a closed loop is passed over. -/
def deliver (i : Nat) (c : Call Loop Task) (w : Waiter Loop Task) (popped : List (Waiter Loop Task)) : Sys Loop Task :=
  if s.isOpen w.2 then
    { s with calls := s.calls.set i { c with popped, delivered := c.delivered + 1 } }.onHost fun h => h.callSoon [w.1]
  else { s with calls := s.calls.set i { c with popped } }

/-- The steps of the lock that are not part of a `wait`. -/
def allows : Lock.Action Loop Task → Bool
  | .acquire t | .resume t | .discard t | .release t | .finish t => decide (s.pc t = .outside)
  | .waitElsewhere t | .elsewhere t _ => decide (s.pc t = .outside) || decide (s.pc t = .evaluating)
  | .wakeElsewhere e => decide (s.waits e.owner ≠ some e)
  | .cancel _ _ => false
  | .runCallback _ | .closeLoop _ => true

/-- The task is suspended in `wait`. -/
def suspended (t : Task) : Bool :=
  match s.pc t with
  | .waiting _ => true
  | .reacquiring _ _ =>
    match s.lock.pc t with
    | .acquiring _ => true
    | _ => false
  | _ => false

variable [DecidableEq Loop]

/-- A step of the lock. -/
def onLock (a : Lock.Action Loop Task) (f : Sys Loop Task → Sys Loop Task) : Option (Sys Loop Task) :=
  (s.lock.step home a).map fun lock => f { s with lock }

/-- The steps of the tasks; `none` for one that cannot be taken. -/
def step : Action Loop Task → Option (Sys Loop Task)
  | .lock a => if s.allows a then s.onLock home a id else none
  | .wait t =>
    if s.lock.live home t ∧ s.lock.pc t = .outside ∧ s.pc t = .outside then some (s.wait home t) else none
  | .waitFor t =>
    -- The caller owns the lock.
    if s.lock.live home t ∧ s.lock.pc t = .outside ∧ s.pc t = .outside ∧ s.lock.lock.owner = some t then
      some ({ s with looping := Function.update s.looping t true }.goto t .evaluating)
    else none
  | .predicate t b =>
    if s.lock.live home t ∧ s.lock.pc t = .outside ∧ s.pc t = .evaluating then
      if b then some ({ s with looping := Function.update s.looping t false }.goto t .outside)
      else some (s.wait home t)
    else none
  | .predicateRaises t =>
    if s.lock.live home t ∧ s.lock.pc t = .outside ∧ s.pc t = .evaluating then
      some ({ s with looping := Function.update s.looping t false }.goto t .outside)
    else none
  | .release t =>
    match s.pc t with
    | .releasing e =>
      if s.lock.lock.owner = some t then s.onLock home (.release t) fun s => s.goto t (.waiting e)
      else if s.lock.live home t then some ((s.discardWaiter e).leave t .error)
      else none
    | _ => none
  | .resume t =>
    match s.pc t with
    | .waiting e =>
      if s.lock.live home t then
        match s.lock.host.resumption t e with
        | some .returns => some (s.goto t (.reacquiring .notified false))
        | some .raises => some ((s.onHost fun h => h.setMustCancel t false).goto t (.discarding e))
        | none => none
      else none
    | _ => none
  | .discard t =>
    match s.pc t with
    | .discarding e =>
      if s.lock.live home t then
        if e ∈ s.waiters.map Prod.fst then some ((s.discardWaiter e).goto t (.reacquiring .handler false))
        else some (s.goto t .forwarding)
      else none
    | _ => none
  | .forward t =>
    match s.pc t with
    | .forwarding =>
      if s.lock.live home t then some ((s.forwardNotify t).goto t (.reacquiring .handler false)) else none
    | .passingOn o => if s.lock.live home t then some ((s.forwardNotify t).leave t o) else none
    | _ => none
  | .acquire t =>
    match s.pc t with
    | .reacquiring branch cancelled =>
      if s.lock.lock.owner = some t ∧ s.lock.live home t ∧ s.lock.pc t = .outside then some (s.reentrant t branch)
      else s.onLock home (.acquire t) fun s => s.settle t branch cancelled
    | _ => none
  | .resumeAcquire t =>
    match s.pc t with
    | .reacquiring branch cancelled => s.onLock home (.resume t) fun s => s.settle t branch cancelled
    | _ => none
  | .discardAcquire t =>
    match s.pc t with
    | .reacquiring branch _ => s.onLock home (.discard t) fun s => s.goto t (.reacquiring branch true)
    | _ => none
  | .cancel t other =>
    match s.pc t with
    | .outside | .evaluating => s.onLock home (.cancel t other) id
    | p =>
      s.onLock home (.cancel t p.event?) fun s => { s with asked := Function.update s.asked t (s.asked t || s.suspended t) }
  | .notify n => some (s.notify n)
  | .deliver i =>
    match s.calls[i]? with
    | some c =>
      match c.popped with
      | w :: popped => some (s.deliver i c w popped)
      | [] => none
    | none => none

end Sys

/-- The runs of tasks over a fresh condition. -/
def tasks [DecidableEq Task] [DecidableEq Loop] (home : Task → Loop) : System (Sys Loop Task) (Action Loop Task) where
  init s := s = Sys.new
  step s := s.step home

end Multiloop.Sync.Condition
