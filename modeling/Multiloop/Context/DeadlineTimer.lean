import Mathlib.Logic.Function.Basic
import Mathlib.Order.Lattice
import Multiloop.Framework.Transition

/-!
# The timer of a deadline

One `CancelScope` with its deadline: tasks enter and leave it, any thread
assigns the deadline, and the loops run what was scheduled. A thread takes one
step at a time, from one lock or access of an attribute to the next, so that
others may come between. A task runs on its home thread, `home`, whose loop is
the one that its timers and callbacks go to. A timer fires once its time has
come, not before; all loops have one clock.

A task is not done while it is in the block. That a loop is closed, and that a
scope around this one is cancelled, is in the action.
-/

namespace Multiloop.DeadlineTimer

variable {Thread Task Time : Type}

/-- A `TimerHandle` that is neither cancelled nor run. -/
structure Timer (Thread Time : Type) where
  id : Nat
  loop : Thread
  /-- `none` is `inf`. -/
  time : Option Time
deriving DecidableEq

/-- The lines of `_rollback_aenter` and `__aexit__` about the handle. -/
inductive Stage
  /-- `if self._deadline_handle is not None`. -/
  | look
  /-- `self._deadline_handle.cancel()`. -/
  | cancel
  /-- `self._deadline_handle = None`. -/
  | clear
deriving DecidableEq

/-- What a thread is about to do. -/
inductive Doing (Task Time : Type)
  | idle
  /-- The deadline is assigned: `old_handle.cancel()`. -/
  | assigned (value : Option Time) (task : Option Task) (old : Option Nat)
  /-- To call `_schedule`, or `call_soon_threadsafe` with it. -/
  | posting (value : Time) (task : Task)
  /-- `_schedule`, its first lock. -/
  | schedule (value : Time) (task : Task)
  /-- `remaining = value - loop.time()`. -/
  | checked (value : Time) (task : Task)
  /-- Its second lock. -/
  | arming (value : Time) (task : Task)
  /-- `_deadline_callback`: `self._deadline_handle = None`. -/
  | firing (timer : Nat)
  /-- `self.cancel()`, of `_schedule` or of `_deadline_callback`. -/
  | cancelling
  /-- `__aenter__`: `if self._deadline != float("inf")`. -/
  | entering (host : Task)
  /-- `delta = self._deadline - self._loop.time()`. -/
  | reading (host : Task)
  /-- `call_later`, with the deadline that was read. -/
  | early (value : Option Time) (host : Task)
  /-- The lock that sets `_cancel_called`. -/
  | late (host : Task)
  /-- `self._effectively_cancelled()`. -/
  | checking (host : Task)
  /-- `_rollback_aenter`. -/
  | rollback (stage : Stage) (host : Task)
  /-- Its lock. -/
  | unset (host : Task)
  /-- `__aexit__`, after its lock. -/
  | leaving (stage : Stage)
deriving DecidableEq

/-- A scope, and what the threads make of it. -/
structure Sys (Thread Task Time : Type) where
  deadline : Option Time
  cancelCalled : Bool
  cancelledCaught : Bool
  convertToTimeout : Bool
  task : Option Task
  handle : Option Nat
  /-- The timers that are armed. -/
  armed : List (Timer Thread Time)
  /-- How many timers were ever armed. -/
  made : Nat
  /-- The calls of `_schedule` that were given to the loop of a task. -/
  queue : List (Time × Task)
  threads : Thread → Doing Task Time
  now : Time
  /-- The task in the block of the scope, once for each time it entered. -/
  blocks : List Task

inductive Action (Thread Task Time : Type)
  | tick (time : Time)
  /-- An explicit `cancel()`. -/
  | cancel
  /-- The lock of the setter. -/
  | assign (th : Thread) (value : Option Time)
  /-- The loop runs a callback. -/
  | run (th : Thread) (value : Time) (task : Task)
  /-- The loop runs a timer. -/
  | fire (th : Thread) (timer : Nat)
  /-- The lock of `__aenter__`. -/
  | enter (th : Thread) (host : Task)
  /-- The lock of `__aexit__`. -/
  | exit (th : Thread) (host : Task)
  /-- The thread goes on; `flag` tells whether the loop is closed, or a scope
  around this one is cancelled. -/
  | advance (th : Thread) (flag : Bool)

namespace Sys

variable [DecidableEq Thread] [DecidableEq Task] [LinearOrder Time]

variable (s : Sys Thread Task Time)

def goto (th : Thread) (d : Doing Task Time) : Sys Thread Task Time :=
  { s with threads := Function.update s.threads th d }

/-- `handle.cancel()`. -/
def cancelTimer (timer : Nat) : Sys Thread Task Time := { s with armed := s.armed.filter fun t => t.id ≠ timer }

/-- `self._deadline_handle = loop.call_later(…)`. -/
def arm (th : Thread) (time : Option Time) : Sys Thread Task Time :=
  { s with armed := s.armed ++ [⟨s.made, th, time⟩], handle := some s.made, made := s.made + 1 }

/-- What `_schedule` checks under each of its locks. -/
def Wanted (value : Time) (task : Task) : Prop :=
  s.task = some task ∧ s.deadline = some value ∧ s.cancelCalled = false

instance (value : Time) (task : Task) : Decidable (s.Wanted value task) := inferInstanceAs (Decidable (_ ∧ _ ∧ _))

/-- The lines about the handle, and the rest of a function after them. -/
def drop (th : Thread) (again : Stage → Doing Task Time) (after : Doing Task Time) : Stage → Sys Thread Task Time
  | .look => if s.handle.isSome then s.goto th (again .cancel) else s.goto th after
  | .cancel =>
    match s.handle with
    | some timer => (s.cancelTimer timer).goto th (again .clear)
    -- An `AttributeError`.
    | none => s.goto th .idle
  | .clear => { s with handle := none }.goto th after

/-- `return self` of `__aenter__`. -/
def entered (th : Thread) (host : Task) : Sys Thread Task Time := { s with blocks := host :: s.blocks }.goto th .idle

/-- `__aenter__`, once the scope is found to be cancelled. -/
def refuse (th : Thread) (host : Task) : Sys Thread Task Time :=
  if s.cancelCalled ∧ s.convertToTimeout then s.goto th (.rollback .look host)
  else if s.cancelCalled ∧ s.cancelledCaught then s.entered th host
  else s.goto th (.rollback .look host)

/-- A thread goes on. -/
def advance (home : Task → Thread) (th : Thread) (flag : Bool) : Doing Task Time → Sys Thread Task Time
  | .idle => s
  | .assigned value task old =>
    let s := match old with
      | some timer => s.cancelTimer timer
      | none => s
    match task, value with
    | some task, some value => s.goto th (.posting value task)
    | _, _ => s.goto th .idle
  | .posting value task =>
    if th = home task then s.goto th (.schedule value task)
    else if flag then s.goto th .idle
    else { s with queue := s.queue ++ [(value, task)] }.goto th .idle
  | .schedule value task => if s.Wanted value task then s.goto th (.checked value task) else s.goto th .idle
  | .checked value task => if value ≤ s.now then s.goto th .cancelling else s.goto th (.arming value task)
  | .arming value task => if s.Wanted value task then (s.arm th (some value)).goto th .idle else s.goto th .idle
  | .firing _ => { s with handle := none }.goto th .cancelling
  | .cancelling => { s with cancelCalled := true }.goto th .idle
  | .entering host => if s.deadline.isSome then s.goto th (.reading host) else s.goto th (.checking host)
  | .reading host =>
    if s.deadline.any (· ≤ s.now) then s.goto th (.late host) else s.goto th (.early s.deadline host)
  | .early value host => (s.arm th value).goto th (.checking host)
  | .late host => { s with cancelCalled := true }.refuse th host
  | .checking host => if s.cancelCalled ∨ flag then s.refuse th host else s.entered th host
  | .rollback stage host => s.drop th (.rollback · host) (.unset host) stage
  | .unset _ => { s with task := none }.goto th .idle
  | .leaving stage => s.drop th .leaving .idle stage

def step (home : Task → Thread) : Action Thread Task Time → Option (Sys Thread Task Time)
  | .tick time => if s.now ≤ time then some { s with now := time } else none
  | .cancel => some { s with cancelCalled := true }
  | .assign th value =>
    if s.threads th = .idle then
      some ({ s with deadline := value, handle := none }.goto th (.assigned value s.task s.handle))
    else none
  | .run th value task =>
    if s.threads th = .idle ∧ home task = th ∧ (value, task) ∈ s.queue then
      some ({ s with queue := s.queue.erase (value, task) }.goto th (.schedule value task))
    else none
  | .fire th timer =>
    if s.threads th = .idle ∧ s.armed.any (fun t => t.id = timer ∧ t.loop = th ∧ t.time.any (· ≤ s.now)) then
      some ((s.cancelTimer timer).goto th (.firing timer))
    else none
  | .enter th host =>
    if s.threads th = .idle ∧ home host = th then
      -- Otherwise it raises `RuntimeError`.
      if s.task = none ∨ s.task = some host then some ({ s with task := some host }.goto th (.entering host))
      else some s
    else none
  | .exit th host =>
    if s.threads th = .idle ∧ home host = th ∧ host ∈ s.blocks then
      some ({ s with task := none, blocks := s.blocks.erase host }.goto th (.leaving .look))
    else none
  | .advance th flag => if s.threads th = .idle then none else some (s.advance home th flag (s.threads th))

/-- A scope that nobody has entered yet. -/
def Fresh : Prop :=
  s.cancelCalled = false ∧ s.task = none ∧ s.handle = none ∧ s.armed = [] ∧ s.queue = [] ∧ s.blocks = [] ∧
    ∀ th, s.threads th = .idle

end Sys

def system [DecidableEq Thread] [DecidableEq Task] [LinearOrder Time] (home : Task → Thread) :
    System (Sys Thread Task Time) (Action Thread Task Time) where
  init s := s.Fresh
  step s := s.step home

end Multiloop.DeadlineTimer
