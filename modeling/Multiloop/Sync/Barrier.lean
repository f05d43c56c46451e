import Multiloop.Framework.Transition
import Multiloop.Sync.Pool

/-!
# `Barrier`

The barrier of `_sync.py`, and the runs of any number of tasks over one: they
wait, are woken, resumed and cancelled, and the barrier is aborted and reset,
in any order. A call of `wait` is known by its event. A waiter's box is kept
beside the waiters, by the same event, since it is read after the waiter was
taken off.

`abort` and `reset` hand the events to their loops after they have left the
mutex. A loop may set an event at any later time, so here they are handed over
at once.
-/

namespace Multiloop.Sync

variable {Loop Task : Type}

/-- `Barrier`, with the content of the boxes. -/
structure Barrier (Loop Task : Type) where
  parties : Nat
  generation : Nat
  /-- event → loop, in the order of registration. -/
  waiters : List (Waiter Loop Task)
  /-- The content of each call's box. -/
  box : Fut Task → Option Int
  aborted : Bool
  broken : Bool

namespace Barrier

/-- The texts of the `RuntimeError`s of `wait`. -/
inductive Error
  /-- "barrier has been aborted" -/
  | aborted
  /-- "barrier is broken" -/
  | broken
  /-- "barrier broken by concurrent cancellation" -/
  | brokenByCancellation
  /-- "barrier was reset while waiting" -/
  | reset
deriving DecidableEq

/-- How a call of `wait` ends. -/
inductive Outcome
  | returned (index : Int)
  | error (e : Error)
  /-- `CancelledError`. -/
  | cancelled
deriving DecidableEq

/-- Where a task is in `wait`. -/
inductive Pc (Task : Type)
  /-- Outside of `wait`. -/
  | outside
  /-- Suspended on the event. -/
  | waiting (event : Fut Task) (generation : Nat)
  /-- The wait raised, about to break the barrier. -/
  | breaking (event : Fut Task) (generation : Nat)
  /-- The wait returned, about to read the box. -/
  | reading (event : Fut Task) (generation : Nat)
deriving DecidableEq

/-- The event a task waits on, or has ceased to wait on by an exception. -/
def Pc.event? : Pc Task → Option (Fut Task)
  | .waiting e _ | .breaking e _ => some e
  | .outside | .reading _ _ => none

/-- The steps of a run. -/
inductive Action (Loop Task : Type)
  | wait (t : Task)
  /-- The event loop resumes the task. -/
  | resume (t : Task)
  /-- The `except` block. -/
  | breakRound (t : Task)
  | read (t : Task)
  | abort
  | reset
  /-- `other` is the event of another kind that the task waits on, if any. -/
  | cancel (t : Task) (other : Option (Fut Task))
  /-- An event loop runs the `i`-th scheduled `event.set`. -/
  | runCallback (i : Nat)
  | closeLoop (l : Loop)
  /-- The task starts to wait on an event of another kind. -/
  | waitElsewhere (t : Task)
  /-- An event of another kind is handed to its loop. -/
  | wakeElsewhere (e : Fut Task)
  /-- The task runs code of its own, which leaves its cancellation flag `b`. -/
  | elsewhere (t : Task) (b : Bool)

/-- The barrier, its tasks and their loops. -/
structure Sys (Loop Task : Type) where
  barrier : Barrier Loop Task
  host : Host Loop Task
  pc : Task → Pc Task
  /-- The calls that were let in, with their rounds, in order. -/
  arrivals : List (Fut Task × Nat)
  outcome : Fut Task → Option Outcome
  /-- The task was asked to cancel. -/
  asked : Task → Bool

variable [DecidableEq Task]

/-- The boxes of the waiters get the indices from `idx` on. -/
def fill (box : Fut Task → Option Int) (idx : Int) : List (Waiter Loop Task) → Fut Task → Option Int
  | [] => box
  | (event, _) :: waiters => fill (Function.update box event (some idx)) (idx + 1) waiters

/-- The boxes of the waiters get the mark of a broken round. -/
def mark (box : Fut Task → Option Int) : List (Waiter Loop Task) → Fut Task → Option Int
  | [] => box
  | (event, _) :: waiters => mark (Function.update box event (some (-1))) waiters

namespace Sys

/-- `Barrier.__init__`, for no task yet. -/
def new (parties : Nat) : Sys Loop Task where
  barrier := { parties, generation := 0, waiters := [], box := fun _ => none, aborted := false, broken := false }
  host := .new
  pc _ := .outside
  arrivals := []
  outcome _ := none
  asked _ := false

variable (home : Task → Loop) (s : Sys Loop Task)

/-- The event each task waits on. -/
def waits (t : Task) : Option (Fut Task) := (s.pc t).event?

/-- The loop of task `t` is open. -/
def isOpen (t : Task) : Bool := ! s.host.closed (home t)

/-- A task goes on. -/
def goto (t : Task) (p : Pc Task) : Sys Loop Task := { s with pc := Function.update s.pc t p }

/-- The call of `wait` with event `e` ends. -/
def leave (t : Task) (e : Fut Task) (o : Outcome) : Sys Loop Task :=
  { s with outcome := Function.update s.outcome e (some o) }.goto t .outside

/-- All waiters are taken off, and the events of those on open loops handed to
their loops. -/
def wakeAll : Sys Loop Task :=
  { s with
    barrier := { s.barrier with waiters := [] }
    host := s.host.callSoon ((s.barrier.waiters.filter fun w => ! s.host.closed w.2).map Prod.fst) }

/-- The last of a round arrives. -/
def graduate (t : Task) (e : Fut Task) : Sys Loop Task :=
  let b := s.barrier
  let s := { s with
    arrivals := s.arrivals ++ [(e, b.generation)]
    barrier := { b with box := fill b.box 1 b.waiters } }.wakeAll
  { s with barrier := { s.barrier with generation := b.generation + 1 } }.leave t e (.returned 0)

/-- A call of `wait` up to its suspension. -/
def wait (t : Task) : Sys Loop Task :=
  let e : Fut Task := { owner := t, serial := s.host.created t }
  let b := s.barrier
  if b.aborted then { s with host := s.host.create t }.leave t e (.error .aborted)
  else if b.broken then { s with host := s.host.create t }.leave t e (.error .broken)
  else if b.waiters.length + 1 = b.parties then { s with host := s.host.create t }.graduate t e
  else
    { s with
      host := (s.host.wait t).2
      arrivals := s.arrivals ++ [(e, b.generation)]
      barrier := { b with waiters := b.waiters ++ [(e, home t)] } }.goto t (.waiting e b.generation)

/-- The event loop resumes the task, whose wait returns or raises. -/
def resume (t : Task) (e : Fut Task) (generation : Nat) : Option (Sys Loop Task) :=
  match s.host.resumption t e with
  | some .returns => some (s.goto t (.reading e generation))
  | some .raises => some ({ s with host := s.host.setMustCancel t false }.goto t (.breaking e generation))
  | none => none

/-- The `except` block of `wait`. -/
def breakRound (t : Task) (e : Fut Task) (generation : Nat) : Sys Loop Task :=
  if generation = s.barrier.generation then
    let b := s.barrier
    let s := { s with barrier := { b with broken := true, box := mark b.box b.waiters } }.wakeAll
    { s with barrier := { s.barrier with generation := b.generation + 1 } }.leave t e .cancelled
  else s.leave t e .cancelled

/-- The end of `wait`. -/
def read (t : Task) (e : Fut Task) (generation : Nat) : Sys Loop Task :=
  let b := s.barrier
  if b.aborted ∧ generation = b.generation then s.leave t e (.error .aborted)
  else if b.box e = some (-1) then s.leave t e (.error .brokenByCancellation)
  else match b.box e with
    | none => s.leave t e (.error .reset)
    | some index => s.leave t e (.returned index)

/-- `Barrier.abort`. -/
def abort : Sys Loop Task :=
  { s with barrier := { s.barrier with aborted := true, broken := true } }.wakeAll

/-- `Barrier.reset`. -/
def reset : Sys Loop Task :=
  { s with
    barrier := { s.barrier with
      generation := s.barrier.generation + 1
      aborted := false
      broken := false } }.wakeAll

variable [DecidableEq Loop]

/-- The steps of the tasks; `none` for one that cannot be taken. -/
def step : Action Loop Task → Option (Sys Loop Task)
  | .wait t => if s.isOpen home t ∧ s.pc t = .outside then some (s.wait home t) else none
  | .resume t =>
    match s.pc t with
    | .waiting e generation => if s.isOpen home t then s.resume t e generation else none
    | _ => none
  | .breakRound t =>
    match s.pc t with
    | .breaking e generation => if s.isOpen home t then some (s.breakRound t e generation) else none
    | _ => none
  | .read t =>
    match s.pc t with
    | .reading e generation => if s.isOpen home t then some (s.read t e generation) else none
    | _ => none
  | .abort => some s.abort
  | .reset => some s.reset
  | .cancel t other =>
    let s := { s with asked := Function.update s.asked t true }
    match s.pc t with
    | .waiting e _ => some { s with host := s.host.cancel t (some e) }
    | .breaking _ _ | .reading _ _ => some { s with host := s.host.cancel t none }
    | .outside => if other.all (·.owner = t) then some { s with host := s.host.cancel t other } else none
  | .runCallback i => (s.host.runCallback home i).map fun host => { s with host }
  | .closeLoop l => some { s with host := s.host.closeLoop l }
  | .waitElsewhere t =>
    if s.isOpen home t ∧ s.pc t = .outside then some { s with host := (s.host.wait t).2 } else none
  | .wakeElsewhere e =>
    if s.waits e.owner ≠ some e ∧ e.serial < s.host.created e.owner then
      some { s with host := s.host.callSoon [e] }
    else none
  | .elsewhere t b =>
    if s.pc t = .outside then
      some { s with
        host := s.host.setMustCancel t b
        asked := Function.update s.asked t (s.asked t || b) }
    else none

end Sys

/-- The runs of tasks over a fresh barrier of `parties` tasks. -/
def tasks [DecidableEq Loop] (home : Task → Loop) (parties : Nat) : System (Sys Loop Task) (Action Loop Task) where
  init s := s = Sys.new parties
  step s := s.step home

end Barrier

end Multiloop.Sync
