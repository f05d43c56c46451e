import Mathlib.Data.List.Perm.Basic
import Mathlib.Logic.Function.Basic
import Multiloop.Framework.Transition

/-!
# Task groups

`TaskGroup` of `_taskgroup.py`, and the runs of one group, its host and any
tasks: children finish when and how they like, are cancelled by anybody, and
start further children. The host is suspended only in the two calls of
`asyncio.wait`, of `_wait_children` and of `_drain_cancelled_children`; between
them nothing else runs on its loop. The cancellation counts of the host decide
only where a `CancelledError` reaches it, so they are left out: it may reach the
host whenever it is suspended (`interrupt`). A set is iterated in any order,
which is in the action. A group is entered by one host at a time; others that
try to are turned away.
-/

namespace Multiloop.Nursery

/-- What may be raised. -/
inductive Exc (E : Type)
  | cancelled
  | error (e : E)
deriving DecidableEq

/-- How a task ended. -/
inductive Outcome (E : Type)
  | result
  | raised (e : Exc E)
deriving DecidableEq

/-- The tasks of all loops, in the order of their creation. -/
structure Tasks (E : Type) where
  created : Nat
  outcome : Nat → Option (Outcome E)
  /-- `task.cancelling()`. -/
  cancelling : Nat → Nat

namespace Tasks

variable {E : Type} (ts : Tasks E)

def done (t : Nat) : Bool := (ts.outcome t).isSome

def cancel (t : Nat) : Tasks E :=
  if ts.done t then ts else { ts with cancelling := Function.update ts.cancelling t (ts.cancelling t + 1) }

def create : Tasks E :=
  { created := ts.created + 1
    outcome := Function.update ts.outcome ts.created none
    cancelling := Function.update ts.cancelling ts.created 0 }

end Tasks

structure TaskGroup (Loop E : Type) where
  tasks : Tasks E
  loop : Option Loop
  children : List Nat
  exited : Bool
  consumed : List Nat
  /-- Of the group's cancel scope. -/
  cancelCalled : Bool

/-- The local variables of `_wait_children`. -/
structure Wait (E : Type) where
  exceptions : List (Exc E)
  cancelledByScope : List Nat
  scopeCancelled : Bool
  processed : List Nat
  pending : List Nat

/-- What `__aexit__` does when the children are done. When it returns, it
returns `None`: the exception of the body goes on, if there is one. -/
inductive Result (E : Type)
  | returns
  | raises (e : Exc E)
  | raisesGroup (message : String) (es : List (Exc E))
deriving DecidableEq

namespace TaskGroup

variable {Loop E : Type} (g : TaskGroup Loop E)

def cancel (t : Nat) : TaskGroup Loop E := { g with tasks := g.tasks.cancel t }

def cancelEach (ts : List Nat) : TaskGroup Loop E := ts.foldl cancel g

/-- The children that are not done. -/
def remaining : List Nat := g.children.filter fun t => !g.tasks.done t

def cancelSiblings (w : Wait E) : Wait E × TaskGroup Loop E :=
  ({ w with cancelledByScope := w.cancelledByScope ++ w.pending, scopeCancelled := true },
    { g.cancelEach w.pending with cancelCalled := true })

/-- What `collect_one` has to report of a task. -/
def failure (w : Wait E) (t : Nat) : Option (Exc E) :=
  if t ∈ g.consumed then none
  else match g.tasks.outcome t with
    | some (.raised .cancelled) =>
      if t ∈ w.cancelledByScope ∨ g.tasks.cancelling t > 0 then none else some .cancelled
    | some (.raised e) => some e
    | _ => none

def collectOne (w : Wait E) (t : Nat) : Wait E × TaskGroup Loop E :=
  match g.failure w t with
  | some e =>
    let w := { w with exceptions := w.exceptions ++ [e] }
    if w.scopeCancelled then (w, g) else g.cancelSiblings w
  | none => (w, g)

def absorbOne (w : Wait E) (t : Nat) : Wait E × TaskGroup Loop E :=
  if t ∈ w.processed ∨ t ∈ w.pending then (w, g)
  else if g.tasks.done t then
    let (w, g) := g.collectOne w t
    ({ w with processed := w.processed ++ [t] }, g)
  else if w.scopeCancelled then
    ({ w with cancelledByScope := w.cancelledByScope ++ [t], pending := w.pending ++ [t] }, g.cancel t)
  else ({ w with pending := w.pending ++ [t] }, g)

/-- `absorb`, over the children in some order. -/
def absorb (w : Wait E) (order : List Nat) : Wait E × TaskGroup Loop E :=
  order.foldl (fun p t => p.2.absorbOne p.1 t) (w, g)

/-- The `for` loop over what `asyncio.wait` returned as done. -/
def collect (w : Wait E) (ts : List Nat) : Wait E × TaskGroup Loop E :=
  ts.foldl (fun p t => p.2.collectOne { p.1 with processed := p.1.processed ++ [t] } t) (w, g)

/-- `__aenter__`; `none` is the `RuntimeError`. The cancel scope is entered
after that. -/
def enter (l : Loop) : Option (TaskGroup Loop E) :=
  if g.cancelCalled then none
  else some { g with
    loop := some l
    exited := false
    children := if g.exited then [] else g.children
    consumed := if g.exited then [] else g.consumed }

/-- `_aexit_impl` up to `_wait_children`: the children that are cancelled before
they are awaited. -/
def preCancel (exc : Option (Exc E)) : List Nat × TaskGroup Loop E :=
  if exc.isSome then (g.remaining, g.cancelEach g.remaining) else ([], g)

/-- `_aexit_impl` after `_wait_children`. -/
def finish [DecidableEq E] (exc : Option (Exc E)) (es : List (Exc E)) : Result E × TaskGroup Loop E :=
  let g := { g with exited := true }
  if exc = some .cancelled then (.returns, g)
  else match es with
    | [] => (.returns, g)
    | _ =>
      if exc = none ∧ ∀ e ∈ es, e = .cancelled then
        match es with
        | [e] => (.raises e, g)
        | _ => (.raisesGroup "taskgroup soft exit" es, g)
      else
        let g := { g with cancelCalled := true }
        match exc.toList ++ es with
        | [e] => (.raises e, g)
        | es => (.raisesGroup "taskgroup crashed" es, g)

/-- The handler of `_aexit_impl`: what is left to be drained. -/
def abandon : List Nat × TaskGroup Loop E :=
  (g.remaining, { g with exited := true }.cancelEach g.remaining)

/-- The `finally` of `__aexit__`. -/
def leave : TaskGroup Loop E := { g with exited := true, loop := none }

def foreignLoop : String :=
  "TaskGroup is physically scoped to a single event loop and cannot spawn tasks " ++
    "from a foreign event loop or thread. Use EventLoopThreadPool for cross-loop tasks."

/-- `start_soon`, and what `start` does before it waits: a call from a task of
loop `l`, with the message of its `RuntimeError`. -/
def spawn [DecidableEq Loop] (message : String) (l : Loop) : Except String Nat × TaskGroup Loop E :=
  if g.loop.any fun l' => l' ≠ l then (.error foreignLoop, g)
  else
    let t := g.tasks.created
    let g := { g with tasks := g.tasks.create }
    if g.exited then (.error message, g.cancel t)
    else (.ok t, { g with children := g.children ++ [t] })

def startSoon [DecidableEq Loop] (l : Loop) : Except String Nat × TaskGroup Loop E :=
  g.spawn "TaskGroup is not active: cannot start_soon() after the group exited" l

def start [DecidableEq Loop] (l : Loop) : Except String Nat × TaskGroup Loop E :=
  g.spawn "TaskGroup is not active: cannot start() after the group exited" l

/-- The `finally` of `start`, for a child that has `called` its `started` or not. -/
def startEnds (t : Nat) (called : Bool) : Except String (Option (Exc E)) × TaskGroup Loop E :=
  let reraise (e : Exc E) :=
    (.ok (some e), { g with consumed := g.consumed ++ [t] }.cancelEach (g.remaining.filter fun u => u ≠ t))
  match g.tasks.outcome t with
  | none => (.ok none, g)
  | some (.raised .cancelled) => if called then (.ok none, g) else reraise .cancelled
  | some (.raised e) => reraise e
  | some .result =>
    if called then (.ok none, g) else (.error "Child exited without calling task_status.started()", g)

end TaskGroup

/-- Where the host is. -/
inductive Host (E : Type)
  | outside
  | body
  /-- In `asyncio.wait` of `_wait_children`; `exc` is the exception of the body. -/
  | waiting (exc : Option (Exc E)) (w : Wait E)
  /-- In `asyncio.wait` of `_drain_cancelled_children`. -/
  | draining (pending : List Nat)

structure Sys (Loop E : Type) where
  group : TaskGroup Loop E
  host : Host E
  /-- The children that a call of `start` waits for. -/
  starting : List Nat
  /-- Ledger: every task ever added to the children. -/
  added : List Nat
  /-- What the last `__aexit__` did. -/
  result : Option (Result E)

inductive Action (Loop E : Type)
  /-- `ok` tells whether the cancel scope is entered, or raises, as it does
  inside a scope that is cancelled, or while another task is in the group. -/
  | enter (l : Loop) (ok : Bool)
  | exit (exc : Option (Exc E)) (order : List Nat)
  | wake (finished order : List Nat)
  | interrupt
  | drained
  | startSoon (l : Loop)
  | start (l : Loop)
  | startEnds (t : Nat) (called : Bool)
  | finish (t : Nat) (outcome : Outcome E)
  | cancel (t : Nat)
  | uncancel (t : Nat)

namespace Sys

variable {Loop E : Type} [DecidableEq Loop] [DecidableEq E]

def new : Sys Loop E :=
  { group :=
      { tasks := { created := 0, outcome := fun _ => none, cancelling := fun _ => 0 }
        loop := none, children := [], exited := false, consumed := [], cancelCalled := false }
    host := .outside, starting := [], added := [], result := none }

variable (s : Sys Loop E)

/-- `__aexit__` finishes. -/
def finishWith (r : Result E) (g : TaskGroup Loop E) : Sys Loop E :=
  { s with group := g.leave, host := .outside, result := some r }

/-- The `while` loop of `_wait_children`, up to its next `asyncio.wait`. -/
def round (exc : Option (Exc E)) (w : Wait E) (g : TaskGroup Loop E) (order : List Nat) : Option (Sys Loop E) :=
  if order.Perm g.children then
    let (w, g) := g.absorb w order
    if w.pending = [] then
      let (r, g) := g.finish exc w.exceptions
      some (s.finishWith r g)
    else some { s with group := g, host := .waiting exc w }
  else none

def spawned (r : Except String Nat × TaskGroup Loop E) : Sys Loop E :=
  { s with
    group := r.2
    added := match r.1 with
      | .ok t => s.added ++ [t]
      | .error _ => s.added }

def step : Action Loop E → Option (Sys Loop E)
  | .enter l ok =>
    match s.group.enter l with
    | some g =>
      if ok then
        match s.host with
        | .outside => some { s with group := g, host := .body }
        | _ => none
      else some { s with group := g }
    | none => some s
  | .exit exc order =>
    match s.host with
    | .body =>
      let (pre, g) := s.group.preCancel exc
      s.round exc
        { exceptions := [], cancelledByScope := pre, scopeCancelled := false, processed := [], pending := [] } g order
    | _ => none
  | .wake finished order =>
    match s.host with
    | .waiting exc w =>
      -- At least one of them is done.
      if finished.Perm (w.pending.filter s.group.tasks.done) ∧ finished ≠ [] then
        let (w, g) := s.group.collect { w with pending := w.pending.filter fun t => !s.group.tasks.done t } finished
        s.round exc w g order
      else none
    | _ => none
  | .interrupt =>
    match s.host with
    | .waiting _ _ =>
      let (pending, g) := s.group.abandon
      if pending = [] then some (s.finishWith (.raises .cancelled) g)
      else some { s with group := g, host := .draining pending }
    | .draining _ => some s
    | _ => none
  | .drained =>
    match s.host with
    | .draining pending =>
      if ∀ t ∈ pending, s.group.tasks.done t = true then some (s.finishWith (.raises .cancelled) s.group) else none
    | _ => none
  | .startSoon l => some (s.spawned (s.group.startSoon l))
  | .start l =>
    let r := s.group.start l
    some { s.spawned r with
      starting := match r.1 with
        | .ok t => s.starting ++ [t]
        | .error _ => s.starting }
  | .startEnds t called =>
    if t ∈ s.starting then
      some { s with group := (s.group.startEnds t called).2, starting := s.starting.erase t }
    else none
  | .finish t outcome =>
    if t < s.group.tasks.created ∧ s.group.tasks.done t = false then
      some { s with group := { s.group with
        tasks := { s.group.tasks with outcome := Function.update s.group.tasks.outcome t (some outcome) } } }
    else none
  | .cancel t => if t < s.group.tasks.created then some { s with group := s.group.cancel t } else none
  | .uncancel t =>
    some { s with group := { s.group with
      tasks := { s.group.tasks with
        cancelling := Function.update s.group.tasks.cancelling t (s.group.tasks.cancelling t - 1) } } }

end Sys

def system (Loop E : Type) [DecidableEq Loop] [DecidableEq E] : System (Sys Loop E) (Action Loop E) where
  init s := s = .new
  step s := s.step

end Multiloop.Nursery
