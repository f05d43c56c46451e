import Mathlib.Data.List.Basic
import Multiloop.Framework.Agenda

/-!
# Contexts

`AsyncContext` of `context.py`, and the runs of any number of contexts, which
grow into a tree, and of the futures their `submit` returns. Every critical
section is one step, and so is every call into a scope, a future or a loop
between them; what a `cancel()` or a constructor has still to do stands on the
agenda of its thread, in order, and a `cancel()` of a child is done before the
caller's goes on. The steps of all threads, and what the loops do with the
futures, come in any order.

Futures are completed by their tasks or cancelled by anybody, when and how
they like. All loops stay open: a loop that runs takes `fut.cancel` as a
callback, and for one that does not the caller cancels the future itself. The
values of `_futures` are loops and tell only which of the two it is, so they
are left to the action. The callbacks a pool's `submit` puts on the future are
not these contexts' business.
-/

namespace Multiloop.AsyncContext

/-- An `AsyncContext`; children are known by their number. -/
structure Context where
  parent : Option Nat := none
  cancelled : Bool := false
  children : List Nat := []
  /-- The keys of `_futures`. -/
  futures : List Nat := []
  /-- `_scopes`: futures with their cancel scopes. -/
  scopes : List (Nat × Nat) := []
deriving DecidableEq

/-- A future made in or for a `submit` of context `ctx`. -/
structure Future where
  ctx : Nat
  /-- The scope that was passed to `pool.submit`. -/
  scope : Option Nat
  done : Bool := false
  /-- `fut.cancel` is among its loop's callbacks, or was. -/
  cancelScheduled : Bool := false
  /-- `_discard_future` is to be called when the future is done. -/
  callback : Bool := false
  /-- A call of `_discard_future` is among its loop's callbacks. -/
  discardDue : Bool := false
  /-- Recorded and never read: it was done before its context was cancelled. -/
  early : Bool := false
deriving DecidableEq

/-- What a thread has still to do in its call. -/
inductive Item
  /-- `__init__` of `child`: the section of `parent._add_child`. -/
  | addChild (parent child : Nat)
  /-- `cancel`: its first section. -/
  | cancel (c : Nat)
  /-- `cancel`: `self._parent._remove_child(self)`. -/
  | detach (parent child : Nat)
  /-- `scope.cancel()` -/
  | cancelScope (scope : Nat)
  /-- A future that is to be cancelled unless it is done. -/
  | cancelFuture (fut : Nat)
  /-- It was not: `call_soon_threadsafe(fut.cancel)` or `fut.cancel()`. -/
  | deliver (fut : Nat)
  /-- `submit`: its first section. -/
  | submit (c : Nat)
  | poolSubmit (c scope : Nat)
  /-- `submit`: its second section. -/
  | recheck (c scope fut : Nat)
  /-- `submit`: the end of the second section of a cancelled context. -/
  | release (c : Nat)
deriving DecidableEq

/-- The contexts, futures and scopes of a run. -/
structure Shared (Thread : Type) where
  contexts : Nat → Context
  /-- The contexts constructed so far. -/
  created : Nat
  futures : Nat → Future
  made : Nat
  /-- `_cancel_called` of a scope. -/
  scopeCancelled : Nat → Bool
  scopes : Nat
  /-- Who holds a context's `_lock` beyond one step. -/
  lock : Nat → Option Thread

namespace Shared

variable {Thread : Type}

def new : Shared Thread where
  contexts _ := {}
  created := 0
  futures _ := { ctx := 0, scope := none }
  made := 0
  scopeCancelled _ := false
  scopes := 0
  lock _ := none

variable (m : Shared Thread)

def setContext (c : Nat) (x : Context) : Shared Thread :=
  { m with contexts := Function.update m.contexts c x }

def setFuture (f : Nat) (x : Future) : Shared Thread := { m with futures := Function.update m.futures f x }

/-- `self._cancelled = True`, and everything tracked is taken out. -/
def clear (c : Nat) : Shared Thread :=
  m.setContext c { m.contexts c with cancelled := true, children := [], futures := [], scopes := [] }

def addChild (p c : Nat) : Shared Thread :=
  m.setContext p { m.contexts p with children := (m.contexts p).children ++ [c] }

/-- `_remove_child` -/
def removeChild (p c : Nat) : Shared Thread :=
  m.setContext p { m.contexts p with children := (m.contexts p).children.filter (· ≠ c) }

/-- Future `f` is done, unless it was; its callbacks are scheduled. -/
def finish (f : Nat) : Shared Thread :=
  let x := m.futures f
  if x.done then m
  else m.setFuture f
    { x with done := true, discardDue := x.callback, early := !(m.contexts x.ctx).cancelled }

/-- `call_soon_threadsafe(fut.cancel)` -/
def scheduleCancel (f : Nat) : Shared Thread := m.setFuture f { m.futures f with cancelScheduled := true }

/-- A new future. -/
def create (c : Nat) (scope : Option Nat) : Shared Thread :=
  { m with futures := Function.update m.futures m.made { ctx := c, scope }, made := m.made + 1 }

/-- The second section of `submit` in a context that is not cancelled. -/
def register (c scope f : Nat) : Shared Thread :=
  let x := m.contexts c
  (m.setContext c { x with futures := x.futures ++ [f], scopes := x.scopes ++ [(f, scope)] }).setFuture f
    -- `add_done_callback` on a future that is done schedules the callback
    { m.futures f with callback := true, discardDue := (m.futures f).done }

/-- `_discard_future` -/
def discard (f : Nat) : Shared Thread :=
  let c := (m.futures f).ctx
  let x := m.contexts c
  (m.setContext c { x with
    futures := x.futures.filter (· ≠ f)
    scopes := x.scopes.filter (·.1 ≠ f) }).setFuture f { m.futures f with discardDue := false }

def setLock (c : Nat) (o : Option Thread) : Shared Thread := { m with lock := Function.update m.lock c o }

/-- What `cancel` has to do after its first section. -/
def cancelItems (c : Nat) : List Item :=
  let x := m.contexts c
  (x.parent.map fun p => Item.detach p c).toList ++ x.children.map .cancel ++
    x.scopes.map (fun p => .cancelScope p.2) ++ x.futures.map .cancelFuture

/-- One step of a call: the new state and what it leaves to be done. `choice`
is whether `pool.submit` returns (else it raises), and whether the future's
loop is running. -/
def perform (t : Thread) (choice : Bool) : Item → Shared Thread → Option (Shared Thread × List Item)
  | .addChild p c, m =>
    if (m.lock p).isNone then
      if (m.contexts p).cancelled then some (m, [.cancel c]) else some (m.addChild p c, [])
    else none
  | .cancel c, m =>
    if (m.lock c).isNone then
      if (m.contexts c).cancelled then some (m, []) else some (m.clear c, m.cancelItems c)
    else none
  | .detach p c, m => if (m.lock p).isNone then some (m.removeChild p c, []) else none
  | .cancelScope sc, m => some ({ m with scopeCancelled := Function.update m.scopeCancelled sc true }, [])
  | .cancelFuture f, m => some (m, if (m.futures f).done then [] else [.deliver f])
  | .deliver f, m => some (if choice then m.scheduleCancel f else m.finish f, [])
  | .submit c, m =>
    if (m.lock c).isNone then
      if (m.contexts c).cancelled then some ((m.create c none).finish m.made, [])
      else some ({ m with scopes := m.scopes + 1 }, [.poolSubmit c m.scopes])
    else none
  | .poolSubmit c sc, m => if choice then some (m.create c (some sc), [.recheck c sc m.made]) else some (m, [])
  | .recheck c sc f, m =>
    if (m.lock c).isNone then
      if (m.contexts c).cancelled then
        some (m.setLock c (some t), [.cancelScope sc, .cancelFuture f, .release c])
      else some (m.register c sc f, [])
    else none
  | .release c, m => some (m.setLock c none, [])

end Shared

inductive Action (Thread : Type)
  /-- The thread constructs a context. -/
  | construct (t : Thread) (parent : Option Nat)
  | cancel (t : Thread) (c : Nat)
  | submit (t : Thread) (c : Nat)
  /-- The thread makes the next step of its call. -/
  | advance (t : Thread) (choice : Bool)
  /-- A future gets its result or exception, or is cancelled from outside. -/
  | complete (f : Nat)
  /-- The loop of a future runs the scheduled `fut.cancel`. -/
  | runCancel (f : Nat)
  /-- The loop of a future runs `_discard_future`. -/
  | discard (f : Nat)

abbrev Sys (Thread : Type) := Agenda Thread (Shared Thread) Item

namespace Sys

variable {Thread : Type} [DecidableEq Thread] (s : Sys Thread)

/-- A call of thread `t` on a context that exists. -/
def call (t : Thread) (c : Nat) (x : Item) : Option (Sys Thread) :=
  if (s.todo t).isEmpty && decide (c < s.shared.created) then some (s.start t s.shared [x]) else none

/-- `AsyncContext(parent)` -/
def construct (t : Thread) (parent : Option Nat) : Option (Sys Thread) :=
  let m := s.shared
  if (s.todo t).isEmpty && parent.all (· < m.created) then
    let m' := { m.setContext m.created { m.contexts m.created with parent } with created := m.created + 1 }
    some (s.start t m' (parent.map fun p => .addChild p m.created).toList)
  else none

def step : Action Thread → Option (Sys Thread)
  | .construct t parent => s.construct t parent
  | .cancel t c => s.call t c (.cancel c)
  | .submit t c => s.call t c (.submit c)
  | .advance t choice => s.advance Shared.perform t choice
  | .complete f => if f < s.shared.made then some { s with shared := s.shared.finish f } else none
  | .runCancel f =>
    if (s.shared.futures f).cancelScheduled then some { s with shared := s.shared.finish f } else none
  | .discard f =>
    let x := s.shared.futures f
    if x.discardDue && (s.shared.lock x.ctx).isNone then some { s with shared := s.shared.discard f } else none

end Sys

def system (Thread : Type) [DecidableEq Thread] : System (Sys Thread) (Action Thread) where
  init s := s = ⟨.new, fun _ => []⟩
  step := Sys.step

end Multiloop.AsyncContext
