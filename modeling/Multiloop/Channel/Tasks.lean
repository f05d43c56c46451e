import Multiloop.Asyncio
import Multiloop.Channel.Raw
import Multiloop.Framework.Transition

/-!
# Tasks over one channel

Any number of tasks, on any event loops and threads, that run `Channel.send`,
`try_send`, `recv`, `try_recv` and `close` on one channel (`primitives.py`,
the raw Rust path). Every call of a Rust method is one atomic step; the steps
of different tasks, the `_wake_fut` callbacks the methods schedule, and
cancellations come in any order. A `recv(timeout)` runs `_recv_impl` in the
caller's task, and its timeout cancels that task, so it is a `cancel` here.

`accepted`, `received`, `registered` (the senders' futures that were queued, in
order) and `woken` record what happened and are never read.
-/

namespace Multiloop.Channel

/-- An item of a run: the payload with the call that sends it, so that equal
payloads of different calls are told apart. -/
structure Parcel (Task α : Type) where
  sender : Task
  seq : Nat
  payload : α
deriving DecidableEq

/-- Where a task is in its call. -/
inductive Pc (Task α : Type)
  | idle
  /-- `send`: about to `try_send`; from the second round on, `fut` is the future
  of the round before. -/
  | sendTry (item : Parcel Task α) (fut : Option (Fut Task))
  /-- `send`: the buffer was full, about to create a future and `register_putter`. -/
  | sendRegister (item : Parcel Task α)
  /-- `send`: `register_putter` returned `True`, about to `try_send` again. -/
  | sendRetry (item : Parcel Task α) (fut : Fut Task)
  | sendAwait (item : Parcel Task α) (fut : Fut Task)
  /-- `send`: the await raised, about to `unregister_putter`. -/
  | sendUnregister (fut : Fut Task)
  /-- `recv`: about to `try_recv`. -/
  | recvTry
  /-- `recv`: the buffer was empty, about to create a future and `register_getter`. -/
  | recvRegister
  | recvAwait (fut : Fut Task)
  /-- `recv`: the await raised, about to `unregister_getter`. -/
  | recvUnregister (fut : Fut Task)
deriving DecidableEq

/-- A scheduled `_wake_fut(fut, val, is_exc, has_val)`; `has_val` is that `val`
is not `none`. -/
structure WakeCall (Task α : Type) where
  fut : Fut Task
  val : Option (Val (Parcel Task α))
  isExc : Bool
deriving DecidableEq

inductive Action (Task α : Type)
  /-- The task calls `send`. -/
  | send (t : Task) (payload : α)
  | trySend (t : Task) (payload : α)
  /-- The task calls `recv`. -/
  | recv (t : Task)
  | tryRecv (t : Task)
  | close
  /-- The task makes the next Rust call of its `send` or `recv`. -/
  | advance (t : Task)
  /-- The event loop resumes the task, whose future is done. -/
  | resume (t : Task)
  | cancel (t : Task)
  /-- The event loop runs the `i`-th scheduled wake. -/
  | wake (i : Nat)

/-- The channel as the tasks use it: no selectors. -/
abbrev TaskChannel (Loop Task α : Type) := ChannelState Loop (Fut Task) Unit (Parcel Task α)

structure Sys (Loop Task α : Type) where
  chan : TaskChannel Loop Task α
  futs : Fut Task → FutState (Option (Parcel Task α))
  scheduled : List (WakeCall Task α)
  pc : Task → Pc Task α
  mustCancel : Task → Bool
  /-- The futures each task has created. -/
  created : Task → Nat
  /-- The `send` and `try_send` calls each task has made. -/
  calls : Task → Nat
  accepted : List (Parcel Task α)
  received : List (Task × Parcel Task α)
  registered : List (Fut Task)
  woken : List (Fut Task)

variable {Loop Task α : Type}

def WakeTarget.call? : WakeTarget Loop (Fut Task) Unit (Parcel Task α) → Option (WakeCall Task α)
  | .waiter w val isExc => some ⟨w.future, val, isExc⟩
  | .selectWatcher _ _ => none

namespace Sys

def new (maxsize : Nat) : Sys Loop Task α where
  chan := Channel.new maxsize
  futs _ := .pending
  scheduled := []
  pc _ := .idle
  mustCancel _ := false
  created _ := 0
  calls _ := 0
  accepted := []
  received := []
  registered := []
  woken := []

variable (s : Sys Loop Task α)

/-- The state a Rust call leaves, its wakes scheduled. -/
def dispatch {β : Type} (o : Outcome Loop (Fut Task) Unit (Parcel Task α) β) : Sys Loop Task α :=
  { s with
    chan := o.state
    scheduled := s.scheduled ++ o.toWake.filterMap WakeTarget.call?
    woken := s.woken ++ o.toWake.map fun w => w.target.future }

variable [DecidableEq Task]

def goto (t : Task) (p : Pc Task α) : Sys Loop Task α :=
  { s with pc := Function.update s.pc t p }

def accept (x : Parcel Task α) : Sys Loop Task α := { s with accepted := s.accepted ++ [x] }

def enlist (f : Fut Task) : Sys Loop Task α := { s with registered := s.registered ++ [f] }

def receive (t : Task) (x : Parcel Task α) : Sys Loop Task α :=
  { s with received := s.received ++ [(t, x)] }

/-- Task `t` starts to await `f`, which a cancellation asked for earlier
cancels at once. -/
def await (t : Task) (f : Fut Task) (p : Pc Task α) : Sys Loop Task α :=
  { s with
    pc := Function.update s.pc t p
    futs := if s.mustCancel t then Function.update s.futs f .cancelled else s.futs
    mustCancel := Function.update s.mustCancel t false }

/-- The await of task `t` raises. -/
def raise (t : Task) (p : Pc Task α) : Sys Loop Task α :=
  { s with pc := Function.update s.pc t p, mustCancel := Function.update s.mustCancel t false }

/-- `loop.create_future()` in task `t`, with `_ch` set or not. -/
def createFuture (t : Task) (ch : Bool) : Fut Task × Sys Loop Task α :=
  (⟨t, s.created t, ch⟩, { s with created := Function.update s.created t (s.created t + 1) })

/-- The item of the next `send` or `try_send` call of task `t`. -/
def call (t : Task) (payload : α) : Parcel Task α × Sys Loop Task α :=
  (⟨t, s.calls t, payload⟩, { s with calls := Function.update s.calls t (s.calls t + 1) })

/-- The value `fut.set_result(val)` sets. -/
def resultOf : Option (Val (Parcel Task α)) → Option (Parcel Task α)
  | some (.item x) => some x
  | _ => none

/-- `_wake_fut`. -/
def wakeFut (c : WakeCall Task α) : Sys Loop Task α :=
  match s.futs c.fut with
  | .pending =>
    let st := if c.isExc then .exception else .result (resultOf c.val)
    { s with futs := Function.update s.futs c.fut st }
  | _ =>
    -- `InvalidStateError`: the item goes back through `try_send`, whose failures are ignored.
    match c.val, c.isExc with
    | some (.item x), false =>
      if c.fut.ch ∧ ¬ s.chan.isClosed then s.dispatch (s.chan.trySend x) else s
    | _, _ => s

/-- The next Rust call of task `t`, whose event loop is `home t`. -/
def advance (home : Task → Loop) (t : Task) : Option (Sys Loop Task α) :=
  match s.pc t with
  | .sendTry x _ =>
    let o := s.chan.trySend x
    match o.reply with
    | .ok true => some (((s.dispatch o).accept x).goto t .idle)
    | .ok false => some ((s.dispatch o).goto t (.sendRegister x))
    | .error _ => some ((s.dispatch o).goto t .idle)
  | .sendRegister x =>
    let (f, s) := s.createFuture t false
    let o := s.chan.registerPutter (home t) f
    match o.reply with
    | .ok true => some ((s.dispatch o).goto t (.sendRetry x f))
    | .ok false => some (((s.dispatch o).enlist f).await t f (.sendAwait x f))
    | .error _ => some ((s.dispatch o).goto t .idle)
  | .sendRetry x f =>
    let o := s.chan.trySend x
    match o.reply with
    | .ok true => some (((s.dispatch o).accept x).goto t .idle)
    | .ok false => some ((s.dispatch o).await t f (.sendAwait x f))
    | .error _ => some ((s.dispatch o).goto t .idle)
  | .sendUnregister f => some ((s.dispatch (s.chan.unregisterPutter f)).goto t .idle)
  | .recvTry =>
    let o := s.chan.tryRecv
    match o.reply with
    | .ok (true, some x) => some (((s.dispatch o).receive t x).goto t .idle)
    | .ok _ => some ((s.dispatch o).goto t .recvRegister)
    | .error _ => some ((s.dispatch o).goto t .idle)
  | .recvRegister =>
    let (f, s) := s.createFuture t true
    let o := s.chan.registerGetter (home t) f
    match o.reply with
    | .ok (true, some x) => some (((s.dispatch o).receive t x).goto t .idle)
    | .ok _ => some ((s.dispatch o).await t f (.recvAwait f))
    | .error _ => some ((s.dispatch o).goto t .idle)
  | .recvUnregister f => some ((s.dispatch (s.chan.unregisterGetter f)).goto t .idle)
  | .idle | .sendAwait _ _ | .recvAwait _ => none

/-- The event loop resumes task `t`. -/
def resume (t : Task) : Option (Sys Loop Task α) :=
  match s.pc t with
  | .sendAwait x f =>
    match s.futs f with
    | .pending => none
    | .result _ =>
      if s.mustCancel t then some (s.raise t (.sendUnregister f)) else some (s.goto t (.sendTry x (some f)))
    | .exception | .cancelled => some (s.raise t (.sendUnregister f))
  | .recvAwait f =>
    match s.futs f with
    | .pending => none
    | .result (some x) =>
      if s.mustCancel t then some (s.raise t (.recvUnregister f))
      else some ((s.receive t x).goto t .idle)
    | .result none =>
      if s.mustCancel t then some (s.raise t (.recvUnregister f)) else some (s.goto t .idle)
    | .exception | .cancelled => some (s.raise t (.recvUnregister f))
  | _ => none

/-- The future task `t` is suspended on. -/
def awaited (t : Task) : Option (Fut Task) :=
  match s.pc t with
  | .sendAwait _ f | .recvAwait f => some f
  | _ => none

/-- `task.cancel()`. -/
def cancel (t : Task) : Sys Loop Task α :=
  match s.awaited t with
  | some f =>
    match s.futs f with
    | .pending => { s with futs := Function.update s.futs f .cancelled }
    | _ => { s with mustCancel := Function.update s.mustCancel t true }
  | none => { s with mustCancel := Function.update s.mustCancel t true }

def step (home : Task → Loop) (s : Sys Loop Task α) : Action Task α → Option (Sys Loop Task α)
  | .send t payload =>
    match s.pc t with
    | .idle =>
      let (x, s) := s.call t payload
      some (s.goto t (.sendTry x none))
    | _ => none
  | .trySend t payload =>
    match s.pc t with
    | .idle =>
      let (x, s) := s.call t payload
      let o := s.chan.trySend x
      match o.reply with
      | .ok true => some ((s.dispatch o).accept x)
      | _ => some (s.dispatch o)
    | _ => none
  | .recv t =>
    match s.pc t with
    | .idle => some (s.goto t .recvTry)
    | _ => none
  | .tryRecv t =>
    match s.pc t with
    | .idle =>
      let o := s.chan.tryRecv
      match o.reply with
      | .ok (true, some x) => some ((s.dispatch o).receive t x)
      | _ => some (s.dispatch o)
    | _ => none
  | .close => some (s.dispatch s.chan.close)
  | .advance t => s.advance home t
  | .resume t => s.resume t
  | .cancel t => some (s.cancel t)
  | .wake i =>
    match s.scheduled[i]? with
    | some c => some ({ s with scheduled := s.scheduled.eraseIdx i }.wakeFut c)
    | none => none

end Sys

/-- The runs of tasks over a fresh channel. -/
def tasks [DecidableEq Task] (home : Task → Loop) (maxsize : Nat) :
    System (Sys Loop Task α) (Action Task α) where
  init s := s = Sys.new maxsize
  step := Sys.step home

end Multiloop.Channel
