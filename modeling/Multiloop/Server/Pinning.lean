import Mathlib.Data.List.Basic
import Mathlib.Logic.Function.Basic
import Multiloop.Framework.Transition

/-!
# The accept loops of `ConnectionPinningServer`

A server over `n` event loops: any number of callers start and close it, on
other threads, one lock or access of an attribute at a time, and the loops run
the accept loops and the tasks of the connections. A loop runs one of them until
it suspends. A call of `sock_accept` on a closed socket raises `EBADF` without
suspending.

The task of an accept loop makes its first step before a cancellation of its
future comes to it: the loop runs what was scheduled in this order.
-/

namespace Multiloop.ConnectionPinningServer

/-- What `sock_accept` raises. -/
inductive Fault
  /-- `BlockingIOError`, `InterruptedError`. -/
  | again
  /-- An `OSError` with one of the numbers of the list. -/
  | listed
  /-- Another `OSError`, or a `RuntimeError`. -/
  | other
deriving DecidableEq

inductive Accept
  | connection
  | fault (f : Fault)
  | suspends
deriving DecidableEq

/-- Where the task of an accept loop is. -/
inductive Phase
  /-- It has not begun. -/
  | posted
  /-- About to get the set of its event loop. -/
  | entering
  /-- At `while self.is_running`. -/
  | looking
  /-- About to call `sock_accept`. -/
  | accepting
  /-- Suspended in it. -/
  | waiting
  /-- About to create the task of a connection. -/
  | creating
  /-- About to add it to the set. -/
  | adding (c : Nat)
  /-- At `if not self.is_running` of a handler. -/
  | failed (listed : Bool)
  | sleeping
  | ended
deriving DecidableEq

/-- The loop runs the task. -/
def Phase.runs : Phase → Bool
  | .entering | .looking | .accepting | .creating | .adding _ | .failed _ => true
  | _ => false

structure Acceptor (n : Nat) where
  loop : Fin n
  socket : Nat
  phase : Phase
  /-- `worker_tasks`. -/
  tasks : Option Nat
  /-- Its future is cancelled, and `task.cancel` scheduled. -/
  cancelled : Bool
  /-- `task.cancel` was run. -/
  mustCancel : Bool

/-- What `call_soon_threadsafe(task.cancel)` did for a connection. -/
inductive Cancel
  | scheduled
  /-- It raised: the loop was closed. -/
  | loopClosed
deriving DecidableEq

/-- The task of a connection. -/
structure Connection where
  acceptor : Nat
  /-- The set that it was added to. -/
  tasks : Option Nat
  /-- The set was not in `_worker_conn_tasks` when the task was added. -/
  strayed : Bool
  done : Bool
  /-- `close` has cancelled it, or tried to. -/
  cancelled : Option Cancel

/-- What a caller of `start` and `close` is about to do. -/
inductive Doing
  | idle
  /-- `start`: the first lock. -/
  | checking
  /-- The second one. -/
  | opening
  /-- Under it: to bind and append a socket, the first `k` being there. -/
  | binding (reuse : Bool) (k : Nat)
  /-- To read the sockets. -/
  | planning (reuse : Bool)
  | launching (jobs : List (Nat × Nat))
  /-- `close`: the first lock. -/
  | stopping
  /-- The second one. -/
  | taking
  | cancelling (futures : List Nat)
  /-- To read the sockets. -/
  | listing
  | closing (sockets : List Nat)
  /-- `self._server_sockets = []`. -/
  | forgetting
  /-- `self._server_socket = None`. -/
  | forgettingLast
  | draining
  /-- The last lock. -/
  | snapshot
  | posting (connections : List Nat)
deriving DecidableEq

structure Sys (Caller : Type) (n : Nat) where
  running : Bool
  /-- The caller of `start` that holds `_running_lock` for more than one step. -/
  runningLock : Option Caller
  serverSockets : List Nat
  serverSocket : Option Nat
  acceptTasks : List Nat
  /-- The set of an event loop. -/
  workerConnTasks : Fin n → Option Nat
  /-- The tasks in a set. -/
  members : Nat → List Nat
  sets : Nat
  /-- The sockets that are closed, of those made so far. -/
  closed : Nat → Bool
  sockets : Nat
  acceptor : Nat → Acceptor n
  acceptors : Nat
  connection : Nat → Connection
  connections : Nat
  /-- The accept loop that an event loop runs. -/
  current : Fin n → Option Nat
  loopClosed : Fin n → Bool
  caller : Caller → Doing

inductive Action (Caller : Type) (n : Nat)
  | start (t : Caller)
  | close (t : Caller)
  /-- The caller goes on. `flag` tells whether a `bind` succeeds, the pool is
  running, or the time to drain is over. -/
  | advance (t : Caller) (flag : Bool)
  /-- An event loop begins with the task of an accept loop. -/
  | begin (a : Nat)
  /-- It runs `task.cancel`. -/
  | cancel (a : Nat)
  /-- It resumes the task. -/
  | resume (a : Nat) (r : Accept)
  /-- The task runs on. -/
  | turn (a : Nat) (r : Accept)
  /-- The task of a connection is done. -/
  | finish (c : Nat)
  /-- `_discard_task`. -/
  | discard (c : Nat)
  | closeLoop (l : Fin n)

namespace Sys

variable {Caller : Type} {n : Nat} (s : Sys Caller n)

/-- Sockets, sets, accept loops and connections are numbered. -/
def new (acceptor : Nat → Acceptor n) (connection : Nat → Connection) : Sys Caller n where
  running := false
  runningLock := none
  serverSockets := []
  serverSocket := none
  acceptTasks := []
  workerConnTasks _ := none
  members _ := []
  sets := 0
  closed _ := false
  sockets := 0
  acceptor := acceptor
  acceptors := 0
  connection := connection
  connections := 0
  current _ := none
  loopClosed _ := false
  caller _ := .idle

section Callers

variable [DecidableEq Caller]

def goto (t : Caller) (d : Doing) : Sys Caller n := { s with caller := Function.update s.caller t d }

/-- A socket is bound. -/
def bind (first : Bool) : Sys Caller n :=
  { s with
    serverSockets := s.serverSockets ++ [s.sockets]
    serverSocket := if first then some s.sockets else s.serverSocket
    sockets := s.sockets + 1 }

/-- `self._running = True`, and the lock is released. -/
def run (t : Caller) (reuse : Bool) : Sys Caller n := { s with running := true, runningLock := none }.goto t (.planning reuse)

/-- A socket is bound, or `bind` raises. -/
def binding (t : Caller) (flag : Bool) : Bool → Nat → Sys Caller n
  | true, k =>
    if flag then
      let s := s.bind (decide (k = 0))
      if k + 1 < n then s.goto t (.binding true (k + 1)) else s.run t true
    else
      { s with
        closed := fun i => s.closed i || decide (i ∈ s.serverSockets)
        serverSockets := [] }.goto t (.binding false 0)
  | false, _ => if flag then (s.bind true).run t false else { s with runningLock := none }.goto t .idle

/-- `run_coroutine_threadsafe` and `append`. -/
def launch (l : Fin n) (socket : Nat) : Sys Caller n :=
  { s with
    acceptor := Function.update s.acceptor s.acceptors ⟨l, socket, .posted, none, false, false⟩
    acceptors := s.acceptors + 1
    acceptTasks := s.acceptTasks ++ [s.acceptors] }

/-- The next accept loop is launched, unless `_get_loop` or `call_soon_threadsafe`
raises. -/
def launching (t : Caller) (flag : Bool) : List (Nat × Nat) → Sys Caller n
  | [] => s.goto t .idle
  | (i, socket) :: jobs =>
    if h : i < n then
      if flag ∧ s.loopClosed ⟨i, h⟩ = false then (s.launch ⟨i, h⟩ socket).goto t (.launching jobs) else s.goto t .idle
    else s.goto t .idle

/-- A future is cancelled. -/
def cancelFuture (a : Nat) : Sys Caller n :=
  { s with acceptor := Function.update s.acceptor a { s.acceptor a with cancelled := true } }

/-- `call_soon_threadsafe(task.cancel)`, which raises if the loop is closed. -/
def cancelConnection (c : Nat) : Sys Caller n :=
  let done := if s.loopClosed (s.acceptor (s.connection c).acceptor).loop then Cancel.loopClosed else .scheduled
  { s with connection := Function.update s.connection c { s.connection c with cancelled := some done } }

/-- The tasks of the sets of all event loops. -/
def tracked : List Nat := (List.finRange n).flatMap fun l => (s.workerConnTasks l).elim [] s.members

/-- The next lines of a caller, where it does not wait for the lock. -/
def advance (reuseport : Bool) (acceptorCount : Nat) (t : Caller) (flag : Bool) : Doing → Option (Sys Caller n)
  | .idle => none
  | .checking =>
    if s.runningLock = none then some (s.goto t (if s.running then .idle else .opening)) else none
  | .opening =>
    if s.runningLock = none then
      if s.running then some (s.goto t .idle)
      else
        some ({ s with serverSockets := [], acceptTasks := [], runningLock := some t }.goto t
          (.binding (reuseport && decide (1 < n)) 0))
    else none
  | .binding reuse k => some (s.binding t flag reuse k)
  | .planning true => some (s.goto t (.launching (s.serverSockets.zipIdx.map Prod.swap)))
  | .planning false =>
    match s.serverSockets with
    | socket :: _ => some (s.goto t (.launching ((List.range acceptorCount).map fun i => (i, socket))))
    -- An `IndexError`.
    | [] => some (s.goto t .idle)
  | .launching jobs => if s.runningLock = none then some (s.launching t flag jobs) else none
  | .stopping => if s.runningLock = none then some ({ s with running := false }.goto t .taking) else none
  | .taking =>
    if s.runningLock = none then some ({ s with acceptTasks := [] }.goto t (.cancelling s.acceptTasks)) else none
  | .cancelling [] => some (s.goto t .listing)
  | .cancelling (a :: futures) => some ((s.cancelFuture a).goto t (.cancelling futures))
  | .listing =>
    some (s.goto t (.closing (if s.serverSockets = [] then s.serverSocket.toList else s.serverSockets)))
  | .closing [] => some (s.goto t .forgetting)
  | .closing (i :: sockets) => some ({ s with closed := Function.update s.closed i true }.goto t (.closing sockets))
  | .forgetting => some ({ s with serverSockets := [] }.goto t .forgettingLast)
  | .forgettingLast => some ({ s with serverSocket := none }.goto t .draining)
  | .draining =>
    some (if flag ∨ ∀ c ∈ s.tracked, (s.connection c).done = true then s.goto t .snapshot else s.goto t .draining)
  | .snapshot => some ({ s with workerConnTasks := fun _ => none }.goto t (.posting s.tracked))
  | .posting [] => some (s.goto t .idle)
  | .posting (c :: connections) => some ((s.cancelConnection c).goto t (.posting connections))

end Callers

/-! ## The accept loops -/

/-- The task goes on to a phase. -/
def move (a : Nat) (p : Phase) : Sys Caller n :=
  { s with
    acceptor := Function.update s.acceptor a { s.acceptor a with phase := p }
    current := Function.update s.current (s.acceptor a).loop (if p.runs then some a else none) }

/-- `setdefault`. -/
def enter (a : Nat) : Sys Caller n :=
  let l := (s.acceptor a).loop
  match s.workerConnTasks l with
  | some w => { s with acceptor := Function.update s.acceptor a { s.acceptor a with tasks := some w } }
  | none =>
    { s with
      workerConnTasks := Function.update s.workerConnTasks l (some s.sets)
      sets := s.sets + 1
      acceptor := Function.update s.acceptor a { s.acceptor a with tasks := some s.sets } }

/-- `create_task`. -/
def create (a : Nat) : Sys Caller n :=
  { s with
    connection := Function.update s.connection s.connections ⟨a, none, false, false, none⟩
    connections := s.connections + 1 }

/-- The task of a connection is added to the set, and its callback to the task. -/
def add (a c : Nat) : Sys Caller n :=
  match (s.acceptor a).tasks with
  | some w =>
    { s with
      members := Function.update s.members w (s.members w ++ [c])
      connection := Function.update s.connection c
        { s.connection c with
          tasks := some w
          strayed := decide (s.workerConnTasks (s.acceptor a).loop ≠ some w) } }
  | none => s

/-- Where `sock_accept` leads. -/
def accept : Accept → Phase
  | .connection => .creating
  | .fault .again => .looking
  | .fault .listed => .failed true
  | .fault .other => .failed false
  | .suspends => .waiting

def turn (a : Nat) (r : Accept) : Phase → Option (Sys Caller n)
  | .entering => some ((s.enter a).move a .looking)
  | .looking => if s.runningLock = none then some (s.move a (if s.running then .accepting else .ended)) else none
  | .accepting => some (s.move a (if s.closed (s.acceptor a).socket then .failed true else accept r))
  | .creating => some ((s.create a).move a (.adding s.connections))
  | .adding c => some ((s.add a c).move a .looking)
  | .failed listed =>
    if s.runningLock = none then
      some (s.move a (if s.running then if listed then .looking else .sleeping else .ended))
    else none
  | _ => none

/-- The event loop of the task runs nothing else. -/
def free (a : Nat) : Bool :=
  s.current (s.acceptor a).loop = none ∧ s.loopClosed (s.acceptor a).loop = false

/-- The loop resumes the task. -/
def resume (a : Nat) (r : Accept) : Phase → Option (Sys Caller n)
  | .waiting =>
    if (s.acceptor a).mustCancel then some (s.move a .ended)
    else if r = .suspends then none
    else some (s.move a (accept r))
  | .sleeping => some (s.move a (if (s.acceptor a).mustCancel then .ended else .looking))
  | _ => none

def step [DecidableEq Caller] (reuseport : Bool) (acceptorCount : Nat) : Action Caller n → Option (Sys Caller n)
  | .start t => if s.caller t = .idle then some (s.goto t .checking) else none
  | .close t => if s.caller t = .idle then some (s.goto t .stopping) else none
  | .advance t flag => s.advance reuseport acceptorCount t flag (s.caller t)
  | .begin a =>
    if a < s.acceptors ∧ (s.acceptor a).phase = .posted ∧ s.free a then some (s.move a .entering) else none
  | .cancel a =>
    if a < s.acceptors ∧ (s.acceptor a).cancelled ∧ (s.acceptor a).phase ≠ .posted ∧ s.free a then
      some { s with acceptor := Function.update s.acceptor a { s.acceptor a with cancelled := false, mustCancel := true } }
    else none
  | .resume a r => if a < s.acceptors ∧ s.free a then s.resume a r (s.acceptor a).phase else none
  | .turn a r => if s.current (s.acceptor a).loop = some a then s.turn a r (s.acceptor a).phase else none
  | .finish c =>
    if c < s.connections ∧ (s.connection c).done = false ∧ s.free (s.connection c).acceptor then
      some { s with connection := Function.update s.connection c { s.connection c with done := true } }
    else none
  | .discard c =>
    if c < s.connections ∧ (s.connection c).done ∧ s.free (s.connection c).acceptor then
      (s.connection c).tasks.map fun w =>
        { s with members := Function.update s.members w ((s.members w).filter (· ≠ c)) }
    else none
  | .closeLoop l =>
    if s.current l = none ∧ s.loopClosed l = false then
      some { s with loopClosed := Function.update s.loopClosed l true }
    else none

end Sys

/-- The runs of a server that was just made. -/
def system {Caller : Type} {n : Nat} [DecidableEq Caller] (reuseport : Bool) (acceptorCount : Nat) :
    System (Sys Caller n) (Action Caller n) where
  init s := ∃ acceptor connection, s = Sys.new acceptor connection
  step s := s.step reuseport acceptorCount

end Multiloop.ConnectionPinningServer
