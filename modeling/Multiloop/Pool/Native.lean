import Mathlib.Data.List.FinRange
import Multiloop.Framework.Transition

/-!
# `NativeWorkerPool`

The task queues of the thread pool (`pool.rs`): one unbounded global queue,
one bounded queue for each worker and one private buffer for each worker.
Any number of threads call `push_global`, `push_local`, `pop_work` and
`close`; every atomic operation and every critical section that holds one
effect is one step, and the steps of different calls come in any order. A
queue is a flume channel: its items in order, read and written atomically,
which outlive the senders.

A lock guard that lives to the end of its function is held in the state from
`lock()` to the return, so that a return and the drop of its guard are one
step. Between the lock of its buffer and the drop of that guard a worker is
alone with the buffer, so `try_recv` and the `push_back` of what it returned
are one step.

`accepted`, `refused`, `sent`, `pinned`, `spilled`, `popped`, `raised` and
`closes` record what happened and are never read.
-/

namespace Multiloop.NativeWorkerPool

/-- `_LOCAL_QUEUE_CAPACITY` -/
def localQueueCapacity : Nat := 256

/-- The task of one `push_global` (`target = none`) or `push_local(i, ..)`
(`target = some i`), with the thread that made the call and how many it had
made before, so that one object pushed twice is two jobs. -/
structure Job (Thread τ : Type) where
  caller : Thread
  number : Nat
  target : Option Nat
  task : τ
deriving DecidableEq

inductive PushError
  /-- `ThreadPoolClosedError("Pool is closed")` -/
  | closed
  /-- `RuntimeError("Worker index out of range")` -/
  | outOfRange
deriving DecidableEq

/-- Where a thread is in its call. -/
inductive Stage (Thread : Type) (n : Nat) (τ : Type)
  | idle
  /-- `push_global`: about to load `is_closed`. -/
  | globalFlag (j : Job Thread τ)
  /-- `push_global`: about to lock `global_sender`. -/
  | globalLock (j : Job Thread τ)
  /-- `push_global`: holds `global_sender`. -/
  | globalSend (j : Job Thread τ)
  /-- `push_global`: about to return and drop the guard. -/
  | globalReturn (j : Job Thread τ) (r : Except PushError Unit)
  /-- `push_local`: about to load `is_closed`. -/
  | localFlag (i : Nat) (j : Job Thread τ)
  | localLock (i : Nat) (j : Job Thread τ)
  /-- `push_local`: holds `local_senders`. -/
  | localSend (i : Nat) (j : Job Thread τ)
  | localReturn (j : Job Thread τ) (r : Except PushError Unit)
  /-- `push_local`: the queue was full, about to drop the guard and call `push_global`. -/
  | localFull (j : Job Thread τ)
  /-- `close`: about to take the global sender away. -/
  | closeGlobal
  /-- `close`: about to clear the local senders. -/
  | closeLocal
  /-- `close`: about to store `is_closed` and return. -/
  | closeFlag
  /-- `pop_work`: about to lock the buffer. -/
  | bufferLock (i : Fin n)
  /-- `pop_work`: holds the buffer from here to `bufferLeave`. -/
  | bufferPop (i : Fin n)
  /-- `pop_work`: about to load `is_closed` into `is_draining`. -/
  | drainFlag (i : Fin n)
  /-- `pop_work`: not draining, about to add itself to `num_polling`. -/
  | pollerGate (i : Fin n)
  /-- `pop_work`: a poller, about to read the length of the global queue. -/
  | globalLen (i : Fin n) (draining : Bool)
  /-- `pop_work`: about to pull up to `k` more tasks. -/
  | pull (i : Fin n) (draining : Bool) (k : Nat)
  /-- `pop_work`: the batch is in, about to `pop_front`. -/
  | bufferTake (i : Fin n) (draining : Bool)
  /-- `pop_work`: about to drop the poller guard and the buffer's. -/
  | bufferLeave (i : Fin n) (draining : Bool)
  /-- `pop_work`: about to try the local queue. -/
  | localRecv (i : Fin n)
  /-- `pop_work`: found nothing, about to load `is_closed` again. -/
  | exitFlag (i : Nat)
  | exitBuffer (i : Nat)
  | exitLocal (i : Nat) (bufferEmpty : Bool)
  | exitGlobal (i : Nat) (bufferEmpty localEmpty : Bool)

/-- The fields of `NativeWorkerPool`; the receivers are the queues. -/
structure Pool (Thread : Type) (n : Nat) (τ : Type) where
  /-- `global_sender` is `Some`. -/
  globalSender : Bool
  globalQueue : List (Job Thread τ)
  /-- The vector of senders, each named by its queue. -/
  localSenders : List (Fin n)
  localQueue : Fin n → List (Job Thread τ)
  buffer : Fin n → List (Job Thread τ)
  isClosed : Bool
  numPolling : Nat

namespace Pool

variable {Thread τ : Type} {n : Nat}

/-- `NativeWorkerPool::new(num_threads)` -/
def new : Pool Thread n τ where
  globalSender := true
  globalQueue := []
  localSenders := List.finRange n
  localQueue _ := []
  buffer _ := []
  isClosed := false
  numPolling := 0

/-- `is_drained` -/
def isDrained (p : Pool Thread n τ) : Bool :=
  p.globalQueue.isEmpty && (List.finRange n).all (fun i => (p.buffer i).isEmpty) &&
    (List.finRange n).all fun i => (p.localQueue i).isEmpty

/-- The bound of the poller gate. -/
def maxPollers (n : Nat) : Nat := max 1 (n / 2)

/-- How many tasks a poller pulls from a global queue of `len` tasks. -/
def batchSize (n len : Nat) (draining : Bool) : Nat :=
  if draining then min len 128 else if n = 0 then 1 else min (len / n + 1) 128

end Pool

inductive Action (Thread τ : Type)
  /-- The thread calls `push_global`; `none` is the Python object `None`. -/
  | pushGlobal (t : Thread) (task : Option τ)
  | pushLocal (t : Thread) (index : Nat) (task : Option τ)
  | close (t : Thread)
  | popWork (t : Thread) (index : Nat)
  /-- The thread makes the next step of its call. -/
  | advance (t : Thread)

structure Sys (Thread : Type) (n : Nat) (τ : Type) where
  pool : Pool Thread n τ
  /-- Who holds the mutex around `global_sender`. -/
  globalMutex : Option Thread
  localMutex : Option Thread
  bufferMutex : Fin n → Option Thread
  stage : Thread → Stage Thread n τ
  /-- The push calls each thread has made. -/
  pushes : Thread → Nat
  /-- The jobs whose push returned `Ok`. -/
  accepted : List (Job Thread τ)
  refused : List (Job Thread τ × PushError)
  /-- The jobs that were put into a queue. -/
  sent : List (Job Thread τ)
  /-- The jobs put into each local queue, in order. -/
  pinned : Fin n → List (Job Thread τ)
  /-- The jobs that found their local queue full, with its length. -/
  spilled : List (Job Thread τ × Nat)
  /-- The results of `pop_work`, with its index, in order. -/
  popped : List (Fin n × Job Thread τ)
  /-- The indices for which `pop_work` raised `ThreadPoolClosedError`. -/
  raised : List Nat
  /-- The `close` calls that returned. -/
  closes : Nat

namespace Sys

variable {Thread τ : Type} {n : Nat}

def new : Sys Thread n τ where
  pool := .new
  globalMutex := none
  localMutex := none
  bufferMutex _ := none
  stage _ := .idle
  pushes _ := 0
  accepted := []
  refused := []
  sent := []
  pinned _ := []
  spilled := []
  popped := []
  raised := []
  closes := 0

variable [DecidableEq Thread] (s : Sys Thread n τ) (t : Thread)

def goto (p : Stage Thread n τ) : Sys Thread n τ := { s with stage := Function.update s.stage t p }

/-- The push of `j` returns `r`. -/
def answer (j : Job Thread τ) : Except PushError Unit → Sys Thread n τ
  | .ok () => { s with accepted := s.accepted ++ [j] }
  | .error e => { s with refused := s.refused ++ [(j, e)] }

/-- `sender.send(task)` on the global queue. -/
def sendGlobal (j : Job Thread τ) : Sys Thread n τ :=
  { s with pool := { s.pool with globalQueue := s.pool.globalQueue ++ [j] }, sent := s.sent ++ [j] }

/-- `guard[index].try_send(task)` with room in queue `i`. -/
def sendLocal (i : Fin n) (j : Job Thread τ) : Sys Thread n τ :=
  { s with
    pool := { s.pool with localQueue := Function.update s.pool.localQueue i (s.pool.localQueue i ++ [j]) }
    sent := s.sent ++ [j]
    pinned := Function.update s.pinned i (s.pinned i ++ [j]) }

def spill (i : Fin n) (j : Job Thread τ) : Sys Thread n τ :=
  { s with spilled := s.spilled ++ [(j, (s.pool.localQueue i).length)] }

/-- `try_recv` on the global queue and `push_back` into buffer `i`. -/
def pullOne (i : Fin n) (j : Job Thread τ) (rest : List (Job Thread τ)) : Sys Thread n τ :=
  { s with
    pool :=
      { s.pool with globalQueue := rest, buffer := Function.update s.pool.buffer i (s.pool.buffer i ++ [j]) } }

/-- The `PollerGuard` and the guard of buffer `i` are dropped. -/
def leaveBuffer (i : Fin n) (polling : Bool) : Sys Thread n τ :=
  { s with
    pool := { s.pool with numPolling := if polling then s.pool.numPolling - 1 else s.pool.numPolling }
    bufferMutex := Function.update s.bufferMutex i none }

/-- `pop_work(i)` returns the front of buffer `i`. -/
def popBuffer (i : Fin n) (j : Job Thread τ) (rest : List (Job Thread τ)) : Sys Thread n τ :=
  { s with
    pool := { s.pool with buffer := Function.update s.pool.buffer i rest }
    popped := s.popped ++ [(i, j)] }

/-- `pop_work(i)` returns the front of local queue `i`. -/
def popLocal (i : Fin n) (j : Job Thread τ) (rest : List (Job Thread τ)) : Sys Thread n τ :=
  { s with
    pool := { s.pool with localQueue := Function.update s.pool.localQueue i rest }
    popped := s.popped ++ [(i, j)] }

/-- A push call with a new job starts. -/
def call (target : Option Nat) (x : τ) (start : Job Thread τ → Stage Thread n τ) : Sys Thread n τ :=
  { s with pushes := Function.update s.pushes t (s.pushes t + 1) }.goto t (start ⟨t, s.pushes t, target, x⟩)

/-- `push_global` with the guard held: the send, or the error. -/
def sendStep (j : Job Thread τ) : Sys Thread n τ :=
  if s.pool.globalSender then (s.sendGlobal j).goto t (.globalReturn j (.ok ()))
  else s.goto t (.globalReturn j (.error .closed))

/-- `push_local` with the guard held. -/
def trySendStep (i : Nat) (j : Job Thread τ) : Sys Thread n τ :=
  if s.pool.localSenders.isEmpty then s.goto t (.localReturn j (.error .closed))
  else
    match s.pool.localSenders[i]? with
    | none => s.goto t (.localReturn j (.error .outOfRange))
    | some k =>
      if (s.pool.localQueue k).length < localQueueCapacity then
        (s.sendLocal k j).goto t (.localReturn j (.ok ()))
      else (s.spill k j).goto t (.localFull j)

/-- `pop_work` past the first look into the buffer, which was empty. -/
def drainStep (i : Fin n) : Sys Thread n τ :=
  if s.pool.isClosed then s.goto t (.globalLen i true) else s.goto t (.pollerGate i)

def pollerStep (i : Fin n) : Sys Thread n τ :=
  { s with pool := { s.pool with numPolling := s.pool.numPolling + 1 } }.goto t
    (if s.pool.numPolling < Pool.maxPollers n then .globalLen i false else .bufferLeave i false)

def lenStep (i : Fin n) (draining : Bool) : Sys Thread n τ :=
  if 0 < s.pool.globalQueue.length then
    s.goto t (.pull i draining (Pool.batchSize n s.pool.globalQueue.length draining))
  else s.goto t (.bufferLeave i draining)

def pullStep (i : Fin n) (draining : Bool) : Nat → Sys Thread n τ
  | 0 => s.goto t (.bufferTake i draining)
  | k + 1 =>
    match s.pool.globalQueue with
    | [] => s.goto t (.bufferTake i draining)
    | j :: rest => (s.pullOne i j rest).goto t (.pull i draining k)

def takeStep (i : Fin n) (draining : Bool) : Sys Thread n τ :=
  match s.pool.buffer i with
  | [] => s.goto t (.bufferLeave i draining)
  | j :: rest => ((s.popBuffer i j rest).leaveBuffer i (!draining)).goto t .idle

def popStep (i : Fin n) : Sys Thread n τ :=
  match s.pool.buffer i with
  | [] => s.goto t (.drainFlag i)
  | j :: rest => ((s.popBuffer i j rest).leaveBuffer i false).goto t .idle

def recvStep (i : Fin n) : Sys Thread n τ :=
  match s.pool.localQueue i with
  | [] => s.goto t (.exitFlag i)
  | j :: rest => (s.popLocal i j rest).goto t .idle

/-- The last check of `pop_work`: `Err(..)` if everything it saw was empty, else `Ok(None)`. -/
def exitStep (i : Nat) (bufferEmpty localEmpty : Bool) : Sys Thread n τ :=
  if s.pool.globalQueue.isEmpty && bufferEmpty && localEmpty then
    { s with raised := s.raised ++ [i] }.goto t .idle
  else s.goto t .idle

/-- The emptiness of the queue of an index, `true` out of range. -/
def emptyAt (q : Fin n → List (Job Thread τ)) (i : Nat) : Bool :=
  if h : i < n then (q ⟨i, h⟩).isEmpty else true

/-- The next step of the call thread `t` is in; `none` while it waits for a mutex. -/
def advance : Option (Sys Thread n τ) :=
  match s.stage t with
  | .idle => none
  | .globalFlag j =>
    if s.pool.isClosed then some ((s.answer j (.error .closed)).goto t .idle)
    else some (s.goto t (.globalLock j))
  | .globalLock j =>
    if s.globalMutex.isNone then some ({ s with globalMutex := some t }.goto t (.globalSend j)) else none
  | .globalSend j => some (s.sendStep t j)
  | .globalReturn j r => some (({ s with globalMutex := none }.answer j r).goto t .idle)
  | .localFlag i j =>
    if s.pool.isClosed then some ((s.answer j (.error .closed)).goto t .idle)
    else some (s.goto t (.localLock i j))
  | .localLock i j =>
    if s.localMutex.isNone then some ({ s with localMutex := some t }.goto t (.localSend i j)) else none
  | .localSend i j => some (s.trySendStep t i j)
  | .localReturn j r => some (({ s with localMutex := none }.answer j r).goto t .idle)
  | .localFull j => some ({ s with localMutex := none }.goto t (.globalFlag j))
  | .closeGlobal =>
    if s.globalMutex.isNone then
      some ({ s with pool := { s.pool with globalSender := false } }.goto t .closeLocal)
    else none
  | .closeLocal =>
    if s.localMutex.isNone then
      some ({ s with pool := { s.pool with localSenders := [] } }.goto t .closeFlag)
    else none
  | .closeFlag =>
    some ({ s with pool := { s.pool with isClosed := true }, closes := s.closes + 1 }.goto t .idle)
  | .bufferLock i =>
    if (s.bufferMutex i).isNone then
      some ({ s with bufferMutex := Function.update s.bufferMutex i (some t) }.goto t (.bufferPop i))
    else none
  | .bufferPop i => some (s.popStep t i)
  | .drainFlag i => some (s.drainStep t i)
  | .pollerGate i => some (s.pollerStep t i)
  | .globalLen i draining => some (s.lenStep t i draining)
  | .pull i draining k => some (s.pullStep t i draining k)
  | .bufferTake i draining => some (s.takeStep t i draining)
  | .bufferLeave i draining => some ((s.leaveBuffer i (!draining)).goto t (.localRecv i))
  | .localRecv i => some (s.recvStep t i)
  | .exitFlag i => some (if s.pool.isClosed then s.goto t (.exitBuffer i) else s.goto t .idle)
  | .exitBuffer i =>
    -- the buffer is locked only to look into it
    if h : i < n then
      if (s.bufferMutex ⟨i, h⟩).isNone then
        some (s.goto t (.exitLocal i (s.pool.buffer ⟨i, h⟩).isEmpty))
      else none
    else some (s.goto t (.exitLocal i true))
  | .exitLocal i bufferEmpty => some (s.goto t (.exitGlobal i bufferEmpty (emptyAt s.pool.localQueue i)))
  | .exitGlobal i bufferEmpty localEmpty => some (s.exitStep t i bufferEmpty localEmpty)

def isIdle : Bool :=
  match s.stage t with
  | .idle => true
  | _ => false

def step : Action Thread τ → Option (Sys Thread n τ)
  | .pushGlobal t task =>
    if s.isIdle t then
      match task with
      | none => some s -- `TypeError("pool task cannot be None")`
      | some x => some (s.call t none x .globalFlag)
    else none
  | .pushLocal t index task =>
    if s.isIdle t then
      match task with
      | none => some s
      | some x => some (s.call t (some index) x (.localFlag index))
    else none
  | .close t => if s.isIdle t then some (s.goto t .closeGlobal) else none
  | .popWork t index =>
    if s.isIdle t then
      some (s.goto t (if h : index < n then .bufferLock ⟨index, h⟩ else .exitFlag index))
    else none
  | .advance t => s.advance t

end Sys

/-- The pool under every interleaving of calls. -/
def system (Thread : Type) (n : Nat) (τ : Type) [DecidableEq Thread] :
    System (Sys Thread n τ) (Action Thread τ) where
  init s := s = .new
  step := Sys.step

end Multiloop.NativeWorkerPool
