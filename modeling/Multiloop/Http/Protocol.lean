import Multiloop.Http.Engine
import Multiloop.Http.Response

/-!
# `Http11Protocol`

A connection of `_http11.py`: the engine, the transport, and the tasks that run
the application. A step is what runs up to the next suspension. `receive` and
`send` may be called by anyone who was given them, also after the cycle they
belong to has ended. A call of `receive` may be suspended, in `get()` of the
queue that it found or in `wait()` of the event; it goes on when that allows,
whatever was put in place of the queue meanwhile, unless it is cancelled. A
transport that is full makes `send` wait, which `Draining` adds. A panic of the
engine is no `Exception`: the event loop closes the transport of a
`data_received` that lets one pass.
-/

namespace Multiloop.Http

inductive HTTPState
  | waitingHeader
  | servingApp
  | keepAliveWait
  | closed
deriving DecidableEq

/-! ## The transport -/

structure Transport where
  /-- What was written. -/
  wire : Bytes
  paused : Bool
  closing : Bool
  /-- It has not sent all of that yet, and takes more also while it is closing. -/
  flushing : Bool

namespace Transport

variable (t : Transport)

def write (bs : Bytes) : Transport := if t.closing ∧ ¬ t.flushing then t else { t with wire := t.wire ++ bs }

def pauseReading : Transport := if t.closing then t else { t with paused := true }

def resumeReading : Transport := if t.closing then t else { t with paused := false }

def close : Transport := { t with closing := true }

end Transport

/-! ## The tasks -/

inductive TaskStatus
  | scheduled
  | running
  | finished
deriving DecidableEq

/-- A task that `_handle_events` creates for a request, with the variables of
`_serve_http_cycle`. -/
structure Cycle where
  start : RequestStart
  status : TaskStatus
  cancelled : Bool
  emptyBodyDelivered : Bool
  response : Response
  bytesWritten : Bool

namespace Cycle

variable (t : Cycle)

def new (start : RequestStart) : Cycle where
  start
  status := .scheduled
  cancelled := false
  emptyBodyDelivered := false
  response := .new start.keepAlive
  bytesWritten := false

/-- The task is not done. -/
def live : Bool := t.status ≠ .finished

def cancel : Cycle := if t.live then { t with cancelled := true } else t

end Cycle

/-- How the application ends. -/
inductive Ending
  | returned
  /-- It raised an `Exception`. -/
  | raised
  /-- It raised what is no `Exception`, such as a cancellation. -/
  | escaped
deriving DecidableEq

/-- What `receive` returns. -/
inductive Received
  | request (body : Bytes) (moreBody : Bool)
  | disconnect
  | panicked
  /-- It asked for the size of the queue, and there is none. -/
  | attributeError
deriving DecidableEq

/-- What a call of `receive` waits for. -/
inductive Suspension
  /-- `_disconnect_event.wait()`, which ends once the event was `set`. -/
  | disconnect (set : Bool)
  /-- `get()` of a queue. -/
  | get (queue : Nat)
deriving DecidableEq

/-- A call of `receive` that is suspended. -/
structure Receiving where
  task : Nat
  suspension : Suspension
deriving DecidableEq

/-- `_disconnect_event` is set. -/
def Receiving.wake (c : Receiving) : Receiving :=
  match c.suspension with
  | .disconnect _ => { c with suspension := .disconnect true }
  | .get _ => c

structure Http11Protocol where
  state : HTTPState
  transport : Transport
  conn : FastHttpConnection
  bodyQueue : Option Nat
  /-- What is in the queues, each under the number of the task it was made for. -/
  queues : Nat → List (Bytes × Bool)
  disconnectEvent : Bool
  /-- The calls of `receive` that are suspended. -/
  receiving : List Receiving
  currentTask : Option Nat
  upgraded : Bool
  pendingPipelineEvents : List RequestStart
  /-- The tasks created so far. -/
  tasks : List Cycle

namespace Http11Protocol

def maxRequestBody : Nat := 10 * 1024 * 1024
def maxHeaderSize : Nat := 64 * 1024
def maxKeepaliveRequests : Nat := 1000
def queueMaxSize : Nat := 32
def queueResumeSize : Nat := 16

/-- After `connection_made`. -/
def new : Http11Protocol where
  state := .waitingHeader
  transport := { wire := [], paused := false, closing := false, flushing := false }
  conn := .new maxRequestBody maxHeaderSize maxKeepaliveRequests
  bodyQueue := none
  queues := fun _ => []
  disconnectEvent := false
  receiving := []
  currentTask := none
  upgraded := false
  pendingPipelineEvents := []
  tasks := []

variable (parse : Httparse) (p : Http11Protocol)

def createTask (start : RequestStart) : Http11Protocol :=
  { p with tasks := p.tasks ++ [.new start], currentTask := some p.tasks.length }

/-- A cycle for a request begins. -/
def serve (start : RequestStart) : Http11Protocol :=
  { p with
    state := .servingApp
    bodyQueue := if start.hasBody then some p.tasks.length else none
    queues := Function.update p.queues p.tasks.length []
    disconnectEvent := false }.createTask start

/-- `_disconnect_event.set()`. -/
def disconnect : Http11Protocol :=
  { p with disconnectEvent := true, receiving := p.receiving.map Receiving.wake }

def close : Http11Protocol :=
  if p.state = .closed then p
  else
    { p.disconnect with
      state := .closed
      transport := p.transport.close
      tasks := match p.currentTask with
        | some i => p.tasks.modify i Cycle.cancel
        | none => p.tasks
      currentTask := none }

/-- One round of the loop of `_handle_events`. -/
def handleEvent : Event → Http11Protocol
  | .requestStart start =>
    if start.isWebsocket then { p with state := .servingApp }.createTask start
    else if p.state = .servingApp then
      { p with pendingPipelineEvents := p.pendingPipelineEvents ++ [start] }
    else p.serve start
  | .body chunk moreBody =>
    match p.bodyQueue with
    | some q =>
      let queue := p.queues q ++ [(chunk, moreBody)]
      { p with
        queues := Function.update p.queues q queue
        transport := if queue.length ≥ queueMaxSize then p.transport.pauseReading else p.transport }
    | none => p
  | .upgrade _ => p
  | .message _ _ _ => p
  | .error _ response => { p with transport := (p.transport.write response).close }.close

def handleEvents (events : List Event) : Http11Protocol := events.foldl handleEvent p

/-- `pump_events` and `_handle_events` for what it returns; nothing if it
panics. -/
def pump : Option Http11Protocol :=
  let o := p.conn.pumpEvents .release parse
  if o.fault = none then some ({ p with conn := o.conn }.handleEvents o.events) else none

/-- The connection as a call of the engine that panics leaves it. -/
def afterPump : Http11Protocol :=
  (p.pump parse).getD { p with conn := (p.conn.pumpEvents .release parse).conn }

def dataReceived (data : Bytes) : Http11Protocol :=
  if p.upgraded then p
  else
    let o := p.conn.feedData .release parse data
    let p := { p with conn := o.conn }
    if o.fault = none then p.handleEvents o.events else { p with transport := p.transport.close }

def eofReceived : Http11Protocol :=
  if p.upgraded then p else { p with transport := p.transport.close }

def connectionLost : Http11Protocol := { p with transport := p.transport.close }.close

/-! ## `_serve_http_cycle` -/

def setTask (i : Nat) (t : Cycle) : Http11Protocol := { p with tasks := p.tasks.set i t }

/-- The task runs for the first time, unless it was cancelled before. -/
def begin (i : Nat) (t : Cycle) : Http11Protocol :=
  if t.cancelled then p.setTask i { t with status := .finished }
  else { p.setTask i { t with status := .running } with upgraded := p.upgraded || t.start.isWebsocket }

/-- An item was taken from queue `q`, and `queue` is left. -/
def dequeue (q : Nat) (queue : List (Bytes × Bool)) : Http11Protocol :=
  { p with queues := Function.update p.queues q queue }

/-- `receive`, from where `get()` of queue `q` returns, which it does not as
long as the queue is empty. -/
def take (q : Nat) : Option (Received × Http11Protocol) :=
  match p.queues q with
  | [] => none
  | (chunk, more) :: queue =>
    let p := p.dequeue q queue
    if ¬ more then some (.request chunk more, { p with bodyQueue := none })
    else match p.bodyQueue with
      | none => some (.attributeError, p)
      | some current =>
        if (p.queues current).length ≤ queueResumeSize then
          let p := { p with transport := p.transport.resumeReading }
          match p.pump parse with
          | some p => some (.request chunk more, p)
          | none => some (.panicked, p.afterPump parse)
        else some (.request chunk more, p)

def suspend (i : Nat) (suspension : Suspension) : Http11Protocol :=
  { p with receiving := p.receiving ++ [⟨i, suspension⟩] }

/-- `receive`, up to where it returns or is suspended. -/
def receive (i : Nat) (t : Cycle) : Option Received × Http11Protocol :=
  if ¬ t.start.hasBody ∧ ¬ t.emptyBodyDelivered then
    (some (.request [] false), p.setTask i { t with emptyBodyDelivered := true })
  else match (if t.start.hasBody then p.bodyQueue else none) with
    | none => if p.disconnectEvent then (some .disconnect, p) else (none, p.suspend i (.disconnect false))
    | some q =>
      match p.take parse q with
      | some (r, p) => (some r, p)
      | none => (none, p.suspend i (.get q))

/-- The `k`-th call that is suspended is so no more. -/
def forget (k : Nat) : Http11Protocol := { p with receiving := p.receiving.eraseIdx k }

/-- The `k`-th call that is suspended goes on, if it can. -/
def resume (k : Nat) (c : Receiving) : Option (Received × Http11Protocol) :=
  match c.suspension with
  | .disconnect set => if set then some (.disconnect, p.forget k) else none
  | .get q => (p.forget k).take parse q

/-- `send`; what it raises changes nothing. -/
def send (i : Nat) (t : Cycle) (date : Bytes) (message : Message) : Http11Protocol :=
  match t.response.send t.start.method date message with
  | .error _ => p
  | .ok response =>
    let transport := p.transport.write (response.wire.drop t.response.wire.length)
    { p.setTask i { t with
        response
        bytesWritten := t.bytesWritten || (match message with | .body _ _ => true | _ => false) } with
      transport := if response.closed then transport.close else transport }

/-- The response to a request whose application raised. -/
def errResp (date : Bytes) : Bytes :=
  bytes "HTTP/1.1 500 Internal Server Error\r\n" ++ serverHeader ++ dateHeader date ++
    bytes "connection: close\r\ncontent-length: 21\r\n\r\nInternal Server Error"

/-- The `finally` block. -/
def afterCycle : Http11Protocol :=
  let p := { p.disconnect with conn := p.conn.resetForNextRequest }
  if p.conn.isClosed then { p with transport := p.transport.close }
  else
    let p := { p with state := .keepAliveWait }
    match p.pendingPipelineEvents with
    | start :: pending => { p with pendingPipelineEvents := pending }.serve start
    | [] => p.afterPump parse

/-- The application ends. -/
def finish (i : Nat) (t : Cycle) (date : Bytes) (ending : Ending) : Http11Protocol :=
  -- The task is done after its last step, in which nothing can cancel it.
  let p := p.setTask i { t with status := .finished }
  if t.start.isWebsocket then
    if ending = .returned then p.close else p
  else
    let p := if ending = .raised ∧ ¬ t.bytesWritten ∧ ¬ p.transport.closing then
        { p with transport := (p.transport.write (errResp date)).close }
      else p
    p.afterCycle parse

/-! ## The runs -/

inductive Action
  | dataReceived (data : Bytes)
  | eofReceived
  | connectionLost
  | begin (i : Nat)
  | receive (i : Nat)
  /-- A call of `receive` that is suspended goes on. -/
  | resume (k : Nat)
  /-- It is cancelled. -/
  | abandon (k : Nat)
  | send (i : Nat) (date : Bytes) (message : Message)
  | finish (i : Nat) (date : Bytes) (ending : Ending)

def step : Action → Option Http11Protocol
  | .dataReceived data =>
    -- A `Vec` has at most `isize::MAX` bytes.
    if ¬ p.transport.closing ∧ ¬ p.transport.paused ∧ (p.conn.buffer ++ data).length < 2 ^ 63 then
      some (p.dataReceived parse data)
    else none
  | .eofReceived => if p.transport.closing then none else some p.eofReceived
  | .connectionLost => some p.connectionLost
  | .begin i => do
    let t ← p.tasks[i]?
    if t.status = .scheduled then some (p.begin i t) else none
  | .receive i => do
    let t ← p.tasks[i]?
    if t.status = .scheduled ∨ t.start.isWebsocket then none else some (p.receive parse i t).2
  | .resume k => do
    let c ← p.receiving[k]?
    (p.resume parse k c).map Prod.snd
  | .abandon k => if k < p.receiving.length then some (p.forget k) else none
  | .send i date message => do
    let t ← p.tasks[i]?
    if t.status = .scheduled ∨ t.start.isWebsocket then none else some (p.send i t date message)
  | .finish i date ending => do
    let t ← p.tasks[i]?
    if t.status = .running then some (p.finish parse i t date ending) else none

end Http11Protocol

/-- The runs of a connection. -/
def http11 (parse : Httparse) : System Http11Protocol Http11Protocol.Action where
  init p := p = .new
  step := Http11Protocol.step parse

end Multiloop.Http
