import Multiloop.Http.Serving

/-!
# A transport that is full

`send` of `_serve_http_cycle` writes a part of the response, waits as long as
`_drain_event` is clear, and only then records how far the response is.
`pause_writing` clears the event, `resume_writing` sets it. A call that waits
may be cancelled, and then records nothing; meanwhile `send` may be called
again. While the event is set, `send` is the one of `Http11Protocol`. A
transport that is closed before it has sent what was written still takes what
is written to it, until it has.
-/

namespace Multiloop.Http

/-! ## `send` -/

/-- `send` of a part of the body, up to where it may wait, and whether it wrote
the head. -/
def Response.write (method date : Bytes) (r : Response) (body : Bytes) (moreBody : Bool) :
    Except SendError (Response × Bool) :=
  match r.respStatus with
  | .headersSent status headers => do
    let (wireBytes, _, keepAlive) ← formatResponse status serverHeader (dateHeader date) headers body moreBody
      (isNoBody method status) r.keepAlive
    return ({ r with keepAlive, wire := r.wire ++ wireBytes }, true)
  | .streaming => .ok ({ r with wire := r.wire ++ formatChunk body moreBody }, false)
  | _ => .error (.runtime "http.response.body sent before http.response.start or after completion")

/-- `send`, from where it goes on. -/
def Response.goOn (r : Response) (first moreBody : Bool) : Response :=
  if first then
    if moreBody then { r with respStatus := .streaming }
    else { r with respStatus := .complete, closed := r.closed || !r.keepAlive }
  else if moreBody then r
  else { r with respStatus := .complete }

/-- A call that does not wait is both. -/
theorem Response.send_body (method date : Bytes) (r : Response) (body : Bytes) (moreBody : Bool) :
    r.send method date (.body body moreBody) =
      (r.write method date body moreBody).map fun w => w.1.goOn w.2 moreBody := by
  obtain ⟨respStatus, keepAlive, wire, closed⟩ := r
  cases respStatus with
  | headersSent status headers =>
    unfold Response.send write
    dsimp only
    cases hformat : formatResponse status serverHeader (dateHeader date) headers body moreBody (isNoBody method status)
        keepAlive with
    | error e => rfl
    | ok w =>
      cases moreBody with
      | true =>
        show Except.ok _ = Except.ok _
        rw [Bool.not_true, Bool.false_and, Bool.or_false]
        rfl
      | false => rfl
  | streaming =>
    cases moreBody with
    | true => rfl
    | false => rfl
  | initial => rfl
  | complete => rfl

/-! ## The connection -/

/-- A call of `send` that waits. -/
structure Sending where
  task : Nat
  /-- It wrote the head of the response. -/
  first : Bool
  moreBody : Bool
  /-- The event was set meanwhile. -/
  woken : Bool

structure Draining where
  protocol : Http11Protocol
  /-- `_drain_event` is set. -/
  drainEvent : Bool
  /-- The calls of `send` that wait for it. -/
  sending : List Sending

namespace Draining

def new : Draining where
  protocol := .new
  drainEvent := true
  sending := []

variable (parse : Httparse) (d : Draining)

/-- `send` of a part of the body, while the event is clear; what it raises
changes nothing. -/
def write (i : Nat) (t : Cycle) (date body : Bytes) (moreBody : Bool) : Draining :=
  match t.response.write t.start.method date body moreBody with
  | .error _ => d
  | .ok (response, first) =>
    { d with
      protocol := { d.protocol.setTask i { t with response, bytesWritten := true } with
        transport := d.protocol.transport.write (response.wire.drop t.response.wire.length) }
      sending := d.sending ++ [⟨i, first, moreBody, false⟩] }

/-- The `k`-th call that waits does so no more. -/
def forget (k : Nat) : Draining := { d with sending := d.sending.eraseIdx k }

/-- A call `s` of `send` that waited goes on. -/
def goOn (s : Sending) (t : Cycle) : Draining :=
  let response := t.response.goOn s.first s.moreBody
  { d with
    protocol := { d.protocol.setTask s.task { t with response } with
      transport := if response.closed then d.protocol.transport.close else d.protocol.transport } }

def pauseWriting : Draining := { d with drainEvent := false }

/-- The socket takes less than is written. -/
def fill : Draining :=
  { d with protocol := { d.protocol with transport := { d.protocol.transport with flushing := true } } }

/-- What was written is sent. -/
def flush : Draining :=
  { d with protocol := { d.protocol with transport := { d.protocol.transport with flushing := false } } }

def resumeWriting : Draining :=
  { d with drainEvent := true, sending := d.sending.map fun s => { s with woken := true } }

/-! ## The runs -/

inductive Action
  /-- A step of the connection, in which `send` waits if the event is clear. -/
  | callback (a : Http11Protocol.Callback)
  /-- A call of `send` that waits goes on. -/
  | goOn (k : Nat)
  /-- It is cancelled. -/
  | abandon (k : Nat)
  | fill
  | flush
  | pauseWriting
  /-- `close()` sets the event as well; it is a step of its own here. -/
  | resumeWriting

def callback (a : Http11Protocol.Callback) : Option Draining :=
  (d.protocol.callback parse a).map fun p => { d with protocol := p }

def step : Action → Option Draining
  | .callback (.step (.send i date (.body body moreBody))) =>
    if d.drainEvent then d.callback parse (.step (.send i date (.body body moreBody)))
    else do
      let t ← d.protocol.tasks[i]?
      if t.status = .scheduled ∨ t.start.isWebsocket then none else some (d.write i t date body moreBody)
  | .callback a => d.callback parse a
  | .goOn k => do
    let s ← d.sending[k]?
    let t ← d.protocol.tasks[s.task]?
    if s.woken then some ((d.forget k).goOn s t) else none
  | .abandon k => if k < d.sending.length then some (d.forget k) else none
  | .fill => if d.protocol.transport.closing then none else some d.fill
  | .flush => some d.flush
  | .pauseWriting => some d.pauseWriting
  | .resumeWriting => some d.resumeWriting

/-! ## What a step can do -/

variable {parse d} {d' : Draining}

inductive Stepped (parse : Httparse) (d : Draining) : Action → Draining → Prop
  | callback (a : Http11Protocol.Callback) {p : Http11Protocol} (hst : d.protocol.callback parse a = some p) :
      Stepped parse d (.callback a) { d with protocol := p }
  | write (i : Nat) (t : Cycle) (date body : Bytes) (moreBody : Bool) (ht : d.protocol.tasks[i]? = some t)
      (hstatus : t.status ≠ .scheduled) (hhttp : t.start.isWebsocket = false) :
      Stepped parse d (.callback (.step (.send i date (.body body moreBody)))) (d.write i t date body moreBody)
  | goOn (k : Nat) (s : Sending) (t : Cycle) (hs : d.sending[k]? = some s) (ht : d.protocol.tasks[s.task]? = some t) :
      Stepped parse d (.goOn k) ((d.forget k).goOn s t)
  | abandon (k : Nat) (hk : k < d.sending.length) : Stepped parse d (.abandon k) (d.forget k)
  | fill (hopen : d.protocol.transport.closing = false) : Stepped parse d .fill d.fill
  | flush : Stepped parse d .flush d.flush
  | pauseWriting : Stepped parse d .pauseWriting d.pauseWriting
  | resumeWriting : Stepped parse d .resumeWriting d.resumeWriting

theorem stepped_callback {a : Http11Protocol.Callback} (hst : d.callback parse a = some d') :
    Stepped parse d (.callback a) d' := by
  obtain ⟨p, hp, rfl⟩ := Option.map_eq_some_iff.1 hst
  exact .callback a hp

theorem stepped_of_step {a : Action} (hst : d.step parse a = some d') : Stepped parse d a d' := by
  unfold step at hst
  split at hst
  · rename_i i date body moreBody
    split at hst
    · exact stepped_callback hst
    · obtain ⟨t, ht, hst⟩ := Option.bind_eq_some_iff.1 hst
      split at hst
      · cases hst
      · rename_i hlegal
        rw [not_or] at hlegal
        cases hst
        exact .write i t date body moreBody ht hlegal.1 (eq_false_of_ne_true hlegal.2)
  · exact stepped_callback hst
  · obtain ⟨s, hs, hst⟩ := Option.bind_eq_some_iff.1 hst
    obtain ⟨t, ht, hst⟩ := Option.bind_eq_some_iff.1 hst
    split at hst
    · cases hst
      exact .goOn _ s t hs ht
    · cases hst
  · split at hst
    · rename_i hk
      cases hst
      exact .abandon _ hk
    · cases hst
  · split at hst
    · cases hst
    · rename_i hopen
      cases hst
      exact .fill (eq_false_of_ne_true hopen)
  · cases hst
    exact .flush
  · cases hst
    exact .pauseWriting
  · cases hst
    exact .resumeWriting

end Draining

/-- The runs of a connection whose transport may be full. -/
def draining (parse : Httparse) : System Draining Draining.Action where
  init d := d = .new
  step := Draining.step parse

end Multiloop.Http
