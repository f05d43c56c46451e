import Multiloop.Framework.Transition
import Multiloop.Http.Heads

/-!
# A WSGI application and its response

The thread that runs the application and the loop that writes the response,
with the bounded channel between them. The application calls `start_response`
and `write`, yields chunks, and returns or raises; a client that stays
connected is one for which no write fails. `produced` has the chunks that are
not empty, in order, and `outcome` how the application ended: without an
exception, or with one.
-/

namespace Multiloop.Http

/-- An `Exception` of the application: whether it is a `BrokenPipeError`. -/
inductive WsgiException
  | brokenPipe
  | other
deriving DecidableEq

/-- Where `_run_wsgi_sync` is: in the application, in `except Exception`, in
`finally`, or at its end. -/
inductive WsgiThread
  | running
  | reports
  | ends
  | finished
deriving DecidableEq

structure WsgiRun where
  thread : WsgiThread
  /-- `headers_set`. -/
  headersSet : Bool
  /-- `chunk_channel`, the oldest message first. -/
  channel : List ChunkMessage
  /-- The loop; `headersSent` is also `headers_sent_event`. -/
  response : WsgiResponse
  produced : List Bytes
  outcome : Option (Option WsgiException)

inductive WsgiAction
  /-- `start_response`; whether it is given `exc_info`. -/
  | startResponse (status : Str) (headers : List (Str × Str)) (excInfo : Bool)
  | write (data : Bytes)
  | yields (chunk : Bytes)
  /-- The application, with its iteration and `close()`, ends. -/
  | finish (exc : Option WsgiException)
  | sendError
  | sendEnd
  /-- The loop takes a message. -/
  | recv

/-- The response of the last `except Exception` of `_handle_connection`. -/
def outerError : Bytes :=
  bytes "HTTP/1.1 500 Internal Server Error\r\n" ++ bytes "content-length: 21\r\n" ++
    bytes "connection: close\r\n\r\n" ++ bytes "Internal Server Error"

namespace WsgiRun

def new : WsgiRun where
  thread := .running
  headersSet := false
  channel := []
  response := .new
  produced := []
  outcome := none

variable (s : WsgiRun)

/-- `chunk_channel.send_sync`: it waits while the channel is full, and raises
once the loop has closed it. -/
def sendSync (m : ChunkMessage) : Option WsgiRun :=
  if s.response.done then some s
  else if s.channel.length < 128 then some { s with channel := s.channel ++ [m] }
  else none

/-- `start_response`: it raises, or sends. -/
def startResponse (status : Str) (headers : List (Str × Str)) (excInfo : Bool) : Option WsgiRun :=
  if excInfo then
    if s.response.headersSent then some s
    else { s with headersSet := true }.sendSync (.start status headers)
  else if s.headersSet then some s
  else { s with headersSet := true }.sendSync (.start status headers)

/-- A chunk that is written or yielded. -/
def sendChunk (chunk : Bytes) : Option WsgiRun :=
  if chunk = [] then some s
  else (s.sendSync (.data chunk)).map fun s => { s with produced := s.produced ++ [chunk] }

def finish (exc : Option WsgiException) : WsgiRun :=
  { s with
    outcome := some exc
    thread := match exc with
      | some .other => .reports
      | some .brokenPipe | none => .ends }

/-- The loop takes a message; an exception ends it with another response. -/
def recv (m : ChunkMessage) (channel : List ChunkMessage) : WsgiRun :=
  { s with
    channel
    response := (s.response.step m).getD { s.response with wire := s.response.wire ++ outerError, done := true } }

def step : WsgiAction → Option WsgiRun
  | .startResponse status headers excInfo =>
    if s.thread = .running then s.startResponse status headers excInfo else none
  | .write data => if s.thread = .running then s.sendChunk data else none
  | .yields chunk => if s.thread = .running then s.sendChunk chunk else none
  | .finish exc => if s.thread = .running then some (s.finish exc) else none
  | .sendError =>
    if s.thread = .reports then (s.sendSync .error).map fun s => { s with thread := .ends } else none
  | .sendEnd =>
    if s.thread = .ends then (s.sendSync .fin).map fun s => { s with thread := .finished } else none
  | .recv =>
    match s.channel with
    | m :: channel => if s.response.done then none else some (s.recv m channel)
    | [] => none

def system : System WsgiRun WsgiAction where
  init s := s = new
  step := step

end WsgiRun

/-! ## Legal calls -/

/-- A status and headers that PEP 3333 lets an application give, of a response
that has a body, without `Transfer-Encoding` and `Content-Length`. -/
structure LegalStart (status : Str) (headers : List (Str × Str)) : Prop where
  code : ∃ n reason, status = Nat.toDigits 10 n ++ ' ' :: reason ∧ 200 ≤ n ∧ n < 1000 ∧ n ≠ 204 ∧ n ≠ 304
  text : ∀ c ∈ status, 32 ≤ c.toNat ∧ c.toNat < 256
  name : ∀ h ∈ headers, h.1 ≠ [] ∧ ∀ c ∈ h.1, 32 < c.toNat ∧ c.toNat < 127 ∧ c ≠ ':'
  value : ∀ h ∈ headers, ∀ c ∈ h.2, 32 ≤ c.toNat ∧ c.toNat < 256
  framing : ∀ h ∈ headers, h.1.map Char.toLower ≠ "transfer-encoding".toList ∧
    h.1.map Char.toLower ≠ "content-length".toList

/-- What holds of all elements of a list, by a test of it. -/
theorem forall_of_all {α : Type} {P : α → Prop} [DecidablePred P] {l : List α}
    (h : (l.all fun x => decide (P x)) = true) : ∀ x ∈ l, P x :=
  fun x hx => of_decide_eq_true (List.all_eq_true.1 h x hx)

theorem legalStart_new : LegalStart WsgiResponse.new.activeStatus WsgiResponse.new.responseHeaders where
  code := ⟨200, ['O', 'K'], by decide, by decide, by decide, by decide, by decide⟩
  text := forall_of_all (by decide)
  name _ hx := by cases hx
  value _ hx := by cases hx
  framing _ hx := by cases hx

/-- The application makes legal calls. -/
def WsgiRun.Legal (_ : WsgiRun) : WsgiAction → Prop
  | .startResponse status headers _ => LegalStart status headers
  | _ => True

end Multiloop.Http
