import Multiloop.Framework.Usize
import Multiloop.Http.Request

/-!
# `FastHttpConnection`

The HTTP/1.1 side of the protocol engine of `http.rs`: one round of the loop
of `process_events`. A round returns the connection, the events it appends, and
whether the loop goes on; a round that panics leaves the connection as it was
(in a release build nothing is assigned before what can panic). The websocket
side is in `WebSocket.lean`, the loop in `Engine.lean`.
-/

namespace Multiloop.Http

inductive ChunkedStage
  | readingSize
  | readingData (chunkLen : Nat)
  | readingTrailers
deriving DecidableEq

inductive HttpParserState
  | waitingHeader
  | receivingContentLength (remaining : Nat)
  | receivingChunked (stage : ChunkedStage)
  | servingApp
  | keepAliveWait
  | closed
deriving DecidableEq

inductive ConnectionMode
  | http11
  | webSocket
deriving DecidableEq

structure FastHttpConnection where
  buffer : Bytes
  cursor : Nat
  state : HttpParserState
  mode : ConnectionMode
  maxBodySize : Nat
  maxHeaderSize : Nat
  requestCount : Nat
  maxKeepaliveRequests : Nat
  keepAlive : Bool
  wsFragmentBuffer : Bytes
  wsFragmentOpcode : UInt8
  totalBodyReceived : Nat
deriving DecidableEq

/-- The events, in the order of their numbers. -/
inductive Event
  | requestStart (start : RequestStart)
  | body (chunk : Bytes) (moreBody : Bool)
  | upgrade (proto : Bytes)
  | message (opcode : UInt8) (fin : Bool) (payload : Bytes)
  | error (status : Nat) (response : Bytes)
deriving DecidableEq

/-- Whether the loop goes on after a round. -/
inductive Flow
  | again
  | stop
deriving DecidableEq

abbrev Round : Type := FastHttpConnection × List Event × Flow

namespace FastHttpConnection

def new (maxBodySize maxHeaderSize maxKeepaliveRequests : Nat) : FastHttpConnection where
  buffer := []
  cursor := 0
  state := .waitingHeader
  mode := .http11
  maxBodySize
  maxHeaderSize
  requestCount := 0
  maxKeepaliveRequests
  keepAlive := true
  wsFragmentBuffer := []
  wsFragmentOpcode := 0
  totalBodyReceived := 0

variable (m : Arith) (c : FastHttpConnection)

def resetForNextRequest : FastHttpConnection :=
  if c.state = .servingApp then
    if ¬ c.keepAlive ∨ c.requestCount ≥ c.maxKeepaliveRequests then
      { c with totalBodyReceived := 0, state := .closed }
    else { c with totalBodyReceived := 0, state := .keepAliveWait }
  else c

def switchToWebsocket : FastHttpConnection := { c with mode := .webSocket }

def isClosed : Bool := c.state = .closed

def close : FastHttpConnection := { c with state := .closed }

def compactBuffer : FastHttpConnection :=
  if c.cursor = c.buffer.length then { c with buffer := [], cursor := 0 }
  else if c.cursor ≥ 64 * 1024 ∧ c.cursor ≥ c.buffer.length / 2 then
    { c with buffer := c.buffer.drop c.cursor, cursor := 0 }
  else c

/-- The response that `emit_error` sends. -/
def errorResponse (status : Nat) (msg : Bytes) : Bytes :=
  bytes "HTTP/1.1 " ++ decimal status ++ bytes " " ++
    (match status with
      | 400 => bytes "Bad Request"
      | 413 => bytes "Payload Too Large"
      | 431 => bytes "Request Header Fields Too Large"
      | _ => bytes "Internal Server Error") ++
    bytes "\r\nserver: multiloop\r\nconnection: close\r\ncontent-length: " ++ decimal msg.length ++
    bytes "\r\n\r\n" ++ msg

/-- `emit_error`, after which the loop stops. -/
def emitError (status : Nat) (msg : String) : Round :=
  ({ c with state := .closed }, [.error status (errorResponse status (bytes msg))], .stop)

/-- A request whose body has `cl` bytes begins with event `start`. -/
def beginBody (cl : Nat) (start : Event) : Except Fault Round := do
  let available ← m.sub c.buffer.length c.cursor
  if available ≥ cl then
    let next ← m.add c.cursor cl
    let bodyBytes ← slice c.buffer c.cursor next
    return ({ c with cursor := next, state := .servingApp }, [start, .body bodyBytes false], .again)
  let remaining ← m.sub cl available
  let c := { c with state := .receivingContentLength remaining }
  if available > 0 then
    let next ← m.add c.cursor available
    let bodyBytes ← slice c.buffer c.cursor next
    return ({ c with cursor := next }, [start, .body bodyBytes true], .again)
  return (c, [start], .again)

/-- What is done with a request head of `offset` bytes. -/
def acceptHead (offset : Nat) (req : Request) : Except Fault Round := do
  let cursor ← m.add c.cursor offset
  let requestCount ← m.add c.requestCount 1
  let c := { c with cursor, requestCount }
  let f := foldHeaders req
  if f.clConflict ∨ f.isChunked ∧ f.hasCl ∨ f.teCount > 1 ∧ ¬ f.isChunked then
    return c.emitError 400 "Bad Request: Conflicting HTTP headers"
  if f.isUpgrade ∧ f.upgradeProto = bytes "websocket" then
    return ({ c with keepAlive := f.keepAlive, state := .servingApp },
      [.requestStart (requestStart req f false), .upgrade f.upgradeProto], .stop)
  if f.isChunked then
    return ({ c with keepAlive := f.keepAlive, state := .receivingChunked .readingSize },
      [.requestStart (requestStart req f true)], .again)
  if f.contentLength > 0 then
    let cl := f.contentLength.toNat
    if cl > c.maxBodySize then return c.emitError 413 "Payload Too Large"
    return ← { c with keepAlive := f.keepAlive }.beginBody m cl (.requestStart (requestStart req f true))
  return ({ c with keepAlive := f.keepAlive, state := .servingApp },
    [.requestStart (requestStart req f false)], .again)

/-- `WaitingHeader` and `KeepAliveWait`. -/
def headerRound (parse : Httparse) : Except Fault Round := do
  let unread ← slice c.buffer c.cursor c.buffer.length
  if unread = [] then return (c, [], .stop)
  if unread.length > c.maxHeaderSize then return c.emitError 431 "Request Header Fields Too Large"
  match parse unread with
  | .complete offset req => c.acceptHead m offset req
  | .incomplete => return (c, [], .stop)
  | .error => return c.emitError 400 "Bad Request"

def contentLengthRound (remaining : Nat) : Except Fault Round := do
  let unreadLen ← m.sub c.buffer.length c.cursor
  if unreadLen = 0 then return (c, [], .stop)
  let consume := min unreadLen remaining
  let next ← m.add c.cursor consume
  let chunkBytes ← slice c.buffer c.cursor next
  let newRemaining ← m.sub remaining consume
  if newRemaining > 0 then
    return ({ c with cursor := next, state := .receivingContentLength newRemaining },
      [.body chunkBytes true], .again)
  return ({ c with cursor := next, state := .servingApp }, [.body chunkBytes false], .again)

/-- The characters of the size in a chunk-size line, without its extensions. -/
def sizeText (sizeLine : Bytes) : Option (List Char) :=
  (fromUtf8 (sizeLine.takeWhile (· ≠ 59))).map trim

def sizeRound : Except Fault Round := do
  let unread ← slice c.buffer c.cursor c.buffer.length
  match position crlf unread with
  | none => return (c, [], .stop)
  | some pos =>
    match sizeText (unread.take pos) with
    | none => return c.emitError 400 "Invalid chunked encoding"
    | some sizeTrim =>
      match fromStrRadix 16 sizeTrim with
      | none => return c.emitError 400 "Invalid chunk length"
      | some chunkLen =>
        let line ← m.add pos 2
        let next ← m.add c.cursor line
        let c := { c with cursor := next }
        if chunkLen = 0 then
          return ({ c with state := .receivingChunked .readingTrailers }, [], .again)
        let totalBodyReceived ← m.add c.totalBodyReceived chunkLen
        let c := { c with totalBodyReceived }
        if totalBodyReceived > c.maxBodySize then return c.emitError 413 "Payload Too Large"
        return ({ c with state := .receivingChunked (.readingData chunkLen) }, [], .again)

def dataRound (chunkLen : Nat) : Except Fault Round := do
  let unreadLen ← m.sub c.buffer.length c.cursor
  let needed ← m.add chunkLen 2
  if unreadLen < needed then return (c, [], .stop)
  let dataEnd ← m.add c.cursor chunkLen
  let next ← m.add dataEnd 2
  let boundary ← slice c.buffer dataEnd next
  if boundary ≠ crlf then return c.emitError 400 "Malformed chunk boundary"
  let chunkBytes ← slice c.buffer c.cursor dataEnd
  let next ← m.add c.cursor needed
  return ({ c with cursor := next, state := .receivingChunked .readingSize },
    [.body chunkBytes true], .again)

def trailersRound : Except Fault Round := do
  let unread ← slice c.buffer c.cursor c.buffer.length
  if crlf.isPrefixOf unread then
    let next ← m.add c.cursor 2
    return ({ c with cursor := next, state := .servingApp }, [.body [] false], .again)
  match position (crlf ++ crlf) unread with
  | none => return (c, [], .stop)
  | some pos =>
    let trailers ← m.add pos 4
    let next ← m.add c.cursor trailers
    return ({ c with cursor := next, state := .servingApp }, [.body [] false], .again)

/-- One round of the loop of `process_events` in HTTP mode. -/
def httpRound (parse : Httparse) : Except Fault Round :=
  match c.state with
  | .closed | .servingApp => return (c, [], .stop)
  | .waitingHeader | .keepAliveWait => c.headerRound m parse
  | .receivingContentLength remaining => c.contentLengthRound m remaining
  | .receivingChunked .readingSize => c.sizeRound m
  | .receivingChunked (.readingData chunkLen) => c.dataRound m chunkLen
  | .receivingChunked .readingTrailers => c.trailersRound m

end FastHttpConnection

end Multiloop.Http
