import Multiloop.Http.Request

/-!
# Responses

`format_response` and `format_chunk` of `http.rs`, and `send` of
`_serve_http_cycle` in `_http11.py`, which writes what they return. The date is
left open. A call of `send` that waits for a transport that is full is cut in
two in `Draining`.
-/

namespace Multiloop.Http

/-- `format!("{:X}", n)`. -/
def upperHex (n : Nat) : Bytes := (Nat.toDigits 16 n).map fun c => UInt8.ofNat c.toUpper.toNat

/-- A line of a response head, without its end. -/
def Header.line (h : Header) : Bytes := h.name ++ bytes ": " ++ h.value

/-- The lines of header fields. -/
def headerLines (hs : List Header) : Bytes := hs.flatMap fun h => h.line ++ crlf

def reason (statusCode : Nat) : Bytes :=
  match statusCode with
  | 200 => bytes "OK"
  | 201 => bytes "Created"
  | 204 => bytes "No Content"
  | 301 => bytes "Moved Permanently"
  | 302 => bytes "Found"
  | 304 => bytes "Not Modified"
  | 400 => bytes "Bad Request"
  | 401 => bytes "Unauthorized"
  | 403 => bytes "Forbidden"
  | 404 => bytes "Not Found"
  | 405 => bytes "Method Not Allowed"
  | 413 => bytes "Payload Too Large"
  | 426 => bytes "Upgrade Required"
  | 431 => bytes "Request Header Fields Too Large"
  | 500 => bytes "Internal Server Error"
  | 502 => bytes "Bad Gateway"
  | 503 => bytes "Service Unavailable"
  | _ => bytes "OK"

inductive SendError
  | runtime (message : String)
  | value (message : String)
  /-- The status is no `u16`. -/
  | overflow
deriving DecidableEq

/-- A field name or value with a carriage return or a line feed. -/
def hasCrlf (bs : Bytes) : Bool := bs.contains 13 || bs.contains 10

def hasField (name : String) (headers : List Header) : Bool :=
  headers.any fun h => eqIgnoreAsciiCase h.name (bytes name)

/-- Whether a `Connection` field asks to close the connection. -/
def asksClose (headers : List Header) : Bool :=
  headers.any fun h => eqIgnoreAsciiCase h.name (bytes "connection") && HeaderFold.mentions (bytes "close") h.value

/-- A part of a chunked body: a chunk unless it is empty, and the end of the
body after the last part. -/
def formatChunk (chunk : Bytes) (moreBody : Bool) : Bytes :=
  (if chunk = [] then [] else upperHex chunk.length ++ crlf ++ chunk ++ crlf) ++
    (if moreBody then [] else bytes "0\r\n\r\n")

/-- The response head with the first part of its body; whether the body is
chunked, and whether the connection is kept. -/
def formatResponse (statusCode : Nat) (serverHeader dateHeader : Bytes) (headers : List Header) (body : Bytes)
    (moreBody isNoBodyStatus keepAlive : Bool) : Except SendError (Bytes × Bool × Bool) :=
  if 2 ^ 16 ≤ statusCode then .error .overflow
  else if headers.any fun h => hasCrlf h.name || hasCrlf h.value then
    .error (.value "Illegal CRLF control characters detected in HTTP response header")
  else
    let hasCl := hasField "content-length" headers
    let keepAlive := keepAlive && !asksClose headers
    let isRespChunked := !isNoBodyStatus && moreBody && !hasCl
    let injectedCl :=
      if isNoBodyStatus ∨ moreBody ∨ hasCl then []
      else bytes "content-length: " ++ decimal body.length ++ crlf
    let injectedTe := if isRespChunked then bytes "transfer-encoding: chunked\r\n" else []
    let injectedConn :=
      if hasField "connection" headers then []
      else if keepAlive then bytes "connection: keep-alive\r\n" else bytes "connection: close\r\n"
    let sHdr := if hasField "server" headers then [] else serverHeader
    let dHdr := if hasField "date" headers then [] else dateHeader
    let head := bytes "HTTP/1.1 " ++ decimal statusCode ++ bytes " " ++ reason statusCode ++ crlf ++
      sHdr ++ dHdr ++ headerLines headers ++ injectedCl ++ injectedTe ++ injectedConn ++ crlf
    let rest :=
      if isNoBodyStatus then []
      else if isRespChunked then formatChunk body moreBody
      else body
    .ok (head ++ rest, isRespChunked, keepAlive)

/-! ## `send` -/

inductive Message
  | start (status : Nat) (headers : List Header)
  | body (body : Bytes) (moreBody : Bool)
  | other (msgType : String)

inductive RespStatus
  | initial
  | headersSent (status : Nat) (headers : List Header)
  | streaming
  | complete
deriving DecidableEq

/-- What `send` reads and changes. -/
structure Response where
  respStatus : RespStatus
  keepAlive : Bool
  /-- What was written to the transport. -/
  wire : Bytes
  /-- The transport was closed. -/
  closed : Bool

def Response.new (reqKeepAlive : Bool) : Response :=
  { respStatus := .initial, keepAlive := reqKeepAlive, wire := [], closed := false }

def serverHeader : Bytes := bytes "server: multiloop\r\n"

/-- `_HttpClock.get_date_header`, for the date that `formatdate` returns. -/
def dateHeader (date : Bytes) : Bytes := bytes "date: " ++ date ++ crlf

/-- A response that has no body. -/
def isNoBody (method : Bytes) (status : Nat) : Bool := status = 204 ∨ status = 304 ∨ method = bytes "HEAD"

/-- `send`, in a request with this method; an error changes nothing. -/
def Response.send (method date : Bytes) (r : Response) : Message → Except SendError Response
  | .start status headers =>
    match r.respStatus with
    | .initial => .ok { r with respStatus := .headersSent status headers }
    | _ => .error (.runtime "Duplicate http.response.start called")
  | .body body moreBody =>
    match r.respStatus with
    | .headersSent status headers => do
      let (wireBytes, _, keepAlive) ← formatResponse status serverHeader (dateHeader date) headers body moreBody
        (isNoBody method status) r.keepAlive
      return { respStatus := if moreBody then .streaming else .complete
               keepAlive
               wire := r.wire ++ wireBytes
               closed := r.closed || !moreBody && !keepAlive }
    | .streaming =>
      .ok { r with
        respStatus := if moreBody then .streaming else .complete
        wire := r.wire ++ formatChunk body moreBody }
    | _ => .error (.runtime "http.response.body sent before http.response.start or after completion")
  | .other msgType => .error (.value ("Unknown ASGI message type: " ++ msgType))

def Response.sendAll (method date : Bytes) (r : Response) (messages : List Message) : Except SendError Response :=
  messages.foldlM (Response.send method date) r

/-- The messages for a body in parts. -/
def bodyMessages : List Bytes → List Message
  | [] => []
  | [b] => [.body b false]
  | b :: bs => .body b true :: bodyMessages bs

end Multiloop.Http
