import Multiloop.Http.Reassembly

/-!
# The reader of a websocket

`_reader_loop` of `_websocket.py`: it reads the frames of a client from an
`asyncio.StreamReader`, with the parser of the extension module or, without it,
byte by byte, and sends what they say into the inbound channel.
-/

namespace Multiloop.Http

/-- `_MAX_WS_FRAME_SIZE`. -/
def maxWsFrameSize : Nat := 16 * 1024 * 1024

/-- `_MAX_WS_MESSAGE_SIZE`. -/
def maxWsMessageSize : Nat := 32 * 1024 * 1024

/-- `_CURSOR_COMPACT_THRESHOLD`. -/
def cursorCompactThreshold : Nat := 64 * 1024

/-! ## The stream -/

/-- What one `read(4096)` returns before the end of the stream. -/
def Chunk : Type := { bs : Bytes // bs ≠ [] ∧ bs.length ≤ 4096 }

/-- How a stream ends: with no more bytes, which the reader is told before or
after it reads the last chunk, or with an exception of the transport. -/
inductive StreamEnd
  | eof (fed : Bool)
  | failed
deriving DecidableEq

structure StreamReader where
  chunks : List Chunk
  ending : StreamEnd

namespace StreamReader

variable (s : StreamReader)

/-- What the client has sent and nobody has read. -/
def bytes : Bytes := s.chunks.flatMap (·.val)

/-- `read(4096)`; an error is an exception. -/
def read : Except Unit (Bytes × StreamReader) :=
  match s.chunks, s.ending with
  | chunk :: chunks, _ => .ok (chunk.val, { s with chunks })
  | [], .eof _ => .ok ([], s)
  | [], .failed => .error ()

def atEof : Bool := s.chunks.isEmpty && s.ending = .eof true

/-- The first `n` bytes of some chunks, and the chunks that are left. -/
def takeChunks (n : Nat) : List Chunk → Option (Bytes × List Chunk)
  | [] => if n = 0 then some ([], []) else none
  | chunk :: chunks =>
    if h : n < chunk.val.length then
      have hrest : chunk.val.drop n ≠ [] ∧ (chunk.val.drop n).length ≤ 4096 := by
        have hlen := chunk.property.2
        refine ⟨fun hnil => ?_, ?_⟩
        · exact absurd (List.drop_eq_nil_iff.1 hnil) (by omega)
        · rw [List.length_drop]
          omega
      some (chunk.val.take n, ⟨chunk.val.drop n, hrest⟩ :: chunks)
    else (takeChunks (n - chunk.val.length) chunks).map fun p => (chunk.val ++ p.1, p.2)

/-- `readexactly(n)`; none is an `IncompleteReadError` or the exception of the
transport. -/
def readexactly (n : Nat) : Option (Bytes × StreamReader) :=
  (takeChunks n s.chunks).map fun p => (p.1, { s with chunks := p.2 })

end StreamReader

/-! ## Frame headers -/

structure FrameHeader where
  opcode : UInt8
  fin : Bool
  masked : Bool
  payloadLen : Nat
  maskKey : Option Bytes
  headerLen : Nat

/-- `FastWebSocketParser.parse_frame_header`. -/
def parseFrameHeader (buf : Bytes) : Option FrameHeader :=
  match buf with
  | b1 :: b2 :: _ =>
    let rawLen := (b2 &&& 0x7F).toNat
    let lens : Option (Nat × Nat) :=
      if rawLen = 126 then if buf.length < 4 then none else some (fromBeBytes ((buf.drop 2).take 2), 4)
      else if rawLen = 127 then if buf.length < 10 then none else some (fromBeBytes ((buf.drop 2).take 8), 10)
      else some (rawLen, 2)
    lens.bind fun (payloadLen, offset) =>
      if b2 &&& 0x80 ≠ 0 then
        if buf.length < offset + 4 then none
        else some ⟨b1 &&& 0x0F, b1 &&& 0x80 ≠ 0, true, payloadLen, some ((buf.drop offset).take 4), offset + 4⟩
      else some ⟨b1 &&& 0x0F, b1 &&& 0x80 ≠ 0, false, payloadLen, none, offset⟩
  | _ => none

/-- The two checks of a header, the same with and without the extension module:
the code and the reason of the close frame for one that fails. -/
def checkHeader (opcode : UInt8) (fin : Bool) (payloadLen : Nat) : Option (Nat × String) :=
  if 0x8 ≤ opcode ∧ (125 < payloadLen ∨ ¬ fin) then some (1002, "Invalid Control Frame")
  else if maxWsFrameSize < payloadLen then some (1009, "Message Too Big")
  else none

/-! ## Reading a frame -/

/-- The variables of `_reader_loop`. -/
structure Reader where
  rawBuf : Bytes
  bufCursor : Nat
  /-- `fragment_buffer` and `fragmented_opcode`. -/
  fragments : Reassembly
  fits : bufCursor ≤ rawBuf.length

namespace Reader

def new : Reader := ⟨[], 0, .nothing, Nat.le_refl 0⟩

variable (r : Reader)

def unread : Bytes := r.rawBuf.drop r.bufCursor

/-- `raw_buf.extend(chunk)`. -/
def extend (chunk : Bytes) : Reader where
  rawBuf := r.rawBuf ++ chunk
  bufCursor := r.bufCursor
  fragments := r.fragments
  fits := by
    have hfits := r.fits
    rw [List.length_append]
    omega

/-- `buf_cursor += size`. -/
def advance (size : Nat) (h : ¬ r.unread.length < size) : Reader where
  rawBuf := r.rawBuf
  bufCursor := r.bufCursor + size
  fragments := r.fragments
  fits := by
    have hfits := r.fits
    rw [unread, List.length_drop] at h
    omega

def compactRawBuf : Reader :=
  if cursorCompactThreshold ≤ r.bufCursor then ⟨r.rawBuf.drop r.bufCursor, 0, r.fragments, Nat.zero_le _⟩ else r

end Reader

/-- What a round of `_reader_loop` comes to before it looks at the frame. -/
inductive NextFrame
  | again (r : Reader) (s : StreamReader)
  | stop
  | raised
  | protocolError (code : Nat) (reason : String)
  | frame (opcode : UInt8) (fin : Bool) (payload : Bytes) (r : Reader) (s : StreamReader)

/-- The loop that reads the payload of a frame of `total` bytes. -/
def fill (total : Nat) (ending : StreamEnd) : List Chunk → Reader → Except Unit (Reader × StreamReader)
  | [], r => if r.unread.length < total ∧ ending = .failed then .error () else .ok (r, ⟨[], ending⟩)
  | chunk :: chunks, r =>
    if r.unread.length < total then
      let r := r.extend chunk.val
      let s : StreamReader := ⟨chunks, ending⟩
      if r.unread.length < total ∧ s.atEof then .ok (r, s) else fill total ending chunks r
    else .ok (r, ⟨chunk :: chunks, ending⟩)

/-- With the extension module. -/
def nextFast (r : Reader) (s : StreamReader) : NextFrame :=
  match parseFrameHeader r.unread with
  | none =>
    match s.read with
    | .error _ => .raised
    | .ok (chunk, s) => if chunk = [] then .stop else .again (r.extend chunk) s
  | some h =>
    if ¬ h.masked then .protocolError 1002 "Unmasked Frame"
    else match checkHeader h.opcode h.fin h.payloadLen with
      | some (code, reason) => .protocolError code reason
      | none =>
        let totalFrameLen := h.headerLen + h.payloadLen
        match fill totalFrameLen s.ending s.chunks r with
        | .error _ => .raised
        | .ok (r, s) =>
          if hlen : r.unread.length < totalFrameLen then .stop
          else
            let rawPayload := (r.unread.drop h.headerLen).take h.payloadLen
            let payload := match h.maskKey with
              | some maskKey => fastWebsocketUnmask rawPayload maskKey
              | none => rawPayload
            .frame h.opcode h.fin payload (r.advance totalFrameLen hlen).compactRawBuf s

/-- The payload length, read byte by byte. -/
def readLength (s : StreamReader) (rawLen : Nat) : Option (Nat × StreamReader) :=
  if rawLen = 126 then (s.readexactly 2).map fun p => (fromBeBytes p.1, p.2)
  else if rawLen = 127 then (s.readexactly 8).map fun p => (fromBeBytes p.1, p.2)
  else some (rawLen, s)

/-- Without the extension module. -/
def nextSlow (r : Reader) (s : StreamReader) : NextFrame :=
  match s.readexactly 2 with
  | none => .raised
  | some (head, s) =>
    let b1 := head.getD 0 0
    let b2 := head.getD 1 0
    if b2 &&& 0x80 = 0 then .protocolError 1002 "Unmasked Frame"
    else match readLength s (b2 &&& 0x7F).toNat with
      | none => .raised
      | some (payloadLen, s) =>
        match checkHeader (b1 &&& 0x0F) (b1 &&& 0x80 ≠ 0) payloadLen with
        | some (code, reason) => .protocolError code reason
        | none =>
          match s.readexactly 4 with
          | none => .raised
          | some (maskKey, s) =>
            match s.readexactly payloadLen with
            | none => .raised
            | some (rawPayload, s) =>
              .frame (b1 &&& 0x0F) (b1 &&& 0x80 ≠ 0) (fastWebsocketUnmask rawPayload maskKey) r s

def nextFrame (fast : Bool) (r : Reader) (s : StreamReader) : NextFrame :=
  if fast then nextFast r s else nextSlow r s

/-! ## Handling a frame -/

/-- A message of the inbound channel. -/
inductive Inbound
  | text (text : List Char)
  | bytes (bytes : Bytes)
  | disconnect (code : Nat)
deriving DecidableEq

/-- What a frame comes to. -/
inductive Reaction
  /-- The loop goes on, after it has sent these messages. -/
  | goOn (fragments : Reassembly) (told : List Inbound)
  | pong (payload : Bytes)
  /-- A close frame, and the loop ends. -/
  | protocolError (code : Nat) (reason : String)
  /-- A close frame and a message `websocket.disconnect`, and the loop ends. -/
  | refuse (code : Nat) (reason : String)
  | close (payload : Bytes)
deriving DecidableEq

def handleFrame (f : Reassembly) (opcode : UInt8) (fin : Bool) (payload : Bytes) : Reaction :=
  if opcode = 0x0 then
    if f.opcode = 0 then .protocolError 1002 "Protocol Error"
    else if maxWsMessageSize < f.payload.length + payload.length then .refuse 1009 "Message Too Big"
    else
      let buffer := f.payload ++ payload
      if fin then
        if f.opcode = 0x1 then
          match fromUtf8 buffer with
          | none => .refuse 1007 "Invalid UTF-8"
          | some text => .goOn .nothing [.text text]
        else if f.opcode = 0x2 then .goOn .nothing [.bytes buffer]
        else .goOn .nothing []
      else .goOn ⟨f.opcode, buffer⟩ []
  else if opcode = 0x1 ∨ opcode = 0x2 then
    if f.opcode ≠ 0 then .protocolError 1002 "Protocol Error"
    else if fin then
      if opcode = 0x1 then
        match fromUtf8 payload with
        | none => .refuse 1007 "Invalid UTF-8"
        | some text => .goOn f [.text text]
      else .goOn f [.bytes payload]
    else if maxWsMessageSize < payload.length then .refuse 1009 "Message Too Big"
    else .goOn ⟨opcode, payload⟩ []
  else if opcode = 0x9 then .pong payload
  else if opcode = 0x8 then .close payload
  else .goOn f []

/-! ## The loop -/

inductive WebSocketState
  | connecting
  | opened
  | closing
  | closed
deriving DecidableEq

/-- What `_reader_loop` changes of a `WebSocketConnection`. -/
structure WebSocketConnection where
  state : WebSocketState
  /-- `_closed_event` is set. -/
  closedEvent : Bool
  /-- Everything that was sent into `_inbound_channel`. -/
  inbound : List Inbound
  /-- The opcodes and the payloads of the frames that the reader has sent. -/
  sent : List (UInt8 × Bytes)
deriving DecidableEq

namespace WebSocketConnection

/-- The connection when the handshake is done. -/
def accepted (state : WebSocketState) : WebSocketConnection := ⟨state, false, [], []⟩

variable (c : WebSocketConnection)

def sendFrame (opcode : UInt8) (payload : Bytes) : WebSocketConnection :=
  { c with sent := c.sent ++ [(opcode, payload)] }

/-- `struct.pack("!H", code) + reason`. -/
def closePayload (code : Nat) (reason : String) : Bytes := toBeBytes 2 code ++ Multiloop.Http.bytes reason

/-- A message `websocket.disconnect`, and the connection is closed. -/
def disconnect (code : Nat) : WebSocketConnection :=
  { c with state := .closed, closedEvent := true, inbound := c.inbound ++ [.disconnect code] }

/-- The code of a close frame. -/
def closeCode (payload : Bytes) : Nat := if 2 ≤ payload.length then fromBeBytes (payload.take 2) else 1000

/-- A close frame from the client. -/
def closeReceived (payload : Bytes) : WebSocketConnection :=
  let c := if c.state ≠ .closing then { c with state := .closing }.sendFrame 0x8 payload else c
  c.disconnect (closeCode payload)

end WebSocketConnection

open WebSocketConnection (closePayload)

/-- `_reader_loop` after the handshake; none is out of fuel. -/
def readerLoop (fast : Bool) : Nat → Reader → StreamReader → WebSocketConnection → Option WebSocketConnection
  | 0, _, _, _ => none
  | fuel + 1, r, s, c =>
    if c.closedEvent then some c
    else match nextFrame fast r s with
      | .again r s => readerLoop fast fuel r s c
      | .stop => some c
      | .raised => some (c.disconnect 1006)
      | .protocolError code reason => some (c.sendFrame 0x8 (closePayload code reason))
      | .frame opcode fin payload r s =>
        match handleFrame r.fragments opcode fin payload with
        | .goOn fragments told =>
          readerLoop fast fuel { r with fragments } s { c with inbound := c.inbound ++ told }
        | .pong payload => readerLoop fast fuel r s (c.sendFrame 0xA payload)
        | .protocolError code reason => some (c.sendFrame 0x8 (closePayload code reason))
        | .refuse code reason => some ((c.sendFrame 0x8 (closePayload code reason)).disconnect code)
        | .close payload => some (c.closeReceived payload)

/-- A bound on the rounds of the loop. -/
def StreamReader.enough (s : StreamReader) : Nat := s.bytes.length + s.chunks.length + 1

/-- `_reader_loop` on the stream of a client. -/
def readClient (fast : Bool) (state : WebSocketState) (s : StreamReader) : Option WebSocketConnection :=
  readerLoop fast s.enough .new s (.accepted state)

end Multiloop.Http
