import Multiloop.Http.Connection

/-!
# Websocket frames

One round of the loop of `process_websocket_events`.
-/

namespace Multiloop.Http

/-- `from_be_bytes`. -/
def fromBeBytes (bs : Bytes) : Nat := bs.foldl (fun acc b => acc * 256 + b.toNat) 0

/-- The last `n` bytes of a number, the most significant first. -/
def toBeBytes : Nat → Nat → Bytes
  | 0, _ => []
  | n + 1, value => toBeBytes n (value / 256) ++ [UInt8.ofNat value]

def formatWsFrame (opcode : UInt8) (payload : Bytes) : Bytes :=
  let len := payload.length
  (0x80 ||| (opcode &&& 0x0F)) ::
    (if len < 126 then [UInt8.ofNat len]
      else if len ≤ 0xFFFF then 126 :: toBeBytes 2 len
      else 127 :: toBeBytes 8 len) ++ payload

/-- `fast_websocket_unmask_raw`: byte `i` is combined with byte `i % 4` of the
mask. The source does so by blocks (`Unmasking.lean`). -/
def fastWebsocketUnmask (payload mask : Bytes) : Bytes :=
  payload.mapIdx fun i b => b ^^^ mask.getD (i % 4) 0

namespace FastHttpConnection

variable (m : Arith) (c : FastHttpConnection)

/-- The connection is closed with a close frame of status `code`. -/
def closeFrame (code : Nat) : Round :=
  ({ c with state := .closed }, [.error code (formatWsFrame 0x8 (toBeBytes 2 code))], .stop)

/-- What is done with an unmasked frame. -/
def acceptFrame (opcode : UInt8) (fin : Bool) (payload : Bytes) : Round :=
  if opcode ≥ 0x8 then
    if payload.length > 125 ∨ ¬ fin then c.closeFrame 1002
    else (c, [.message opcode fin payload], .again)
  else if opcode = 0x1 ∨ opcode = 0x2 then
    if c.wsFragmentOpcode ≠ 0 then c.closeFrame 1002
    else if fin then
      if opcode = 0x1 ∧ fromUtf8 payload = none then c.closeFrame 1007
      else (c, [.message opcode fin payload], .again)
    else ({ c with wsFragmentOpcode := opcode, wsFragmentBuffer := payload }, [], .again)
  else if opcode = 0x0 then
    if c.wsFragmentOpcode = 0 then c.closeFrame 1002
    else
      let fullPayload := c.wsFragmentBuffer ++ payload
      if fin then
        let op := c.wsFragmentOpcode
        let c := { c with wsFragmentOpcode := 0, wsFragmentBuffer := [] }
        if op = 0x1 ∧ fromUtf8 fullPayload = none then c.closeFrame 1007
        else (c, [.message op fin fullPayload], .again)
      else ({ c with wsFragmentBuffer := fullPayload }, [], .again)
  else (c, [], .again)

/-- The payload length and the header length of a frame whose second byte has
`rawLen`, once the bytes that say so have arrived. -/
def frameLength (rawLen : Nat) : Except Fault (Option (Nat × Nat)) := do
  let unreadLen ← m.sub c.buffer.length c.cursor
  if rawLen = 126 then
    if unreadLen < 4 then return none
    let lenStart ← m.add c.cursor 2
    let lenEnd ← m.add c.cursor 4
    let lenBytes ← slice c.buffer lenStart lenEnd
    return some (fromBeBytes lenBytes, 4)
  if rawLen = 127 then
    if unreadLen < 10 then return none
    let lenStart ← m.add c.cursor 2
    let lenEnd ← m.add c.cursor 10
    let lenBytes ← slice c.buffer lenStart lenEnd
    return some (fromBeBytes lenBytes, 10)
  return some (rawLen, 2)

/-- A frame whose header and payload have these lengths. -/
def frameRound (opcode : UInt8) (fin : Bool) (payloadLen headerLen : Nat) : Except Fault Round := do
  let totalHeaderLen ← m.add headerLen 4
  let unreadLen ← m.sub c.buffer.length c.cursor
  let frameLen ← m.add totalHeaderLen payloadLen
  if unreadLen < frameLen then return (c, [], .stop)
  let maskStart ← m.add c.cursor headerLen
  let maskEnd ← m.add maskStart 4
  let mask ← slice c.buffer maskStart maskEnd
  let payloadOffset ← m.add c.cursor totalHeaderLen
  let payloadEnd ← m.add payloadOffset payloadLen
  let payload ← slice c.buffer payloadOffset payloadEnd
  let next ← m.add c.cursor frameLen
  return { c with cursor := next }.acceptFrame opcode fin (fastWebsocketUnmask payload mask)

/-- One round of the loop of `process_websocket_events`. -/
def webSocketRound : Except Fault Round := do
  let unreadLen ← m.sub c.buffer.length c.cursor
  if unreadLen < 2 then return (c, [], .stop)
  let b1 ← index c.buffer c.cursor
  let second ← m.add c.cursor 1
  let b2 ← index c.buffer second
  if b2 &&& 0x80 = 0 then return c.closeFrame 1002
  match ← c.frameLength m (b2 &&& 0x7F).toNat with
  | none => return (c, [], .stop)
  | some (payloadLen, headerLen) =>
    c.frameRound m (b1 &&& 0x0F) (b1 &&& 0x80 ≠ 0) payloadLen headerLen

end FastHttpConnection

end Multiloop.Http
