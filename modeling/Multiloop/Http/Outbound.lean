import Multiloop.Framework.Transition
import Multiloop.Http.Messages
import Multiloop.Http.Reading

/-!
# The frames of a server

What one `WebSocketConnection` writes after the 101 response: the calls of
`send` and `close` of the application and the frames of `_reader_loop`, in any
interleaving. Each call of `_send_frame` waits for the lock, which is fair, and
writes one whole frame. Nothing keeps a call from sending after a Close frame;
where none does, and no reason is too long, the bytes are what RFC 6455 asks
for.
-/

namespace Multiloop.Http

open WebSocketConnection (closePayload)

/-- An opcode and a payload. -/
abbrev OutFrame : Type := UInt8 × Bytes

/-- `frame_data` of `_send_frame`, the same bytes as those of
`format_ws_frame`. -/
def frameData (f : OutFrame) : Bytes := formatWsFrame f.1 f.2

/-! ## The model -/

/-- Who has called `_send_frame`, which says what is done after it. -/
inductive Sender
  | send
  | close
  | pong
  /-- `_reader_loop` ends. -/
  | protocolError
  /-- `_reader_loop` tells the application, then ends. -/
  | refuse
deriving DecidableEq

/-- A call of `_send_frame`. -/
structure SendCall where
  sender : Sender
  frame : OutFrame
  /-- The frame is written, and `drain` is awaited. -/
  written : Bool
deriving DecidableEq

/-- Where `_reader_loop` is. -/
inductive ReaderAt
  /-- Before it looks at `_closed_event`. -/
  | looping
  | reading
  | sending
  /-- It sends a message `websocket.disconnect` into the channel. -/
  | telling
  | ended
deriving DecidableEq

structure Outbound where
  state : WebSocketState
  closedEvent : Bool
  /-- The calls that hold `_send_lock` or wait for it, the owner first. -/
  calls : List SendCall
  reader : ReaderAt
  /-- `fragment_buffer` and `fragmented_opcode` of the reader. -/
  fragments : Reassembly
  /-- The transport takes no more bytes. -/
  lost : Bool
  /-- The frames that the transport has taken. -/
  written : List OutFrame
deriving DecidableEq

namespace Outbound

/-- The connection when the 101 response is written. -/
def new : Outbound where
  state := .opened
  closedEvent := false
  calls := []
  reader := .looping
  fragments := .nothing
  lost := false
  written := []

variable (s : Outbound)

/-- The bytes that the transport has taken. -/
def wire : Bytes := s.written.flatMap frameData

/-- `writer.write(frame_data)`. -/
def write (f : OutFrame) : List OutFrame := if s.lost then s.written else s.written ++ [f]

/-- `_send_frame` up to its first suspension. -/
def sendFrame (sender : Sender) (f : OutFrame) : Outbound :=
  if s.calls = [] then { s with calls := [⟨sender, f, true⟩], written := s.write f }
  else { s with calls := s.calls ++ [⟨sender, f, false⟩] }

/-- The reader goes on, unless it is cancelled. -/
def goesOn (next : ReaderAt) : Outbound := { s with reader := if s.reader = .sending then next else s.reader }

/-- What is done after `_send_frame`. -/
def sent : Sender → Outbound
  | .send => s
  | .close => { s with state := .closed, closedEvent := true }
  | .pong => s.goesOn .looping
  | .protocolError => s.goesOn .ended
  | .refuse => s.goesOn .telling

/-- What `_reader_loop` does with the bytes that it has come to. -/
def react (start : ClientStart) : Option Outbound :=
  match start with
  | .short => none
  | .protocolError code reason =>
    some { s.sendFrame .protocolError (0x8, closePayload code reason) with reader := .sending }
  | .frame opcode fin payload _ =>
    match handleFrame s.fragments opcode fin payload with
    | .goOn fragments _ => some { s with fragments, reader := .looping }
    | .pong payload => some { s.sendFrame .pong (0xA, payload) with reader := .sending }
    | .protocolError code reason =>
      some { s.sendFrame .protocolError (0x8, closePayload code reason) with reader := .sending }
    | .refuse code reason => some { s.sendFrame .refuse (0x8, closePayload code reason) with reader := .sending }
    | .close payload =>
      if s.state ≠ .closing then
        some { ({ s with state := .closing } : Outbound).sendFrame .refuse (0x8, payload) with reader := .sending }
      else some { s with reader := .telling }

end Outbound

inductive OutboundAction
  /-- `send` of a message `websocket.send` with a text or with bytes. -/
  | send (text : Bool) (payload : Bytes)
  /-- `send` of a message `websocket.close`. -/
  | close (code : Nat) (reason : String)
  /-- The reader looks at `_closed_event`. -/
  | check
  /-- The reader comes to bytes that begin with `u`. -/
  | read (fast : Bool) (u : Bytes)
  /-- The stream ends, with an exception or without. -/
  | streamEnd (raised : Bool)
  /-- The message `websocket.disconnect` is sent. -/
  | told
  /-- The owner of the lock is resumed. -/
  | resume
  /-- `drain` returns, and the lock is released. -/
  | drained
  /-- The task of a call is cancelled. -/
  | cancel (i : Nat)
  /-- The application returns, and `run` closes the connection. -/
  | returned
  /-- The transport is closed, or loses its connection. -/
  | lose

namespace Outbound

def step (s : Outbound) : OutboundAction → Option Outbound
  | .send text payload =>
    if payload.length < 2 ^ 63 then some (s.sendFrame .send (if text then 0x1 else 0x2, payload)) else none
  | .close code reason =>
    if (closePayload code reason).length < 2 ^ 63 then
      -- `struct.pack` raises an exception for a code that has more than 16 bits.
      if code < 2 ^ 16 then
        some (({ s with state := .closing } : Outbound).sendFrame .close (0x8, closePayload code reason))
      else some { s with state := .closing }
    else none
  | .check =>
    if s.reader = .looping then some { s with reader := if s.closedEvent then .ended else .reading } else none
  | .read fast u => if s.reader = .reading then s.react (clientStart fast u) else none
  | .streamEnd raised =>
    if s.reader = .reading then some { s with reader := if raised then .telling else .ended } else none
  | .told =>
    if s.reader = .telling then some { s with state := .closed, closedEvent := true, reader := .ended } else none
  | .resume =>
    match s.calls with
    | call :: calls =>
      if call.written then none
      else some { s with calls := { call with written := true } :: calls, written := s.write call.frame }
    | [] => none
  | .drained =>
    match s.calls with
    | call :: calls => if call.written then some (({ s with calls } : Outbound).sent call.sender) else none
    | [] => none
  | .cancel i => some { s with calls := s.calls.eraseIdx i }
  | .returned => some { s with state := .closed, closedEvent := true, reader := .ended }
  | .lose => some { s with lost := true }

end Outbound

def outbound : System Outbound OutboundAction where
  init s := s = .new
  step := Outbound.step

/-! ## What RFC 6455 asks for -/

/-- The frames of a server, read one after the other. -/
def splitFrames : Nat → Bytes → Option (List OutFrame)
  | _, [] => some []
  | 0, _ :: _ => none
  | fuel + 1, b :: bs =>
    (parseFrameHeader (b :: bs)).bind fun h =>
      let size := h.headerLen + h.payloadLen
      if h.masked ∨ ¬ h.fin ∨ (b :: bs).length < size then none
      else
        (splitFrames fuel ((b :: bs).drop size)).map
          ((h.opcode, ((b :: bs).drop h.headerLen).take h.payloadLen) :: ·)

/-- The bytes are whole frames, one after the other. -/
def wholeFrames (bs : Bytes) : Option (List OutFrame) := splitFrames bs.length bs

structure Disciplined (frames : List OutFrame) : Prop where
  once : (frames.filter (·.1 = 0x8)).length ≤ 1
  last : ∀ before f after, frames = before ++ f :: after → f.1 = 0x8 → after = []
  small : ∀ f ∈ frames, 0x8 ≤ f.1 → f.2.length ≤ 125

/-! ## Whole frames -/

/-- The header of a frame without a mask. -/
theorem parseFrameHeader_unmasked {b1 b2 : UInt8} {more : Bytes} {payloadLen offset : Nat} (hmask : b2 &&& 0x80 = 0)
    (hl : FastHttpConnection.lengths (b1 :: b2 :: more) (b2 &&& 0x7F).toNat = some (payloadLen, offset)) :
    parseFrameHeader (b1 :: b2 :: more) = some ⟨b1 &&& 0x0F, b1 &&& 0x80 ≠ 0, false, payloadLen, none, offset⟩ := by
  rw [parseFrameHeader_cons rfl, hl, Option.bind_some]
  exact if_neg (not_not.2 hmask)

/-- The bytes of a header after the first one. -/
def lengthBytes (n : Nat) : Bytes :=
  if n < 126 then [UInt8.ofNat n]
  else if n ≤ 0xFFFF then 126 :: toBeBytes 2 n
  else 127 :: toBeBytes 8 n

theorem lengths_lengthBytes {n : Nat} (hn : n < 2 ^ 63) (b1 : UInt8) (more : Bytes) :
    ∃ b2 tail, lengthBytes n = b2 :: tail ∧ b2 &&& 0x80 = 0 ∧
      FastHttpConnection.lengths (b1 :: b2 :: (tail ++ more)) (b2 &&& 0x7F).toNat = some (n, 2 + tail.length) := by
  unfold lengthBytes
  by_cases hshort : n < 126
  · rw [if_pos hshort]
    have hall : ∀ k : Fin 126, UInt8.ofNat k &&& 0x80 = 0 ∧ (UInt8.ofNat k &&& 0x7F).toNat = k := by decide
    obtain ⟨hmask, hraw⟩ := hall ⟨n, hshort⟩
    refine ⟨_, _, rfl, hmask, ?_⟩
    unfold FastHttpConnection.lengths
    rw [hraw, if_neg (by dsimp only; omega), if_neg (by dsimp only; omega)]
    rfl
  rw [if_neg hshort]
  by_cases hmedium : n ≤ 0xFFFF
  · rw [if_pos hmedium]
    refine ⟨_, _, rfl, by decide, ?_⟩
    have hlen := length_toBeBytes 2 n
    have hall : (toBeBytes 2 n ++ more).length = 2 + more.length := by rw [List.length_append, hlen]
    have hfits : n < 256 ^ 2 := Nat.lt_succ_of_le hmedium
    unfold FastHttpConnection.lengths
    rw [if_pos (by decide), if_neg (by rw [List.length_cons, List.length_cons]; omega)]
    show some (fromBeBytes ((toBeBytes 2 n ++ more).take 2), 4) = _
    rw [List.take_append_of_le_length (by omega), List.take_of_length_le (by omega), fromBeBytes_toBeBytes hfits, hlen]
  · rw [if_neg hmedium]
    refine ⟨_, _, rfl, by decide, ?_⟩
    have hlen := length_toBeBytes 8 n
    have hall : (toBeBytes 8 n ++ more).length = 8 + more.length := by rw [List.length_append, hlen]
    have hfits : n < 256 ^ 8 := Nat.lt_trans hn (by decide)
    unfold FastHttpConnection.lengths
    rw [if_neg (by decide), if_pos (by decide), if_neg (by rw [List.length_cons, List.length_cons]; omega)]
    show some (fromBeBytes ((toBeBytes 8 n ++ more).take 8), 10) = _
    rw [List.take_append_of_le_length (by omega), List.take_of_length_le (by omega), fromBeBytes_toBeBytes hfits, hlen]

/-- The header of a frame is read back. -/
theorem parseFrameHeader_frameData {f : OutFrame} (hop : f.1 < 16) (hlen : f.2.length < 2 ^ 63) (rest : Bytes) :
    ∃ header, frameData f = header ++ f.2 ∧ 2 ≤ header.length ∧
      parseFrameHeader (frameData f ++ rest) = some ⟨f.1, true, false, f.2.length, none, header.length⟩ := by
  obtain ⟨opcode, payload⟩ := f
  have hall : ∀ k : Fin 16, (0x80 ||| (UInt8.ofNat k &&& 0x0F)) &&& 0x0F = UInt8.ofNat k ∧
      decide ((0x80 ||| (UInt8.ofNat k &&& 0x0F)) &&& 0x80 ≠ 0) = true := by
    decide
  have hfirst := hall ⟨opcode.toNat, UInt8.lt_iff_toNat_lt.1 hop⟩
  rw [show UInt8.ofNat opcode.toNat = opcode from UInt8.ofNat_toNat] at hfirst
  obtain ⟨hopcode, hfin⟩ := hfirst
  obtain ⟨b2, tail, hbytes, hmask, hl⟩ := lengths_lengthBytes hlen (0x80 ||| (opcode &&& 0x0F)) (payload ++ rest)
  have hdata : frameData (opcode, payload) = (0x80 ||| (opcode &&& 0x0F)) :: lengthBytes payload.length ++ payload :=
    rfl
  refine ⟨_, hdata, ?_, ?_⟩
  · rw [hbytes, List.length_cons, List.length_cons]
    omega
  · have hall : frameData (opcode, payload) ++ rest =
        (0x80 ||| (opcode &&& 0x0F)) :: b2 :: (tail ++ (payload ++ rest)) := by
      rw [hdata, hbytes, List.append_assoc]
      rfl
    rw [hall, parseFrameHeader_unmasked hmask hl, hopcode, hfin, hbytes, List.length_cons, List.length_cons,
      Nat.add_comm 2]

/-- A frame that a header can say. -/
def Sayable (f : OutFrame) : Prop := f.1 < 16 ∧ f.2.length < 2 ^ 63

theorem splitFrames_frameData {frames : List OutFrame} (hframes : ∀ f ∈ frames, Sayable f) {fuel : Nat}
    (hfuel : (frames.flatMap frameData).length ≤ fuel) : splitFrames fuel (frames.flatMap frameData) = some frames := by
  induction frames generalizing fuel with
  | nil =>
    cases fuel <;> rfl
  | cons f frames ih =>
    obtain ⟨hop, hlen⟩ := hframes f (.head _)
    obtain ⟨header, hdata, htwo, hparse⟩ := parseFrameHeader_frameData hop hlen (frames.flatMap frameData)
    have hall : (f :: frames).flatMap frameData = frameData f ++ frames.flatMap frameData := rfl
    rw [hall] at hfuel ⊢
    have hsize : (frameData f).length = header.length + f.2.length := by rw [hdata, List.length_append]
    rw [List.length_append] at hfuel
    obtain ⟨b, bs, hcons⟩ : ∃ b bs, frameData f ++ frames.flatMap frameData = b :: bs := by
      cases hbytes : frameData f ++ frames.flatMap frameData with
      | nil =>
        have hnil := congrArg List.length hbytes
        rw [List.length_append, List.length_nil] at hnil
        omega
      | cons b bs => exact ⟨b, bs, rfl⟩
    obtain ⟨fuel, rfl⟩ : ∃ k, fuel = k + 1 := ⟨fuel - 1, by omega⟩
    have hdrop : (frameData f ++ frames.flatMap frameData).drop (header.length + f.2.length) =
        frames.flatMap frameData := by
      rw [← hsize]
      exact List.drop_left
    have hpayload : ((frameData f ++ frames.flatMap frameData).drop header.length).take f.2.length = f.2 := by
      rw [hdata, List.append_assoc, List.drop_left, List.take_left]
    rw [hcons] at hparse hdrop hpayload ⊢
    unfold splitFrames
    rw [hparse, Option.bind_some]
    dsimp only
    rw [if_neg, hdrop, hpayload, ih (fun g hg => hframes g (.tail _ hg)) (by omega)]
    · rfl
    · rw [← hcons, List.length_append, hsize]
      simp

/-! ## Frames in order -/

/-- Nothing follows a Close frame, and control frames are small. -/
structure InOrder (frames : List OutFrame) : Prop where
  last : frames.Pairwise fun f _ => f.1 ≠ 0x8
  small : ∀ f ∈ frames, Sayable f ∧ (0x8 ≤ f.1 → f.2.length ≤ 125)

variable {frames frames' : List OutFrame}

theorem InOrder.sublist (h : InOrder frames) (hsub : frames'.Sublist frames) : InOrder frames' :=
  ⟨h.last.sublist hsub, fun f hf => h.small f (hsub.mem hf)⟩

/-- One more frame, if no Close frame is before it. -/
theorem InOrder.snoc (h : InOrder frames) {f : OutFrame} (hopen : ∀ g ∈ frames, g.1 ≠ 0x8) (hsay : Sayable f)
    (hsmall : 0x8 ≤ f.1 → f.2.length ≤ 125) : InOrder (frames ++ [f]) := by
  refine ⟨List.pairwise_append.2 ⟨h.last, List.pairwise_singleton _ _, fun g hg _ _ => hopen g hg⟩, fun g hg => ?_⟩
  rcases List.mem_append.1 hg with hg | hg
  · exact h.small g hg
  · rw [List.mem_singleton.1 hg]
    exact ⟨hsay, hsmall⟩

theorem InOrder.obeys (h : InOrder frames) : Disciplined frames := by
  have hlast : ∀ before f after, frames = before ++ f :: after → f.1 = 0x8 → after = [] := by
    rintro before f after rfl hclose
    obtain ⟨-, hrest, -⟩ := List.pairwise_append.1 h.last
    cases after with
    | nil => rfl
    | cons g after => exact absurd hclose ((List.pairwise_cons.1 hrest).1 g (.head _))
  refine ⟨?_, hlast, fun f hf => (h.small f hf).2⟩
  have hfilter := h.last.filter (p := fun f => decide (f.1 = 0x8))
  cases hcloses : frames.filter (·.1 = 0x8) with
  | nil => exact Nat.zero_le 1
  | cons f closes =>
    rw [hcloses] at hfilter
    have hmem : f ∈ frames.filter (·.1 = 0x8) := by rw [hcloses]; exact .head _
    have hclose : f.1 = 0x8 := of_decide_eq_true (List.mem_filter.1 hmem).2
    cases closes with
    | nil => exact Nat.le_refl 1
    | cons g closes => exact absurd hclose ((List.pairwise_cons.1 hfilter).1 g (.head _))

/-! ## Runs -/

namespace Outbound

variable {s s' : Outbound}

/-- The frames that wait for the lock. -/
def pending (s : Outbound) : List OutFrame := (s.calls.filter (! ·.written)).map (·.frame)

/-- A Close frame is written or waits for the lock. -/
def CloseBegun (s : Outbound) : Prop := ∃ f ∈ s.written ++ s.pending, f.1 = 0x8

/-- The reader answers the bytes that it has come to with a frame. -/
def Answers (s : Outbound) (start : ClientStart) : Prop :=
  match start with
  | .short => False
  | .protocolError _ _ => True
  | .frame opcode fin payload _ =>
    match handleFrame s.fragments opcode fin payload with
    | .goOn _ _ => False
    | .close _ => s.state ≠ .closing
    | _ => True

/-- A step that begins no frame once a Close frame has begun, and no Close frame
with a reason of more than 123 bytes, unless the connection is lost. -/
def Orderly (s : Outbound) : OutboundAction → Prop
  | .send _ _ => s.lost = true ∨ ¬ s.CloseBegun
  | .close _ reason => s.lost = true ∨ ¬ s.CloseBegun ∧ (bytes reason).length ≤ 123
  | .read fast u => s.lost = true ∨ ¬ s.CloseBegun ∨ ¬ s.Answers (clientStart fast u)
  | _ => True

/-- The frames that are written are in order, and so are those that wait as long
as the transport takes them. -/
structure Proper (s : Outbound) : Prop where
  written : InOrder s.written
  waiting : s.lost = false → InOrder (s.written ++ s.pending)

theorem proper_new : new.Proper :=
  have hnil : InOrder [] := ⟨.nil, fun _ hf => absurd hf List.not_mem_nil⟩
  ⟨hnil, fun _ => hnil⟩

/-- A step that begins no frame. -/
theorem Proper.keep (h : s.Proper) (hlost : s'.lost = false → s.lost = false)
    (hwritten : s'.lost = true → s'.written = s.written)
    (hall : s'.lost = false → (s'.written ++ s'.pending).Sublist (s.written ++ s.pending)) : s'.Proper := by
  cases hl : s'.lost with
  | true => exact ⟨hwritten hl ▸ h.written, fun h => by rw [hl] at h; cases h⟩
  | false =>
    have horder := (h.waiting (hlost hl)).sublist (hall hl)
    exact ⟨horder.sublist (List.sublist_append_left _ _), fun _ => horder⟩

theorem pending_nil (h : s.calls = []) : s.pending = [] := by
  unfold pending
  rw [h]
  rfl

theorem lost_sendFrame (sender : Sender) (f : OutFrame) : (s.sendFrame sender f).lost = s.lost := by
  unfold sendFrame
  split
  · rfl
  · rfl

/-- The frame is written or waits behind all others. -/
theorem all_sendFrame (hlost : s.lost = false) (sender : Sender) (f : OutFrame) :
    (s.sendFrame sender f).written ++ (s.sendFrame sender f).pending = s.written ++ s.pending ++ [f] := by
  unfold sendFrame
  split
  · rename_i hnil
    have hwrite : s.write f = s.written ++ [f] := if_neg (ne_true_of_eq_false hlost)
    rw [pending_nil hnil, hwrite, List.append_nil]
    exact List.append_nil _
  · have hpending : pending { s with calls := s.calls ++ [⟨sender, f, false⟩] } = s.pending ++ [f] := by
      unfold pending
      rw [List.filter_append, List.map_append]
      rfl
    rw [hpending, List.append_assoc]

theorem written_sendFrame (hlost : s.lost = true) (sender : Sender) (f : OutFrame) :
    (s.sendFrame sender f).written = s.written := by
  unfold sendFrame
  split
  · exact if_pos hlost
  · rfl

/-- A step that begins a frame. -/
theorem Proper.begin_frame (h : s.Proper) {sender : Sender} {f : OutFrame}
    (hf : s.lost = true ∨ ¬ s.CloseBegun ∧ Sayable f ∧ (0x8 ≤ f.1 → f.2.length ≤ 125)) :
    (s.sendFrame sender f).Proper := by
  cases hl : s.lost with
  | true =>
    refine h.keep (fun hopen => ?_) (fun _ => written_sendFrame hl _ _) (fun hopen => ?_)
    · rwa [lost_sendFrame] at hopen
    · rw [lost_sendFrame, hl] at hopen
      cases hopen
  | false =>
    obtain ⟨hopen, hsay, hsmall⟩ := hf.resolve_left (ne_true_of_eq_false hl)
    have hnone : ∀ g ∈ s.written ++ s.pending, g.1 ≠ 0x8 := fun g hg hclose => hopen ⟨g, hg, hclose⟩
    have horder := (h.waiting hl).snoc hnone hsay hsmall
    rw [← all_sendFrame hl sender f] at horder
    exact ⟨horder.sublist (List.sublist_append_left _ _), fun _ => horder⟩

/-! ## The frames of the reader -/

/-- The payload of a Close frame with a short reason. -/
theorem closePayload_length (code : Nat) (reason : String) :
    (closePayload code reason).length = 2 + (bytes reason).length := by
  unfold closePayload
  rw [List.length_append, length_toBeBytes]

theorem closePayload_small (code : Nat) {reason : String} (h : (bytes reason).length ≤ 123) :
    (closePayload code reason).length ≤ 125 := by
  rw [closePayload_length]
  omega

theorem checkHeader_reason {opcode : UInt8} {fin : Bool} {payloadLen code : Nat} {reason : String}
    (h : checkHeader opcode fin payloadLen = some (code, reason)) : (bytes reason).length ≤ 123 := by
  unfold checkHeader at h
  split at h
  · cases h
    decide
  · split at h
    · cases h
      decide
    · cases h

theorem clientStart_reason {fast : Bool} {u : Bytes} {code : Nat} {reason : String}
    (h : clientStart fast u = .protocolError code reason) : (bytes reason).length ≤ 123 := by
  rcases hu : u with _ | ⟨b1, _ | ⟨b2, rest⟩⟩
  · rw [hu] at h
    cases h
  · rw [hu] at h
    cases h
  rw [clientStart_cons hu] at h
  split at h
  · split at h
    · cases h
    · cases h
      decide
  · split at h
    · cases h
    · split at h
      · cases h
      · split at h
        · rename_i hcheck
          cases h
          exact checkHeader_reason hcheck
        · split at h <;> cases h

/-- The payloads and reasons that a reaction sends. -/
def SmallReaction : Reaction → Prop
  | .goOn _ _ => True
  | .pong payload | .close payload => payload.length ≤ 125
  | .protocolError _ reason | .refuse _ reason => (bytes reason).length ≤ 123

theorem handleFrame_small {f : Reassembly} {opcode : UInt8} {fin : Bool} {payload : Bytes}
    (hcheck : checkHeader opcode fin payload.length = none) : SmallReaction (handleFrame f opcode fin payload) := by
  have hcontrol : 0x8 ≤ opcode → payload.length ≤ 125 := by
    intro hop
    by_contra hlong
    exact (checkHeader_none hcheck).1 ⟨hop, .inl (Nat.not_le.1 hlong)⟩
  have hreason : (bytes "Protocol Error").length ≤ 123 ∧ (bytes "Message Too Big").length ≤ 123 ∧
      (bytes "Invalid UTF-8").length ≤ 123 := by
    decide
  unfold handleFrame
  split
  · split
    · exact hreason.1
    split
    · exact hreason.2.1
    dsimp only
    split
    · split
      · split
        · exact hreason.2.2
        · trivial
      · split <;> trivial
    · trivial
  split
  · split
    · exact hreason.1
    split
    · split
      · split
        · exact hreason.2.2
        · trivial
      · trivial
    · split
      · exact hreason.2.1
      · trivial
  split
  · rename_i hping
    exact hcontrol (by rw [hping]; decide)
  split
  · rename_i hclose
    exact hcontrol (by rw [hclose]; decide)
  · trivial

/-- A frame that the reader sends as an answer. -/
theorem Proper.answer (h : s.Proper) (hok : s.lost = true ∨ ¬ s.CloseBegun) {sender : Sender} {opcode : UInt8}
    {payload : Bytes} (hop : opcode < 16) (hsmall : payload.length ≤ 125) :
    (s.sendFrame sender (opcode, payload)).Proper := by
  have hlen : payload.length < 2 ^ 63 := by omega
  exact h.begin_frame (hok.imp_right fun hopen => ⟨hopen, ⟨hop, hlen⟩, fun _ => hsmall⟩)

/-- What is written and waits does not depend on where the reader is. -/
theorem Proper.same (h : s.Proper) (hlost : s'.lost = s.lost) (hwritten : s'.written = s.written)
    (hcalls : s'.calls = s.calls) : s'.Proper := by
  have hpending : s'.pending = s.pending := by
    unfold pending
    rw [hcalls]
  refine h.keep (fun hopen => hlost ▸ hopen) (fun _ => hwritten) fun _ => ?_
  rw [hwritten, hpending]

theorem Proper.react (h : s.Proper) {fast : Bool} {u : Bytes}
    (hok : s.lost = true ∨ ¬ s.CloseBegun ∨ ¬ s.Answers (clientStart fast u))
    (hst : s.react (clientStart fast u) = some s') : s'.Proper := by
  cases hstart : clientStart fast u with
  | short =>
    rw [hstart] at hst
    cases hst
  | protocolError code reason =>
    have hsmall := closePayload_small code (clientStart_reason hstart)
    rw [hstart] at hok hst
    cases hst
    have hok := hok.imp_right fun hor => hor.resolve_right fun hno => hno trivial
    exact (h.answer hok (by decide) hsmall).same rfl rfl rfl
  | frame opcode fin payload size =>
    have hsmall := @handleFrame_small s.fragments _ _ _ (clientStart_frame.1 hstart).2
    rw [hstart] at hok hst
    unfold Outbound.react at hst
    unfold Answers at hok
    dsimp only at hok hst
    cases hreact : handleFrame s.fragments opcode fin payload with
    | goOn fragments told =>
      rw [hreact] at hst
      cases hst
      exact h.same rfl rfl rfl
    | pong payload' =>
      rw [hreact] at hok hst hsmall
      cases hst
      have hok := hok.imp_right fun hor => hor.resolve_right fun hno => hno trivial
      exact (h.answer hok (by decide) hsmall).same rfl rfl rfl
    | protocolError code reason =>
      rw [hreact] at hok hst hsmall
      cases hst
      have hok := hok.imp_right fun hor => hor.resolve_right fun hno => hno trivial
      exact (h.answer hok (by decide) (closePayload_small code hsmall)).same rfl rfl rfl
    | refuse code reason =>
      rw [hreact] at hok hst hsmall
      cases hst
      have hok := hok.imp_right fun hor => hor.resolve_right fun hno => hno trivial
      exact (h.answer hok (by decide) (closePayload_small code hsmall)).same rfl rfl rfl
    | close payload' =>
      rw [hreact] at hok hst hsmall
      dsimp only at hok hst
      split at hst
      · rename_i hopen
        cases hst
        have hok := hok.imp_right fun hor => hor.resolve_right fun hno => hno hopen
        have hclosing : ({ s with state := .closing } : Outbound).Proper := h.same rfl rfl rfl
        exact (hclosing.answer hok (by decide) hsmall).same rfl rfl rfl
      · cases hst
        exact h.same rfl rfl rfl

/-- Every step keeps the frames in order. -/
theorem Proper.step (h : s.Proper) {a : OutboundAction} (hok : s.Orderly a) (hst : s.step a = some s') :
    s'.Proper := by
  unfold Outbound.step at hst
  cases a with
  | send text payload =>
    dsimp only at hst
    split at hst
    · rename_i hlen
      cases hst
      have hdata : ∀ text : Bool, (if text then (0x1 : UInt8) else 0x2) < 16 ∧
          ¬ 0x8 ≤ (if text then (0x1 : UInt8) else 0x2) := by
        decide
      refine h.begin_frame (hok.imp_right fun hopen => ⟨hopen, ⟨(hdata text).1, hlen⟩, fun hcontrol => ?_⟩)
      exact absurd hcontrol (hdata text).2
    · cases hst
  | close code reason =>
    have hclosing : ({ s with state := .closing } : Outbound).Proper := h.same rfl rfl rfl
    dsimp only at hst
    split at hst
    · split at hst
      · cases hst
        rename_i hlen _
        have hop : (0x8 : UInt8) < 16 := by decide
        refine hclosing.begin_frame (hok.imp_right fun hopen => ⟨hopen.1, ⟨hop, hlen⟩, ?_⟩)
        exact fun _ => closePayload_small code hopen.2
      · cases hst
        exact hclosing
    · cases hst
  | check =>
    dsimp only at hst
    split at hst
    · cases hst
      exact h.same rfl rfl rfl
    · cases hst
  | read fast u =>
    dsimp only at hst
    split at hst
    · exact h.react hok hst
    · cases hst
  | streamEnd raised =>
    dsimp only at hst
    split at hst
    · cases hst
      exact h.same rfl rfl rfl
    · cases hst
  | told =>
    dsimp only at hst
    split at hst
    · cases hst
      exact h.same rfl rfl rfl
    · cases hst
  | resume =>
    dsimp only at hst
    split at hst
    · rename_i call calls hcalls
      split at hst
      · cases hst
      · rename_i hwaits
        cases hst
        have hpending :
            s.pending = call.frame :: pending { s with calls := { call with written := true } :: calls } := by
          unfold pending
          rw [hcalls, List.filter_cons_of_pos (by simpa using hwaits), List.filter_cons_of_neg (by simp)]
          rfl
        refine h.keep id (fun hl => if_pos hl) fun hl => ?_
        have hwrite : s.write call.frame = s.written ++ [call.frame] := if_neg (ne_true_of_eq_false hl)
        show (s.write call.frame ++ pending { s with calls := { call with written := true } :: calls }).Sublist _
        rw [hwrite, hpending, List.append_assoc]
        exact List.Sublist.refl _
    · cases hst
  | drained =>
    dsimp only at hst
    split at hst
    · rename_i call calls hcalls
      split at hst
      · rename_i hwritten
        cases hst
        have hkeep : ({ s with calls } : Outbound).Proper := by
          have hpending : s.pending = pending { s with calls } := by
            unfold pending
            rw [hcalls, List.filter_cons_of_neg (by simp [hwritten])]
          refine h.keep id (fun _ => rfl) fun _ => ?_
          show (s.written ++ pending { s with calls }).Sublist _
          rw [← hpending]
        cases call.sender with
        | send => exact hkeep
        | close => exact hkeep.same rfl rfl rfl
        | pong => exact hkeep.same rfl rfl rfl
        | protocolError => exact hkeep.same rfl rfl rfl
        | refuse => exact hkeep.same rfl rfl rfl
      · cases hst
    · cases hst
  | cancel i =>
    cases hst
    refine h.keep id (fun _ => rfl) fun _ => ?_
    have hsub : (pending { s with calls := s.calls.eraseIdx i }).Sublist s.pending :=
      ((List.eraseIdx_sublist _ _).filter _).map _
    exact hsub.append_left _
  | returned =>
    cases hst
    exact h.same rfl rfl rfl
  | lose =>
    cases hst
    exact h.keep (fun hl => by cases hl) (fun _ => rfl) (fun hl => by cases hl)

/-- In every run whose steps are orderly the bytes are whole frames, at most one
of them a Close frame, which is the last, and no control frame has more than
125 bytes. -/
theorem disciplined (h : outbound.ReachableWhen Orderly s) :
    wholeFrames s.wire = some s.written ∧ Disciplined s.written := by
  have hproper : s.Proper := by
    refine h.inv (I := Proper) ?_ fun s a s' hs hok hst => hs.step hok hst
    rintro s rfl
    exact proper_new
  exact ⟨splitFrames_frameData (fun f hf => (hproper.written.small f hf).1) (Nat.le_refl _),
    hproper.written.obeys⟩

/-- A text, a ping that is answered while the text drains, and a close. -/
theorem disciplined_ping : ∃ s : Outbound, s.written = [(1, [65]), (0xA, [7]), (8, [3, 232])] ∧
    wholeFrames s.wire = some s.written ∧ Disciplined s.written := by
  have h : outbound.ReachableWhen Orderly new := .init rfl
  have h := h.next (.send true [65]) (.inr (by unfold CloseBegun; decide)) rfl
  have h := (h.next .check trivial rfl).next (.read true [0x89, 0x81, 0, 0, 0, 0, 7])
    (.inr (.inl (by unfold CloseBegun; decide))) rfl
  have h := h.next (.close 1000 "") (.inr ⟨by unfold CloseBegun; decide, by decide⟩) rfl
  have h := ((((h.next .drained trivial rfl).next .resume trivial rfl).next .drained trivial rfl).next
    .resume trivial rfl).next .drained trivial rfl
  exact ⟨_, rfl, disciplined h⟩

/-- The reader echoes a Close frame, and then the application sends a text;
another application closes with a reason of 124 bytes. -/
theorem frame_after_close :
    (∃ s, outbound.Reachable s ∧ s.written = [(8, []), (1, [65])] ∧ ¬ Disciplined s.written) ∧
    (∃ s, outbound.Reachable s ∧ s.written.map (fun f => (f.1, f.2.length)) = [(8, 126)]) := by
  refine ⟨?_, ?_⟩
  · obtain ⟨s, hs, hwritten⟩ := System.exists_reachable_of_run (M := outbound)
      [.check, .read true [0x88, 0x80, 0, 0, 0, 0], .drained, .send true [65]]
      (p := fun s => s.written = [(8, []), (1, [65])]) rfl (by decide)
    refine ⟨s, hs, hwritten, fun h => ?_⟩
    have hlast := h.last [] (8, []) [(1, [65])] hwritten rfl
    exact absurd hlast (by decide)
  · exact System.exists_reachable_of_run [.close 1000 (String.ofList (List.replicate 124 'a'))] rfl (by decide +kernel)

end Outbound

end Multiloop.Http
