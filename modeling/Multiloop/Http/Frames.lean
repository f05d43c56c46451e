import Multiloop.Http.Bounds

/-!
# The frames of a client

What the unread bytes of a connection in websocket mode begin with, apart from
the arithmetic of the round that reads them: a frame, bytes that are no masked
frame, or fewer bytes than a frame has. A round is determined by it, except
that one which computes a length that wraps around may panic where it should
wait.
-/

namespace Multiloop.Http

/-- What bytes from a client begin with. -/
inductive FrameStart
  | short
  | unmasked
  | frame (opcode : UInt8) (fin : Bool) (payload : Bytes) (size : Nat)
deriving DecidableEq

def firstFrame (u : Bytes) : FrameStart :=
  match u with
  | b1 :: b2 :: _ =>
    if b2 &&& 0x80 = 0 then .unmasked
    else match FastHttpConnection.lengths u (b2 &&& 0x7F).toNat with
      | none => .short
      | some (payloadLen, headerLen) =>
        if u.length < headerLen + 4 + payloadLen then .short
        else .frame (b1 &&& 0x0F) (b1 &&& 0x80 ≠ 0)
          (fastWebsocketUnmask ((u.drop (headerLen + 4)).take payloadLen) ((u.drop headerLen).take 4))
          (headerLen + 4 + payloadLen)
  | _ => .short

namespace FastHttpConnection

variable {parse : Httparse} {c c' : FastHttpConnection} {u : Bytes}

/-- A frame header has 2, 4 or 10 bytes, all of them there. -/
theorem lengths_header {rawLen payloadLen headerLen : Nat} (h : lengths u rawLen = some (payloadLen, headerLen)) :
    (rawLen = 126 ∧ headerLen = 4 ∨ rawLen = 127 ∧ headerLen = 10 ∨ headerLen = 2) := by
  unfold lengths at h
  split at h
  · rename_i h126
    split at h <;> cases h
    exact .inl ⟨h126, rfl⟩
  · split at h
    · rename_i h127
      split at h <;> cases h
      exact .inr (.inl ⟨h127, rfl⟩)
    · cases h
      exact .inr (.inr rfl)

/-- The size of the masked frame that the bytes begin with, once its header says
it. -/
def announcedSize (u : Bytes) : Option Nat :=
  match u with
  | _ :: b2 :: _ => if b2 &&& 0x80 = 0 then none else (lengths u (b2 &&& 0x7F).toNat).map fun p => p.2 + 4 + p.1
  | _ => none

theorem firstFrame_masked {b1 b2 : UInt8} {rest : Bytes} (hu : u = b1 :: b2 :: rest) (hmask : b2 &&& 0x80 ≠ 0) :
    firstFrame u =
      match lengths u (b2 &&& 0x7F).toNat with
      | none => .short
      | some (payloadLen, headerLen) =>
        if u.length < headerLen + 4 + payloadLen then .short
        else .frame (b1 &&& 0x0F) (b1 &&& 0x80 ≠ 0)
          (fastWebsocketUnmask ((u.drop (headerLen + 4)).take payloadLen) ((u.drop headerLen).take 4))
          (headerLen + 4 + payloadLen) := by
  subst hu
  exact if_neg hmask

theorem announcedSize_masked {b1 b2 : UInt8} {rest : Bytes} (hu : u = b1 :: b2 :: rest) (hmask : b2 &&& 0x80 ≠ 0) :
    announcedSize u = (lengths u (b2 &&& 0x7F).toNat).map fun p => p.2 + 4 + p.1 := by
  subst hu
  exact if_neg hmask

theorem firstFrame_size {opcode : UInt8} {fin : Bool} {payload : Bytes} {size : Nat}
    (h : firstFrame u = .frame opcode fin payload size) :
    size ≤ u.length ∧ payload.length + 6 ≤ size ∧ size ≤ payload.length + 14 := by
  rcases hu : u with _ | ⟨b1, _ | ⟨b2, rest⟩⟩
  · rw [hu] at h
    cases h
  · rw [hu] at h
    cases h
  by_cases hmask : b2 &&& 0x80 = 0
  · rw [hu] at h
    have hunmasked : firstFrame (b1 :: b2 :: rest) = .unmasked := if_pos hmask
    rw [hunmasked] at h
    cases h
  rw [firstFrame_masked hu hmask] at h
  rw [← hu]
  split at h
  · cases h
  · rename_i payloadLen headerLen hl
    have hheader := lengths_header hl
    split at h
    · cases h
    · rename_i henough
      have henough := Nat.not_lt.1 henough
      injection h with hop hfin hpayload hsize
      have hlen : payload.length = payloadLen := by
        rw [← hpayload]
        unfold fastWebsocketUnmask
        rw [List.length_mapIdx, List.length_take_of_le]
        rw [List.length_drop]
        omega
      omega

/-! ## More bytes -/

theorem lengths_append {rawLen : Nat} {p : Nat × Nat} (h : lengths u rawLen = some p) (v : Bytes) :
    lengths (u ++ v) rawLen = some p := by
  have hlen : (u ++ v).length = u.length + v.length := List.length_append
  unfold lengths at h ⊢
  split at h
  · rename_i h126
    rw [if_pos h126]
    split at h
    · cases h
    · rename_i henough
      rw [if_neg (by omega), List.drop_append_of_le_length (by omega),
        List.take_append_of_le_length (by rw [List.length_drop]; omega)]
      exact h
  · rename_i h126
    rw [if_neg h126]
    split at h
    · rename_i h127
      rw [if_pos h127]
      split at h
      · cases h
      · rename_i henough
        rw [if_neg (by omega), List.drop_append_of_le_length (by omega),
          List.take_append_of_le_length (by rw [List.length_drop]; omega)]
        exact h
    · rename_i h127
      rw [if_neg h127]
      exact h

/-- What bytes that are no masked frame, or a whole one, begin with does not
depend on what follows. -/
theorem firstFrame_append (h : firstFrame u ≠ .short) (v : Bytes) : firstFrame (u ++ v) = firstFrame u := by
  rcases hu : u with _ | ⟨b1, _ | ⟨b2, rest⟩⟩
  · rw [hu] at h
    exact absurd rfl h
  · rw [hu] at h
    exact absurd rfl h
  by_cases hmask : b2 &&& 0x80 = 0
  · have hunmasked : ∀ rest : Bytes, firstFrame (b1 :: b2 :: rest) = .unmasked := fun _ => if_pos hmask
    rw [List.cons_append, List.cons_append, hunmasked, hunmasked]
  have huv : u ++ v = b1 :: b2 :: (rest ++ v) := by
    rw [hu]
    rfl
  rw [← hu, firstFrame_masked huv hmask, firstFrame_masked hu hmask]
  rw [firstFrame_masked hu hmask] at h
  cases hl : lengths u (b2 &&& 0x7F).toNat with
  | none =>
    rw [hl] at h
    exact absurd rfl h
  | some p =>
    obtain ⟨payloadLen, headerLen⟩ := p
    rw [hl] at h
    rw [lengths_append hl v]
    dsimp only at h ⊢
    by_cases hfew : u.length < headerLen + 4 + payloadLen
    · rw [if_pos hfew] at h
      exact absurd rfl h
    · have hlen : (u ++ v).length = u.length + v.length := List.length_append
      rw [if_neg hfew, if_neg (by omega), List.drop_append_of_le_length (by omega),
        List.take_append_of_le_length (by rw [List.length_drop]; omega), List.drop_append_of_le_length (by omega),
        List.take_append_of_le_length (by rw [List.length_drop]; omega)]

theorem announcedSize_append {size : Nat} (h : announcedSize u = some size) (v : Bytes) :
    announcedSize (u ++ v) = some size := by
  rcases hu : u with _ | ⟨b1, _ | ⟨b2, rest⟩⟩
  · rw [hu] at h
    cases h
  · rw [hu] at h
    cases h
  by_cases hmask : b2 &&& 0x80 = 0
  · rw [hu] at h
    have hnone : announcedSize (b1 :: b2 :: rest) = none := if_pos hmask
    rw [hnone] at h
    cases h
  have huv : u ++ v = b1 :: b2 :: (rest ++ v) := by
    rw [hu]
    rfl
  rw [announcedSize_masked hu hmask] at h
  rw [← hu, announcedSize_masked huv hmask]
  obtain ⟨p, hp, rfl⟩ := Option.map_eq_some_iff.1 h
  rw [lengths_append hp v]
  rfl

theorem announcedSize_of_frame {opcode : UInt8} {fin : Bool} {payload : Bytes} {size : Nat}
    (h : firstFrame u = .frame opcode fin payload size) : announcedSize u = some size := by
  rcases hu : u with _ | ⟨b1, _ | ⟨b2, rest⟩⟩
  · rw [hu] at h
    cases h
  · rw [hu] at h
    cases h
  by_cases hmask : b2 &&& 0x80 = 0
  · rw [hu] at h
    have hunmasked : firstFrame (b1 :: b2 :: rest) = .unmasked := if_pos hmask
    rw [hunmasked] at h
    cases h
  rw [firstFrame_masked hu hmask] at h
  rw [← hu, announcedSize_masked hu hmask]
  split at h
  · cases h
  · rename_i payloadLen headerLen hl
    rw [hl]
    split at h
    · cases h
    · injection h with hop hfin hpayload hsize
      rw [← hsize]
      rfl

/-- A round in websocket mode: what it does about a frame, about bytes that are
no masked frame, and where it waits for the rest of one. -/
inductive WebSocketRound (c : FastHttpConnection) : Except Fault Round → Prop
  | short (hfirst : firstFrame c.unread = .short) : WebSocketRound c (.ok (c, [], .stop))
  /-- The size of the frame wraps around. -/
  | wraps (hfirst : firstFrame c.unread = .short) {size : Nat} (hsize : announcedSize c.unread = some size)
      (hwraps : usizeEnd ≤ size) (e : Fault) : WebSocketRound c (.error e)
  | unmasked (hfirst : firstFrame c.unread = .unmasked) : WebSocketRound c (.ok (c.closeFrame 1002))
  | frame {opcode : UInt8} {fin : Bool} {payload : Bytes} {size : Nat}
      (hfirst : firstFrame c.unread = .frame opcode fin payload size) :
      WebSocketRound c (.ok ({ c with cursor := c.cursor + size }.acceptFrame opcode fin payload))

theorem webSocketRound_cases (h : c.Fits) : WebSocketRound c (c.webSocketRound .release) := by
  rw [webSocketRound_eq h]
  rcases hu : c.unread with _ | ⟨b1, _ | ⟨b2, rest⟩⟩
  · exact .short (by rw [hu]; rfl)
  · exact .short (by rw [hu]; rfl)
  dsimp only
  by_cases hmask : b2 &&& 0x80 = 0
  · rw [if_pos hmask]
    refine .unmasked ?_
    rw [hu]
    exact if_pos hmask
  rw [if_neg hmask, ← hu]
  have hfirst := firstFrame_masked hu hmask
  have hsize := announcedSize_masked hu hmask
  cases hl : lengths c.unread (b2 &&& 0x7F).toNat with
  | none =>
    rw [hl] at hfirst
    exact .short hfirst
  | some p =>
    obtain ⟨payloadLen, headerLen⟩ := p
    obtain ⟨hh, hp, -⟩ := lengths_bounds (rawLen_lt b2) hl
    rw [hl] at hfirst hsize
    dsimp only at hfirst ⊢
    rcases Nat.lt_or_ge (headerLen + 4 + payloadLen) usizeEnd with hfits | hwraps
    · rw [frameRound_eq h hh hfits]
      split
      · rename_i hfew
        rw [if_pos hfew] at hfirst
        exact .short hfirst
      · rename_i henough
        rw [if_neg henough] at hfirst
        exact .frame hfirst
    · have hroom := h.length
      have hbig : 2 ^ 63 < usizeEnd := by decide
      have hfew : c.unread.length < headerLen + 4 + payloadLen := by
        rw [unread_length]
        omega
      rw [if_pos hfew] at hfirst
      rcases (frameRound_wraps h hh hp hwraps).2 with hr | ⟨e, hr⟩
      · rw [hr]
        exact .short hfirst
      · rw [hr]
        exact .wraps hfirst hsize hwraps e

end FastHttpConnection

end Multiloop.Http
