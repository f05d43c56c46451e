import Multiloop.Http.Decoder

/-!
# Hostile input

The engine as a system whose steps are the single rounds of its loops, with
the calls of its owner in between. In every run, whatever the bytes, the
cursor stays in the buffer, and a round computes without a fault exactly as
long as the lengths it reads do not add up to `2 ^ 64`.
-/

namespace Multiloop.Http

/-! ## The rounds as steps -/

/-- A connection, and whether one of its calls is running. -/
structure Call where
  conn : FastHttpConnection
  running : Bool

inductive Action
  | feedData (data : Bytes)
  | pumpEvents
  | resetForNextRequest
  | switchToWebsocket
  | close
  | round

namespace Call

def step (parse : Httparse) (s : Call) : Action → Option Call
  | .round =>
    if s.running then
      match s.conn.round .release parse with
      | .error _ => some { s with running := false }
      | .ok (c, _, .stop) => some ⟨c, false⟩
      | .ok (c, _, .again) => some ⟨c, true⟩
    else none
  | .feedData data =>
    -- A `Vec` has at most `isize::MAX` bytes.
    if ¬ s.running ∧ (s.conn.buffer ++ data).length < 2 ^ 63 then
      some ⟨{ s.conn with buffer := s.conn.buffer ++ data }.compactBuffer, true⟩
    else none
  | .pumpEvents => if s.running then none else some ⟨s.conn.compactBuffer, true⟩
  | .resetForNextRequest => if s.running then none else some ⟨s.conn.resetForNextRequest, false⟩
  | .switchToWebsocket => if s.running then none else some ⟨s.conn.switchToWebsocket, false⟩
  | .close => if s.running then none else some ⟨s.conn.close, false⟩

end Call

/-- The runs of a connection with any limits. -/
def engine (parse : Httparse) : System Call Action where
  init s := ∃ maxBodySize maxHeaderSize maxKeepaliveRequests, maxKeepaliveRequests < usizeEnd ∧
    s = ⟨.new maxBodySize maxHeaderSize maxKeepaliveRequests, false⟩
  step := Call.step parse

namespace FastHttpConnection

/-- The payload length that a masked frame with a 64-bit length announces. -/
def announcedPayload (c : FastHttpConnection) : Option Nat :=
  let b2 := c.unread.getD 1 0
  if 10 ≤ c.unread.length ∧ b2 &&& 0x80 ≠ 0 ∧ (b2 &&& 0x7F).toNat = 127 then
    some (fromBeBytes ((c.unread.drop 2).take 8))
  else none

/-- The lengths that the next round adds up give a `usize`. -/
def RoundSafe (c : FastHttpConnection) : Prop :=
  match c.mode, c.state with
  | .webSocket, _ => ∀ n, c.announcedPayload = some n → 14 + n < usizeEnd
  | .http11, .receivingChunked .readingSize =>
    ∀ n, c.announcedChunk = some n → n ≠ 0 → c.totalBodyReceived + n < usizeEnd
  | .http11, .receivingChunked (.readingData n) => n + 2 < usizeEnd
  | .http11, _ => True

/-- What holds of the connection in every run. -/
structure Bounded (c : FastHttpConnection) : Prop where
  fits : c.Fits
  count : c.state = .waitingHeader ∨ c.state = .keepAliveWait → c.requestCount + 1 < usizeEnd
  keepalive : c.maxKeepaliveRequests < usizeEnd
  data : ∀ n, c.state = .receivingChunked (.readingData n) → n < usizeEnd

variable {c : FastHttpConnection} {m : Arith} {parse : Httparse}

/-! ## Websocket rounds -/

theorem fromBeBytes_lt (bs : Bytes) : fromBeBytes bs < 256 ^ bs.length := by
  unfold fromBeBytes
  induction bs using List.reverseRecOn with
  | nil => simp
  | append_singleton bs b ih =>
    have hb : b.toNat < 256 := b.toNat_lt
    rw [List.foldl_append, List.length_append, Nat.pow_add]
    simp only [List.foldl_cons, List.foldl_nil, List.length_cons, List.length_nil]
    omega

theorem slice_from (h : c.Fits) {i n : Nat} (hn : i + n ≤ c.unread.length) :
    slice c.buffer (c.cursor + i) (c.cursor + i + n) = .ok ((c.unread.drop i).take n) := by
  have := h.cursor
  rw [unread_length] at hn
  rw [slice_next (by rw [List.length_drop]; omega) (by omega), unread, List.drop_drop]

theorem index_unread {i : Nat} {b : UInt8} (h : c.unread[i]? = some b) : index c.buffer (c.cursor + i) = .ok b := by
  rw [unread, List.getElem?_drop] at h
  simp only [index, h]

/-- The lengths of a frame, once the bytes that say them have arrived. -/
def lengths (u : Bytes) (rawLen : Nat) : Option (Nat × Nat) :=
  if rawLen = 126 then
    if u.length < 4 then none else some (fromBeBytes ((u.drop 2).take 2), 4)
  else if rawLen = 127 then
    if u.length < 10 then none else some (fromBeBytes ((u.drop 2).take 8), 10)
  else some (rawLen, 2)

theorem frameLength_eq (h : c.Fits) (rawLen : Nat) :
    c.frameLength m rawLen = .ok (lengths c.unread rawLen) := by
  unfold frameLength lengths
  rw [sub_cursor h, ok_bind]
  split
  · split
    · rfl
    · rw [add_cursor h (by omega), ok_bind, add_cursor h (by omega), ok_bind, slice_from h (n := 2) (by omega)]
      rfl
  · split
    · split
      · rfl
      · rw [add_cursor h (by omega), ok_bind, add_cursor h (by omega), ok_bind, slice_from h (n := 8) (by omega)]
        rfl
    · rfl

theorem frameRound_eq (h : c.Fits) {opcode : UInt8} {fin : Bool} {payloadLen headerLen : Nat}
    (hh : headerLen ≤ 10) (hsum : headerLen + 4 + payloadLen < usizeEnd) :
    c.frameRound m opcode fin payloadLen headerLen = .ok
      (if c.unread.length < headerLen + 4 + payloadLen then (c, [], .stop)
      else ({ c with cursor := c.cursor + (headerLen + 4 + payloadLen) }.acceptFrame opcode fin
        (fastWebsocketUnmask ((c.unread.drop (headerLen + 4)).take payloadLen)
          ((c.unread.drop headerLen).take 4)))) := by
  unfold frameRound
  have hlen := h.length
  have hcur := h.cursor
  rw [Arith.add_of_lt (by rw [usizeEnd]; omega), ok_bind, sub_cursor h, ok_bind, Arith.add_of_lt hsum, ok_bind]
  split
  · rfl
  · rename_i hu
    have hu' := Nat.not_lt.1 hu
    have hfit : c.cursor + (headerLen + 4 + payloadLen) ≤ c.buffer.length := by
      rw [unread_length] at hu'
      omega
    rw [add_cursor h (by omega), ok_bind, Arith.add_of_lt (by rw [usizeEnd]; omega), ok_bind,
      slice_from h (by omega), ok_bind, add_cursor h (by omega), ok_bind,
      Arith.add_of_lt (by rw [usizeEnd]; omega), ok_bind, slice_from h (by omega), ok_bind,
      add_cursor h hu', ok_bind]
    rfl

/-- A frame whose length wraps around faults, or is waited for. -/
theorem frameRound_wraps (h : c.Fits) {opcode : UInt8} {fin : Bool} {payloadLen headerLen : Nat}
    (hh : headerLen ≤ 10) (hp : payloadLen < usizeEnd) (hsum : usizeEnd ≤ headerLen + 4 + payloadLen) :
    (∃ e, c.frameRound .checked opcode fin payloadLen headerLen = .error e) ∧
    (c.frameRound .release opcode fin payloadLen headerLen = .ok (c, [], .stop) ∨
      ∃ e, c.frameRound .release opcode fin payloadLen headerLen = .error e) := by
  have hlen := h.length
  have hcur := h.cursor
  have hhead : ∀ m : Arith, m.add headerLen 4 = .ok (headerLen + 4) := fun m =>
    Arith.add_of_lt (by rw [usizeEnd]; omega)
  unfold frameRound
  rw [hhead, hhead, ok_bind, ok_bind, sub_cursor h, sub_cursor h, ok_bind, ok_bind, Arith.add_checked_of_le hsum,
    Arith.add_release, ok_bind]
  refine ⟨⟨_, rfl⟩, ?_⟩
  split
  · exact .inl rfl
  refine .inr ?_
  rw [Arith.add_of_lt (by rw [usizeEnd]; omega), ok_bind, Arith.add_of_lt (by rw [usizeEnd]; omega), ok_bind]
  cases slice c.buffer (c.cursor + headerLen) (c.cursor + headerLen + 4) with
  | error e => exact ⟨e, rfl⟩
  | ok mask =>
    have hend : (c.cursor + (headerLen + 4) + payloadLen) % usizeEnd < c.cursor + (headerLen + 4) := by
      have hsub : c.cursor + (headerLen + 4) + payloadLen - usizeEnd < c.cursor + (headerLen + 4) := by omega
      rw [Nat.mod_eq_sub_mod (by omega)]
      exact Nat.lt_of_le_of_lt (Nat.mod_le _ _) hsub
    rw [ok_bind, Arith.add_of_lt (by rw [usizeEnd]; omega), ok_bind, Arith.add_release, ok_bind,
      slice_inverted hend]
    exact ⟨_, rfl⟩

/-- What a round in websocket mode leaves alone. -/
structure Keeps (c c' : FastHttpConnection) : Prop where
  buffer : c'.buffer = c.buffer
  cursor : c.cursor ≤ c'.cursor ∧ c'.cursor ≤ c.buffer.length
  state : c'.state = c.state ∨ c'.state = .closed
  count : c'.requestCount = c.requestCount
  keepalive : c'.maxKeepaliveRequests = c.maxKeepaliveRequests

theorem Keeps.refl (h : c.Fits) : c.Keeps c := ⟨rfl, ⟨Nat.le_refl _, h.cursor⟩, .inl rfl, rfl, rfl⟩

theorem keeps_acceptFrame (c : FastHttpConnection) (h : c.cursor ≤ c.buffer.length) (opcode : UInt8) (fin : Bool)
    (payload : Bytes) : c.Keeps (c.acceptFrame opcode fin payload).1 := by
  have hc : ∀ d : FastHttpConnection, d.buffer = c.buffer → d.cursor = c.cursor →
      (d.state = c.state ∨ d.state = .closed) → d.requestCount = c.requestCount →
      d.maxKeepaliveRequests = c.maxKeepaliveRequests → c.Keeps d := fun d hb hcur hs hr hk =>
    ⟨hb, ⟨Nat.le_of_eq hcur.symm, hcur ▸ h⟩, hs, hr, hk⟩
  unfold acceptFrame closeFrame
  dsimp only
  repeat' split
  all_goals exact hc _ rfl rfl (by simp) rfl rfl

/-- What the first bytes of a frame say about the rest of it. -/
theorem webSocketRound_eq (h : c.Fits) :
    c.webSocketRound m =
      match c.unread with
      | b1 :: b2 :: _ =>
        if b2 &&& 0x80 = 0 then .ok (c.closeFrame 1002)
        else match lengths c.unread (b2 &&& 0x7F).toNat with
          | none => .ok (c, [], .stop)
          | some (payloadLen, headerLen) =>
            c.frameRound m (b1 &&& 0x0F) (b1 &&& 0x80 ≠ 0) payloadLen headerLen
      | _ => .ok (c, [], .stop) := by
  unfold webSocketRound
  rw [sub_cursor h, ok_bind]
  cases hu : c.unread with
  | nil => rfl
  | cons b1 rest =>
    cases rest with
    | nil => rfl
    | cons b2 rest =>
      have hlen : ¬ (b1 :: b2 :: rest).length < 2 := by simp
      have hfirst : index c.buffer c.cursor = .ok b1 := index_unread (i := 0) (by rw [hu]; rfl)
      rw [if_neg hlen, hfirst, ok_bind, add_cursor h (by rw [hu]; simp), ok_bind,
        index_unread (i := 1) (b := b2) (by rw [hu]; rfl), ok_bind, frameLength_eq h, hu]
      rfl

theorem announcedPayload_eq {b1 b2 : UInt8} {rest : Bytes} (hu : c.unread = b1 :: b2 :: rest)
    (hm : b2 &&& 0x80 ≠ 0) {payloadLen : Nat} (hl : lengths c.unread (b2 &&& 0x7F).toNat = some (payloadLen, 10)) :
    c.announcedPayload = some payloadLen := by
  have hb : c.unread.getD 1 0 = b2 := by rw [hu]; rfl
  unfold announcedPayload
  unfold lengths at hl
  rw [hb]
  split at hl
  · split at hl <;> cases hl
  · split at hl
    · rename_i h127
      split at hl
      · cases hl
      · rename_i hlen
        cases hl
        rw [if_pos ⟨by omega, hm, h127⟩]
    · cases hl

/-- A frame header has 2, 4 or 10 bytes; only one of 10 announces a payload of
`2 ^ 16` bytes or more. -/
theorem lengths_bounds {u : Bytes} {rawLen payloadLen headerLen : Nat} (hr : rawLen < 128)
    (h : lengths u rawLen = some (payloadLen, headerLen)) :
    headerLen ≤ 10 ∧ payloadLen < usizeEnd ∧ (headerLen = 10 ∨ payloadLen < 2 ^ 16) := by
  have hval : ∀ n, fromBeBytes ((u.drop 2).take n) < 256 ^ n := fun n =>
    Nat.lt_of_lt_of_le (fromBeBytes_lt _) (Nat.pow_le_pow_right (by omega) (List.length_take_le _ _))
  have h2 := hval 2
  have h8 := hval 8
  unfold lengths at h
  split at h
  · split at h <;> cases h
    exact ⟨by omega, by rw [usizeEnd]; omega, .inr (by omega)⟩
  · split at h
    · split at h <;> cases h
      exact ⟨by omega, by rw [usizeEnd]; omega, .inl rfl⟩
    · cases h
      exact ⟨by omega, by rw [usizeEnd]; omega, .inr (by omega)⟩

theorem rawLen_lt (b : UInt8) : (b &&& 0x7F).toNat < 128 := by
  rw [UInt8.toNat_and]
  exact Nat.lt_of_le_of_lt Nat.and_le_right (by decide)

/-- A round in websocket mode whose lengths fit. -/
theorem webSocketRound_safe (h : c.Fits) (hsafe : ∀ n, c.announcedPayload = some n → 14 + n < usizeEnd) :
    ∃ r, c.webSocketRound m = .ok r ∧ c.Keeps r.1 := by
  rw [webSocketRound_eq h]
  rcases hu : c.unread with _ | ⟨b1, _ | ⟨b2, rest⟩⟩
  · exact ⟨_, rfl, .refl h⟩
  · exact ⟨_, rfl, .refl h⟩
  · dsimp only
    split
    · exact ⟨_, rfl, rfl, ⟨Nat.le_refl _, h.cursor⟩, .inr rfl, rfl, rfl⟩
    rename_i hmask
    rw [← hu]
    cases hl : lengths c.unread (b2 &&& 0x7F).toNat with
    | none => exact ⟨_, rfl, .refl h⟩
    | some p =>
      obtain ⟨payloadLen, headerLen⟩ := p
      obtain ⟨hh, hp, hbig⟩ := lengths_bounds (rawLen_lt b2) hl
      have hsum : headerLen + 4 + payloadLen < usizeEnd := by
        rcases hbig with rfl | hsmall
        · have := hsafe payloadLen (announcedPayload_eq hu hmask hl)
          omega
        · rw [usizeEnd]
          omega
      dsimp only
      rw [frameRound_eq h hh hsum]
      refine ⟨_, rfl, ?_⟩
      split
      · exact .refl h
      · rename_i hlen
        have hlen := Nat.not_lt.1 hlen
        rw [unread_length] at hlen
        have hcur := h.cursor
        have hk := keeps_acceptFrame { c with cursor := c.cursor + (headerLen + 4 + payloadLen) }
          (by change c.cursor + (headerLen + 4 + payloadLen) ≤ c.buffer.length; omega) (b1 &&& 0x0F) (b1 &&& 0x80 ≠ 0)
          (fastWebsocketUnmask ((c.unread.drop (headerLen + 4)).take payloadLen) ((c.unread.drop headerLen).take 4))
        exact ⟨hk.buffer, ⟨Nat.le_trans (Nat.le_add_right _ _) hk.cursor.1, hk.cursor.2⟩, hk.state, hk.count,
          hk.keepalive⟩

/-- A round in websocket mode whose lengths wrap around. -/
theorem webSocketRound_wraps (h : c.Fits) {n : Nat} (hn : c.announcedPayload = some n) (hsum : usizeEnd ≤ 14 + n) :
    (∃ e, c.webSocketRound .checked = .error e) ∧
    (c.webSocketRound .release = .ok (c, [], .stop) ∨ ∃ e, c.webSocketRound .release = .error e) := by
  unfold announcedPayload at hn
  dsimp only at hn
  split at hn
  · rename_i hc
    obtain ⟨hlen, hmask, h127⟩ := hc
    cases hn
    rw [webSocketRound_eq h, webSocketRound_eq h]
    rcases hu : c.unread with _ | ⟨b1, _ | ⟨b2, rest⟩⟩
    · simp [hu] at hlen
    · simp [hu] at hlen
    · have hb : c.unread.getD 1 0 = b2 := by rw [hu]; rfl
      rw [hb] at hmask h127
      dsimp only
      rw [← hu]
      have hl : lengths c.unread (b2 &&& 0x7F).toNat = some (fromBeBytes ((c.unread.drop 2).take 8), 10) := by
        unfold lengths
        rw [if_neg (by omega), if_pos h127, if_neg (by omega)]
      obtain ⟨-, hp, -⟩ := lengths_bounds (rawLen_lt b2) hl
      rw [if_neg hmask, if_neg hmask, hl]
      exact frameRound_wraps h (Nat.le_refl 10) hp (by omega)
  · cases hn

/-! ## HTTP rounds -/

/-- A chunk whose end wraps around faults, or closes the connection, or is
waited for: it is never delivered. -/
theorem dataRound_wraps (h : c.Fits) {n : Nat} (hn : n < usizeEnd) (hsum : usizeEnd ≤ n + 2) :
    (∃ e, c.dataRound .checked n = .error e) ∧
    (c.dataRound .release n = .ok (c, [], .stop) ∨
      c.dataRound .release n = .ok (c.emitError 400 "Malformed chunk boundary") ∨
      ∃ e, c.dataRound .release n = .error e) := by
  have hlen := h.length
  have hcur := h.cursor
  unfold dataRound
  rw [sub_cursor h, sub_cursor h, ok_bind, ok_bind, Arith.add_checked_of_le hsum, Arith.add_release, ok_bind]
  refine ⟨⟨_, rfl⟩, ?_⟩
  split
  · exact .inl rfl
  refine .inr ?_
  rw [Arith.add_release, ok_bind, Arith.add_release, ok_bind]
  cases hb : slice c.buffer ((c.cursor + n) % usizeEnd) (((c.cursor + n) % usizeEnd + 2) % usizeEnd) with
  | error e => exact .inr ⟨e, rfl⟩
  | ok boundary =>
    rw [ok_bind]
    split
    · exact .inl rfl
    · -- The slice before it was in range, so the end of the chunk has wrapped around.
      have hend : (c.cursor + n) % usizeEnd < c.cursor := by
        unfold slice at hb
        split at hb
        · rename_i hr
          obtain ⟨hle, hfit⟩ := hr
          by_cases hw : c.cursor + n < usizeEnd
          · rw [Nat.mod_eq_of_lt hw] at hle hfit
            rw [usizeEnd] at *
            omega
          · rw [Nat.mod_eq_sub_mod (by omega)]
            refine Nat.lt_of_le_of_lt (Nat.mod_le _ _) ?_
            rw [usizeEnd] at *
            omega
        · cases hb
      rw [slice_inverted hend]
      exact .inr ⟨_, rfl⟩

/-- A chunk whose length does not fit into the sum of the lengths. -/
theorem sizeRound_wraps (h : c.Fits) {n : Nat} (hann : c.announcedChunk = some n) (hz : n ≠ 0)
    (hsum : usizeEnd ≤ c.totalBodyReceived + n) : ∃ e, c.sizeRound .checked = .error e := by
  unfold announcedChunk at hann
  obtain ⟨pos, hpos, hann⟩ := Option.bind_eq_some_iff.1 hann
  obtain ⟨text, htext, hnum⟩ := Option.bind_eq_some_iff.1 hann
  have hle : pos + 2 ≤ c.unread.length := position_le hpos
  unfold sizeRound
  rw [slice_unread h, ok_bind, hpos]
  dsimp only
  rw [htext]
  dsimp only
  rw [hnum]
  dsimp only
  rw [add_small h hle, ok_bind, add_cursor h hle, ok_bind, if_neg hz, Arith.add_checked_of_le hsum]
  exact ⟨_, rfl⟩

end FastHttpConnection

namespace Decoder

variable {lim : Limits} {d : Decoder} {parse : Httparse}

/-- `d'` has only taken off unread bytes, does not wait for a head, and reads no
chunk longer than a `usize` says. -/
structure Goes (d d' : Decoder) : Prop where
  unread : d'.unread <:+ d.unread
  waiting : d'.state ≠ .waitingHeader ∧ d'.state ≠ .keepAliveWait
  data : ∀ n, d'.state = .receivingChunked (.readingData n) → n < usizeEnd

theorem goes_fail (status : Nat) (msg : String) : d.Goes (d.fail status msg).1 :=
  ⟨List.suffix_refl _, by simp [fail], by simp [fail]⟩

theorem goes_takeBody (remaining : Nat) : d.Goes (d.takeBody remaining).1 := by
  unfold takeBody
  split
  · exact ⟨List.nil_suffix, by simp, by simp⟩
  · exact ⟨List.drop_suffix _ _, by simp, by simp⟩

theorem goes_beginBody (cl : Nat) (start : Event) : d.Goes (d.beginBody cl start).1 := by
  unfold beginBody
  dsimp only
  split
  · exact ⟨List.suffix_refl _, by simp, by simp⟩
  · have hb := goes_takeBody (d := { d with state := .receivingContentLength cl }) cl
    exact ⟨hb.unread, hb.waiting, hb.data⟩

theorem goes_acceptHead (offset : Nat) (req : Request) : d.Goes (d.acceptHead lim offset req).1 := by
  have hdrop : d.unread.drop offset <:+ d.unread := List.drop_suffix _ _
  unfold acceptHead
  dsimp only
  split
  · exact ⟨hdrop, by simp [fail], by simp [fail]⟩
  split
  · exact ⟨hdrop, by simp, by simp⟩
  split
  · exact ⟨hdrop, by simp, by simp⟩
  split
  · split
    · exact ⟨hdrop, by simp [fail], by simp [fail]⟩
    · have hb := goes_beginBody (d := { d with
        unread := d.unread.drop offset
        requestCount := d.requestCount + 1
        keepAlive := (foldHeaders req).keepAlive }) (foldHeaders req).contentLength.toNat
        (.requestStart (requestStart req (foldHeaders req) true))
      exact ⟨hb.unread.trans hdrop, hb.waiting, hb.data⟩
  · exact ⟨hdrop, by simp, by simp⟩

theorem goes_acceptSize (pos : Nat) {chunkLen : Nat} (hn : chunkLen < usizeEnd) :
    d.Goes (d.acceptSize lim pos chunkLen).1 := by
  have hdrop : d.unread.drop (pos + 2) <:+ d.unread := List.drop_suffix _ _
  unfold acceptSize
  dsimp only
  split
  · exact ⟨hdrop, by simp, by simp⟩
  split
  · exact ⟨hdrop, by simp [fail], by simp [fail]⟩
  · exact ⟨hdrop, by simp, by simp [hn]⟩

theorem header_goes : (d.header lim parse).1 = d ∨ d.Goes (d.header lim parse).1 := by
  unfold header
  split
  · exact .inl rfl
  split
  · exact .inr (goes_fail _ _)
  split
  · exact .inr (goes_acceptHead _ _)
  · exact .inl rfl
  · exact .inr (goes_fail _ _)

/-- A step leaves the decoder as it is, or goes on. -/
theorem step_goes : (d.step lim parse).1 = d ∨ d.Goes (d.step lim parse).1 := by
  unfold step
  split
  · exact .inl rfl
  · exact .inl rfl
  · exact header_goes
  · exact header_goes
  · unfold contentLength
    split
    · exact .inl rfl
    · exact .inr (goes_takeBody _)
  · unfold size
    split
    · exact .inl rfl
    split
    · exact .inr (goes_fail _ _)
    split
    · exact .inr (goes_fail _ _)
    · rename_i hnum
      exact .inr (goes_acceptSize _ (fromStrRadix_lt hnum))
  · unfold data
    split
    · exact .inl rfl
    split
    · exact .inr (goes_fail _ _)
    · exact .inr ⟨List.drop_suffix _ _, by simp, by simp⟩
  · unfold trailers finish
    split
    · exact .inr ⟨List.drop_suffix _ _, by simp, by simp⟩
    split
    · exact .inl rfl
    · exact .inr ⟨List.drop_suffix _ _, by simp, by simp⟩

end Decoder

namespace FastHttpConnection

variable {c : FastHttpConnection} {parse : Httparse}

/-! ## Every round -/

theorem Bounded.keeps (h : c.Bounded) {c' : FastHttpConnection} (hk : c.Keeps c') : c'.Bounded where
  fits := ⟨hk.buffer ▸ hk.cursor.2, hk.buffer ▸ h.fits.length⟩
  count hw := by
    rcases hk.state with hs | hs
    · rw [hs] at hw
      exact hk.count ▸ h.count hw
    · simp [hs] at hw
  keepalive := hk.keepalive ▸ h.keepalive
  data n hn := by
    rcases hk.state with hs | hs
    · exact h.data n (hs ▸ hn)
    · simp [hs] at hn

theorem Bounded.withView (h : c.Bounded) {d : Decoder} (hd : d = c.view ∨ c.view.Goes d) :
    (c.withView d).Bounded := by
  rcases hd with rfl | hd
  · have hv := ofStep_stop h.fits
    have hc : c.withView c.view = c := congrArg Prod.fst hv
    rw [hc]
    exact h
  · refine ⟨⟨Nat.sub_le _ _, h.fits.length⟩, fun hw => ?_, h.keepalive, hd.data⟩
    rcases hw with hw | hw
    · exact absurd hw hd.waiting.1
    · exact absurd hw hd.waiting.2

/-- A round of a release build keeps the bounds. -/
theorem Bounded.round (hparse : InRange parse) (h : c.Bounded) {r : Round}
    (hr : c.round .release parse = .ok r) : r.1.Bounded := by
  unfold FastHttpConnection.round at hr
  split at hr
  · by_cases hsafe : ∀ n, c.announcedPayload = some n → 14 + n < usizeEnd
    · obtain ⟨r', hr', hk⟩ := webSocketRound_safe (m := .release) h.fits hsafe
      rw [hr'] at hr
      cases hr
      exact h.keeps hk
    · simp only [not_forall, Nat.not_lt] at hsafe
      obtain ⟨n, hn, hsum⟩ := hsafe
      rcases (webSocketRound_wraps h.fits hn hsum).2 with hr' | ⟨e, hr'⟩ <;> rw [hr'] at hr <;> cases hr
      exact h
  · by_cases hdata : ∀ n, c.state = .receivingChunked (.readingData n) → n + 2 < usizeEnd
    · rw [httpRound_eq hparse h.fits ⟨h.count, fun _ _ _ _ => .inl rfl, hdata⟩] at hr
      cases hr
      exact h.withView Decoder.step_goes
    · simp only [not_forall, Nat.not_lt] at hdata
      obtain ⟨n, hn, hsum⟩ := hdata
      unfold httpRound at hr
      rw [hn] at hr
      dsimp only at hr
      rcases (dataRound_wraps h.fits (h.data n hn) hsum).2 with hr' | hr' | ⟨e, hr'⟩ <;> rw [hr'] at hr <;> cases hr
      · exact h
      · exact ⟨⟨h.fits.cursor, h.fits.length⟩, by simp [emitError], h.keepalive, by simp [emitError]⟩

/-- A round computes without a fault exactly as long as its lengths fit. -/
theorem Bounded.round_checked (hparse : InRange parse) (h : c.Bounded) :
    (∃ r, c.round .checked parse = .ok r) ↔ c.RoundSafe := by
  constructor
  · rintro ⟨r, hr⟩
    unfold FastHttpConnection.round at hr
    unfold RoundSafe
    split at hr
    · rename_i hmode
      rw [hmode]
      intro n hn
      by_contra hsum
      obtain ⟨e, he⟩ := (webSocketRound_wraps h.fits hn (Nat.not_lt.1 hsum)).1
      rw [he] at hr
      cases hr
    · rename_i hmode
      rw [hmode]
      unfold httpRound at hr
      split
      · rename_i heq
        cases heq
      · rename_i hs
        rw [hs] at hr
        intro n hn hz
        by_contra hsum
        obtain ⟨e, he⟩ := sizeRound_wraps h.fits hn hz (Nat.not_lt.1 hsum)
        dsimp only at hr
        rw [he] at hr
        cases hr
      · rename_i n _ hs
        rw [hs] at hr
        by_contra hsum
        obtain ⟨e, he⟩ := (dataRound_wraps h.fits (h.data n hs) (Nat.not_lt.1 hsum)).1
        dsimp only at hr
        rw [he] at hr
        cases hr
      · trivial
  · intro hsafe
    unfold FastHttpConnection.round
    unfold RoundSafe at hsafe
    split
    · rename_i hmode
      rw [hmode] at hsafe
      obtain ⟨r, hr, -⟩ := webSocketRound_safe (m := .checked) h.fits hsafe
      exact ⟨r, hr⟩
    · rename_i hmode
      rw [hmode] at hsafe
      refine ⟨_, httpRound_eq hparse h.fits ⟨h.count, fun hs n hn hz => .inr ?_, fun n hs => ?_⟩⟩
      · rw [hs] at hsafe
        exact hsafe n hn hz
      · rw [hs] at hsafe
        exact hsafe

/-! ## The calls of the owner -/

theorem bounded_new (maxBodySize maxHeaderSize maxKeepaliveRequests : Nat) (hk : maxKeepaliveRequests < usizeEnd) :
    (new maxBodySize maxHeaderSize maxKeepaliveRequests).Bounded where
  fits := ⟨Nat.le_refl _, by simp [new]⟩
  count := by simp [new]
  keepalive := hk
  data := by simp [new]

theorem Bounded.append (h : c.Bounded) {data : Bytes} (hroom : (c.buffer ++ data).length < 2 ^ 63) :
    Bounded { c with buffer := c.buffer ++ data } where
  fits := ⟨Nat.le_trans h.fits.cursor (by simp), hroom⟩
  count := h.count
  keepalive := h.keepalive
  data := h.data

theorem Bounded.compact (h : c.Bounded) : c.compactBuffer.Bounded := by
  unfold compactBuffer
  split
  · exact ⟨⟨Nat.le_refl _, by simp⟩, h.count, h.keepalive, h.data⟩
  split
  · refine ⟨⟨Nat.zero_le _, ?_⟩, h.count, h.keepalive, h.data⟩
    have := h.fits.length
    rw [List.length_drop]
    omega
  · exact h

theorem Bounded.closed (h : c.Bounded) : c.close.Bounded where
  fits := ⟨h.fits.cursor, h.fits.length⟩
  count := by simp [close]
  keepalive := h.keepalive
  data := by simp [close]

theorem Bounded.reset (h : c.Bounded) : c.resetForNextRequest.Bounded := by
  have hk := h.keepalive
  unfold resetForNextRequest
  split
  · split
    · exact ⟨⟨h.fits.cursor, h.fits.length⟩, by simp, hk, by simp⟩
    · rename_i hcount
      refine ⟨⟨h.fits.cursor, h.fits.length⟩, fun _ => ?_, hk, by simp⟩
      simp only [not_or, Nat.not_le] at hcount
      change c.requestCount + 1 < usizeEnd
      omega
  · exact h

end FastHttpConnection

/-! ## Every run -/

section Runs

open FastHttpConnection

variable {parse : Httparse} {s : Call}

theorem bounded_of_reachable (hparse : InRange parse) (h : (engine parse).Reachable s) : s.conn.Bounded := by
  refine h.inv (I := fun s => s.conn.Bounded) ?_ ?_
  · rintro s ⟨b, l, k, hk, rfl⟩
    exact bounded_new b l k hk
  · intro s a s' hb hst
    cases a with
    | feedData data =>
      simp only [engine, Call.step] at hst
      split at hst <;> cases hst
      rename_i hroom
      exact (hb.append hroom.2).compact
    | pumpEvents =>
      simp only [engine, Call.step] at hst
      split at hst <;> cases hst
      exact hb.compact
    | resetForNextRequest =>
      simp only [engine, Call.step] at hst
      split at hst <;> cases hst
      exact hb.reset
    | switchToWebsocket =>
      simp only [engine, Call.step] at hst
      split at hst <;> cases hst
      exact ⟨⟨hb.fits.cursor, hb.fits.length⟩, hb.count, hb.keepalive, hb.data⟩
    | close =>
      simp only [engine, Call.step] at hst
      split at hst <;> cases hst
      exact hb.closed
    | round =>
      simp only [engine, Call.step] at hst
      split at hst
      · split at hst
        · cases hst
          exact hb
        · rename_i hr
          cases hst
          exact hb.round hparse hr
        · rename_i hr
          cases hst
          exact hb.round hparse hr
      · cases hst

/-- In every run, whatever the bytes and the calls: the cursor is in the
buffer; and the next round wraps no sum or difference around and takes no slice
out of range exactly if the lengths it reads add up to a `usize`. -/
theorem no_panic (hparse : InRange parse) (h : (engine parse).Reachable s) :
    s.conn.cursor ≤ s.conn.buffer.length ∧
      ((∃ r, s.conn.round .checked parse = .ok r) ↔ s.conn.RoundSafe) :=
  ⟨(bounded_of_reachable hparse h).fits.cursor, (bounded_of_reachable hparse h).round_checked hparse⟩

end Runs

/-! ## A chunked request -/

def chunkedHead : Bytes := bytes "POST / HTTP/1.1\r\ntransfer-encoding: chunked\r\n\r\n"

/-- What httparse says of bytes that begin with `chunkedHead`, or are the
beginning of it. -/
def parseChunkedHead (u : Bytes) : ParseResult :=
  if chunkedHead.isPrefixOf u then
    .complete chunkedHead.length
      { method := some (bytes "POST")
        path := some (bytes "/")
        version := some 1
        headers := [⟨bytes "transfer-encoding", bytes "chunked"⟩] }
  else if u.isPrefixOf chunkedHead then .incomplete
  else .error

theorem parseChunkedHead_inRange : InRange parseChunkedHead := by
  intro u offset req hu
  unfold parseChunkedHead at hu
  split at hu
  · rename_i hp
    cases hu
    exact (List.isPrefixOf_iff_prefix.1 hp).length_le
  · split at hu <;> cases hu

/-- A chunk of two bytes. -/
theorem no_panic_chunk : ∃ s : Call, s.conn.state = .receivingChunked (.readingData 2) ∧
    s.conn.cursor ≤ s.conn.buffer.length ∧
      ((∃ r, s.conn.round .checked parseChunkedHead = .ok r) ↔ s.conn.RoundSafe) := by
  obtain ⟨s, hs, hst⟩ : ∃ s, (engine parseChunkedHead).Reachable s ∧
      s.conn.state = .receivingChunked (.readingData 2) :=
    System.exists_reachable_of_run [.feedData (chunkedHead ++ bytes "2\r\nab\r\n"), .round, .round]
      (s := ⟨.new 1000 1000 1000, false⟩) ⟨1000, 1000, 1000, by decide, rfl⟩ (by decide +kernel)
  exact ⟨s, hst, no_panic parseChunkedHead_inRange hs⟩

/-- A chunk of two bytes, and then one that announces `2 ^ 64 - 2`: the sum of
the lengths wraps around to `0`, and the engine panics on a slice that ends
before it begins. -/
theorem chunk_size_panics : ∃ s : Call, (engine parseChunkedHead).Reachable s ∧ s.running = true ∧
    s.conn.round .release parseChunkedHead = .error .range :=
  System.exists_reachable_of_run
    [.feedData (chunkedHead ++ bytes "2\r\nab\r\nfffffffffffffffe\r\n"), .round, .round, .round, .round]
    (s := ⟨.new 1000 1000 1000, false⟩) ⟨1000, 1000, 1000, by decide, rfl⟩ (by decide +kernel)

end Multiloop.Http
