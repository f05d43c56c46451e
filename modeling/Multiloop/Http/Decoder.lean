import Multiloop.Http.Engine

/-!
# Decoding unread bytes

What a round of `process_events` does in HTTP mode, said of the unread bytes
alone: no buffer, no cursor, and numbers without an end, except for
`total_body_received`, which wraps around. `httpRound_eq` is the one place that
takes the rounds of `Connection.lean` apart: as long as the numbers fit, a
round is a step of the decoder, in either arithmetic.
-/

namespace Multiloop.Http

structure Limits where
  maxBodySize : Nat
  maxHeaderSize : Nat

structure Decoder where
  state : HttpParserState
  unread : Bytes
  requestCount : Nat
  keepAlive : Bool
  totalBodyReceived : Nat

namespace Decoder

abbrev Step : Type := Decoder × List Event × Flow

variable (lim : Limits) (d : Decoder)

def fail (status : Nat) (msg : String) : Step :=
  ({ d with state := .closed }, [.error status (FastHttpConnection.errorResponse status (bytes msg))], .stop)

/-- The next bytes of a body of which `remaining` are missing. -/
def takeBody (remaining : Nat) : Step :=
  if d.unread.length < remaining then
    ({ d with state := .receivingContentLength (remaining - d.unread.length), unread := [] },
      [.body d.unread true], .again)
  else
    ({ d with state := .servingApp, unread := d.unread.drop remaining },
      [.body (d.unread.take remaining) false], .again)

/-- A request whose body has `cl` bytes begins with event `start`. -/
def beginBody (cl : Nat) (start : Event) : Step :=
  let d := { d with state := .receivingContentLength cl }
  if d.unread = [] then (d, [start], .again)
  else ((d.takeBody cl).1, start :: (d.takeBody cl).2.1, (d.takeBody cl).2.2)

def acceptHead (offset : Nat) (req : Request) : Step :=
  let d := { d with unread := d.unread.drop offset, requestCount := d.requestCount + 1 }
  let f := foldHeaders req
  if f.clConflict ∨ f.isChunked ∧ f.hasCl ∨ f.teCount > 1 ∧ ¬ f.isChunked then
    d.fail 400 "Bad Request: Conflicting HTTP headers"
  else if f.isUpgrade ∧ f.upgradeProto = bytes "websocket" then
    ({ d with keepAlive := f.keepAlive, state := .servingApp },
      [.requestStart (requestStart req f false), .upgrade f.upgradeProto], .stop)
  else if f.isChunked then
    ({ d with keepAlive := f.keepAlive, state := .receivingChunked .readingSize },
      [.requestStart (requestStart req f true)], .again)
  else if f.contentLength > 0 then
    let cl := f.contentLength.toNat
    if cl > lim.maxBodySize then d.fail 413 "Payload Too Large"
    else
      { d with keepAlive := f.keepAlive }.beginBody cl (.requestStart (requestStart req f true))
  else
    ({ d with keepAlive := f.keepAlive, state := .servingApp },
      [.requestStart (requestStart req f false)], .again)

def header (parse : Httparse) : Step :=
  if d.unread = [] then (d, [], .stop)
  else if d.unread.length > lim.maxHeaderSize then d.fail 431 "Request Header Fields Too Large"
  else match parse d.unread with
    | .complete offset req => d.acceptHead lim offset req
    | .incomplete => (d, [], .stop)
    | .error => d.fail 400 "Bad Request"

def contentLength (remaining : Nat) : Step :=
  if d.unread = [] then (d, [], .stop) else d.takeBody remaining

/-- A chunk-size line that ends at `pos`. -/
def acceptSize (pos chunkLen : Nat) : Step :=
  let d := { d with unread := d.unread.drop (pos + 2) }
  if chunkLen = 0 then ({ d with state := .receivingChunked .readingTrailers }, [], .again)
  else
    let d := { d with totalBodyReceived := (d.totalBodyReceived + chunkLen) % usizeEnd }
    if d.totalBodyReceived > lim.maxBodySize then d.fail 413 "Payload Too Large"
    else ({ d with state := .receivingChunked (.readingData chunkLen) }, [], .again)

def size : Step :=
  match position crlf d.unread with
  | none => (d, [], .stop)
  | some pos =>
    match FastHttpConnection.sizeText (d.unread.take pos) with
    | none => d.fail 400 "Invalid chunked encoding"
    | some sizeTrim =>
      match fromStrRadix 16 sizeTrim with
      | none => d.fail 400 "Invalid chunk length"
      | some chunkLen => d.acceptSize lim pos chunkLen

def data (chunkLen : Nat) : Step :=
  if d.unread.length < chunkLen + 2 then (d, [], .stop)
  else if (d.unread.drop chunkLen).take 2 ≠ crlf then d.fail 400 "Malformed chunk boundary"
  else
    ({ d with unread := d.unread.drop (chunkLen + 2), state := .receivingChunked .readingSize },
      [.body (d.unread.take chunkLen) true], .again)

/-- The body ends after `n` more bytes. -/
def finish (n : Nat) : Step :=
  ({ d with unread := d.unread.drop n, state := .servingApp }, [.body [] false], .again)

def trailers : Step :=
  if crlf.isPrefixOf d.unread then d.finish 2
  else match position (crlf ++ crlf) d.unread with
    | none => (d, [], .stop)
    | some pos => d.finish (pos + 4)

def step (parse : Httparse) : Step :=
  match d.state with
  | .closed | .servingApp => (d, [], .stop)
  | .waitingHeader | .keepAliveWait => d.header lim parse
  | .receivingContentLength remaining => d.contentLength remaining
  | .receivingChunked .readingSize => d.size lim
  | .receivingChunked (.readingData chunkLen) => d.data chunkLen
  | .receivingChunked .readingTrailers => d.trailers

end Decoder

namespace FastHttpConnection

/-! ## A connection and its decoder -/

variable (c : FastHttpConnection)

def unread : Bytes := c.buffer.drop c.cursor

def limits : Limits := ⟨c.maxBodySize, c.maxHeaderSize⟩

def view : Decoder := ⟨c.state, c.unread, c.requestCount, c.keepAlive, c.totalBodyReceived⟩

/-- The connection with what a decoder has left of it. -/
def withView (d : Decoder) : FastHttpConnection :=
  { c with
    cursor := c.buffer.length - d.unread.length
    state := d.state
    requestCount := d.requestCount
    keepAlive := d.keepAlive
    totalBodyReceived := d.totalBodyReceived }

/-- The cursor is in the buffer, and the buffer is no longer than a `Vec` can
be. -/
structure Fits : Prop where
  cursor : c.cursor ≤ c.buffer.length
  length : c.buffer.length < 2 ^ 63

/-- A step of the decoder, as a round of the connection. -/
def ofStep (s : Decoder.Step) : Round := (c.withView s.1, s.2.1, s.2.2)

variable {c : FastHttpConnection} {m : Arith}

theorem unread_length : c.unread.length = c.buffer.length - c.cursor := List.length_drop

theorem view_unread : c.view.unread = c.unread := rfl

/-- The cursor is where the unread bytes begin. -/
theorem cursor_unread (h : c.Fits) : c.buffer.length - c.unread.length = c.cursor := by
  have := h.cursor
  rw [unread_length]
  omega

theorem ofStep_stop (h : c.Fits) : c.ofStep (c.view, [], .stop) = (c, [], .stop) := by
  simp only [ofStep, withView, view, cursor_unread h]

theorem ofStep_fail (h : c.Fits) (status : Nat) (msg : String) :
    c.ofStep (c.view.fail status msg) = c.emitError status msg := by
  simp only [ofStep, Decoder.fail, withView, view, emitError, cursor_unread h]

/-- The cursor moves on by the bytes taken off. -/
theorem cursor_drop (h : c.Fits) {n : Nat} (hn : n ≤ c.unread.length) :
    c.buffer.length - (c.unread.drop n).length = c.cursor + n := by
  have := h.cursor
  rw [List.length_drop]
  rw [unread_length] at hn ⊢
  omega

theorem add_cursor (h : c.Fits) {n : Nat} (hn : n ≤ c.unread.length) : m.add c.cursor n = .ok (c.cursor + n) := by
  have hl := h.length
  rw [unread_length] at hn
  exact Arith.add_of_lt (by rw [usizeEnd]; have := h.cursor; omega)

theorem add_small (h : c.Fits) {n k : Nat} (hn : n + k ≤ c.unread.length) : m.add n k = .ok (n + k) := by
  have hl := h.length
  rw [unread_length] at hn
  exact Arith.add_of_lt (by rw [usizeEnd]; omega)

theorem sub_cursor (h : c.Fits) : m.sub c.buffer.length c.cursor = .ok c.unread.length := by
  rw [Arith.sub_of_le h.cursor, unread_length]

theorem slice_unread (h : c.Fits) : slice c.buffer c.cursor c.buffer.length = .ok c.unread := slice_rest h.cursor

theorem slice_take (h : c.Fits) {n : Nat} (hn : n ≤ c.unread.length) :
    slice c.buffer c.cursor (c.cursor + n) = .ok (c.unread.take n) := slice_next hn h.cursor

/-! ## A round is a step -/

theorem contentLengthRound_eq (h : c.Fits) (remaining : Nat) :
    c.contentLengthRound m remaining = .ok (c.ofStep (c.view.contentLength remaining)) := by
  unfold contentLengthRound Decoder.contentLength
  rw [sub_cursor h, ok_bind, view_unread]
  by_cases hu : c.unread = []
  · rw [if_pos hu, ofStep_stop h, if_pos (List.length_eq_zero_iff.2 hu)]
    rfl
  · have hmin : min c.unread.length remaining ≤ c.unread.length := Nat.min_le_left _ _
    rw [if_neg hu, if_neg (mt List.length_eq_zero_iff.1 hu)]
    simp only
    rw [add_cursor h hmin, ok_bind, slice_take h hmin, ok_bind, Arith.sub_of_le (Nat.min_le_right _ _), ok_bind]
    unfold Decoder.takeBody
    rw [view_unread]
    by_cases hr : c.unread.length < remaining
    · rw [if_pos hr, if_pos (by omega), Nat.min_eq_left (Nat.le_of_lt hr), List.take_length]
      have hcur : c.cursor + c.unread.length = c.buffer.length := by
        have := h.cursor
        rw [unread_length]
        omega
      simp only [ofStep, withView, view, hcur]
      rfl
    · rw [if_neg hr, if_neg (by omega), Nat.min_eq_right (Nat.not_lt.1 hr)]
      simp only [ofStep, withView, view, cursor_drop h (Nat.not_lt.1 hr)]
      rfl

theorem dataRound_eq (h : c.Fits) {chunkLen : Nat} (hlen : chunkLen + 2 < usizeEnd) :
    c.dataRound m chunkLen = .ok (c.ofStep (c.view.data chunkLen)) := by
  unfold dataRound Decoder.data
  rw [sub_cursor h, ok_bind, Arith.add_of_lt hlen, ok_bind, view_unread]
  by_cases hu : c.unread.length < chunkLen + 2
  · rw [if_pos hu, if_pos hu, ofStep_stop h]
    rfl
  · have hle : chunkLen + 2 ≤ c.unread.length := Nat.not_lt.1 hu
    rw [if_neg hu, if_neg hu]
    have hfit : c.cursor + chunkLen + 2 ≤ c.buffer.length := by
      rw [unread_length] at hle
      omega
    have hb : slice c.buffer (c.cursor + chunkLen) (c.cursor + chunkLen + 2) = .ok ((c.unread.drop chunkLen).take 2) := by
      rw [slice_next (by rw [List.length_drop]; omega) (by omega), unread, List.drop_drop]
    rw [add_cursor h (by omega), ok_bind, Arith.add_of_lt (by have := h.length; rw [usizeEnd]; omega), ok_bind, hb,
      ok_bind]
    by_cases hc : (c.unread.drop chunkLen).take 2 = crlf
    · simp only [hc, ne_eq, not_true_eq_false, if_false]
      rw [slice_take h (by omega), ok_bind, add_cursor h hle, ok_bind]
      simp only [ofStep, withView, view, cursor_drop h hle]
      rfl
    · rw [if_pos hc, if_pos hc, ofStep_fail h]
      rfl

theorem finish_eq (h : c.Fits) {n : Nat} (hn : n ≤ c.unread.length) :
    c.ofStep (c.view.finish n) = ({ c with cursor := c.cursor + n, state := .servingApp }, [.body [] false], .again) := by
  simp only [ofStep, Decoder.finish, withView, view, cursor_drop h hn]

theorem trailersRound_eq (h : c.Fits) : c.trailersRound m = .ok (c.ofStep c.view.trailers) := by
  unfold trailersRound Decoder.trailers
  rw [slice_unread h, ok_bind, view_unread]
  by_cases hp : crlf.isPrefixOf c.unread = true
  · have hle : 2 ≤ c.unread.length := (List.isPrefixOf_iff_prefix.1 hp).length_le
    rw [if_pos hp, if_pos hp, add_cursor h hle, ok_bind, finish_eq h hle]
    rfl
  · rw [if_neg hp, if_neg hp]
    cases hpos : position (crlf ++ crlf) c.unread with
    | none =>
      dsimp only
      rw [ofStep_stop h]
      rfl
    | some pos =>
      have hle : pos + 4 ≤ c.unread.length := position_le hpos
      dsimp only
      rw [add_small h hle, ok_bind, add_cursor h hle, finish_eq h hle]
      rfl

/-- The size that a complete chunk-size line announces. -/
def announcedChunk (c : FastHttpConnection) : Option Nat :=
  (position crlf c.unread).bind fun pos => (sizeText (c.unread.take pos)).bind (fromStrRadix 16)

theorem sizeRound_eq (h : c.Fits)
    (hsum : ∀ n, c.announcedChunk = some n → n ≠ 0 → m = .release ∨ c.totalBodyReceived + n < usizeEnd) :
    c.sizeRound m = .ok (c.ofStep (c.view.size c.limits)) := by
  unfold sizeRound Decoder.size
  rw [slice_unread h, ok_bind, view_unread]
  cases hpos : position crlf c.unread with
  | none =>
    dsimp only
    rw [ofStep_stop h]
    rfl
  | some pos =>
    have hle : pos + 2 ≤ c.unread.length := position_le hpos
    dsimp only
    cases htext : sizeText (c.unread.take pos) with
    | none =>
      dsimp only
      rw [ofStep_fail h]
      rfl
    | some text =>
      dsimp only
      cases hnum : fromStrRadix 16 text with
      | none =>
        dsimp only
        rw [ofStep_fail h]
        rfl
      | some chunkLen =>
        dsimp only
        rw [add_small h hle, ok_bind, add_cursor h hle, ok_bind]
        unfold Decoder.acceptSize
        by_cases hz : chunkLen = 0
        · rw [if_pos hz, if_pos hz]
          simp only [ofStep, withView, view, cursor_drop h hle]
          rfl
        · rw [if_neg hz, if_neg hz]
          have hann : c.announcedChunk = some chunkLen := by
            simp only [announcedChunk, hpos, htext, hnum, Option.bind_some]
          have hadd : m.add c.totalBodyReceived chunkLen = .ok ((c.totalBodyReceived + chunkLen) % usizeEnd) := by
            rcases hsum chunkLen hann hz with rfl | hlt
            · exact Arith.add_release
            · rw [Arith.add_of_lt hlt, Nat.mod_eq_of_lt hlt]
          dsimp only
          rw [hadd, ok_bind]
          by_cases hmax : (c.totalBodyReceived + chunkLen) % usizeEnd > c.maxBodySize
          · rw [if_pos hmax]
            simp only [view, limits, hmax, if_true, ofStep, Decoder.fail, withView, cursor_drop h hle, emitError]
            rfl
          · rw [if_neg hmax]
            simp only [view, limits, hmax, if_false, ofStep, withView, cursor_drop h hle]
            rfl

theorem beginBody_eq (h : c.Fits) {cl : Nat} (hcl : 0 < cl) (start : Event) :
    c.beginBody m cl start = .ok (c.ofStep (c.view.beginBody cl start)) := by
  unfold beginBody Decoder.beginBody
  rw [sub_cursor h, ok_bind]
  dsimp only
  rw [view_unread]
  by_cases hav : cl ≤ c.unread.length
  · have hu : c.unread ≠ [] := by
      intro hnil
      rw [hnil, List.length_nil] at hav
      omega
    have hlt : ¬ c.unread.length < cl := by omega
    rw [if_pos hav, if_neg hu, add_cursor h hav, ok_bind, slice_take h hav, ok_bind]
    simp only [Decoder.takeBody, view, hlt, if_false, ofStep, withView, cursor_drop h hav]
    rfl
  · have hlt : c.unread.length < cl := by omega
    rw [if_neg hav, Arith.sub_of_le (Nat.le_of_lt hlt), ok_bind]
    by_cases hu : c.unread = []
    · have hcur : c.buffer.length - 0 = c.cursor := by simpa [hu] using cursor_unread h
      rw [if_pos hu, if_neg (by rw [hu, List.length_nil]; omega)]
      simp only [view, ofStep, withView, hu, List.length_nil, Nat.sub_zero, hcur]
      rw [← hcur, Nat.sub_zero]
      rfl
    · have hpos : c.unread.length > 0 := List.length_pos_iff.2 hu
      have hcur : c.cursor + c.unread.length = c.buffer.length := by
        have := h.cursor
        rw [unread_length]
        omega
      rw [if_pos hpos, if_neg hu, add_cursor h (Nat.le_refl _), ok_bind, slice_take h (Nat.le_refl _), ok_bind,
        List.take_length, hcur]
      simp only [Decoder.takeBody, view, hlt, if_true, ofStep, withView, List.length_nil, Nat.sub_zero]
      rfl

/-- A connection whose cursor has moved on. -/
theorem fits_advance (h : c.Fits) {offset : Nat} (hoff : offset ≤ c.unread.length) (n : Nat) (k : Bool) :
    ({ c with cursor := c.cursor + offset, requestCount := n, keepAlive := k } : FastHttpConnection).Fits := by
  have := h.cursor
  rw [unread_length] at hoff
  exact ⟨by change c.cursor + offset ≤ c.buffer.length; omega, h.length⟩

theorem acceptHead_eq (h : c.Fits) {offset : Nat} {req : Request} (hoff : offset ≤ c.unread.length)
    (hcount : c.requestCount + 1 < usizeEnd) :
    c.acceptHead m offset req = .ok (c.ofStep (c.view.acceptHead c.limits offset req)) := by
  unfold acceptHead Decoder.acceptHead
  rw [add_cursor h hoff, ok_bind, Arith.add_of_lt hcount, ok_bind]
  dsimp only
  split
  · simp only [view, ofStep, Decoder.fail, withView, cursor_drop h hoff, emitError]
    rfl
  split
  · simp only [view, ofStep, withView, cursor_drop h hoff]
    rfl
  split
  · simp only [view, ofStep, withView, cursor_drop h hoff]
    rfl
  split
  · split
    · rename_i hmax
      have hv : (foldHeaders req).contentLength.toNat > c.limits.maxBodySize := hmax
      rw [if_pos hv]
      simp only [view, ofStep, Decoder.fail, withView, cursor_drop h hoff, emitError]
      rfl
    · rename_i hmax
      have hv : ¬ (foldHeaders req).contentLength.toNat > c.limits.maxBodySize := hmax
      rw [if_neg hv]
      have hb := beginBody_eq (m := m) (fits_advance h hoff (c.requestCount + 1) (foldHeaders req).keepAlive)
        (Int.pos_iff_toNat_pos.1 (by assumption)) (.requestStart (requestStart req (foldHeaders req) true))
      rw [hb]
      simp only [view, unread, List.drop_drop, ofStep, withView]
  · simp only [view, ofStep, withView, cursor_drop h hoff]
    rfl

theorem headerRound_eq {parse : Httparse} (hparse : InRange parse) (h : c.Fits)
    (hcount : c.requestCount + 1 < usizeEnd) :
    c.headerRound m parse = .ok (c.ofStep (c.view.header c.limits parse)) := by
  unfold headerRound Decoder.header
  rw [slice_unread h, ok_bind, view_unread]
  split
  · rw [ofStep_stop h]
    rfl
  split
  · rename_i hmax
    have hv : c.unread.length > c.limits.maxHeaderSize := hmax
    rw [if_pos hv, ofStep_fail h]
    rfl
  · rename_i hmax
    have hv : ¬ c.unread.length > c.limits.maxHeaderSize := hmax
    rw [if_neg hv]
    cases hres : parse c.unread with
    | complete offset req => exact acceptHead_eq h (hparse _ _ _ hres) hcount
    | incomplete =>
      dsimp only
      rw [ofStep_stop h]
      rfl
    | error =>
      dsimp only
      rw [ofStep_fail h]
      rfl

/-- The numbers that the next round adds up are `usize`s; a sum of chunk
lengths may wrap around in a release build. -/
structure Adds (m : Arith) (c : FastHttpConnection) : Prop where
  count : c.state = .waitingHeader ∨ c.state = .keepAliveWait → c.requestCount + 1 < usizeEnd
  size : c.state = .receivingChunked .readingSize → ∀ n, c.announcedChunk = some n → n ≠ 0 →
    m = .release ∨ c.totalBodyReceived + n < usizeEnd
  data : ∀ n, c.state = .receivingChunked (.readingData n) → n + 2 < usizeEnd

/-- A round is a step of the decoder. -/
theorem httpRound_eq {parse : Httparse} (hparse : InRange parse) (h : c.Fits) (ha : c.Adds m) :
    c.httpRound m parse = .ok (c.ofStep (c.view.step c.limits parse)) := by
  unfold httpRound Decoder.step
  have hstate : c.view.state = c.state := rfl
  rw [hstate]
  cases hs : c.state with
  | closed =>
    dsimp only
    rw [ofStep_stop h]
    rfl
  | servingApp =>
    dsimp only
    rw [ofStep_stop h]
    rfl
  | waitingHeader => exact headerRound_eq hparse h (ha.count (.inl hs))
  | keepAliveWait => exact headerRound_eq hparse h (ha.count (.inr hs))
  | receivingContentLength remaining => exact contentLengthRound_eq h remaining
  | receivingChunked stage =>
    cases stage with
    | readingSize => exact sizeRound_eq h (ha.size hs)
    | readingData chunkLen => exact dataRound_eq h (ha.data chunkLen hs)
    | readingTrailers => exact trailersRound_eq h

end FastHttpConnection

end Multiloop.Http
