import Multiloop.Http.Chunks

/-!
# How much a connection buffers

What is waited for is limited: a request head, the body of a request with a
length, the data of a chunk. A chunk-size line and the trailers are waited for
without a limit, chunk sizes whose sum wraps around pass the limit, and what
arrives while a request is served is the beginning of the next one. In a run
without these the unread bytes never pass the limits.
-/

namespace Multiloop.Http

/-- No chunked body is read in this state, and no head is waited for. -/
def HttpParserState.Quiet : HttpParserState → Prop
  | .receivingContentLength _ | .servingApp | .closed => True
  | _ => False

/-- Where a chunked body has been read to: the state, the sizes of the chunks
so far, and the bytes that follow. -/
structure Place where
  state : HttpParserState
  total : Nat
  bytes : Bytes

/-- The head of a request that is accepted, with a chunked body. -/
def IsChunkedHead (req : Request) : Prop :=
  let f := foldHeaders req
  f.isChunked = true ∧ ¬ (f.clConflict ∨ f.isChunked ∧ f.hasCl ∨ f.teCount > 1 ∧ ¬ f.isChunked) ∧
    ¬ (f.isUpgrade ∧ f.upgradeProto = bytes "websocket")

/-- The size on the line that the bytes begin with. -/
def announced (u : Bytes) : Option Nat :=
  (position crlf u).bind fun pos => (FastHttpConnection.sizeText (u.take pos)).bind (fromStrRadix 16)

namespace Place

/-- One place comes after the other in what is received: a head, a size line, a
chunk with its end. -/
inductive Before (lim : Limits) (parse : Httparse) : Place → Place → Prop
  | refl {p : Place} : Before lim parse p p
  | head {state : HttpParserState} {total offset : Nat} {u : Bytes} {req : Request} {p : Place}
      (hstate : state = .waitingHeader ∨ state = .keepAliveWait) (hlen : u.length ≤ lim.maxHeaderSize)
      (hhead : parse u = .complete offset req) (hchunked : IsChunkedHead req)
      (h : Before lim parse ⟨.receivingChunked .readingSize, total, u.drop offset⟩ p) :
      Before lim parse ⟨state, total, u⟩ p
  | size {total pos n : Nat} {u : Bytes} {p : Place} (hpos : position crlf u = some pos) (hsize : announced u = some n)
      (hn : n ≠ 0) (hlimit : (total + n) % usizeEnd ≤ lim.maxBodySize)
      (h : Before lim parse ⟨.receivingChunked (.readingData n), (total + n) % usizeEnd, u.drop (pos + 2)⟩ p) :
      Before lim parse ⟨.receivingChunked .readingSize, total, u⟩ p
  | last {total pos : Nat} {u : Bytes} {p : Place} (hpos : position crlf u = some pos) (hsize : announced u = some 0)
      (h : Before lim parse ⟨.receivingChunked .readingTrailers, total, u.drop (pos + 2)⟩ p) :
      Before lim parse ⟨.receivingChunked .readingSize, total, u⟩ p
  | data {total n : Nat} {u : Bytes} {p : Place} (hlen : n + 2 ≤ u.length) (hend : (u.drop n).take 2 = crlf)
      (h : Before lim parse ⟨.receivingChunked .readingSize, total, u.drop (n + 2)⟩ p) :
      Before lim parse ⟨.receivingChunked (.readingData n), total, u⟩ p

/-- A size line or trailers of which the end is missing are no longer than
`bound`, and a size that takes the sum past `usize::MAX` is refused. -/
def Within (lim : Limits) (bound : Nat) (p : Place) : Prop :=
  match p.state with
  | .receivingChunked .readingSize =>
    (position crlf p.bytes = none → p.bytes.length ≤ bound) ∧
      ∀ n, announced p.bytes = some n → n ≠ 0 →
        p.total + n < usizeEnd ∨ lim.maxBodySize < (p.total + n) % usizeEnd
  | .receivingChunked .readingTrailers =>
    crlf.isPrefixOf p.bytes = false → position (crlf ++ crlf) p.bytes = none → p.bytes.length ≤ bound
  | _ => True

theorem before_quiet {lim : Limits} {parse : Httparse} {q p : Place} (h : q.Before lim parse p) (hq : q.state.Quiet) :
    p = q := by
  cases h with
  | refl => rfl
  | head hstate => rcases hstate with rfl | rfl <;> exact hq.elim
  | size => exact hq.elim
  | last => exact hq.elim
  | data => exact hq.elim

theorem within_quiet {lim : Limits} {bound : Nat} {p : Place} (h : p.state.Quiet) : p.Within lim bound := by
  obtain ⟨state, total, u⟩ := p
  cases state with
  | receivingChunked stage => exact h.elim
  | _ => trivial

end Place

/-- The limit on what is buffered. -/
def Limits.bound (lim : Limits) : Nat := max lim.maxHeaderSize (lim.maxBodySize + 2)

namespace Decoder

variable {lim : Limits} {parse : Httparse} {d : Decoder}

def place (d : Decoder) : Place := ⟨d.state, d.totalBodyReceived, d.unread⟩

/-! ## Steps and what is to come -/

variable {p : Place}

theorem before_of_quiet (hp : d.place.Before lim parse p) (h : d.state.Quiet) : p.state.Quiet := by
  rw [Place.before_quiet hp h]
  exact h

theorem quiet_takeBody (remaining : Nat) : (d.takeBody remaining).1.state.Quiet := by
  unfold takeBody
  split
  · trivial
  · trivial

theorem quiet_beginBody (cl : Nat) (start : Event) : (d.beginBody cl start).1.state.Quiet := by
  unfold beginBody
  dsimp only
  split
  · trivial
  · exact quiet_takeBody _

/-- A head is followed by a chunked body, or nothing of what follows is
waited for. -/
theorem before_acceptHead {offset : Nat} {req : Request} (hs : d.state = .waitingHeader ∨ d.state = .keepAliveWait)
    (hlen : d.unread.length ≤ lim.maxHeaderSize) (hhead : parse d.unread = .complete offset req)
    (hp : (d.acceptHead lim offset req).1.place.Before lim parse p) : d.place.Before lim parse p ∨ p.state.Quiet := by
  unfold acceptHead at hp
  dsimp only at hp
  split at hp
  · exact .inr (before_of_quiet hp trivial)
  rename_i hconflict
  split at hp
  · exact .inr (before_of_quiet hp trivial)
  rename_i hupgrade
  split at hp
  · rename_i hchunked
    exact .inl (.head hs hlen hhead ⟨hchunked, hconflict, hupgrade⟩ hp)
  split at hp
  · split at hp
    · exact .inr (before_of_quiet hp trivial)
    · exact .inr (before_of_quiet hp (quiet_beginBody _ _))
  · exact .inr (before_of_quiet hp trivial)

theorem before_header (hs : d.state = .waitingHeader ∨ d.state = .keepAliveWait)
    (hp : (d.header lim parse).1.place.Before lim parse p) : d.place.Before lim parse p ∨ p.state.Quiet := by
  unfold header at hp
  split at hp
  · exact .inl hp
  split at hp
  · exact .inr (before_of_quiet hp trivial)
  rename_i hlen
  split at hp
  · rename_i offset req hhead
    exact before_acceptHead hs (Nat.not_lt.1 hlen) hhead hp
  · exact .inl hp
  · exact .inr (before_of_quiet hp trivial)

/-- What a complete size line leads to. -/
theorem size_cases (d : Decoder) (lim : Limits) : d.size lim = (d, [], .stop) ∧ position crlf d.unread = none ∨
    (∃ status msg, d.size lim = d.fail status msg) ∨
    ∃ pos n, position crlf d.unread = some pos ∧ announced d.unread = some n ∧ d.size lim = d.acceptSize lim pos n := by
  unfold size
  split
  · rename_i hnone
    exact .inl ⟨rfl, hnone⟩
  rename_i pos hpos
  split
  · exact .inr (.inl ⟨_, _, rfl⟩)
  rename_i sizeTrim htext
  split
  · exact .inr (.inl ⟨_, _, rfl⟩)
  rename_i n hnum
  refine .inr (.inr ⟨pos, n, hpos, ?_, rfl⟩)
  unfold announced
  rw [hpos, Option.bind_some, htext, Option.bind_some, hnum]

theorem before_size (hs : d.state = .receivingChunked .readingSize)
    (hp : (d.size lim).1.place.Before lim parse p) : d.place.Before lim parse p ∨ p.state.Quiet := by
  have hplace : d.place = ⟨.receivingChunked .readingSize, d.totalBodyReceived, d.unread⟩ := by
    rw [← hs]
    rfl
  rcases d.size_cases lim with ⟨heq, -⟩ | ⟨status, msg, heq⟩ | ⟨pos, n, hpos, hann, heq⟩
  · rw [heq] at hp
    exact .inl hp
  · rw [heq] at hp
    exact .inr (before_of_quiet hp trivial)
  · rw [heq] at hp
    rw [hplace]
    unfold acceptSize at hp
    dsimp only at hp
    split at hp
    · rename_i hzero
      rw [hzero] at hann
      exact .inl (.last hpos hann hp)
    rename_i hn
    split at hp
    · exact .inr (before_of_quiet hp trivial)
    · rename_i hlimit
      exact .inl (.size hpos hann hn (Nat.not_lt.1 hlimit) hp)

theorem before_data {n : Nat} (hs : d.state = .receivingChunked (.readingData n))
    (hp : (d.data n).1.place.Before lim parse p) : d.place.Before lim parse p ∨ p.state.Quiet := by
  have hplace : d.place = ⟨.receivingChunked (.readingData n), d.totalBodyReceived, d.unread⟩ := by
    rw [← hs]
    rfl
  unfold data at hp
  split at hp
  · exact .inl hp
  rename_i hlen
  split at hp
  · exact .inr (before_of_quiet hp trivial)
  · rename_i hend
    rw [hplace]
    exact .inl (.data (Nat.not_lt.1 hlen) (not_not.1 hend) hp)

theorem before_trailers (hp : d.trailers.1.place.Before lim parse p) :
    d.place.Before lim parse p ∨ p.state.Quiet := by
  unfold trailers at hp
  split at hp
  · exact .inr (before_of_quiet hp trivial)
  split at hp
  · exact .inl hp
  · exact .inr (before_of_quiet hp trivial)

/-- What is to come after a step was to come before it, or is not waited for. -/
theorem before_step (hp : (d.step lim parse).1.place.Before lim parse p) :
    d.place.Before lim parse p ∨ p.state.Quiet := by
  unfold Decoder.step at hp
  cases hs : d.state with
  | closed =>
    rw [hs] at hp
    exact .inl hp
  | servingApp =>
    rw [hs] at hp
    exact .inl hp
  | waitingHeader =>
    rw [hs] at hp
    exact before_header (.inl hs) hp
  | keepAliveWait =>
    rw [hs] at hp
    exact before_header (.inr hs) hp
  | receivingContentLength remaining =>
    rw [hs] at hp
    dsimp only at hp
    unfold contentLength at hp
    split at hp
    · exact .inl hp
    · exact .inr (before_of_quiet hp (quiet_takeBody _))
  | receivingChunked stage =>
    rw [hs] at hp
    cases stage with
    | readingSize => exact before_size hs hp
    | readingData n => exact before_data hs hp
    | readingTrailers => exact before_trailers hp

/-- A chunk that is read after a step was read before it, or is announced by
the size line that the step reads. -/
theorem reading_step {n : Nat} (h : (d.step lim parse).1.state = .receivingChunked (.readingData n)) :
    d.state = .receivingChunked (.readingData n) ∨ d.state = .receivingChunked .readingSize ∧
      announced d.unread = some n ∧ n ≠ 0 ∧ (d.totalBodyReceived + n) % usizeEnd ≤ lim.maxBodySize := by
  have hno : ∀ {d' : Decoder}, d'.state.Quiet → d'.state ≠ .receivingChunked (.readingData n) := by
    intro d' hq heq
    rw [heq] at hq
    exact hq.elim
  have hhead : (d.header lim parse).1.state = .receivingChunked (.readingData n) →
      d.state = .receivingChunked (.readingData n) := by
    intro h
    unfold header at h
    split at h
    · exact h
    split at h
    · cases h
    split at h
    · unfold acceptHead at h
      dsimp only at h
      split at h
      · cases h
      split at h
      · cases h
      split at h
      · cases h
      split at h
      · split at h
        · cases h
        · exact absurd h (hno (quiet_beginBody _ _))
      · cases h
    · exact h
    · cases h
  unfold Decoder.step at h
  cases hs : d.state with
  | closed =>
    rw [hs] at h
    exact .inl (hs.symm.trans h)
  | servingApp =>
    rw [hs] at h
    exact .inl (hs.symm.trans h)
  | waitingHeader =>
    rw [hs] at h
    exact .inl (hs.symm.trans (hhead h))
  | keepAliveWait =>
    rw [hs] at h
    exact .inl (hs.symm.trans (hhead h))
  | receivingContentLength remaining =>
    rw [hs] at h
    dsimp only at h
    unfold contentLength at h
    split at h
    · exact .inl (hs.symm.trans h)
    · exact absurd h (hno (quiet_takeBody _))
  | receivingChunked stage =>
    rw [hs] at h
    cases stage with
    | readingTrailers =>
      dsimp only at h
      unfold trailers at h
      split at h
      · cases h
      split at h
      · exact .inl (hs.symm.trans h)
      · cases h
    | readingData k =>
      dsimp only at h
      unfold data at h
      split at h
      · exact .inl (hs.symm.trans h)
      split at h
      · cases h
      · cases h
    | readingSize =>
      dsimp only at h
      rcases d.size_cases lim with ⟨heq, -⟩ | ⟨status, msg, heq⟩ | ⟨pos, k, hpos, hann, heq⟩
      · rw [heq] at h
        exact .inl (hs.symm.trans h)
      · rw [heq] at h
        cases h
      · rw [heq] at h
        unfold acceptSize at h
        dsimp only at h
        split at h
        · cases h
        rename_i hk
        split at h
        · cases h
        · rename_i hlimit
          cases h
          exact .inr ⟨rfl, hann, hk, Nat.not_lt.1 hlimit⟩

/-- What is to come keeps within the limits. -/
structure Tidy (lim : Limits) (parse : Httparse) (d : Decoder) : Prop where
  within : ∀ p, d.place.Before lim parse p → p.Within lim lim.bound
  chunk : ∀ n, d.state = .receivingChunked (.readingData n) → n ≤ lim.maxBodySize

/-- A step keeps within the limits. -/
theorem Tidy.step (h : d.Tidy lim parse) : (d.step lim parse).1.Tidy lim parse where
  within p hp := by
    rcases before_step hp with hp | hquiet
    · exact h.within p hp
    · exact Place.within_quiet hquiet
  chunk n hn := by
    rcases reading_step hn with hn | ⟨hs, hann, hpos, hlimit⟩
    · exact h.chunk n hn
    · have hplace : d.place = ⟨.receivingChunked .readingSize, d.totalBodyReceived, d.unread⟩ := by
        rw [← hs]
        rfl
      have hwithin := h.within _ .refl
      rw [hplace] at hwithin
      rcases hwithin.2 n hann hpos with hsum | hsum
      · have hsum : d.totalBodyReceived + n < usizeEnd := hsum
        rw [Nat.mod_eq_of_lt hsum] at hlimit
        omega
      · exact absurd hsum (Nat.not_lt.2 hlimit)

/-! ## Where the loop stops -/

/-- What a decoder waits for is within the limits. -/
theorem Tidy.bounded (h : d.Tidy lim parse) (hrest : d.step lim parse = (d, [], .stop)) (hidle : ¬ d.Idle) :
    d.unread.length ≤ lim.bound := by
  have hheader : lim.maxHeaderSize ≤ lim.bound := Nat.le_max_left _ _
  have hbody : lim.maxBodySize + 2 ≤ lim.bound := Nat.le_max_right _ _
  have hfail : ∀ (d' : Decoder) status msg, d'.fail status msg ≠ (d, [], .stop) := fun d' status msg hf =>
    nomatch (congrArg (fun s : Step => s.2.1) hf)
  have hagain : ∀ (d' : Decoder) (evs : List Event), (d', evs, Flow.again) ≠ (d, [], Flow.stop) := fun d' evs hf =>
    nomatch (congrArg (fun s : Step => s.2.2) hf)
  have hwaits : d.header lim parse = (d, [], .stop) → d.unread.length ≤ lim.bound := by
    intro hst
    unfold header at hst
    split at hst
    · rename_i hnil
      rw [hnil]
      exact Nat.zero_le _
    split at hst
    · exact absurd hst (hfail _ _ _)
    rename_i hlen
    omega
  unfold Decoder.step at hrest
  split at hrest
  · rename_i hs
    exact absurd (.inl hs) hidle
  · rename_i hs
    exact absurd (.inr hs) hidle
  · exact hwaits hrest
  · exact hwaits hrest
  · unfold contentLength at hrest
    split at hrest
    · rename_i hnil
      rw [hnil]
      exact Nat.zero_le _
    · unfold takeBody at hrest
      split at hrest
      · exact absurd hrest (hagain _ _)
      · exact absurd hrest (hagain _ _)
  · rename_i hs
    have hplace : d.place = ⟨.receivingChunked .readingSize, d.totalBodyReceived, d.unread⟩ := by
      rw [← hs]
      rfl
    have hwithin := h.within _ .refl
    rw [hplace] at hwithin
    unfold size at hrest
    split at hrest
    · rename_i hnone
      exact hwithin.1 hnone
    split at hrest
    · exact absurd hrest (hfail _ _ _)
    split at hrest
    · exact absurd hrest (hfail _ _ _)
    unfold acceptSize at hrest
    dsimp only at hrest
    split at hrest
    · exact absurd hrest (hagain _ _)
    split at hrest
    · exact absurd hrest (hfail _ _ _)
    · exact absurd hrest (hagain _ _)
  · rename_i n hs
    have hn := h.chunk n hs
    unfold data at hrest
    split at hrest
    · omega
    split at hrest
    · exact absurd hrest (hfail _ _ _)
    · exact absurd hrest (hagain _ _)
  · rename_i hs
    have hplace : d.place = ⟨.receivingChunked .readingTrailers, d.totalBodyReceived, d.unread⟩ := by
      rw [← hs]
      rfl
    have hwithin := h.within _ .refl
    rw [hplace] at hwithin
    unfold trailers finish at hrest
    split at hrest
    · exact absurd hrest (hagain _ _)
    rename_i hprefix
    split at hrest
    · rename_i hnone
      exact hwithin (Bool.eq_false_iff.2 hprefix) hnone
    · exact absurd hrest (hagain _ _)

end Decoder

/-! ## Every run -/

namespace Session

variable {parse : Httparse} {lim : Limits} {s s' : Session}

/-- The unread bytes are within the limits, if bytes are waited for. -/
def Limited (s : Session) : Prop :=
  s.conn.state ≠ .closed → s.conn.state ≠ .servingApp → s.conn.unread.length ≤ s.conn.limits.bound

/-- What a call is given keeps within the limits, and so does what has arrived
while a request was served. -/
def Keeping (parse : Httparse) (s : Session) : Action → Prop
  | .feedData data => ∀ p, Place.Before s.conn.limits parse
      ⟨s.conn.state, s.conn.totalBodyReceived, s.conn.unread ++ data⟩ p → p.Within s.conn.limits s.conn.limits.bound
  | .pumpEvents => ∀ p, Place.Before s.conn.limits parse
      ⟨s.conn.state, s.conn.totalBodyReceived, s.conn.unread⟩ p → p.Within s.conn.limits s.conn.limits.bound
  | .resetForNextRequest => s.conn.state = .servingApp → s.conn.keepAlive = true →
      s.conn.requestCount < s.conn.maxKeepaliveRequests → s.conn.unread.length ≤ s.conn.limits.bound

/-- What holds in every run whose calls keep within the limits. -/
structure Kempt (lim : Limits) (s : Session) : Prop where
  bounded : s.conn.Bounded
  mode : s.conn.mode = .http11
  limits : s.conn.limits = lim
  chunk : ∀ n, s.conn.state = .receivingChunked (.readingData n) → n ≤ lim.maxBodySize
  limited : s.Limited

theorem kept_tidy (hparse : InRange parse) (hlim : lim.maxBodySize + 2 < usizeEnd) :
    FastHttpConnection.Kept (fun (_ : Unit) (_ : Event) => some ())
      (fun c _ => c.limits = lim ∧ c.view.Tidy lim parse) parse := by
  apply FastHttpConnection.kept_of_step hparse
  · rintro c v ⟨n, hn, hwraps⟩ ⟨-, htidy⟩
    have hle := htidy.chunk n hn
    exact absurd hwraps (by omega)
  · rintro c v - - ⟨hl, htidy⟩
    refine ⟨(), FastHttpConnection.learns_nothing _, hl, ?_⟩
    rw [FastHttpConnection.view_step, hl]
    exact htidy.step

theorem kempt_call (hparse : InRange parse) (hlim : lim.maxBodySize + 2 < usizeEnd) (s : Session)
    {c : FastHttpConnection} (hb : c.Bounded) (hm : c.mode = .http11) (hl : c.limits = lim)
    (htidy : c.view.Tidy lim parse) : (s.call (c.processEvents .release parse)).Kempt lim := by
  obtain ⟨hv, -, hl', -⟩ := FastHttpConnection.view_compact (c := c)
  have hobs := FastHttpConnection.observed_processEvents hparse (kept_tidy hparse hlim) (v := ()) hb hm
    ⟨hl'.trans hl, hv ▸ htidy⟩
  have hfault : (c.processEvents .release parse).fault = none := by
    by_contra hfault
    obtain ⟨⟨n, hn, hwraps⟩, -, -, htidy'⟩ := hobs.panicked hfault
    have hle := htidy'.chunk n hn
    omega
  obtain ⟨hrests, -, -, hlimits, htidy'⟩ := hobs.told hfault
  refine ⟨hobs.bounded, hobs.mode, hlimits, htidy'.chunk, fun hopen hserving => ?_⟩
  have hrest := hrests.resolve_left fun ⟨n, hn, hwraps⟩ => absurd hwraps (by have := htidy'.chunk n hn; omega)
  change (c.processEvents .release parse).conn.unread.length ≤ (c.processEvents .release parse).conn.limits.bound
  rw [hlimits] at hrest ⊢
  exact htidy'.bounded hrest fun hidle => hidle.elim hopen hserving

theorem Kempt.step (hparse : InRange parse) (hlim : lim.maxBodySize + 2 < usizeEnd) (h : s.Kempt lim) {a : Action}
    (hok : s.Keeping parse a) (hst : s.step parse a = some s') : s'.Kempt lim := by
  have hlimits := h.limits
  cases a with
  | feedData data =>
    change (if _ then _ else _) = some s' at hst
    split at hst
    · rename_i hroom
      cases hst
      refine kempt_call (c := { s.conn with buffer := s.conn.buffer ++ data }) hparse hlim s
        (h.bounded.append hroom) h.mode hlimits ⟨?_, h.chunk⟩
      rw [FastHttpConnection.view_append h.bounded.fits data, ← hlimits]
      exact hok
    · cases hst
  | pumpEvents =>
    cases hst
    refine kempt_call hparse hlim s h.bounded h.mode hlimits ⟨?_, h.chunk⟩
    rw [← hlimits]
    exact hok
  | resetForNextRequest =>
    cases hst
    by_cases hserving : s.conn.state = .servingApp
    · by_cases hkeeps : ¬ s.conn.keepAlive ∨ s.conn.requestCount ≥ s.conn.maxKeepaliveRequests
      · have hreset : s.conn.resetForNextRequest = { s.conn with totalBodyReceived := 0, state := .closed } :=
          (if_pos hserving).trans (if_pos hkeeps)
        refine ⟨h.bounded.reset, ?_, ?_, ?_, fun hopen => absurd ?_ hopen⟩
        · exact (congrArg FastHttpConnection.mode hreset).trans h.mode
        · exact (congrArg FastHttpConnection.limits hreset).trans hlimits
        · show ∀ n, s.conn.resetForNextRequest.state = _ → _
          rw [hreset]
          exact nofun
        · exact congrArg FastHttpConnection.state hreset
      · have hreset : s.conn.resetForNextRequest = { s.conn with totalBodyReceived := 0, state := .keepAliveWait } :=
          (if_pos hserving).trans (if_neg hkeeps)
        refine ⟨h.bounded.reset, ?_, ?_, ?_, fun _ _ => ?_⟩
        · exact (congrArg FastHttpConnection.mode hreset).trans h.mode
        · exact (congrArg FastHttpConnection.limits hreset).trans hlimits
        · show ∀ n, s.conn.resetForNextRequest.state = _ → _
          rw [hreset]
          exact nofun
        · show s.conn.resetForNextRequest.unread.length ≤ s.conn.resetForNextRequest.limits.bound
          rw [hreset]
          rw [not_or, not_not, Nat.not_le] at hkeeps
          exact hok hserving hkeeps.1 hkeeps.2
    · have hsame : s.conn.resetForNextRequest = s.conn := if_neg hserving
      rw [hsame]
      exact ⟨h.bounded, h.mode, hlimits, h.chunk, h.limited⟩

/-- In every run whose calls keep within the limits, what is buffered is within
them too. -/
theorem buffered_within (hparse : InRange parse) {maxBodySize maxHeaderSize maxKeepaliveRequests : Nat}
    (hk : maxKeepaliveRequests < usizeEnd) (hlim : maxBodySize + 2 < usizeEnd)
    (h : (session parse maxBodySize maxHeaderSize maxKeepaliveRequests).ReachableWhen (Keeping parse) s)
    (hopen : s.conn.state ≠ .closed) (hserving : s.conn.state ≠ .servingApp) :
    s.conn.unread.length ≤ max maxHeaderSize (maxBodySize + 2) := by
  have hkempt : s.Kempt ⟨maxBodySize, maxHeaderSize⟩ := by
    refine h.inv (I := Kempt ⟨maxBodySize, maxHeaderSize⟩) ?_ fun s a s' hs hok hst => hs.step hparse hlim hok hst
    rintro s rfl
    exact ⟨FastHttpConnection.bounded_new _ _ _ hk, rfl, rfl, nofun, fun _ _ => Nat.zero_le _⟩
  have hle := hkempt.limited hopen hserving
  rw [hkempt.limits] at hle
  exact hle

/-- A request of which a size line has begun. -/
theorem buffered_within_line : ∃ s : Session, s.conn.state = .receivingChunked .readingSize ∧
    s.conn.unread = [50] ∧ s.conn.unread.length ≤ max 64 (10 + 2) := by
  have hhead : parseChunkedHead (chunkedHead ++ [50]) = .complete chunkedHead.length
      { method := some (bytes "POST"), path := some (bytes "/"), version := some 1,
        headers := [⟨bytes "transfer-encoding", bytes "chunked"⟩] } := if_pos (by decide)
  have hkeeping : Keeping parseChunkedHead ⟨.new 10 64 1000, []⟩ (.feedData (chunkedHead ++ [50])) := by
    intro p hp
    cases hp with
    | refl => trivial
    | head _ _ hhead' _ hp =>
      change parseChunkedHead (chunkedHead ++ [50]) = _ at hhead'
      rw [hhead] at hhead'
      cases hhead'
      change Place.Before _ _ ⟨_, _, (chunkedHead ++ [50]).drop chunkedHead.length⟩ p at hp
      rw [List.drop_left] at hp
      cases hp with
      | refl => exact ⟨fun _ => by decide, nofun⟩
      | head hstate => rcases hstate with hstate | hstate <;> cases hstate
      | size hpos => cases hpos
      | last hpos => cases hpos
  have h : (session parseChunkedHead 10 64 1000).ReachableWhen (Keeping parseChunkedHead) _ :=
    (System.ReachableWhen.init rfl).next (.feedData (chunkedHead ++ [50])) hkeeping rfl
  have hle := buffered_within parseChunkedHead_inRange (by decide) (by decide) h
  exact ⟨_, by decide +kernel, by decide +kernel, hle (by decide +kernel) (by decide +kernel)⟩

/-- A size line that does not end. -/
theorem unlimited_size_line : ∃ s, (session parseChunkedHead 10 64 1000).Reachable s ∧
    s.conn.state ≠ .closed ∧ s.conn.state ≠ .servingApp ∧ max 64 (10 + 2) < s.conn.unread.length :=
  System.exists_reachable_of_run [.feedData chunkedHead, .feedData (List.replicate 65 48)] rfl (by decide +kernel)

end Session

end Multiloop.Http
