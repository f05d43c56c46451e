import Multiloop.Http.Buffered

/-!
# The limit on a body

How many bytes of a body the engine tells its owner, as a number without an
end, against the limit that it keeps with a counter that wraps around. As long
as no chunk that a `Vec` can hold takes the counter past `usize::MAX`, the
counter is what was told and what is to be told next, and within the limit.
-/

namespace Multiloop.Http

/-! ## What was told -/

/-- The numbers of body bytes of the requests, the last request first. -/
def tally (v : List Nat) : Event → List Nat
  | .requestStart _ => 0 :: v
  | .body chunk _ =>
    match v with
    | [] => [chunk.length]
    | t :: v => (t + chunk.length) :: v
  | _ => v

def bodyTotals (evs : List Event) : List Nat := evs.foldl tally []

theorem bodyTotals_snoc (evs : List Event) (e : Event) : bodyTotals (evs ++ [e]) = tally (bodyTotals evs) e :=
  List.foldl_append

theorem headD_tally (v : List Nat) (chunk : Bytes) (more : Bool) :
    (tally v (.body chunk more)).headD 0 = v.headD 0 + chunk.length := by
  cases v with
  | nil => exact (Nat.zero_add _).symm
  | cons t v => rfl

/-- A chunk adds to the total of the last request only. -/
theorem mem_tally {v : List Nat} {chunk : Bytes} {more : Bool} {t : Nat} (h : t ∈ tally v (.body chunk more)) :
    t ∈ v ∨ t = v.headD 0 + chunk.length := by
  cases v with
  | nil => exact .inr ((List.mem_singleton.1 h).trans (Nat.zero_add _).symm)
  | cons u v => exact (List.mem_cons.1 h).symm.imp_left (List.mem_cons_of_mem u)

namespace Place

/-- A size that takes the sum past `usize::MAX` is refused, or no `Vec` holds
its chunk. -/
def Adds (lim : Limits) (p : Place) : Prop :=
  p.state = .receivingChunked .readingSize → ∀ n, announced p.bytes = some n → n ≠ 0 →
    p.total + n < usizeEnd ∨ lim.maxBodySize < (p.total + n) % usizeEnd ∨ 2 ^ 63 ≤ n + 2

theorem adds_of_quiet {lim : Limits} {p : Place} (h : p.state.Quiet) : p.Adds lim := by
  intro hs
  rw [hs] at h
  exact h.elim

end Place

namespace Decoder

variable {lim : Limits} {parse : Httparse} {d : Decoder} {v : List Nat}

/-- What the counter and the state say of the total `t` of the request that is
read. -/
def Count (lim : Limits) (t total : Nat) : HttpParserState → Prop
  | .waitingHeader | .keepAliveWait => total = 0
  | .receivingContentLength remaining => t + remaining ≤ lim.maxBodySize
  | .receivingChunked .readingSize => total = t
  | .receivingChunked (.readingData n) =>
    total = t + n ∧ t + n ≤ lim.maxBodySize ∨ total ≤ lim.maxBodySize ∧ 2 ^ 63 ≤ n + 2
  | _ => True

structure Counted (lim : Limits) (d : Decoder) (v : List Nat) : Prop where
  totals : ∀ t ∈ v, t ≤ lim.maxBodySize
  count : Count lim (v.headD 0) d.totalBodyReceived d.state

/-- A step keeps the totals within the limit. -/
def Counts (lim : Limits) (v : List Nat) (s : Step) : Prop := s.1.Counted lim (s.2.1.foldl tally v)

theorem counts_fail (h : ∀ t ∈ v, t ≤ lim.maxBodySize) (d : Decoder) (status : Nat) (msg : String) :
    Counts lim v (d.fail status msg) := ⟨h, trivial⟩

theorem totals_body (h : ∀ t ∈ v, t ≤ lim.maxBodySize) {chunk : Bytes}
    (hle : v.headD 0 + chunk.length ≤ lim.maxBodySize) (more : Bool) : ∀ t ∈ tally v (.body chunk more), t ≤ lim.maxBodySize := by
  intro t ht
  rcases mem_tally ht with ht | rfl
  · exact h t ht
  · exact hle

theorem totals_start (h : ∀ t ∈ v, t ≤ lim.maxBodySize) : ∀ t ∈ 0 :: v, t ≤ lim.maxBodySize := by
  intro t ht
  rcases List.mem_cons.1 ht with rfl | ht
  · exact Nat.zero_le _
  · exact h t ht

theorem counts_takeBody (h : ∀ t ∈ v, t ≤ lim.maxBodySize) {remaining : Nat}
    (hle : v.headD 0 + remaining ≤ lim.maxBodySize) : Counts lim v (d.takeBody remaining) := by
  unfold takeBody
  split
  · rename_i hlt
    refine ⟨totals_body h (by omega) true, ?_⟩
    show (tally v (.body d.unread true)).headD 0 + (remaining - d.unread.length) ≤ lim.maxBodySize
    rw [headD_tally]
    omega
  · have hlen : (d.unread.take remaining).length ≤ remaining := List.length_take_le _ _
    exact ⟨totals_body h (by omega) false, trivial⟩

theorem counts_beginBody (h : ∀ t ∈ v, t ≤ lim.maxBodySize) {cl : Nat} (hcl : cl ≤ lim.maxBodySize)
    (start : RequestStart) : Counts lim v (d.beginBody cl (.requestStart start)) := by
  have hle : (0 :: v).headD 0 + cl ≤ lim.maxBodySize := by
    show 0 + cl ≤ lim.maxBodySize
    omega
  unfold beginBody
  dsimp only
  split
  · exact ⟨totals_start h, hle⟩
  · exact counts_takeBody (totals_start h) hle

theorem counts_acceptHead (h : ∀ t ∈ v, t ≤ lim.maxBodySize) (hzero : d.totalBodyReceived = 0) (offset : Nat)
    (req : Request) : Counts lim v (d.acceptHead lim offset req) := by
  unfold acceptHead
  dsimp only
  split
  · exact counts_fail h _ _ _
  split
  · exact ⟨totals_start h, trivial⟩
  split
  · exact ⟨totals_start h, hzero⟩
  split
  · split
    · exact counts_fail h _ _ _
    · rename_i hle
      exact counts_beginBody h (Nat.not_lt.1 hle) _
  · exact ⟨totals_start h, trivial⟩

theorem counts_header (h : d.Counted lim v) (hs : d.state = .waitingHeader ∨ d.state = .keepAliveWait) :
    Counts lim v (d.header lim parse) := by
  have hzero : d.totalBodyReceived = 0 := by
    have hcount := h.count
    rcases hs with hs | hs
    · rw [hs] at hcount
      exact hcount
    · rw [hs] at hcount
      exact hcount
  unfold header
  split
  · exact h
  split
  · exact counts_fail h.totals _ _ _
  split
  · exact counts_acceptHead h.totals hzero _ _
  · exact h
  · exact counts_fail h.totals _ _ _

theorem counts_size (h : d.Counted lim v) (hadds : d.place.Adds lim) (hs : d.state = .receivingChunked .readingSize) :
    Counts lim v (d.size lim) := by
  have hcount := h.count
  rw [hs] at hcount
  have htotal : d.totalBodyReceived = v.headD 0 := hcount
  rcases d.size_cases lim with ⟨heq, -⟩ | ⟨status, msg, heq⟩ | ⟨pos, n, -, hann, heq⟩
  · rw [heq]
    exact h
  · rw [heq]
    exact counts_fail h.totals _ _ _
  · rw [heq]
    unfold acceptSize
    dsimp only
    split
    · exact ⟨h.totals, trivial⟩
    rename_i hn
    split
    · exact counts_fail h.totals _ _ _
    rename_i hlimit
    refine ⟨h.totals, ?_⟩
    show (d.totalBodyReceived + n) % usizeEnd = v.headD 0 + n ∧ v.headD 0 + n ≤ lim.maxBodySize ∨
      (d.totalBodyReceived + n) % usizeEnd ≤ lim.maxBodySize ∧ 2 ^ 63 ≤ n + 2
    rcases hadds hs n hann hn with hsum | hsum | hlong
    · have hsum : d.totalBodyReceived + n < usizeEnd := hsum
      rw [Nat.mod_eq_of_lt hsum] at hlimit ⊢
      exact .inl ⟨by omega, by omega⟩
    · exact absurd hsum hlimit
    · exact .inr ⟨Nat.not_lt.1 hlimit, hlong⟩

theorem counts_data (h : d.Counted lim v) {n : Nat} (hs : d.state = .receivingChunked (.readingData n))
    (hlen : d.unread.length < 2 ^ 63) : Counts lim v (d.data n) := by
  have hcount := h.count
  rw [hs] at hcount
  have hcount : d.totalBodyReceived = v.headD 0 + n ∧ v.headD 0 + n ≤ lim.maxBodySize ∨
    d.totalBodyReceived ≤ lim.maxBodySize ∧ 2 ^ 63 ≤ n + 2 := hcount
  unfold data
  split
  · exact h
  rename_i hwhole
  split
  · exact counts_fail h.totals _ _ _
  · obtain ⟨htotal, hle⟩ := hcount.resolve_right (by omega)
    have htake : (d.unread.take n).length = n := List.length_take_of_le (by omega)
    refine ⟨totals_body h.totals (by rw [htake]; exact hle) true, ?_⟩
    show d.totalBodyReceived = (tally v (.body (d.unread.take n) true)).headD 0
    rw [headD_tally, htake, htotal]

theorem counts_finish (h : d.Counted lim v) (hle : v.headD 0 ≤ lim.maxBodySize) (n : Nat) :
    Counts lim v (d.finish n) :=
  ⟨totals_body h.totals (show v.headD 0 + ([] : Bytes).length ≤ lim.maxBodySize from hle) false, trivial⟩

theorem counts_trailers (h : d.Counted lim v) : Counts lim v d.trailers := by
  have hle : v.headD 0 ≤ lim.maxBodySize := by
    cases v with
    | nil => exact Nat.zero_le _
    | cons t v => exact h.totals t List.mem_cons_self
  unfold trailers
  split
  · exact counts_finish h hle _
  split
  · exact h
  · exact counts_finish h hle _

theorem Counted.step (h : d.Counted lim v) (hadds : d.place.Adds lim) (hlen : d.unread.length < 2 ^ 63) :
    Counts lim v (d.step lim parse) := by
  unfold Decoder.step
  cases hs : d.state with
  | closed => exact h
  | servingApp => exact h
  | waitingHeader => exact counts_header h (.inl hs)
  | keepAliveWait => exact counts_header h (.inr hs)
  | receivingContentLength remaining =>
    have hcount := h.count
    rw [hs] at hcount
    dsimp only
    unfold contentLength
    split
    · exact h
    · exact counts_takeBody h.totals hcount
  | receivingChunked stage =>
    cases stage with
    | readingSize => exact counts_size h hadds hs
    | readingData n => exact counts_data h hs hlen
    | readingTrailers => exact counts_trailers h

end Decoder

/-! ## Every run -/

namespace Session

variable {parse : Httparse} {lim : Limits} {s s' : Session} {v : List Nat}

/-- No size line that the call comes to takes the counter past `usize::MAX`
with a chunk that a `Vec` can hold. -/
def Adding (parse : Httparse) (s : Session) : Action → Prop
  | .feedData data => ∀ p, Place.Before s.conn.limits parse
      ⟨s.conn.state, s.conn.totalBodyReceived, s.conn.unread ++ data⟩ p → p.Adds s.conn.limits
  | .pumpEvents => ∀ p, Place.Before s.conn.limits parse
      ⟨s.conn.state, s.conn.totalBodyReceived, s.conn.unread⟩ p → p.Adds s.conn.limits
  | .resetForNextRequest => True

/-- What holds in every run whose calls add up. -/
structure Tallied (lim : Limits) (s : Session) : Prop where
  bounded : s.conn.Bounded
  mode : s.conn.mode = .http11
  limits : s.conn.limits = lim
  counted : s.conn.view.Counted lim (bodyTotals (events s.log))

theorem foldlM_tally (evs : List Event) (v : List Nat) :
    evs.foldlM (fun v e => some (tally v e)) v = some (evs.foldl tally v) := List.foldlM_pure

theorem kept_counted (hparse : InRange parse) :
    FastHttpConnection.Kept (fun v e => some (tally v e))
      (fun c v => c.limits = lim ∧ c.view.Counted lim v ∧ ∀ p, c.view.place.Before lim parse p → p.Adds lim) parse := by
  apply FastHttpConnection.kept_of_step hparse
  · rintro c v - ⟨hl, hcounted, -⟩
    refine ⟨v, rfl, hl, ⟨hcounted.totals, trivial⟩, fun p hp => Place.adds_of_quiet ?_⟩
    exact Decoder.before_of_quiet hp trivial
  · rintro c v hb - ⟨hl, hcounted, hadds⟩
    have hlen : c.view.unread.length < 2 ^ 63 := by
      have := hb.fits.length
      rw [FastHttpConnection.view_unread, FastHttpConnection.unread_length]
      omega
    have hstep : Decoder.Counts lim v (c.view.step lim parse) := hcounted.step (hadds _ .refl) hlen
    refine ⟨_, foldlM_tally _ _, hl, ?_, fun p hp => ?_⟩
    · rw [FastHttpConnection.view_step, hl]
      exact hstep
    · rw [FastHttpConnection.view_step, hl] at hp
      rcases Decoder.before_step hp with hp | hquiet
      · exact hadds p hp
      · exact Place.adds_of_quiet hquiet

theorem tallied_call (hparse : InRange parse) {c : FastHttpConnection} (hb : c.Bounded) (hm : c.mode = .http11)
    (hl : c.limits = lim) (hcounted : c.view.Counted lim (bodyTotals (events s.log)))
    (hadds : ∀ p, c.view.place.Before lim parse p → p.Adds lim) :
    (s.call (c.processEvents .release parse)).Tallied lim := by
  obtain ⟨hv, -, hl', -⟩ := FastHttpConnection.view_compact (c := c)
  have hobs := FastHttpConnection.observed_processEvents hparse (kept_counted hparse) hb hm
    (v := bodyTotals (events s.log)) ⟨hl'.trans hl, hv ▸ hcounted, hv ▸ hadds⟩
  by_cases hfault : (c.processEvents .release parse).fault = none
  · obtain ⟨-, v', htold, hlimits, hcounted', -⟩ := hobs.told hfault
    refine ⟨hobs.bounded, hobs.mode, hlimits, ?_⟩
    have hlog : events (s.call (c.processEvents .release parse)).log =
        events s.log ++ (c.processEvents .release parse).events := by
      show events (if _ then s.log ++ _ else s.log) = _
      rw [if_pos hfault, events_append]
      exact congrArg _ (List.filterMap_map.trans List.filterMap_some)
    rw [foldlM_tally] at htold
    cases htold
    rw [hlog, bodyTotals, List.foldl_append]
    exact hcounted'
  · obtain ⟨⟨n, hn, hwraps⟩, v', hlimits, ⟨-, hcount⟩, -⟩ := hobs.panicked hfault
    refine ⟨hobs.bounded, hobs.mode, hlimits, ?_⟩
    have hlog : (s.call (c.processEvents .release parse)).log = s.log := if_neg hfault
    rw [hlog]
    refine ⟨hcounted.totals, ?_⟩
    show Decoder.Count lim _ _ (c.processEvents .release parse).conn.state
    have hcount : Decoder.Count lim (v'.headD 0) (c.processEvents .release parse).conn.totalBodyReceived
      (c.processEvents .release parse).conn.state := hcount
    rw [hn] at hcount ⊢
    have hwraps : 2 ^ 64 ≤ n + 2 := hwraps
    refine .inr ⟨?_, by omega⟩
    rcases hcount with ⟨htotal, hle⟩ | ⟨hle, -⟩
    · exact le_of_eq_of_le htotal hle
    · exact hle

/-- A reset does nothing, or ends the request. -/
theorem reset_cases (c : FastHttpConnection) : c.resetForNextRequest = c ∨
    ∃ st, (st = .closed ∨ st = .keepAliveWait) ∧
      c.resetForNextRequest = { c with totalBodyReceived := 0, state := st } := by
  unfold FastHttpConnection.resetForNextRequest
  split
  · split
    · exact .inr ⟨_, .inl rfl, rfl⟩
    · exact .inr ⟨_, .inr rfl, rfl⟩
  · exact .inl rfl

theorem Tallied.step (hparse : InRange parse) (h : s.Tallied lim) {a : Action} (hok : s.Adding parse a)
    (hst : s.step parse a = some s') : s'.Tallied lim := by
  have hlimits := h.limits
  cases a with
  | feedData data =>
    change (if _ then _ else _) = some s' at hst
    split at hst
    · rename_i hroom
      cases hst
      have hview := FastHttpConnection.view_append h.bounded.fits data
      refine tallied_call (c := { s.conn with buffer := s.conn.buffer ++ data }) hparse (h.bounded.append hroom) h.mode
        hlimits ?_ ?_
      · rw [hview]
        exact ⟨h.counted.totals, h.counted.count⟩
      · rw [hview, ← hlimits]
        exact hok
    · cases hst
  | pumpEvents =>
    cases hst
    refine tallied_call hparse h.bounded h.mode hlimits h.counted ?_
    rw [← hlimits]
    exact hok
  | resetForNextRequest =>
    cases hst
    have hlog : events (s.log ++ [.reset]) = events s.log := (events_append _ _).trans (List.append_nil _)
    rcases reset_cases s.conn with hreset | ⟨st, hst, hreset⟩
    · refine ⟨h.bounded.reset, (congrArg _ hreset).trans h.mode, (congrArg _ hreset).trans hlimits, ?_⟩
      show Decoder.Counted lim s.conn.resetForNextRequest.view (bodyTotals (events (s.log ++ [.reset])))
      rw [hlog, hreset]
      exact h.counted
    · refine ⟨h.bounded.reset, (congrArg _ hreset).trans h.mode, (congrArg _ hreset).trans hlimits, ?_⟩
      show Decoder.Counted lim s.conn.resetForNextRequest.view (bodyTotals (events (s.log ++ [.reset])))
      rw [hlog, hreset]
      refine ⟨h.counted.totals, ?_⟩
      rcases hst with rfl | rfl
      · trivial
      · exact rfl

/-- Where the counter is within a limit of `2 ^ 63 + 2` bytes, only chunks that
no `Vec` can hold take it past `usize::MAX`. -/
theorem adds_of_small {p q : Place} (hlim : lim.maxBodySize < 2 ^ 63 + 3) (hq : q.total ≤ lim.maxBodySize)
    (h : q.Before lim parse p) : p.Adds lim := by
  induction h with
  | @refl p =>
    intro _ n _ _
    have hend : usizeEnd = 2 ^ 64 := rfl
    omega
  | head _ _ _ _ _ ih => exact ih hq
  | size _ _ _ hlimit _ ih => exact ih hlimit
  | last _ _ _ ih => exact ih hq
  | data _ _ _ ih => exact ih hq

/-- So every call adds up. -/
theorem Tallied.adding (h : s.Tallied lim) (hlim : lim.maxBodySize < 2 ^ 63 + 3) (a : Action) : s.Adding parse a := by
  have hplace : ∀ (u : Bytes) p, Place.Before s.conn.limits parse
      ⟨s.conn.state, s.conn.totalBodyReceived, u⟩ p → p.Adds s.conn.limits := by
    rw [h.limits]
    intro u p hp
    have hcount : Decoder.Count lim ((bodyTotals (events s.log)).headD 0) s.conn.totalBodyReceived s.conn.state :=
      h.counted.count
    have hhead : (bodyTotals (events s.log)).headD 0 ≤ lim.maxBodySize := by
      cases hv : bodyTotals (events s.log) with
      | nil => exact Nat.zero_le _
      | cons t v => exact h.counted.totals t (hv ▸ List.mem_cons_self)
    have hquiet : s.conn.state.Quiet → p.Adds lim := by
      intro hquiet
      rw [Place.before_quiet hp hquiet]
      exact Place.adds_of_quiet hquiet
    cases hs : s.conn.state with
    | closed => exact hquiet (by rw [hs]; trivial)
    | servingApp => exact hquiet (by rw [hs]; trivial)
    | receivingContentLength remaining => exact hquiet (by rw [hs]; trivial)
    | waitingHeader =>
      rw [hs] at hcount
      have htotal : s.conn.totalBodyReceived = 0 := hcount
      exact adds_of_small hlim (show s.conn.totalBodyReceived ≤ _ by omega) hp
    | keepAliveWait =>
      rw [hs] at hcount
      have htotal : s.conn.totalBodyReceived = 0 := hcount
      exact adds_of_small hlim (show s.conn.totalBodyReceived ≤ _ by omega) hp
    | receivingChunked stage =>
      rw [hs] at hcount
      cases stage with
      | readingSize =>
        have htotal : s.conn.totalBodyReceived = (bodyTotals (events s.log)).headD 0 := hcount
        exact adds_of_small hlim (htotal.trans_le hhead) hp
      | readingData n =>
        rcases hcount with ⟨htotal, hle⟩ | ⟨hle, -⟩
        · exact adds_of_small hlim (htotal.trans_le hle) hp
        · exact adds_of_small hlim hle hp
      | readingTrailers =>
        rw [hs] at hp
        cases hp with
        | refl => exact fun hs' => by cases hs'
        | head hstate => rcases hstate with hstate | hstate <;> cases hstate
  cases a with
  | feedData data => exact hplace _
  | pumpEvents => exact hplace _
  | resetForNextRequest => trivial

/-- In every run whose calls add up no request is told more bytes of a body
than the limit. A limit of at most `2 ^ 63 + 2` bytes makes all calls add up. -/
theorem told_within (hparse : InRange parse) {maxBodySize maxHeaderSize maxKeepaliveRequests : Nat}
    (hk : maxKeepaliveRequests < usizeEnd)
    (h : (session parse maxBodySize maxHeaderSize maxKeepaliveRequests).ReachableWhen
      (fun s a => maxBodySize < 2 ^ 63 + 3 ∨ s.Adding parse a) s) :
    ∀ t ∈ bodyTotals (events s.log), t ≤ maxBodySize := by
  have htallied : s.Tallied ⟨maxBodySize, maxHeaderSize⟩ := by
    refine h.inv (I := Tallied ⟨maxBodySize, maxHeaderSize⟩) ?_ fun s a s' hs hok hst => ?_
    · rintro s rfl
      exact ⟨FastHttpConnection.bounded_new _ _ _ hk, rfl, rfl, nofun, rfl⟩
    · exact hs.step hparse (hok.elim (fun hlim => hs.adding hlim a) id) hst
  exact htallied.counted.totals

/-- A chunk of two bytes. -/
theorem told_within_two : ∃ s : Session, bodyTotals (events s.log) = [2] ∧ ∀ t ∈ bodyTotals (events s.log), t ≤ 10 := by
  have h : (session parseChunkedHead 10 64 1000).ReachableWhen
      (fun s a => 10 < 2 ^ 63 + 3 ∨ s.Adding parseChunkedHead a) _ :=
    (System.ReachableWhen.init rfl).next (.feedData (chunkedHead ++ bytes "2\r\nab\r\n")) (.inl (by decide)) rfl
  exact ⟨_, by decide +kernel, told_within parseChunkedHead_inRange (by decide) h⟩

end Session

/-! ## Chunks that wrap the counter around -/

theorem Decoder.chunk_runs {lim : Limits} (parse : Httparse) {d : Decoder} {chunk : Bytes}
    (hs : d.state = .receivingChunked .readingSize) (hne : chunk ≠ []) (hlen : chunk.length + 2 < usizeEnd)
    (hu : d.unread = upperHex chunk.length ++ (crlf ++ (chunk ++ crlf)))
    (hlim : (d.totalBodyReceived + chunk.length) % usizeEnd ≤ lim.maxBodySize) :
    Runs lim parse d [.body chunk true] { d with
      state := .receivingChunked .readingSize
      unread := []
      totalBodyReceived := (d.totalBodyReceived + chunk.length) % usizeEnd } := by
  have hpos : chunk.length ≠ 0 := fun h => hne (List.length_eq_zero_iff.1 h)
  have hline : 13 ∉ upperHex chunk.length := fun h =>
    ne_of_hexDigit (isHexDigit_upperHex _ 13 h) (by decide) rfl
  have hsize : d.step lim parse = ({ d with
      unread := chunk ++ crlf
      totalBodyReceived := (d.totalBodyReceived + chunk.length) % usizeEnd
      state := .receivingChunked (.readingData chunk.length) }, [], .again) := by
    have hdrop : d.unread.drop ((upperHex chunk.length).length + 2) = chunk ++ crlf := by
      rw [hu, ← List.append_assoc]
      exact List.drop_left' (by rw [List.length_append]; rfl)
    have hend : usizeEnd = 2 ^ 64 := rfl
    unfold step
    rw [hs]
    dsimp only
    unfold size
    rw [hu, position_line hline]
    dsimp only
    rw [List.take_left, sizeText_upperHex]
    dsimp only
    rw [fromStrRadix_upperHex (by omega)]
    dsimp only
    unfold acceptSize
    dsimp only
    rw [if_neg hpos, if_neg (Nat.not_lt.2 hlim), hdrop]
  have hdata : ∀ d' : Decoder, d'.state = .receivingChunked (.readingData chunk.length) → d'.unread = chunk ++ crlf →
      d'.step lim parse =
        ({ d' with unread := [], state := .receivingChunked .readingSize }, [.body chunk true], .again) := by
    intro d' hs' hu'
    have hwhole : d'.unread.length = chunk.length + 2 := by rw [hu', List.length_append]; rfl
    unfold step
    rw [hs']
    dsimp only
    unfold data
    rw [if_neg (by omega), if_neg (by rw [hu', List.drop_left]; decide), List.drop_of_length_le (by omega), hu',
      List.take_left]
  have hstop : ∀ d' : Decoder, d'.state = .receivingChunked .readingSize → d'.unread = [] →
      d'.step lim parse = (d', [], .stop) := by
    intro d' hs' hu'
    unfold step
    rw [hs']
    dsimp only
    unfold size
    rw [hu']
    rfl
  refine .again (fun n hn => ?_) hsize (.again (fun n hn => ?_) (hdata _ rfl rfl)
    (.stop (fun n hn => ?_) (hstop _ rfl rfl)))
  · rw [hs] at hn
    cases hn
  · cases hn
    exact hlen
  · cases hn

namespace Session

variable {parse : Httparse} {s : Session} {maxBodySize maxHeaderSize maxKeepaliveRequests : Nat}

/-- A chunk that leaves the counter within the limit, wrapped around or not, is
told; then the buffer is emptied. -/
theorem feed_chunk (hparse : InRange parse) (hk : maxKeepaliveRequests < usizeEnd)
    (h : (session parse maxBodySize maxHeaderSize maxKeepaliveRequests).Reachable s)
    (hs : s.conn.state = .receivingChunked .readingSize) (hbuf : s.conn.buffer = []) {chunk : Bytes} (hne : chunk ≠ [])
    (hlen : (upperHex chunk.length).length + chunk.length + 4 < 2 ^ 63)
    (hlim : (s.conn.totalBodyReceived + chunk.length) % usizeEnd ≤ s.conn.maxBodySize) :
    ∃ s', (session parse maxBodySize maxHeaderSize maxKeepaliveRequests).Reachable s' ∧
      s'.conn.state = .receivingChunked .readingSize ∧ s'.conn.buffer = [] ∧ s'.conn.maxBodySize = s.conn.maxBodySize ∧
      s'.conn.totalBodyReceived = (s.conn.totalBodyReceived + chunk.length) % usizeEnd ∧
      events s'.log = events s.log ++ [.body chunk true] := by
  have hsound := sound_of_reachable hparse hk h
  have hunread : s.conn.unread = [] := by
    show s.conn.buffer.drop s.conn.cursor = []
    rw [hbuf, List.drop_nil]
  have hroom : (s.conn.buffer ++ (upperHex chunk.length ++ (crlf ++ (chunk ++ crlf)))).length < 2 ^ 63 := by
    simp only [hbuf, List.nil_append, List.length_append]
    have hcrlf : crlf.length = 2 := rfl
    omega
  have hsize : chunk.length + 2 < usizeEnd := by
    have hend : usizeEnd = 2 ^ 64 := rfl
    omega
  have hfeed : (s.conn.view.feed (upperHex chunk.length ++ (crlf ++ (chunk ++ crlf)))).unread =
      upperHex chunk.length ++ (crlf ++ (chunk ++ crlf)) := by
    show s.conn.unread ++ _ = _
    rw [hunread]
    rfl
  have hruns := Decoder.chunk_runs parse (d := s.conn.view.feed (upperHex chunk.length ++ (crlf ++ (chunk ++ crlf)))) hs
    hne hsize hfeed (show _ ≤ s.conn.limits.maxBodySize from hlim)
  obtain ⟨c₁, hcall, hview, hb₁, hm₁, hl₁, -⟩ :=
    FastHttpConnection.feedData_eq hparse hsound.bounded hsound.mode hroom hruns
  have hfed : (session parse maxBodySize maxHeaderSize maxKeepaliveRequests).Reachable
      ⟨c₁, s.log ++ [.told (.body chunk true)]⟩ := by
    refine h.next (.feedData (upperHex chunk.length ++ (crlf ++ (chunk ++ crlf)))) trivial ?_
    show (if _ then _ else _) = _
    rw [if_pos hroom, hcall]
    rfl
  obtain ⟨hview₂, -, hl₂, -⟩ := FastHttpConnection.view_compact (c := c₁)
  have hrests : c₁.Rests parse := by
    refine .inr ?_
    rw [hview]
    rfl
  have hpump : c₁.processEvents .release parse = ⟨c₁.compactBuffer, [], none⟩ := by
    refine (FastHttpConnection.processEvents_rests hparse hb₁ hm₁ hrests).resolve_right fun hwraps => ?_
    obtain ⟨⟨n, hn, -⟩, -⟩ := hwraps
    rw [show c₁.state = _ from congrArg Decoder.state hview] at hn
    cases hn
  have hpumped : (session parse maxBodySize maxHeaderSize maxKeepaliveRequests).Reachable
      ⟨c₁.compactBuffer, s.log ++ [.told (.body chunk true)]⟩ := by
    refine hfed.next .pumpEvents trivial ?_
    show some (Session.call _ (c₁.processEvents .release parse)) = _
    rw [hpump]
    show some (Session.mk c₁.compactBuffer ((s.log ++ [.told (.body chunk true)]) ++ [])) = _
    rw [List.append_nil]
  refine ⟨_, hpumped, ?_, ?_, ?_, ?_, events_append _ _⟩
  · exact (congrArg Decoder.state hview₂).trans (congrArg Decoder.state hview)
  · have hcursor : c₁.cursor = c₁.buffer.length := by
      have hempty : c₁.buffer.drop c₁.cursor = [] := congrArg Decoder.unread hview
      exact Nat.le_antisymm hb₁.fits.cursor (List.drop_eq_nil_iff.1 hempty)
    show c₁.compactBuffer.buffer = []
    unfold FastHttpConnection.compactBuffer
    rw [if_pos hcursor]
  · exact (congrArg Limits.maxBodySize hl₂).trans (congrArg Limits.maxBodySize hl₁)
  · exact (congrArg Decoder.totalBodyReceived hview₂).trans (congrArg Decoder.totalBodyReceived hview)

/-- With a limit of `usize::MAX` bytes, four chunks of `2 ^ 62` bytes are told
to one request. -/
theorem counter_wraps : ∃ s, (session parseChunkedHead (2 ^ 64 - 1) 64 1000).Reachable s ∧
    ∃ t ∈ bodyTotals (events s.log), 2 ^ 64 - 1 < t := by
  obtain ⟨s₀, hr₀, hs₀, hb₀, hm₀, hlog₀⟩ : ∃ s, (session parseChunkedHead (2 ^ 64 - 1) 64 1000).Reachable s ∧
      s.conn.state = .receivingChunked .readingSize ∧ s.conn.buffer = [] ∧ s.conn.maxBodySize = 2 ^ 64 - 1 ∧
      bodyTotals (events s.log) = [0] :=
    System.exists_reachable_of_run [.feedData chunkedHead, .pumpEvents] rfl (by decide +kernel)
  obtain ⟨chunk, hchunk⟩ : ∃ chunk : Bytes, chunk.length = 2 ^ 62 := ⟨List.replicate (2 ^ 62) 0, List.length_replicate⟩
  have hne : chunk ≠ [] := List.length_pos_iff.1 (by omega)
  have hlen : (upperHex chunk.length).length + chunk.length + 4 < 2 ^ 63 := by
    rw [hchunk]
    decide +kernel
  have hfeed : ∀ s, (session parseChunkedHead (2 ^ 64 - 1) 64 1000).Reachable s →
      s.conn.state = .receivingChunked .readingSize → s.conn.buffer = [] → s.conn.maxBodySize = 2 ^ 64 - 1 →
      ∃ s', (session parseChunkedHead (2 ^ 64 - 1) 64 1000).Reachable s' ∧
        s'.conn.state = .receivingChunked .readingSize ∧ s'.conn.buffer = [] ∧ s'.conn.maxBodySize = 2 ^ 64 - 1 ∧
        bodyTotals (events s'.log) = tally (bodyTotals (events s.log)) (.body chunk true) := by
    intro s hr hs hb hm
    have hlim : (s.conn.totalBodyReceived + chunk.length) % usizeEnd ≤ s.conn.maxBodySize := by
      rw [hm]
      exact Nat.le_sub_one_of_lt (Nat.mod_lt _ (by decide))
    obtain ⟨s', hr', hs', hb', hm', -, hlog⟩ := feed_chunk parseChunkedHead_inRange (by decide) hr hs hb hne hlen hlim
    exact ⟨s', hr', hs', hb', hm'.trans hm, by rw [hlog, bodyTotals_snoc]⟩
  obtain ⟨s₁, hr₁, hs₁, hb₁, hm₁, hlog₁⟩ := hfeed s₀ hr₀ hs₀ hb₀ hm₀
  obtain ⟨s₂, hr₂, hs₂, hb₂, hm₂, hlog₂⟩ := hfeed s₁ hr₁ hs₁ hb₁ hm₁
  obtain ⟨s₃, hr₃, hs₃, hb₃, hm₃, hlog₃⟩ := hfeed s₂ hr₂ hs₂ hb₂ hm₂
  obtain ⟨s₄, hr₄, -, -, -, hlog₄⟩ := hfeed s₃ hr₃ hs₃ hb₃ hm₃
  have htotals : bodyTotals (events s₄.log) = [0 + 2 ^ 62 + 2 ^ 62 + 2 ^ 62 + 2 ^ 62] := by
    rw [hlog₄, hlog₃, hlog₂, hlog₁, hlog₀]
    simp only [tally, hchunk]
  refine ⟨s₄, hr₄, _, htotals ▸ List.mem_singleton_self _, by decide⟩

end Session

end Multiloop.Http
