import Multiloop.Http.Accepted

/-!
# Engines that do the same

Two engines with the same bytes unread do the same from there on, however many
requests either has read: an engine that was reset reads what is unread as a new
one does. A chunk whose end wraps around is no exception within a call, though
what a round does before it depends on the bytes around the cursor: those before
it are the end of the size line.
-/

namespace Multiloop.Http

namespace Decoder

variable {lim : Limits} {parse : Httparse} {d d' : Decoder}

def Awaits (d : Decoder) : Prop := d.state = .waitingHeader ∨ d.state = .keepAliveWait

/-- The same decoder, apart from the number of requests, and from whether a
first head is awaited or one after a request. -/
structure Same (d d' : Decoder) : Prop where
  unread : d.unread = d'.unread
  keepAlive : d.keepAlive = d'.keepAlive
  total : d.totalBodyReceived = d'.totalBodyReceived
  state : d.state = d'.state ∨ d.Awaits ∧ d'.Awaits

/-- Steps that do and tell the same. -/
def Alike (s s' : Step) : Prop := s.1.Same s'.1 ∧ s.2 = s'.2

theorem alike_fail (h : d.Same d') (status : Nat) (msg : String) : Alike (d.fail status msg) (d'.fail status msg) :=
  ⟨⟨h.unread, h.keepAlive, h.total, .inl rfl⟩, rfl⟩

theorem alike_stop (h : d.Same d') : Alike (d, [], .stop) (d', [], .stop) := ⟨h, rfl⟩

theorem alike_takeBody (h : d.Same d') (remaining : Nat) : Alike (d.takeBody remaining) (d'.takeBody remaining) := by
  unfold takeBody
  rw [h.unread]
  split
  · exact ⟨⟨rfl, h.keepAlive, h.total, .inl rfl⟩, rfl⟩
  · exact ⟨⟨rfl, h.keepAlive, h.total, .inl rfl⟩, rfl⟩

theorem alike_beginBody (h : d.Same d') (cl : Nat) (start : Event) :
    Alike (d.beginBody cl start) (d'.beginBody cl start) := by
  have hbody : Same { d with state := .receivingContentLength cl } { d' with state := .receivingContentLength cl } :=
    ⟨h.unread, h.keepAlive, h.total, .inl rfl⟩
  obtain ⟨hsame, htold⟩ := alike_takeBody hbody cl
  unfold beginBody
  dsimp only
  by_cases hnil : d.unread = []
  · rw [if_pos hnil, if_pos (h.unread.symm.trans hnil)]
    exact ⟨hbody, rfl⟩
  · rw [if_neg hnil, if_neg fun hnil' => hnil (h.unread.trans hnil'), htold]
    exact ⟨hsame, rfl⟩

theorem alike_acceptHead (h : d.Same d') (offset : Nat) (req : Request) :
    Alike (d.acceptHead lim offset req) (d'.acceptHead lim offset req) := by
  unfold acceptHead
  dsimp only
  split
  · exact ⟨⟨congrArg (List.drop offset) h.unread, h.keepAlive, h.total, .inl rfl⟩, rfl⟩
  split
  · exact ⟨⟨congrArg (List.drop offset) h.unread, rfl, h.total, .inl rfl⟩, rfl⟩
  split
  · exact ⟨⟨congrArg (List.drop offset) h.unread, rfl, h.total, .inl rfl⟩, rfl⟩
  split
  · split
    · exact ⟨⟨congrArg (List.drop offset) h.unread, h.keepAlive, h.total, .inl rfl⟩, rfl⟩
    · have hopened : Same
          { d with
            unread := d.unread.drop offset
            requestCount := d.requestCount + 1
            keepAlive := (foldHeaders req).keepAlive }
          { d' with
            unread := d'.unread.drop offset
            requestCount := d'.requestCount + 1
            keepAlive := (foldHeaders req).keepAlive } :=
        ⟨congrArg (List.drop offset) h.unread, rfl, h.total, h.state⟩
      exact alike_beginBody hopened _ _
  · exact ⟨⟨congrArg (List.drop offset) h.unread, rfl, h.total, .inl rfl⟩, rfl⟩

theorem alike_header (h : d.Same d') : Alike (d.header lim parse) (d'.header lim parse) := by
  unfold header
  rw [h.unread]
  split
  · exact alike_stop h
  split
  · exact alike_fail h _ _
  split
  · exact alike_acceptHead h _ _
  · exact alike_stop h
  · exact alike_fail h _ _

theorem alike_size (h : d.Same d') : Alike (d.size lim) (d'.size lim) := by
  unfold size
  rw [h.unread]
  split
  · exact alike_stop h
  split
  · exact alike_fail h _ _
  split
  · exact alike_fail h _ _
  unfold acceptSize
  dsimp only
  rw [h.unread, h.total]
  split
  · exact ⟨⟨rfl, h.keepAlive, rfl, .inl rfl⟩, rfl⟩
  split
  · exact ⟨⟨rfl, h.keepAlive, rfl, .inl rfl⟩, rfl⟩
  · exact ⟨⟨rfl, h.keepAlive, rfl, .inl rfl⟩, rfl⟩

theorem alike_data (h : d.Same d') (chunkLen : Nat) : Alike (d.data chunkLen) (d'.data chunkLen) := by
  unfold data
  rw [h.unread]
  split
  · exact alike_stop h
  split
  · exact alike_fail h _ _
  · exact ⟨⟨rfl, h.keepAlive, h.total, .inl rfl⟩, rfl⟩

theorem alike_trailers (h : d.Same d') : Alike d.trailers d'.trailers := by
  have hfinish : ∀ k, Alike (d.finish k) (d'.finish k) := fun k =>
    ⟨⟨congrArg (List.drop k) h.unread, h.keepAlive, h.total, .inl rfl⟩, rfl⟩
  unfold trailers
  rw [h.unread]
  split
  · exact hfinish 2
  split
  · exact alike_stop h
  · exact hfinish _

theorem Same.step (h : d.Same d') (lim : Limits) (parse : Httparse) : Alike (d.step lim parse) (d'.step lim parse) := by
  rcases h.state with hs | ⟨hs, hs'⟩
  · unfold Decoder.step
    rw [hs]
    split
    · exact alike_stop h
    · exact alike_stop h
    · exact alike_header h
    · exact alike_header h
    · unfold contentLength
      rw [h.unread]
      split
      · exact alike_stop h
      · exact alike_takeBody h _
    · exact alike_size h
    · exact alike_data h _
    · exact alike_trailers h
  · rw [step_header hs, step_header hs']
    exact alike_header h

end Decoder

/-! ## Calls -/

namespace FastHttpConnection

variable {parse : Httparse} {c c' : FastHttpConnection}

/-- Before the cursor is the line end of the size line. -/
def Follows (c : FastHttpConnection) : Prop :=
  ∀ n, c.state = .receivingChunked (.readingData n) → ∃ before, c.buffer = before ++ (crlf ++ c.unread)

/-- Two engines that do the same from here on. -/
structure Twins (c c' : FastHttpConnection) : Prop where
  bounded : c.Bounded ∧ c'.Bounded
  mode : c.mode = .http11 ∧ c'.mode = .http11
  limits : c.limits = c'.limits
  view : c.view.Same c'.view
  follows : c.Follows ∧ c'.Follows

/-- Before a chunk of 2⁶⁴ - 1 bytes of which one is there a round refuses the
chunk: a line feed is taken for the first of the bytes behind it. -/
theorem round_refuses (parse : Httparse) (hb : c.Bounded) (hm : c.mode = .http11) (hf : c.Follows) {n : Nat}
    (hs : c.state = .receivingChunked (.readingData n)) (hsum : n + 1 = usizeEnd) (hu : c.unread ≠ []) :
    c.round .release parse = .ok (c.emitError 400 "Malformed chunk boundary") := by
  have hn := hb.data n hs
  have hpos : 1 ≤ c.buffer.length - c.cursor := by
    rw [← unread_length]
    exact List.length_pos_iff.2 hu
  have hquiet : ¬ c.Jammed parse := by
    rw [jammed_iff parse c hm hb.fits hs hn (by omega)]
    rintro ⟨-, hnear⟩
    obtain ⟨before, hbefore⟩ := hf n hs
    have hcur := cursor_unread hb.fits
    have hlen := congrArg List.length hbefore
    rw [List.length_append, List.length_append] at hlen
    change c.buffer.length = before.length + (2 + c.unread.length) at hlen
    rcases hnear with hlt | hcrlf
    · omega
    · have hsplit : c.buffer = (before ++ [13]) ++ (10 :: c.unread) := by rw [hbefore, List.append_assoc]; rfl
      have hpre : (before ++ [13]).length = c.cursor + n - usizeEnd := by
        rw [List.length_append]
        show before.length + 1 = _
        omega
      rw [← hpre, hsplit, List.drop_left] at hcrlf
      exact absurd (List.cons.inj hcrlf).1 (by decide)
  rcases round_wraps parse hb hm ⟨n, hs, by omega⟩ with hstop | hrefuse | herror
  · have hround : c.round .release parse = c.dataRound .release n := by
      unfold round httpRound
      rw [hm, hs]
    have hneeded : (n + 2) % usizeEnd = 1 := by
      rw [show n + 2 = 1 + usizeEnd by omega, Nat.add_mod_right]
      decide
    rw [hround] at hstop
    unfold dataRound at hstop
    rw [sub_cursor hb.fits, ok_bind, Arith.add_release, ok_bind, hneeded, if_neg (by rw [unread_length]; omega),
      Arith.add_release, ok_bind, Arith.add_release, ok_bind] at hstop
    cases hboundary : slice c.buffer ((c.cursor + n) % usizeEnd) (((c.cursor + n) % usizeEnd + 2) % usizeEnd) with
    | error e =>
      rw [hboundary] at hstop
      cases hstop
    | ok boundary =>
      rw [hboundary, ok_bind] at hstop
      split at hstop
      · obtain ⟨-, htold⟩ := Prod.mk.inj (Except.ok.inj hstop)
        cases htold
      · cases hdata : slice c.buffer c.cursor ((c.cursor + n) % usizeEnd) with
        | error e =>
          rw [hdata] at hstop
          cases hstop
        | ok data =>
          rw [hdata, ok_bind, Arith.add_release, ok_bind] at hstop
          obtain ⟨-, htold⟩ := Prod.mk.inj (Except.ok.inj hstop)
          cases htold
  · exact hrefuse
  · exact absurd herror hquiet

theorem Follows.behind (h : c.Follows) : c.Behind := fun n hn => .inr (h n hn)

/-- What a round of an engine before a chunk whose end wraps around does. -/
theorem round_chunk (parse : Httparse) (hb : c.Bounded) (hm : c.mode = .http11) (hf : c.Follows) {n : Nat}
    (hs : c.state = .receivingChunked (.readingData n)) (hsum : usizeEnd ≤ n + 2) :
    if n + 2 = usizeEnd then ∃ e, c.round .release parse = .error e
    else if c.unread = [] then c.round .release parse = .ok (c, [], .stop)
    else c.round .release parse = .ok (c.emitError 400 "Malformed chunk boundary") := by
  have hn := hb.data n hs
  split
  · rename_i htwo
    exact hf.behind.jammed parse hb hm hs htwo
  rename_i htwo
  split
  · rename_i hnil
    exact round_waits parse hb.fits hm hs (by omega) hnil
  · rename_i hne
    exact round_refuses parse hb hm hf hs (by omega) hne

theorem Follows.step (parse : Httparse) (h : c.Follows) (hb : c.Bounded) :
    (c.withView (c.view.step c.limits parse).1).Follows := by
  intro n hn
  rcases buffer_of_step hn with hstop | hbefore
  · rw [hstop, withView_view hb.fits] at hn ⊢
    exact h n hn
  · exact hbefore

/-- Rounds that end alike. -/
structure Agreed (o o' : Outcome) : Prop where
  events : o.events = o'.events
  fault : o.fault = none ↔ o'.fault = none
  view : o.conn.view.Same o'.conn.view

/-- Before a chunk whose end wraps around. -/
theorem Twins.round_chunk (h : c.Twins c') {n : Nat}
    (hs : c.state = .receivingChunked (.readingData n)) (hsum : usizeEnd ≤ n + 2) (fuel fuel' : Nat) :
    Agreed (rounds .release parse (fuel + 1) c) (rounds .release parse (fuel' + 1) c') := by
  have hs' : c'.state = .receivingChunked (.readingData n) := by
    rcases h.view.state with heq | ⟨hwaits, -⟩
    · exact heq.symm.trans hs
    · change c.state = _ ∨ c.state = _ at hwaits
      rw [hs] at hwaits
      rcases hwaits with hw | hw
      · cases hw
      · cases hw
  have hu : c.unread = c'.unread := h.view.unread
  have hround := FastHttpConnection.round_chunk parse h.bounded.1 h.mode.1 h.follows.1 hs hsum
  have hround' := FastHttpConnection.round_chunk parse h.bounded.2 h.mode.2 h.follows.2 hs' hsum
  rw [← hu] at hround'
  rw [rounds, rounds]
  by_cases htwo : n + 2 = usizeEnd
  · rw [if_pos htwo] at hround hround'
    obtain ⟨e, he⟩ := hround
    obtain ⟨e', he'⟩ := hround'
    rw [he, he']
    exact ⟨rfl, ⟨fun hnone => (by cases hnone), fun hnone => (by cases hnone)⟩, h.view⟩
  rw [if_neg htwo] at hround hround'
  by_cases hnil : c.unread = []
  · rw [if_pos hnil] at hround hround'
    rw [hround, hround']
    exact ⟨rfl, Iff.rfl, h.view⟩
  · rw [if_neg hnil] at hround hround'
    rw [hround, hround']
    exact ⟨rfl, Iff.rfl, h.view.unread, h.view.keepAlive, h.view.total, .inl rfl⟩

theorem Twins.rounds (hparse : InRange parse) (h : c.Twins c') {fuel fuel' : Nat} (hf : c.view.work < fuel)
    (hf' : c'.view.work < fuel') :
    Agreed (rounds .release parse fuel c) (rounds .release parse fuel' c') := by
  induction fuel generalizing c c' fuel' with
  | zero => exact absurd hf (Nat.not_lt_zero _)
  | succ fuel ih =>
    obtain ⟨fuel', rfl⟩ : ∃ k, fuel' = k + 1 := ⟨fuel' - 1, by omega⟩
    by_cases hw : c.state.Wraps
    · obtain ⟨n, hn, hsum⟩ := hw
      exact h.round_chunk hn hsum fuel fuel'
    have hw' : ¬ c'.state.Wraps := by
      rintro ⟨n, hn, hsum⟩
      rcases h.view.state with heq | ⟨-, hwaits⟩
      · exact hw ⟨n, heq.trans hn, hsum⟩
      · change c'.state = _ ∨ c'.state = _ at hwaits
        rw [hn] at hwaits
        rcases hwaits with hwait | hwait
        · cases hwait
        · cases hwait
    obtain ⟨hround, hb, hv⟩ := round_eq hparse h.bounded.1 h.mode.1 (sound_of_not_wraps hw)
    obtain ⟨hround', hb', hv'⟩ := round_eq hparse h.bounded.2 h.mode.2 (sound_of_not_wraps hw')
    have hfollows := h.follows.1.step parse h.bounded.1
    have hfollows' := h.follows.2.step parse h.bounded.2
    rw [← h.limits] at hround' hb' hv' hfollows'
    obtain ⟨hsame, htold⟩ := h.view.step c.limits parse
    have hnext : (c.withView (c.view.step c.limits parse).1).Twins (c'.withView (c'.view.step c.limits parse).1) := by
      refine ⟨⟨hb, hb'⟩, h.mode, h.limits, ?_, hfollows, hfollows'⟩
      rw [hv, hv']
      exact hsame
    rcases hstep : c.view.step c.limits parse with ⟨d, evs, flow⟩
    rcases hstep' : c'.view.step c.limits parse with ⟨d', evs', flow'⟩
    rw [hstep] at hround hnext htold
    rw [hstep'] at hround' hnext htold
    obtain ⟨rfl, rfl⟩ : evs = evs' ∧ flow = flow' := Prod.mk.inj htold
    rw [FastHttpConnection.rounds, FastHttpConnection.rounds, hround, hround']
    cases flow with
    | stop => exact ⟨rfl, Iff.rfl, hnext.view⟩
    | again =>
      have hless := Decoder.work_step hstep
      have hless' := Decoder.work_step hstep'
      rw [hstep] at hv
      rw [hstep'] at hv'
      have hwork : (c.withView d).view.work < fuel := by
        rw [hv]
        show d.work < fuel
        omega
      have hwork' : (c'.withView d').view.work < fuel' := by
        rw [hv']
        show d'.work < fuel'
        omega
      have hrest := ih hnext hwork hwork'
      exact ⟨congrArg (evs ++ ·) hrest.events, hrest.fault, hrest.view⟩

/-- Two engines that wait for a head, with the same bytes unread. -/
theorem agreed_processEvents (hparse : InRange parse) (hb : c.Bounded) (hb' : c'.Bounded) (hm : c.mode = .http11)
    (hm' : c'.mode = .http11) (hl : c.limits = c'.limits) (hv : c.view.Same c'.view) (hw : c.view.Awaits)
    (hw' : c'.view.Awaits) : Agreed (c.processEvents .release parse) (c'.processEvents .release parse) := by
  have hfollows : ∀ {k : FastHttpConnection}, k.view.Awaits → k.Follows := by
    intro k hk n hn
    have hview : k.view.state = .receivingChunked (.readingData n) := hn
    rcases hk with hk | hk
    · rw [hview] at hk
      cases hk
    · rw [hview] at hk
      cases hk
  have henough : ∀ k : FastHttpConnection, k.view.work < k.enough := by
    intro k
    have hwork := Decoder.work_le k.view
    rw [view_unread, unread_length] at hwork
    unfold enough
    omega
  obtain ⟨hvc, hmc, hlc, -⟩ := view_compact (c := c)
  obtain ⟨hvc', hmc', hlc', -⟩ := view_compact (c := c')
  refine Twins.rounds hparse
    ⟨⟨hb.compact, hb'.compact⟩, ⟨hmc.trans hm, hmc'.trans hm'⟩, hlc.trans (hl.trans hlc'.symm), ?_, ?_, ?_⟩ ?_ ?_
  · rw [hvc, hvc']
    exact hv
  · exact hfollows (hvc.symm ▸ hw)
  · exact hfollows (hvc'.symm ▸ hw')
  · rw [hvc]
    exact henough c
  · rw [hvc']
    exact henough c'

end FastHttpConnection

end Multiloop.Http
