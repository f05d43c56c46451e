import Multiloop.Http.Segmentation

/-!
# Observers of the engine

The owner of an engine learns what it does from the events of its calls. A
relation between the engine and what an observer has seen of it, if every
round of the loop keeps it, is kept by every call that returns. A call that
panics tells nothing, and leaves the engine before a chunk whose end wraps
around.
-/

namespace Multiloop.Http

/-- The engine is before a chunk whose end wraps around. -/
def HttpParserState.Wraps (st : HttpParserState) : Prop := ∃ n, st = .receivingChunked (.readingData n) ∧ usizeEnd ≤ n + 2

namespace FastHttpConnection

variable {parse : Httparse} {c : FastHttpConnection}

theorem sound_of_not_wraps (hw : ¬ c.state.Wraps) : c.view.Sound := by
  intro n hn
  by_contra hsum
  exact hw ⟨n, hn, Nat.not_lt.1 hsum⟩

/-- Before a chunk whose end wraps around a round waits, closes the engine, or
panics. -/
theorem round_wraps (parse : Httparse) (hb : c.Bounded) (hm : c.mode = .http11) (hw : c.state.Wraps) :
    c.round .release parse = .ok (c, [], .stop) ∨
      c.round .release parse = .ok (c.emitError 400 "Malformed chunk boundary") ∨
      ∃ e, c.round .release parse = .error e := by
  obtain ⟨n, hn, hsum⟩ := hw
  have hdata : c.round .release parse = c.dataRound .release n := by
    unfold round httpRound
    rw [hm, hn]
  rw [hdata]
  exact (dataRound_wraps hb.fits (hb.data n hn) hsum).2

/-- Only a chunk whose end wraps around lets a round fail. -/
theorem wraps_of_fault (hparse : InRange parse) (hb : c.Bounded) (hm : c.mode = .http11) {e : Fault}
    (hr : c.round .release parse = .error e) : c.state.Wraps := by
  by_contra hw
  rw [(round_eq hparse hb hm (sound_of_not_wraps hw)).1] at hr
  cases hr

/-- A round after which the loop goes on leaves less to do. -/
theorem work_round (hparse : InRange parse) (hb : c.Bounded) (hm : c.mode = .http11) {c' : FastHttpConnection}
    {events : List Event} (hr : c.round .release parse = .ok (c', events, .again)) : c'.view.work < c.view.work := by
  by_cases hw : c.state.Wraps
  · rcases round_wraps parse hb hm hw with h | h | ⟨e, h⟩ <;> rw [h] at hr <;> cases hr
  · obtain ⟨hround, -, hv⟩ := round_eq hparse hb hm (sound_of_not_wraps hw)
    rw [hround] at hr
    obtain ⟨hc, hr⟩ := Prod.mk.inj (Except.ok.inj hr)
    obtain ⟨-, hagain⟩ := Prod.mk.inj hr
    rw [← hc, hv]
    exact Decoder.work_step (Prod.ext rfl (Prod.ext rfl hagain))

theorem mode_round (hparse : InRange parse) (hb : c.Bounded) (hm : c.mode = .http11) {r : Round}
    (hr : c.round .release parse = .ok r) : r.1.mode = .http11 := by
  by_cases hw : c.state.Wraps
  · rcases round_wraps parse hb hm hw with h | h | ⟨e, h⟩ <;> rw [h] at hr <;> cases hr
    · exact hm
    · exact hm
  · rw [(round_eq hparse hb hm (sound_of_not_wraps hw)).1] at hr
    cases hr
    exact hm

/-! ## Where the loop stops -/

end FastHttpConnection

namespace Decoder

variable {lim : Limits} {parse : Httparse} {d d' : Decoder} {e : List Event}

theorem stop_acceptHead {offset : Nat} {req : Request} (h : d.acceptHead lim offset req = (d', e, .stop)) : d'.Idle := by
  have htake : ∀ (d : Decoder) (r : Nat), (d.takeBody r).2.2 = .again := by
    intro d r
    unfold takeBody
    split
    · rfl
    · rfl
  unfold acceptHead at h
  dsimp only at h
  split at h
  · cases h
    exact .inl rfl
  split at h
  · cases h
    exact .inr rfl
  split at h
  · cases h
  split at h
  · split at h
    · cases h
      exact .inl rfl
    · unfold beginBody at h
      dsimp only at h
      split at h
      · cases h
      · have hflow := congrArg (fun s : Step => s.2.2) h
        dsimp only at hflow
        rw [htake] at hflow
        cases hflow
  · cases h

theorem stop_header (h : d.header lim parse = (d', e, .stop)) : d' = d ∧ e = [] ∨ d'.Idle := by
  unfold header at h
  split at h
  · cases h
    exact .inl ⟨rfl, rfl⟩
  split at h
  · cases h
    exact .inr (.inl rfl)
  split at h
  · exact .inr (stop_acceptHead h)
  · cases h
    exact .inl ⟨rfl, rfl⟩
  · cases h
    exact .inr (.inl rfl)

/-- A step at which the loop stops changes nothing, or leaves nothing to do. -/
theorem stop_cases (h : d.step lim parse = (d', e, .stop)) : d' = d ∧ e = [] ∨ d'.Idle := by
  have hfail : ∀ status msg, d.fail status msg = (d', e, .stop) → d'.Idle := by
    intro status msg h
    cases h
    exact .inl rfl
  unfold step at h
  split at h
  · cases h
    exact .inl ⟨rfl, rfl⟩
  · cases h
    exact .inl ⟨rfl, rfl⟩
  · exact stop_header h
  · exact stop_header h
  · unfold contentLength takeBody at h
    split at h
    · cases h
      exact .inl ⟨rfl, rfl⟩
    split at h
    · cases h
    · cases h
  · unfold size acceptSize at h
    split at h
    · cases h
      exact .inl ⟨rfl, rfl⟩
    split at h
    · exact .inr (hfail _ _ h)
    split at h
    · exact .inr (hfail _ _ h)
    dsimp only at h
    split at h
    · cases h
    split at h
    · cases h
      exact .inr (.inl rfl)
    · cases h
  · unfold data at h
    split at h
    · cases h
      exact .inl ⟨rfl, rfl⟩
    split at h
    · exact .inr (hfail _ _ h)
    · cases h
  · unfold trailers finish at h
    split at h
    · cases h
    split at h
    · cases h
      exact .inl ⟨rfl, rfl⟩
    · cases h

/-- Where the loop stops, it stops at once if it is entered again. -/
theorem step_stop (h : d.step lim parse = (d', e, .stop)) : d'.step lim parse = (d', [], .stop) := by
  rcases stop_cases h with ⟨rfl, rfl⟩ | hidle
  · exact h
  · exact step_of_idle hidle

end Decoder

namespace FastHttpConnection

variable {parse : Httparse} {c : FastHttpConnection}

/-- The loop has nothing to do, or is before a chunk whose end wraps around. -/
def Rests (parse : Httparse) (c : FastHttpConnection) : Prop :=
  c.state.Wraps ∨ c.view.step c.limits parse = (c.view, [], .stop)

theorem rests_round (hparse : InRange parse) (hb : c.Bounded) (hm : c.mode = .http11) {c' : FastHttpConnection}
    {events : List Event} (hr : c.round .release parse = .ok (c', events, .stop)) : c'.Rests parse := by
  by_cases hw : c.state.Wraps
  · rcases round_wraps parse hb hm hw with h | h | ⟨e, h⟩ <;> rw [h] at hr <;> cases hr
    · exact .inl hw
    · exact .inr (Decoder.step_of_idle (.inl rfl))
  · obtain ⟨hround, -, hv⟩ := round_eq hparse hb hm (sound_of_not_wraps hw)
    rw [hround] at hr
    obtain ⟨hc, htold⟩ := Prod.mk.inj (Except.ok.inj hr)
    obtain ⟨-, hstop⟩ := Prod.mk.inj htold
    refine .inr ?_
    rw [← hc, hv]
    have hst : c.view.step c.limits parse = ((c.view.step c.limits parse).1, (c.view.step c.limits parse).2.1, .stop) :=
      Prod.ext rfl (Prod.ext rfl hstop)
    exact Decoder.step_stop hst

/-! ## Relations that every round keeps -/

section Observers

variable {σ : Type} (after : σ → Event → Option σ) (R : FastHttpConnection → σ → Prop)

/-- Every round in HTTP mode takes an engine and what an observer has seen, if
they are related, to an engine and what he has seen then that are. -/
def Kept (parse : Httparse) : Prop :=
  ∀ c v r, c.Bounded → c.mode = .http11 → R c v → c.round .release parse = .ok r →
    ∃ v', r.2.1.foldlM after v = some v' ∧ R r.1 v'

/-- How a call ends, for an observer who has seen `v` before it. -/
structure Observed (parse : Httparse) (o : Outcome) (v : σ) : Prop where
  bounded : o.conn.Bounded
  mode : o.conn.mode = .http11
  told : o.fault = none → o.conn.Rests parse ∧ ∃ v', o.events.foldlM after v = some v' ∧ R o.conn v'
  panicked : o.fault ≠ none → o.conn.state.Wraps ∧ ∃ v', R o.conn v'

variable {after R}

/-- A relation is kept if the steps of the decoder keep it, and a chunk whose
end wraps around may be refused. -/
theorem kept_of_step (hparse : InRange parse)
    (hfail : ∀ c v, c.state.Wraps → R c v → ∃ v', after v (.error 400 (errorResponse 400
      (bytes "Malformed chunk boundary"))) = some v' ∧ R { c with state := .closed } v')
    (hstep : ∀ c v, c.Bounded → ¬ c.state.Wraps → R c v → ∃ v',
      (c.view.step c.limits parse).2.1.foldlM after v = some v' ∧ R (c.withView (c.view.step c.limits parse).1) v') :
    Kept after R parse := by
  intro c v r hb hm hR hr
  by_cases hw : c.state.Wraps
  · rcases round_wraps parse hb hm hw with h | h | ⟨e, h⟩ <;> rw [h] at hr <;> cases hr
    · exact ⟨v, rfl, hR⟩
    · obtain ⟨v', hv, hR'⟩ := hfail c v hw hR
      refine ⟨v', ?_, hR'⟩
      show (after v _).bind pure = some v'
      rw [hv]
      rfl
  · rw [(round_eq hparse hb hm (sound_of_not_wraps hw)).1] at hr
    cases hr
    exact hstep c v hb hw hR

theorem observed_rounds (hparse : InRange parse) (hk : Kept after R parse) {fuel : Nat} {v : σ} (hb : c.Bounded)
    (hm : c.mode = .http11) (hR : R c v) (hf : c.view.work < fuel) :
    Observed after R parse (rounds .release parse fuel c) v := by
  induction fuel generalizing c v with
  | zero => exact absurd hf (Nat.not_lt_zero _)
  | succ fuel ih =>
    unfold rounds
    split
    · rename_i fault hr
      exact ⟨hb, hm, nofun, fun _ => ⟨wraps_of_fault hparse hb hm hr, v, hR⟩⟩
    · rename_i c' events hr
      exact ⟨hb.round hparse hr, mode_round hparse hb hm hr, fun _ =>
        ⟨rests_round hparse hb hm hr, hk c v _ hb hm hR hr⟩, fun hne => absurd rfl hne⟩
    · rename_i c' events hr
      have hless : c'.view.work < c.view.work := work_round hparse hb hm hr
      obtain ⟨v', htold, hR'⟩ := hk c v _ hb hm hR hr
      have hrest := ih (hb.round hparse hr) (mode_round hparse hb hm hr) hR' (show c'.view.work < fuel by omega)
      refine ⟨hrest.bounded, hrest.mode, fun hnone => ?_, hrest.panicked⟩
      obtain ⟨hrests, v'', htold', hR''⟩ := hrest.told hnone
      refine ⟨hrests, v'', ?_, hR''⟩
      show (events ++ _).foldlM after v = some v''
      rw [List.foldlM_append, show events.foldlM after v = some v' from htold]
      exact htold'

/-- An observer who learns nothing accepts all events. -/
theorem learns_nothing (evs : List Event) : evs.foldlM (fun (_ : Unit) (_ : Event) => some ()) () = some () := by
  induction evs with
  | nil => rfl
  | cons e evs ih => exact ih

/-- An observer who accepts events of one kind only. -/
def only (P : Event → Prop) [DecidablePred P] (_ : Unit) (e : Event) : Option Unit := if P e then some () else none

theorem only_iff {P : Event → Prop} [DecidablePred P] {evs : List Event} :
    evs.foldlM (only P) () = some () ↔ ∀ e ∈ evs, P e := by
  induction evs with
  | nil => exact ⟨fun _ e he => absurd he List.not_mem_nil, fun _ => rfl⟩
  | cons e evs ih =>
    have hcons : (e :: evs).foldlM (only P) () = (only P () e).bind fun v => evs.foldlM (only P) v := rfl
    rw [hcons, List.forall_mem_cons]
    by_cases he : P e
    · have hone : only P () e = some () := if_pos he
      rw [hone]
      exact ⟨fun h => ⟨he, ih.1 h⟩, fun h => ih.2 h.2⟩
    · have hone : only P () e = none := if_neg he
      rw [hone]
      exact ⟨nofun, fun h => absurd h.1 he⟩

theorem observed_processEvents (hparse : InRange parse) (hk : Kept after R parse) {v : σ} (hb : c.Bounded)
    (hm : c.mode = .http11) (hR : R c.compactBuffer v) : Observed after R parse (c.processEvents .release parse) v := by
  obtain ⟨hv, hmode, -, -⟩ := view_compact (c := c)
  have hwork := Decoder.work_le c.view
  rw [view_unread, unread_length] at hwork
  apply observed_rounds hparse hk hb.compact (hmode.trans hm) hR
  rw [hv]
  unfold enough
  omega

end Observers

/-! ## Calls without new bytes -/

theorem Rests.compact (h : c.Rests parse) : c.compactBuffer.Rests parse := by
  obtain ⟨hv, -, hl, -⟩ := view_compact (c := c)
  refine h.imp ?_ ?_
  · intro hw
    rw [show c.compactBuffer.state = c.state from congrArg Decoder.state hv]
    exact hw
  · intro hstep
    rw [hv, hl]
    exact hstep

/-- A call of an engine that rests tells nothing, unless it refuses a chunk
whose end wraps around. -/
theorem processEvents_rests (hparse : InRange parse) (hb : c.Bounded) (hm : c.mode = .http11) (h : c.Rests parse) :
    c.processEvents .release parse = ⟨c.compactBuffer, [], none⟩ ∨
      c.state.Wraps ∧ ((c.processEvents .release parse).fault ≠ none ∨
        (c.processEvents .release parse).events = [.error 400 (errorResponse 400 (bytes "Malformed chunk boundary"))]) := by
  obtain ⟨hv, hmode, -, -⟩ := view_compact (c := c)
  have hstate : c.compactBuffer.state = c.state := congrArg Decoder.state hv
  unfold processEvents
  rw [show c.enough = c.buffer.length + 2 + 1 from rfl]
  by_cases hw : c.state.Wraps
  · rcases round_wraps parse hb.compact (hmode.trans hm) (hstate.symm ▸ hw) with hr | hr | ⟨e, hr⟩
    · refine .inl ?_
      simp only [rounds, hr]
    · refine .inr ⟨hw, .inr ?_⟩
      simp only [rounds, hr, emitError]
    · refine .inr ⟨hw, .inl ?_⟩
      simp only [rounds, hr]
      exact Option.some_ne_none e
  · have hstep := h.compact.resolve_left fun hwc => hw (hstate ▸ hwc)
    have hround := (round_eq hparse hb.compact (hmode.trans hm)
      (sound_of_not_wraps fun hwc => hw (hstate ▸ hwc))).1
    rw [hstep, ofStep_stop hb.compact.fits] at hround
    refine .inl ?_
    simp only [rounds, hround]

/-- An engine that waits for its owner, or is closed, rests. -/
theorem rests_of_idle (hidle : c.state = .closed ∨ c.state = .servingApp) : c.Rests parse :=
  .inr (Decoder.step_of_idle hidle)

end FastHttpConnection

end Multiloop.Http
