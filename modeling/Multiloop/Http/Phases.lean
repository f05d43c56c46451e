import Multiloop.Http.Observer

/-!
# The phases of a connection

What the events of the engine tell its owner: a connection is idle until a
request starts, serves it until its owner resets the engine, and is gone after
an error. Every call of the engine appends events that lead from the phase it
finds to the phase it leaves. A chunk whose end wraps around is the exception:
the engine stays before it, until it panics or closes.
-/

namespace Multiloop.Http

inductive Phase
  | idle
  | serving
  | gone
deriving DecidableEq

namespace Phase

/-- The phase after an event, if the event may occur. -/
def after : Phase → Event → Option Phase
  | .idle, .requestStart _ => some .serving
  | .serving, .body _ _ => some .serving
  | .serving, .upgrade _ => some .serving
  | .idle, .error _ _ => some .gone
  | .serving, .error _ _ => some .gone
  | _, _ => none

def afterAll (ph : Phase) (events : List Event) : Option Phase := events.foldlM after ph

end Phase

namespace HttpParserState

def phase : HttpParserState → Phase
  | .waitingHeader | .keepAliveWait => .idle
  | .receivingContentLength _ | .receivingChunked _ | .servingApp => .serving
  | .closed => .gone

/-- The state in which the body of a request has not arrived in full. -/
def inBody : HttpParserState → Bool
  | .receivingContentLength _ | .receivingChunked _ => true
  | _ => false

/-- The phase that an owner has seen. -/
def Tracks (st : HttpParserState) (ph : Phase) : Prop := st.phase = ph ∨ st.Wraps ∧ ph ≠ .gone

theorem servingApp_of_tracks {st : HttpParserState} (h : st.Tracks .serving) (hbody : st.inBody = false) :
    st = .servingApp := by
  rcases h with h | ⟨⟨n, rfl, -⟩, -⟩
  · cases st with
    | servingApp => rfl
    | receivingContentLength remaining => cases hbody
    | receivingChunked stage => cases hbody
    | waitingHeader => cases h
    | keepAliveWait => cases h
    | closed => cases h
  · cases hbody

theorem closed_of_tracks {st : HttpParserState} (h : st.Tracks .gone) : st = .closed := by
  have hphase := h.resolve_right fun hw => hw.2 rfl
  cases st with
  | closed => rfl
  | waitingHeader => cases hphase
  | keepAliveWait => cases hphase
  | receivingContentLength remaining => cases hphase
  | receivingChunked stage => cases hphase
  | servingApp => cases hphase

end HttpParserState

/-! ## Steps of the decoder -/

namespace Decoder

variable {lim : Limits} {parse : Httparse} {d : Decoder}

/-- The events of a step lead from the phase before it to the phase after it. -/
def Leads (ph : Phase) (s : Step) : Prop := ph.afterAll s.2.1 = some s.1.state.phase

theorem leads_stop {ph : Phase} (h : d.state.phase = ph) : Leads ph (d, [], .stop) := congrArg some h.symm

theorem leads_fail {ph : Phase} (h : ph ≠ .gone) (status : Nat) (msg : String) : Leads ph (d.fail status msg) := by
  cases ph with
  | idle => rfl
  | serving => rfl
  | gone => exact absurd rfl h

theorem leads_takeBody (remaining : Nat) : Leads .serving (d.takeBody remaining) := by
  unfold takeBody
  split
  · rfl
  · rfl

theorem leads_beginBody (cl : Nat) (start : RequestStart) : Leads .idle (d.beginBody cl (.requestStart start)) := by
  unfold beginBody
  dsimp only
  split
  · rfl
  · exact leads_takeBody cl

theorem leads_acceptHead (offset : Nat) (req : Request) : Leads .idle (d.acceptHead lim offset req) := by
  unfold acceptHead
  dsimp only
  split
  · exact leads_fail (by decide) _ _
  split
  · rfl
  split
  · rfl
  split
  · split
    · exact leads_fail (by decide) _ _
    · exact leads_beginBody _ _
  · rfl

theorem leads_header (hs : d.state.phase = .idle) : Leads .idle (d.header lim parse) := by
  unfold header
  split
  · exact leads_stop hs
  split
  · exact leads_fail (by decide) _ _
  split
  · exact leads_acceptHead _ _
  · exact leads_stop hs
  · exact leads_fail (by decide) _ _

theorem leads_size (hs : d.state.phase = .serving) : Leads .serving (d.size lim) := by
  unfold size
  split
  · exact leads_stop hs
  split
  · exact leads_fail (by decide) _ _
  split
  · exact leads_fail (by decide) _ _
  · unfold acceptSize
    dsimp only
    split
    · rfl
    split
    · exact leads_fail (by decide) _ _
    · rfl

theorem leads_data (hs : d.state.phase = .serving) (chunkLen : Nat) : Leads .serving (d.data chunkLen) := by
  unfold data
  split
  · exact leads_stop hs
  split
  · exact leads_fail (by decide) _ _
  · rfl

theorem leads_trailers (hs : d.state.phase = .serving) : Leads .serving d.trailers := by
  unfold trailers
  split
  · rfl
  split
  · exact leads_stop hs
  · rfl

theorem leads_contentLength (hs : d.state.phase = .serving) (remaining : Nat) :
    Leads .serving (d.contentLength remaining) := by
  unfold contentLength
  split
  · exact leads_stop hs
  · exact leads_takeBody remaining

theorem leads_step : Leads d.state.phase (d.step lim parse) := by
  unfold step
  cases hs : d.state with
  | closed => exact leads_stop (by rw [hs])
  | servingApp => exact leads_stop (by rw [hs])
  | waitingHeader => exact leads_header (by rw [hs]; rfl)
  | keepAliveWait => exact leads_header (by rw [hs]; rfl)
  | receivingContentLength remaining => exact leads_contentLength (by rw [hs]; rfl) remaining
  | receivingChunked stage =>
    have hserving : d.state.phase = .serving := by rw [hs]; rfl
    cases stage with
    | readingSize => exact leads_size hserving
    | readingData chunkLen => exact leads_data hserving chunkLen
    | readingTrailers => exact leads_trailers hserving

end Decoder

/-! ## Calls of the engine -/

namespace FastHttpConnection

variable {parse : Httparse} {c : FastHttpConnection} {ph : Phase}

/-- What holds of an engine between the calls. -/
structure Ready (c : FastHttpConnection) (ph : Phase) : Prop where
  bounded : c.Bounded
  mode : c.mode = .http11
  tracks : c.state.Tracks ph

/-- Every round tells its owner the phase it leaves. -/
theorem kept_tracks (hparse : InRange parse) : Kept Phase.after (fun c ph => c.state.Tracks ph) parse := by
  apply kept_of_step hparse
  · rintro c ph hw ht
    refine ⟨.gone, ?_, .inl rfl⟩
    have hgone : ph ≠ .gone := by
      rcases ht with hphase | hphase
      · obtain ⟨n, hn, -⟩ := hw
        rw [← hphase, hn]
        show Phase.serving ≠ .gone
        decide
      · exact hphase.2
    cases ph with
    | idle => rfl
    | serving => rfl
    | gone => exact absurd rfl hgone
  · rintro c ph - hw ht
    have hphase : c.view.state.phase = ph := ht.resolve_right fun ht => hw ht.1
    exact ⟨_, hphase ▸ Decoder.leads_step, .inl rfl⟩

/-- How a call ends, for an owner that has seen phase `ph` before it. -/
structure Ends (o : Outcome) (ph : Phase) : Prop where
  bounded : o.conn.Bounded
  mode : o.conn.mode = .http11
  told : o.fault = none → ∃ ph', ph.afterAll o.events = some ph' ∧ o.conn.state.Tracks ph'
  panicked : o.fault ≠ none → o.conn.state.Wraps

theorem ends_processEvents (hparse : InRange parse) (h : c.Ready ph) : Ends (c.processEvents .release parse) ph := by
  have hstate : c.compactBuffer.state = c.state := congrArg Decoder.state view_compact.1
  obtain ⟨hbounded, hmode, htold, hpanicked⟩ := observed_processEvents hparse (kept_tracks hparse) h.bounded h.mode
    (v := ph) (hstate.symm ▸ h.tracks)
  exact ⟨hbounded, hmode, fun hnone => (htold hnone).2, fun hne => (hpanicked hne).1⟩

theorem ends_feedData (hparse : InRange parse) (h : c.Ready ph) {data : Bytes}
    (hroom : (c.buffer ++ data).length < 2 ^ 63) : Ends (c.feedData .release parse data) ph :=
  ends_processEvents hparse ⟨h.bounded.append hroom, h.mode, h.tracks⟩

end FastHttpConnection

end Multiloop.Http
