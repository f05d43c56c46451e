import Multiloop.Http.KeepAlive

/-!
# What holds in every run

A connection in any run, also one in which data is received, or the protocol is
closed, at any time: the engine keeps its bounds, and has nothing to do without
new bytes or a reset; while the protocol serves a request the engine waits for
no head, so that no request is ever queued behind another one.
-/

namespace Multiloop.Http

namespace Http11Protocol

/-- A step of a connection, or a callback that comes at any time. -/
inductive Callback
  | step (a : Action)
  | dataReceived (data : Bytes)
  | close

def callback (parse : Httparse) (p : Http11Protocol) : Callback → Option Http11Protocol
  | .step a => p.step parse a
  | .dataReceived data =>
    -- A `Vec` has at most `isize::MAX` bytes.
    if (p.conn.buffer ++ data).length < 2 ^ 63 then some (p.dataReceived parse data) else none
  | .close => some p.close

end Http11Protocol

/-- The runs of a connection that is called at any time. -/
def anytime (parse : Httparse) : System Http11Protocol Http11Protocol.Callback where
  init p := p = .new
  step := Http11Protocol.callback parse

namespace Http11Protocol

/-- What a call of the engine keeps. -/
structure Steady (p : Http11Protocol) : Prop where
  bounded : p.conn.Bounded
  mode : p.conn.mode = .http11
  pending : p.pendingPipelineEvents = []
  serving : p.state = .servingApp → p.conn.state.phase ≠ .idle

/-- The protocol between its steps. -/
structure Settled (parse : Httparse) (p : Http11Protocol) : Prop extends p.Steady where
  rests : p.conn.Rests parse

variable {parse : Httparse} {p p' : Http11Protocol} {ph ph' : Phase}

/-! ## Events -/

/-- No request is queued, and one is served only in a phase that tells so. -/
structure Unqueued (p : Http11Protocol) (ph : Phase) : Prop where
  pending : p.pendingPipelineEvents = []
  serving : p.state = .servingApp → ph ≠ .idle

theorem Unqueued.close (h : p.Unqueued ph) (ph' : Phase) : p.close.Unqueued ph' := by
  unfold Http11Protocol.close
  split
  · rename_i hclosed
    exact ⟨h.pending, fun hs => by rw [hclosed] at hs; cases hs⟩
  · exact ⟨h.pending, nofun⟩

theorem Unqueued.handleEvent (h : p.Unqueued ph) {e : Event} (he : ph.after e = some ph') :
    (p.handleEvent e).Unqueued ph' := by
  unfold Http11Protocol.handleEvent
  cases e with
  | requestStart start =>
    cases ph with
    | idle =>
      cases he
      have hstate : p.state ≠ .servingApp := fun hs => h.serving hs rfl
      dsimp only
      split
      · exact ⟨h.pending, fun _ => by decide⟩
      exact ⟨h.pending, fun _ => by decide⟩
    | serving => cases he
    | gone => cases he
  | body chunk moreBody =>
    cases ph with
    | serving =>
      cases he
      dsimp only
      split
      · exact ⟨h.pending, h.serving⟩
      · exact h
    | idle => cases he
    | gone => cases he
  | upgrade proto =>
    cases ph with
    | serving =>
      cases he
      exact h
    | idle => cases he
    | gone => cases he
  | message opcode fin payload =>
    cases ph with
    | idle => cases he
    | serving => cases he
    | gone => cases he
  | error status response =>
    exact Unqueued.close (p := { p with transport := (p.transport.write response).close }) ⟨h.pending, h.serving⟩ _

theorem Unqueued.handleEvents (h : p.Unqueued ph) {evs : List Event} (hevs : ph.afterAll evs = some ph') :
    (p.handleEvents evs).Unqueued ph' := by
  induction evs generalizing p ph with
  | nil =>
    cases hevs
    exact h
  | cons e evs ih =>
    obtain ⟨ph₁, he, hrest⟩ := Option.bind_eq_some_iff.1 hevs
    exact ih (h.handleEvent he) hrest

/-! ## Calls of the engine -/

/-- The engine is in a phase that its owner is told of. -/
theorem Steady.ready (h : p.Steady) : p.conn.Ready p.conn.state.phase := ⟨h.bounded, h.mode, .inl rfl⟩

/-- A chunk whose end wraps around is part of a request. -/
theorem phase_of_wraps {st : HttpParserState} (h : st.Wraps) : st.phase = .serving := by
  obtain ⟨n, rfl, -⟩ := h
  rfl

theorem rests_of_call (hparse : InRange parse) (h : p.Steady) :
    (p.conn.processEvents .release parse).conn.Rests parse := by
  have hcompact : p.conn.compactBuffer.state.Tracks p.conn.state.phase :=
    .inl (congrArg (fun d => d.state.phase) FastHttpConnection.view_compact.1)
  have hobs := FastHttpConnection.observed_processEvents hparse (FastHttpConnection.kept_tracks hparse) h.bounded h.mode
    hcompact
  by_cases hfault : (p.conn.processEvents .release parse).fault = none
  · exact (hobs.told hfault).1
  · exact .inl (hobs.panicked hfault).1

/-- What is done about the events of a call that returns. -/
theorem Steady.call (hparse : InRange parse) (h : p.Steady) (hfault : (p.conn.processEvents .release parse).fault = none) :
    ({ p with conn := (p.conn.processEvents .release parse).conn }.handleEvents
      (p.conn.processEvents .release parse).events).Settled parse := by
  have ho := FastHttpConnection.ends_processEvents hparse h.ready
  obtain ⟨ph', htold, htracks⟩ := ho.told hfault
  have hconn := conn_handleEvents (p := { p with conn := (p.conn.processEvents .release parse).conn })
    (p.conn.processEvents .release parse).events
  have hq : Unqueued { p with conn := (p.conn.processEvents .release parse).conn } p.conn.state.phase :=
    ⟨h.pending, h.serving⟩
  have hq' := hq.handleEvents htold
  refine ⟨⟨?_, ?_, hq'.pending, fun hs hidle => ?_⟩, ?_⟩
  · rw [hconn]
    exact ho.bounded
  · rw [hconn]
    exact ho.mode
  · rw [hconn] at hidle
    rcases htracks with hphase | ⟨hw, -⟩
    · exact hq'.serving hs (hphase ▸ hidle)
    · rw [phase_of_wraps hw] at hidle
      cases hidle
  · rw [hconn]
    exact rests_of_call hparse h

/-- A call that panics leaves all but the engine as it is. -/
theorem Steady.panic (hparse : InRange parse) (h : p.Steady) (hfault : (p.conn.processEvents .release parse).fault ≠ none) :
    Settled parse { p with conn := (p.conn.processEvents .release parse).conn } := by
  have ho := FastHttpConnection.ends_processEvents hparse h.ready
  refine ⟨⟨ho.bounded, ho.mode, h.pending, fun _ hidle => ?_⟩, rests_of_call hparse h⟩
  rw [phase_of_wraps (ho.panicked hfault)] at hidle
  cases hidle

theorem Steady.afterPump (hparse : InRange parse) (h : p.Steady) : (p.afterPump parse).Settled parse := by
  unfold Http11Protocol.afterPump pump
  dsimp only
  split
  · rename_i hfault
    exact h.call hparse hfault
  · rename_i hfault
    exact h.panic hparse hfault

/-! ## Steps -/

/-- The engine and what is queued before it stay as they are. -/
theorem Settled.same (h : p.Settled parse) (hconn : p'.conn = p.conn)
    (hpending : p'.pendingPipelineEvents = p.pendingPipelineEvents)
    (hstate : p'.state = .servingApp → p.state = .servingApp) : p'.Settled parse where
  bounded := hconn ▸ h.bounded
  mode := hconn ▸ h.mode
  pending := hpending.trans h.pending
  serving hs := hconn ▸ h.serving (hstate hs)
  rests := hconn ▸ h.rests

theorem Settled.close (h : p.Settled parse) : p.close.Settled parse := by
  apply h.same conn_close
  · unfold Http11Protocol.close
    split
    · rfl
    · rfl
  · unfold Http11Protocol.close
    split
    · exact id
    · exact nofun

theorem Settled.dataReceived (hparse : InRange parse) (h : p.Settled parse) {data : Bytes}
    (hroom : (p.conn.buffer ++ data).length < 2 ^ 63) : (p.dataReceived parse data).Settled parse := by
  have hfed : Steady { p with conn := { p.conn with buffer := p.conn.buffer ++ data } } :=
    ⟨h.bounded.append hroom, h.mode, h.pending, h.serving⟩
  unfold Http11Protocol.dataReceived
  split
  · exact h
  · dsimp only
    split
    · rename_i hfault
      exact hfed.call hparse hfault
    · rename_i hfault
      exact (hfed.panic hparse hfault).same rfl rfl id

theorem Settled.takes (hparse : InRange parse) (h : p.Settled parse) {q : Nat} {r : Received}
    (hr : Takes parse p q r p') : p'.Settled parse := by
  cases hr with
  | last chunk queue hqueue => exact h.same rfl rfl id
  | gone chunk queue hqueue hnone => exact h.same rfl rfl id
  | more chunk queue current hqueue hcurrent hmany => exact h.same rfl rfl id
  | pumped chunk queue current hqueue hcurrent hfew =>
    have hresumed : Steady { p.dequeue q queue with transport := p.transport.resumeReading } :=
      ⟨h.bounded, h.mode, h.pending, h.serving⟩
    exact hresumed.afterPump hparse

theorem Settled.receives (hparse : InRange parse) (h : p.Settled parse) {i : Nat} {t : Cycle} {r : Option Received}
    (hr : Receives parse p i t r p') : p'.Settled parse := by
  cases hr with
  | empty hbody hfirst => exact h.same rfl rfl id
  | disconnect hset => exact h
  | takes q hbody hcurrent htakes => exact h.takes hparse htakes
  | waits hnone => exact h.same rfl rfl id
  | gets q hbody hcurrent hempty => exact h.same rfl rfl id

theorem Settled.forget (h : p.Settled parse) (k : Nat) : (p.forget k).Settled parse := h.same rfl rfl id

theorem Settled.resumes (hparse : InRange parse) (h : p.Settled parse) {k : Nat} {c : Receiving} {r : Received}
    (hr : Resumes parse p k c r p') : p'.Settled parse := by
  cases hr with
  | disconnect hset => exact h.forget k
  | takes q hget htakes => exact (h.forget k).takes hparse htakes

theorem mode_reset (c : FastHttpConnection) : c.resetForNextRequest.mode = c.mode := by
  unfold FastHttpConnection.resetForNextRequest
  split
  · split
    · rfl
    · rfl
  · rfl

theorem Settled.afterCycle (hparse : InRange parse) (h : p.Settled parse) : (p.afterCycle parse).Settled parse := by
  have hmode : p.conn.resetForNextRequest.mode = .http11 := (mode_reset p.conn).trans h.mode
  unfold Http11Protocol.afterCycle
  dsimp only
  split
  · rename_i hclosed
    have hgone : p.conn.resetForNextRequest.state = .closed := of_decide_eq_true hclosed
    refine ⟨⟨h.bounded.reset, hmode, h.pending, fun _ hidle => ?_⟩, FastHttpConnection.rests_of_idle (.inl hgone)⟩
    change p.conn.resetForNextRequest.state.phase = .idle at hidle
    rw [hgone] at hidle
    cases hidle
  · rw [show p.disconnect.pendingPipelineEvents = [] from h.pending]
    exact Steady.afterPump hparse ⟨h.bounded.reset, hmode, rfl, nofun⟩

theorem Settled.finish (hparse : InRange parse) (h : p.Settled parse) (i : Nat) (t : Cycle) (date : Bytes)
    (ending : Ending) : (p.finish parse i t date ending).Settled parse := by
  have hset : (p.setTask i { t with status := .finished }).Settled parse := h.same rfl rfl id
  unfold Http11Protocol.finish
  dsimp only
  split
  · split
    · exact hset.close
    · exact hset
  · apply Settled.afterCycle hparse
    split
    · exact hset.same rfl rfl id
    · exact hset

theorem Settled.step (hparse : InRange parse) (h : p.Settled parse) {a : Action} (hst : p.step parse a = some p') :
    p'.Settled parse := by
  cases a with
  | dataReceived data =>
    unfold Http11Protocol.step at hst
    dsimp only at hst
    split at hst
    · rename_i hroom
      cases hst
      exact h.dataReceived hparse hroom.2.2
    · cases hst
  | eofReceived =>
    unfold Http11Protocol.step eofReceived at hst
    dsimp only at hst
    split at hst
    · cases hst
    split at hst
    · cases hst
      exact h
    · cases hst
      exact h.same rfl rfl id
  | connectionLost =>
    cases hst
    exact Settled.close (p := { p with transport := p.transport.close }) (h.same rfl rfl id)
  | begin i =>
    obtain ⟨t, ht, hst⟩ := Option.bind_eq_some_iff.1 hst
    split at hst
    · cases hst
      unfold Http11Protocol.begin
      split
      · exact h.same rfl rfl id
      · exact h.same rfl rfl id
    · cases hst
  | receive i =>
    obtain ⟨t, ht, hst⟩ := Option.bind_eq_some_iff.1 hst
    split at hst
    · cases hst
    · cases hst
      exact h.receives hparse (receives_receive parse p i t)
  | resume k =>
    obtain ⟨c, hc, hst⟩ := Option.bind_eq_some_iff.1 hst
    obtain ⟨r, hr, rfl⟩ := Option.map_eq_some_iff.1 hst
    exact h.resumes hparse (resumes_of_resume hr)
  | abandon k =>
    dsimp only [Http11Protocol.step] at hst
    split at hst
    · cases hst
      exact h.forget k
    · cases hst
  | send i date message =>
    obtain ⟨t, ht, hst⟩ := Option.bind_eq_some_iff.1 hst
    split at hst
    · cases hst
    · cases hst
      unfold Http11Protocol.send
      split
      · exact h
      · exact h.same rfl rfl id
  | finish i date ending =>
    obtain ⟨t, ht, hst⟩ := Option.bind_eq_some_iff.1 hst
    split at hst
    · cases hst
      exact h.finish hparse i t date ending
    · cases hst

theorem settled_new : new.Settled parse := by
  refine ⟨⟨FastHttpConnection.bounded_new _ _ _ (by decide), rfl, rfl, nofun⟩, .inr rfl⟩

theorem Settled.callback (hparse : InRange parse) (h : p.Settled parse) {a : Callback}
    (hst : p.callback parse a = some p') : p'.Settled parse := by
  cases a with
  | step a => exact h.step hparse hst
  | dataReceived data =>
    dsimp only [Http11Protocol.callback] at hst
    split at hst
    · rename_i hroom
      cases hst
      exact h.dataReceived hparse hroom
    · cases hst
  | close =>
    cases hst
    exact h.close

theorem settled_of_reachable (hparse : InRange parse) (h : (anytime parse).Reachable p) : p.Settled parse := by
  apply h.inv
  · rintro p rfl
    exact settled_new
  · exact fun p a p' hp hst => hp.callback hparse hst

end Http11Protocol

end Multiloop.Http
