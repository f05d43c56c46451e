import Multiloop.Http.Chunks
import Multiloop.Http.Steady

/-!
# Closed connections

`close()` sets the state of the protocol to `CLOSED`, but tells neither the
engine nor the `finally` block of the task that it cancels. The connection
stays closed as long as no cycle ends while the engine is open, and no head of
a request arrives: a run in which this holds creates no task after `close()`.

Here `data_received` and `close` may be called at any time, also after the
transport is closed (`anytime`).
-/

namespace Multiloop.Http

/-! ## The engine -/

/-- The head of a request that is served. -/
def Request.Accepted (req : Request) (maxBodySize : Nat) : Prop :=
  let f := foldHeaders req
  ¬ (f.clConflict ∨ f.isChunked ∧ f.hasCl ∨ f.teCount > 1 ∧ ¬ f.isChunked) ∧
    (f.isUpgrade ∧ f.upgradeProto = bytes "websocket" ∨ f.isChunked ∨ f.contentLength ≤ 0 ∨
      f.contentLength.toNat ≤ maxBodySize)

namespace Decoder

variable {lim : Limits} {parse : Httparse} {d : Decoder}

/-- A decoder that waits for the head of a request has one. -/
def BeginsRequest (lim : Limits) (parse : Httparse) (d : Decoder) : Prop :=
  (d.state = .waitingHeader ∨ d.state = .keepAliveWait) ∧ d.unread ≠ [] ∧ d.unread.length ≤ lim.maxHeaderSize ∧
    ∃ offset req, parse d.unread = .complete offset req ∧ req.Accepted lim.maxBodySize

def NoStart (evs : List Event) : Prop := ∀ e ∈ evs, e.isStart = false

theorem noStart_acceptHead {offset : Nat} {req : Request} (h : ¬ req.Accepted lim.maxBodySize) :
    NoStart (d.acceptHead lim offset req).2.1 := by
  have hfail : ∀ (e : Decoder) status msg, NoStart (e.fail status msg).2.1 := by
    intro e status msg ev hev
    rw [List.mem_singleton.1 hev]
    rfl
  unfold acceptHead
  dsimp only
  split
  · exact hfail _ _ _
  rename_i hconflict
  split
  · rename_i hws
    exact absurd ⟨hconflict, .inl hws⟩ h
  split
  · rename_i hchunked
    exact absurd ⟨hconflict, .inr (.inl hchunked)⟩ h
  split
  · split
    · exact hfail _ _ _
    · rename_i hsmall
      exact absurd ⟨hconflict, .inr (.inr (.inr (Nat.not_lt.1 hsmall)))⟩ h
  · rename_i hnone
    exact absurd ⟨hconflict, .inr (.inr (.inl (Int.not_lt.1 hnone)))⟩ h

theorem noStart_header (hs : d.state = .waitingHeader ∨ d.state = .keepAliveWait) (h : ¬ d.BeginsRequest lim parse) :
    NoStart (d.header lim parse).2.1 := by
  have hnone : NoStart [] := fun e he => absurd he List.not_mem_nil
  have hfail : ∀ status msg, NoStart (d.fail status msg).2.1 := by
    intro status msg e he
    rw [List.mem_singleton.1 he]
    rfl
  unfold header
  split
  · exact hnone
  rename_i hu
  split
  · exact hfail _ _
  rename_i hlen
  split
  · rename_i offset req hparse
    exact noStart_acceptHead fun hreq => h ⟨hs, hu, Nat.not_lt.1 hlen, offset, req, hparse, hreq⟩
  · exact hnone
  · exact hfail _ _

/-- No request starts once one is served. -/
theorem noStart_of_afterAll {ph ph' : Phase} {evs : List Event} (hph : ph ≠ .idle) (h : ph.afterAll evs = some ph') :
    NoStart evs := by
  induction evs generalizing ph with
  | nil => exact fun e he => absurd he List.not_mem_nil
  | cons e evs ih =>
    obtain ⟨ph₁, he, hrest⟩ := Option.bind_eq_some_iff.1 h
    have hnext : ph₁ ≠ .idle ∧ e.isStart = false := by
      cases ph with
      | idle => exact absurd rfl hph
      | gone => cases e <;> cases he
      | serving =>
        cases e with
        | requestStart start => cases he
        | body chunk moreBody =>
          cases he
          exact ⟨nofun, rfl⟩
        | upgrade proto =>
          cases he
          exact ⟨nofun, rfl⟩
        | message opcode fin payload => cases he
        | error status response =>
          cases he
          exact ⟨nofun, rfl⟩
    intro x hx
    rcases List.mem_cons.1 hx with rfl | hx
    · exact hnext.2
    · exact ih hnext.1 hrest x hx

/-- A step that begins no request tells no start. -/
theorem noStart_step (h : ¬ d.BeginsRequest lim parse) : NoStart (d.step lim parse).2.1 := by
  by_cases hs : d.state = .waitingHeader ∨ d.state = .keepAliveWait
  · rw [step_header hs]
    exact noStart_header hs h
  · have hph : d.state.phase ≠ .idle := by
      intro hidle
      cases hstate : d.state with
      | waitingHeader => exact hs (.inl hstate)
      | keepAliveWait => exact hs (.inr hstate)
      | receivingContentLength remaining => rw [hstate] at hidle; cases hidle
      | receivingChunked stage => rw [hstate] at hidle; cases hidle
      | servingApp => rw [hstate] at hidle; cases hidle
      | closed => rw [hstate] at hidle; cases hidle
    exact noStart_of_afterAll hph leads_step

end Decoder

namespace FastHttpConnection

variable {parse : Httparse} {c : FastHttpConnection}

/-- The engine waits for the head of a request, and has one. -/
def BeginsRequest (parse : Httparse) (c : FastHttpConnection) : Prop := c.view.BeginsRequest c.limits parse

theorem kept_begins (hparse : InRange parse) : Kept (only (·.isStart = false)) (fun c _ => ¬ c.BeginsRequest parse) parse := by
  apply kept_of_step hparse
  · rintro c v hw -
    exact ⟨(), rfl, fun h => h.1.elim nofun nofun⟩
  · rintro c ⟨⟩ hb hw h
    refine ⟨(), only_iff.2 (Decoder.noStart_step h), ?_⟩
    have hstep : (c.view.step c.limits parse).1 = c.view ∨ c.view.Goes (c.view.step c.limits parse).1 :=
      Decoder.step_goes
    rcases hstep with heq | hgoes
    · have hsame : c.withView c.view = c := congrArg Prod.fst (ofStep_stop hb.fits)
      rw [heq, hsame]
      exact h
    · exact fun hb => hb.1.elim hgoes.waiting.1 hgoes.waiting.2

theorem BeginsRequest.of_compact (h : c.compactBuffer.BeginsRequest parse) : c.BeginsRequest parse := by
  obtain ⟨hv, -, hl, -⟩ := view_compact (c := c)
  unfold BeginsRequest at h
  rwa [hv, hl] at h

/-- A call of an engine that begins no request tells no start. -/
theorem noStart_processEvents (hparse : InRange parse) (hb : c.Bounded) (hm : c.mode = .http11)
    (h : ¬ c.BeginsRequest parse) (hfault : (c.processEvents .release parse).fault = none) :
    Decoder.NoStart (c.processEvents .release parse).events := by
  have hobs := observed_processEvents hparse (kept_begins hparse) (v := ()) hb hm fun hbegins => h hbegins.of_compact
  obtain ⟨-, ⟨⟩, htold, -⟩ := hobs.told hfault
  exact only_iff.1 htold

/-- An error is the last event of its call. -/
theorem error_last (hparse : InRange parse) (hb : c.Bounded) (hm : c.mode = .http11)
    (hfault : (c.processEvents .release parse).fault = none) {before after : List Event} {status : Nat}
    {response : Bytes} (h : (c.processEvents .release parse).events = before ++ .error status response :: after) :
    after = [] := by
  have hready : c.Ready c.state.phase := ⟨hb, hm, .inl rfl⟩
  have ho := ends_processEvents hparse hready
  obtain ⟨ph', htold, -⟩ := ho.told hfault
  rw [h] at htold
  unfold Phase.afterAll at htold
  rw [List.foldlM_append] at htold
  obtain ⟨ph₁, -, htold⟩ := Option.bind_eq_some_iff.1 htold
  obtain ⟨ph₂, hgone, hrest⟩ := Option.bind_eq_some_iff.1 htold
  have hph : ph₂ = .gone := by
    cases ph₁ <;> cases hgone <;> rfl
  cases after with
  | nil => rfl
  | cons e after =>
    obtain ⟨ph₃, he, -⟩ := Option.bind_eq_some_iff.1 hrest
    rw [hph] at he
    cases e <;> cases he

/-- The engine is closed, or its reset closes it. -/
def Final (c : FastHttpConnection) : Prop :=
  c.state = .closed ∨ c.state = .servingApp ∧ (c.keepAlive = false ∨ c.requestCount ≥ c.maxKeepaliveRequests)

theorem isClosed_reset : c.resetForNextRequest.isClosed = true ↔ c.Final := by
  unfold isClosed resetForNextRequest Final
  rw [decide_eq_true_eq]
  by_cases hs : c.state = .servingApp
  · rw [if_pos hs]
    by_cases hlast : ¬ c.keepAlive = true ∨ c.requestCount ≥ c.maxKeepaliveRequests
    · rw [if_pos hlast]
      exact ⟨fun _ => .inr ⟨hs, hlast.imp_left eq_false_of_ne_true⟩, fun _ => rfl⟩
    · rw [if_neg hlast]
      refine ⟨nofun, fun h => ?_⟩
      rcases h with hclosed | ⟨-, hend⟩
      · rw [hs] at hclosed
        cases hclosed
      · exact absurd (hend.imp_left ne_true_of_eq_false) hlast
  · rw [if_neg hs]
    exact ⟨.inl, fun h => h.resolve_right fun hserving => hs hserving.1⟩

end FastHttpConnection

/-! ## The protocol -/

namespace Http11Protocol

variable {parse : Httparse} {p p' : Http11Protocol}

/-- Nothing happens to a closed protocol that serves another request: no cycle
ends while the engine stays open, and no bytes arrive that complete the head
of a request. -/
def Quiet (parse : Httparse) (p : Http11Protocol) : Callback → Prop
  | .dataReceived data | .step (.dataReceived data) => p.state = .closed → p.upgraded = false →
    ¬ ({ p.conn with buffer := p.conn.buffer ++ data } : FastHttpConnection).BeginsRequest parse
  | .step (.finish i _ _) => p.state = .closed →
    ∀ t, p.tasks[i]? = some t → t.start.isWebsocket = false → p.conn.Final
  | _ => True

/-- The protocol is closed, and `n` tasks have been created. -/
structure ClosedWith (n : Nat) (p : Http11Protocol) : Prop where
  state : p.state = .closed
  tasks : p.tasks.length = n

variable {n : Nat}

theorem ClosedWith.close (h : p.ClosedWith n) : p.close.ClosedWith n := by
  have hsame : p.close = p := if_pos h.state
  rw [hsame]
  exact h

theorem ClosedWith.handleEvents (h : p.ClosedWith n) {evs : List Event} (hevs : Decoder.NoStart evs) :
    (p.handleEvents evs).ClosedWith n := by
  induction evs generalizing p with
  | nil => exact h
  | cons e evs ih =>
    obtain ⟨he, hrest⟩ := List.forall_mem_cons.1 hevs
    refine ih (p := p.handleEvent e) ?_ hrest
    unfold handleEvent
    cases e with
    | requestStart start => cases he
    | body chunk moreBody =>
      dsimp only
      split
      · exact ⟨h.state, h.tasks⟩
      · exact h
    | upgrade proto => exact h
    | message opcode fin payload => exact h
    | error status response =>
      exact ClosedWith.close (p := { p with transport := (p.transport.write response).close }) ⟨h.state, h.tasks⟩

theorem ClosedWith.setTask (h : p.ClosedWith n) (i : Nat) (t : Cycle) : (p.setTask i t).ClosedWith n :=
  ⟨h.state, List.length_set.trans h.tasks⟩

/-- A pump of an engine that has nothing to do. -/
theorem ClosedWith.afterPump (hparse : InRange parse) (h : p.ClosedWith n) (hs : p.Settled parse) :
    (p.afterPump parse).ClosedWith n := by
  unfold Http11Protocol.afterPump pump
  dsimp only
  split
  · rename_i hfault
    change (p.conn.processEvents .release parse).fault = none at hfault
    have hq : ClosedWith n { p with conn := (p.conn.processEvents .release parse).conn } := ⟨h.state, h.tasks⟩
    refine ClosedWith.handleEvents hq (?_ : Decoder.NoStart (p.conn.processEvents .release parse).events)
    rcases FastHttpConnection.processEvents_rests hparse hs.bounded hs.mode hs.rests with hcall | ⟨-, hcall | hcall⟩
    · rw [hcall]
      exact fun e he => absurd he List.not_mem_nil
    · exact absurd hfault hcall
    · rw [hcall]
      intro e he
      rw [List.mem_singleton.1 he]
      rfl
  · exact ⟨h.state, h.tasks⟩

theorem ClosedWith.dataReceived (hparse : InRange parse) (h : p.ClosedWith n) (hs : p.Settled parse) {data : Bytes}
    (hroom : (p.conn.buffer ++ data).length < 2 ^ 63)
    (hok : p.upgraded = false →
      ¬ ({ p.conn with buffer := p.conn.buffer ++ data } : FastHttpConnection).BeginsRequest parse) :
    (p.dataReceived parse data).ClosedWith n := by
  unfold Http11Protocol.dataReceived
  split
  · exact h
  · rename_i hplain
    dsimp only
    split
    · rename_i hfault
      have hq : ClosedWith n { p with conn := (p.conn.feedData .release parse data).conn } := ⟨h.state, h.tasks⟩
      apply hq.handleEvents
      exact FastHttpConnection.noStart_processEvents hparse (hs.bounded.append hroom) hs.mode
        (hok (eq_false_of_ne_true hplain)) hfault
    · exact ⟨h.state, h.tasks⟩

theorem ClosedWith.takes (hparse : InRange parse) (h : p.ClosedWith n) (hs : p.Settled parse) {q : Nat} {r : Received}
    (hr : Takes parse p q r p') : p'.ClosedWith n := by
  cases hr with
  | last chunk queue hqueue => exact ⟨h.state, h.tasks⟩
  | gone chunk queue hqueue hnone => exact ⟨h.state, h.tasks⟩
  | more chunk queue current hqueue hcurrent hmany => exact ⟨h.state, h.tasks⟩
  | pumped chunk queue current hqueue hcurrent hfew =>
    have hresumed : ClosedWith n { p.dequeue q queue with transport := p.transport.resumeReading } := ⟨h.state, h.tasks⟩
    exact hresumed.afterPump hparse (hs.same rfl rfl id)

theorem ClosedWith.receives (hparse : InRange parse) (h : p.ClosedWith n) (hs : p.Settled parse) {i : Nat} {t : Cycle}
    {r : Option Received} (hr : Receives parse p i t r p') : p'.ClosedWith n := by
  cases hr with
  | empty hbody hfirst => exact h.setTask i _
  | disconnect hset => exact h
  | takes q hbody hcurrent htakes => exact h.takes hparse hs htakes
  | waits hnone => exact ⟨h.state, h.tasks⟩
  | gets q hbody hcurrent hempty => exact ⟨h.state, h.tasks⟩

theorem ClosedWith.forget (h : p.ClosedWith n) (k : Nat) : (p.forget k).ClosedWith n := ⟨h.state, h.tasks⟩

theorem ClosedWith.resumes (hparse : InRange parse) (h : p.ClosedWith n) (hs : p.Settled parse) {k : Nat}
    {c : Receiving} {r : Received} (hr : Resumes parse p k c r p') : p'.ClosedWith n := by
  cases hr with
  | disconnect hset => exact h.forget k
  | takes q hget htakes => exact (h.forget k).takes hparse (hs.forget k) htakes

theorem ClosedWith.finish (h : p.ClosedWith n) {i : Nat} {t : Cycle} (date : Bytes) (ending : Ending)
    (hok : t.start.isWebsocket = false → p.conn.Final) : (p.finish parse i t date ending).ClosedWith n := by
  have hset := h.setTask i { t with status := .finished }
  unfold Http11Protocol.finish
  dsimp only
  split
  · split
    · exact hset.close
    · exact hset
  · rename_i hws
    have hclosed := FastHttpConnection.isClosed_reset.2 (hok (eq_false_of_ne_true hws))
    have hafter : ∀ q : Http11Protocol, q.ClosedWith n → q.conn = p.conn → (q.afterCycle parse).ClosedWith n := by
      intro q hq hconn
      unfold afterCycle
      dsimp only
      rw [hconn, if_pos hclosed]
      exact ⟨hq.state, hq.tasks⟩
    apply hafter
    · split
      · exact ⟨hset.state, hset.tasks⟩
      · exact hset
    · split
      · rfl
      · rfl

theorem ClosedWith.callback (hparse : InRange parse) (h : p.ClosedWith n) (hs : p.Settled parse) {a : Callback}
    (hok : p.Quiet parse a) (hst : p.callback parse a = some p') : p'.ClosedWith n := by
  cases a with
  | dataReceived data =>
    dsimp only [Http11Protocol.callback] at hst
    split at hst
    · rename_i hroom
      cases hst
      exact h.dataReceived hparse hs hroom (hok h.state)
    · cases hst
  | close =>
    cases hst
    exact h.close
  | step a =>
    change p.step parse a = some p' at hst
    cases a with
    | dataReceived data =>
      dsimp only [Http11Protocol.step] at hst
      split at hst
      · rename_i hroom
        cases hst
        exact h.dataReceived hparse hs hroom.2.2 (hok h.state)
      · cases hst
    | eofReceived =>
      unfold Http11Protocol.step eofReceived at hst
      dsimp only at hst
      split at hst
      · cases hst
      split at hst
      · cases hst
        exact h
      · cases hst
        exact ⟨h.state, h.tasks⟩
    | connectionLost =>
      cases hst
      exact ClosedWith.close (p := { p with transport := p.transport.close }) ⟨h.state, h.tasks⟩
    | begin i =>
      obtain ⟨t, ht, hst⟩ := Option.bind_eq_some_iff.1 hst
      split at hst
      · cases hst
        unfold Http11Protocol.begin
        split
        · exact h.setTask i _
        · exact ⟨h.state, List.length_set.trans h.tasks⟩
      · cases hst
    | receive i =>
      obtain ⟨t, ht, hst⟩ := Option.bind_eq_some_iff.1 hst
      split at hst
      · cases hst
      · cases hst
        exact h.receives hparse hs (receives_receive parse p i t)
    | resume k =>
      obtain ⟨c, hc, hst⟩ := Option.bind_eq_some_iff.1 hst
      obtain ⟨r, hr, rfl⟩ := Option.map_eq_some_iff.1 hst
      exact h.resumes hparse hs (resumes_of_resume hr)
    | abandon k =>
      dsimp only [Http11Protocol.step] at hst
      split at hst
      · cases hst
        exact h.forget k
      · cases hst
    | send i date message =>
      obtain ⟨t, ht, hst⟩ := Option.bind_eq_some_iff.1 hst
      split at hst
      · cases hst
      · cases hst
        unfold Http11Protocol.send
        split
        · exact h
        · exact ⟨h.state, List.length_set.trans h.tasks⟩
    | finish i date ending =>
      obtain ⟨t, ht, hst⟩ := Option.bind_eq_some_iff.1 hst
      split at hst
      · cases hst
        exact h.finish date ending (hok h.state t ht)
      · cases hst

/-! ## Every run -/

/-- The engine, as the next call of it may find it. -/
def Calls (p : Http11Protocol) (c : FastHttpConnection) : Prop :=
  c = p.conn ∨ c = p.conn.resetForNextRequest ∨
    ∃ data, (p.conn.buffer ++ data).length < 2 ^ 63 ∧ c = { p.conn with buffer := p.conn.buffer ++ data }

theorem Settled.calls (h : p.Settled parse) {c : FastHttpConnection} (hc : p.Calls c) : c.Bounded ∧ c.mode = .http11 := by
  rcases hc with rfl | rfl | ⟨data, hroom, rfl⟩
  · exact ⟨h.bounded, h.mode⟩
  · exact ⟨h.bounded.reset, (mode_reset p.conn).trans h.mode⟩
  · exact ⟨h.bounded.append hroom, h.mode⟩

theorem state_close (p : Http11Protocol) : p.close.state = .closed := by
  unfold Http11Protocol.close
  split
  · rename_i hclosed
    exact hclosed
  · rfl

theorem closedWith_of_reachable (hparse : InRange parse) (hs : p.Settled parse) (h : p.ClosedWith n)
    {q : Http11Protocol} (hq : ((anytime parse).starting p).ReachableWhen (Quiet parse) q) : q.ClosedWith n := by
  have hboth : q.Settled parse ∧ q.ClosedWith n := by
    refine hq.inv (I := fun q => q.Settled parse ∧ q.ClosedWith n) ?_ ?_
    · rintro q rfl
      exact ⟨hs, h⟩
    · rintro q a q' ⟨hq, hc⟩ hok hst
      exact ⟨hq.callback hparse hst, hc.callback hparse hq hok hst⟩
  exact hboth.2

/-- In every run: the error at which `_handle_events` calls `close()` is the
last event, so the protocol is closed after the call. And from a state in
which it is closed, in every run in which no cycle ends before the engine is
closed for good, and no bytes complete the head of a request, it stays closed
and creates no task. -/
theorem closed_stays_closed (hparse : InRange parse) (h : (anytime parse).Reachable p) :
    (∀ c, p.Calls c → (c.processEvents .release parse).fault = none →
      (∃ status response, .error status response ∈ (c.processEvents .release parse).events) →
      ∀ q : Http11Protocol, (q.handleEvents (c.processEvents .release parse).events).state = .closed) ∧
    (p.state = .closed → ∀ q, ((anytime parse).starting p).ReachableWhen (Quiet parse) q →
      q.state = .closed ∧ q.tasks.length = p.tasks.length) := by
  have hs := settled_of_reachable hparse h
  constructor
  · rintro c hc hfault ⟨status, response, herror⟩ q
    obtain ⟨hb, hm⟩ := hs.calls hc
    obtain ⟨before, after, hevents⟩ := List.append_of_mem herror
    obtain rfl := FastHttpConnection.error_last hparse hb hm hfault hevents
    rw [hevents]
    unfold Http11Protocol.handleEvents
    rw [List.foldl_append]
    exact state_close _
  · intro hclosed q hq
    have hc := closedWith_of_reachable hparse hs ⟨hclosed, rfl⟩ hq
    exact ⟨hc.state, hc.tasks⟩

/-- A chunk size that is none closes the protocol while the application runs,
which is cancelled then. -/
theorem closed_stays_closed_cancelled : ∃ p q : Http11Protocol, p.state = .closed ∧ p.live = 1 ∧ q.live = 0 ∧
    q.state = .closed ∧ q.tasks.length = p.tasks.length := by
  obtain ⟨p, hp, hclosed, hlive, hconn, hnext⟩ := System.exists_reachable_of_run (M := anytime parseChunkedHead)
    (s := new) (p := fun p => p.state = .closed ∧ p.live = 1 ∧ p.conn.state = .closed ∧
      (p.callback parseChunkedHead (.step (.finish 0 midnight .escaped))).any (fun q => decide (q.live = 0)) = true)
    [.dataReceived chunkedHead, .step (.begin 0), .dataReceived (bytes "x\r\n")] rfl (by decide +kernel)
  obtain ⟨q, hst, hdone⟩ := (Option.any_eq_true _ _).1 hnext
  have hquiet : p.Quiet parseChunkedHead (.step (.finish 0 midnight .escaped)) := fun _ _ _ _ => .inl hconn
  have hq : ((anytime parseChunkedHead).starting p).ReachableWhen (Quiet parseChunkedHead) q :=
    .step (.init rfl) hquiet hst
  exact ⟨p, q, hclosed, hlive, of_decide_eq_true hdone,
    (closed_stays_closed parseChunkedHead_inRange hp).2 hclosed q hq⟩

/-- A connection is lost while the application runs and a second request is in
the buffer. The `finally` block of the cancelled task opens the protocol again
and creates a task for that request. -/
theorem closed_connection_serves : ∃ p q, (anytime parseChunkedHead).Reachable p ∧ p.state = .closed ∧
    ((anytime parseChunkedHead).starting p).Reachable q ∧ q.state ≠ .closed ∧ p.tasks.length < q.tasks.length := by
  obtain ⟨p, hp, hclosed, hnext⟩ := System.exists_reachable_of_run (M := anytime parseChunkedHead) (s := new)
    (p := fun p => p.state = .closed ∧ (((anytime parseChunkedHead).starting p).run p
      [.step (.finish 0 midnight .escaped)]).any (fun q => decide (q.state ≠ .closed ∧ p.tasks.length < q.tasks.length)) = true)
    [.dataReceived (chunkedHead ++ bytes "0\r\n\r\n" ++ chunkedHead), .step (.begin 0), .step .connectionLost] rfl
    (by decide +kernel)
  obtain ⟨q, hq, hopen, hmore⟩ := System.exists_reachable_of_run (M := (anytime parseChunkedHead).starting p) (s := p)
    _ rfl hnext
  exact ⟨p, q, hp, hclosed, hq, hopen, hmore⟩

end Http11Protocol

end Multiloop.Http
