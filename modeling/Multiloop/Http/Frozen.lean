import Multiloop.Http.Cycles
import Multiloop.Http.Serving

/-!
# What no step takes back

The requests that were begun stay the requests of the tasks of a connection, and
an engine that is closed begins no other one. A transport that is closing
stays so, and once it has sent what was written, nothing more is written to it.
Until then nothing is written by a step in which the application does not send
and the engine does not refuse what it reads.
-/

namespace Multiloop.Http

/-- The engine refuses what it was given. -/
def FastHttpConnection.Refuses (parse : Httparse) (c : FastHttpConnection) : Prop :=
  (c.processEvents .release parse).fault = none ∧
    ∃ status response, .error status response ∈ (c.processEvents .release parse).events

/-- `send` of the start of a response writes nothing. -/
theorem Response.send_start {method date : Bytes} {r r' : Response} {status : Nat} {headers : List Header}
    (hsend : r.send method date (.start status headers) = .ok r') :
    r.respStatus = .initial ∧ r' = { r with respStatus := .headersSent status headers } := by
  unfold Response.send at hsend
  dsimp only at hsend
  split at hsend
  · rename_i hr
    cases hsend
    exact ⟨hr, rfl⟩
  · cases hsend

/-- `send` writes to a response that has begun and is not complete. -/
theorem Response.wire_send {method date : Bytes} {r r' : Response} {message : Message}
    (hidle : ∀ body moreBody, message = .body body moreBody → r.respStatus = .initial ∨ r.respStatus = .complete)
    (hsend : r.send method date message = .ok r') : r'.wire = r.wire := by
  cases message with
  | start status headers =>
    obtain ⟨-, rfl⟩ := Response.send_start hsend
    rfl
  | body body moreBody =>
    unfold Response.send at hsend
    dsimp only at hsend
    rcases hidle body moreBody rfl with hr | hr
    · rw [hr] at hsend
      cases hsend
    · rw [hr] at hsend
      cases hsend
  | other msgType => cases hsend

namespace Http11Protocol

variable {parse : Httparse} {p p' p'' : Http11Protocol}

theorem wire_pauseReading (t : Transport) : t.pauseReading.wire = t.wire := by
  unfold Transport.pauseReading
  split
  · rfl
  · rfl

theorem wire_resumeReading (t : Transport) : t.resumeReading.wire = t.wire := by
  unfold Transport.resumeReading
  split
  · rfl
  · rfl

theorem write_sent {t : Transport} (hc : t.closing = true) (hf : t.flushing = false) (bs : Bytes) : t.write bs = t :=
  if_pos ⟨hc, by rw [hf]; exact Bool.false_ne_true⟩

theorem write_nil (t : Transport) : (t.write []).wire = t.wire := by
  unfold Transport.write
  split
  · rfl
  · exact List.append_nil _

theorem wire_write {t : Transport} (h : t.closing = false) (bs : Bytes) : (t.write bs).wire = t.wire ++ bs := by
  unfold Transport.write
  rw [h, if_neg fun h => Bool.false_ne_true h.1]

theorem flushing_write (t : Transport) (bs : Bytes) : (t.write bs).flushing = t.flushing := by
  unfold Transport.write
  split
  · rfl
  · rfl

theorem flushing_pauseReading (t : Transport) : t.pauseReading.flushing = t.flushing := by
  unfold Transport.pauseReading
  split
  · rfl
  · rfl

theorem flushing_resumeReading (t : Transport) : t.resumeReading.flushing = t.flushing := by
  unfold Transport.resumeReading
  split
  · rfl
  · rfl

theorem flushing_close : p.close.transport.flushing = p.transport.flushing := by
  unfold Http11Protocol.close
  split
  · rfl
  · rfl

theorem wire_close : p.close.transport.wire = p.transport.wire := by
  unfold Http11Protocol.close
  split
  · rfl
  · rfl

/-! ## What every step keeps -/

/-- What every step keeps: the requests that were begun, a transport that is
closing, also one that has sent everything, and an engine that is closed. -/
structure Extends (p p' : Http11Protocol) : Prop where
  closing : p.transport.closing = true → p'.transport.closing = true
  sent : p.transport.closing = true → p.transport.flushing = false → p'.transport.flushing = false
  starts : ∀ (i : Nat) (t : Cycle), p.tasks[i]? = some t → ∃ t', p'.tasks[i]? = some t' ∧ t'.start = t.start
  gone : p.conn.state = .closed → p'.conn.state = .closed ∧ p'.tasks.length = p.tasks.length

theorem Extends.trans (h : p.Extends p') (h' : p'.Extends p'') : p.Extends p'' where
  closing hc := h'.closing (h.closing hc)
  sent hc hf := h'.sent (h.closing hc) (h.sent hc hf)
  starts i t ht := by
    obtain ⟨t', ht', hs⟩ := h.starts i t ht
    obtain ⟨t'', ht'', hs'⟩ := h'.starts i t' ht'
    exact ⟨t'', ht'', hs'.trans hs⟩
  gone hg := by
    obtain ⟨hg', hlen⟩ := h.gone hg
    obtain ⟨hg'', hlen'⟩ := h'.gone hg'
    exact ⟨hg'', hlen'.trans hlen⟩

theorem Keeps.extends (h : p.Keeps p') (hflushing : p'.transport.flushing = p.transport.flushing)
    (hgone : p.conn.state = .closed → p'.conn.state = .closed ∧ p'.tasks.length = p.tasks.length) : p.Extends p' where
  closing := h.closing
  sent _ hf := hflushing.trans hf
  starts i t ht := by
    obtain ⟨t', ht', hstart, -⟩ := h.task i t ht
    exact ⟨t', ht', hstart⟩
  gone := hgone

/-- The tasks stay as they are. -/
theorem Extends.of_tasks (hclosing : p.transport.closing = true → p'.transport.closing = true)
    (hflushing : p'.transport.flushing = p.transport.flushing) (hconn : p.conn.state = .closed → p'.conn.state = .closed)
    (htasks : p'.tasks = p.tasks) : p.Extends p' where
  closing := hclosing
  sent _ hf := hflushing.trans hf
  starts _ t ht := ⟨t, htasks ▸ ht, rfl⟩
  gone hg := ⟨hconn hg, congrArg List.length htasks⟩

theorem Extends.refl (p : Http11Protocol) : p.Extends p := .of_tasks id rfl id rfl

theorem extends_setTask {i : Nat} {t : Cycle} (ht : p.tasks[i]? = some t) (t' : Cycle) (hstart : t'.start = t.start) :
    p.Extends (p.setTask i t') where
  closing := id
  sent _ hf := hf
  starts j u hu := by
    show ∃ u', (p.tasks.set i t')[j]? = some u' ∧ _
    by_cases hj : i = j
    · subst hj
      rw [ht] at hu
      cases hu
      exact ⟨t', List.getElem?_set_self (List.getElem?_eq_some_iff.1 ht).1, hstart⟩
    · exact ⟨u, (List.getElem?_set_ne hj).trans hu, rfl⟩
  gone hg := ⟨hg, List.length_set⟩

theorem length_close : p.close.tasks.length = p.tasks.length := by
  unfold Http11Protocol.close
  split
  · rfl
  · dsimp only
    split
    · exact List.length_modify _ _ _
    · rfl

theorem extends_close (p : Http11Protocol) : p.Extends p.close :=
  (keeps_close p).extends flushing_close fun hg => ⟨conn_close (p := p) ▸ hg, length_close⟩

theorem flushing_handleEvent (p : Http11Protocol) (e : Event) :
    (p.handleEvent e).transport.flushing = p.transport.flushing := by
  unfold Http11Protocol.handleEvent
  cases e with
  | requestStart start =>
    dsimp only
    split
    · rfl
    split
    · rfl
    · rfl
  | body chunk moreBody =>
    dsimp only
    split
    · dsimp only
      split
      · exact flushing_pauseReading p.transport
      · rfl
    · rfl
  | upgrade proto => rfl
  | message opcode fin payload => rfl
  | error status response => exact flushing_close.trans (flushing_write p.transport response)

theorem flushing_handleEvents (p : Http11Protocol) (evs : List Event) :
    (p.handleEvents evs).transport.flushing = p.transport.flushing := by
  induction evs generalizing p with
  | nil => rfl
  | cons e evs ih => exact (ih (p.handleEvent e)).trans (flushing_handleEvent p e)

/-- A call of an engine that is closed tells nothing. -/
theorem Steady.call_closed (hparse : InRange parse) (h : p.Steady) (hg : p.conn.state = .closed) :
    p.conn.processEvents .release parse = ⟨p.conn.compactBuffer, [], none⟩ := by
  rcases FastHttpConnection.processEvents_rests hparse h.bounded h.mode (FastHttpConnection.rests_of_idle (.inl hg))
    with hcall | ⟨⟨n, hn, -⟩, -⟩
  · exact hcall
  · rw [hg] at hn
    cases hn

theorem state_compact (c : FastHttpConnection) : c.compactBuffer.state = c.state :=
  congrArg Decoder.state FastHttpConnection.view_compact.1

theorem Steady.extends_call (hparse : InRange parse) (h : p.Steady) :
    p.Extends ({ p with conn := (p.conn.processEvents .release parse).conn }.handleEvents
      (p.conn.processEvents .release parse).events) := by
  have hconn : p.Keeps { p with conn := (p.conn.processEvents .release parse).conn } := .of_tasks id id rfl
  refine (hconn.trans (keeps_handleEvents _ _)).extends (flushing_handleEvents _ _) fun hg => ?_
  rw [h.call_closed hparse hg]
  exact ⟨(state_compact p.conn).trans hg, rfl⟩

/-- What an engine is left as by a call that panics. -/
theorem Steady.extends_panic (hparse : InRange parse) (h : p.Steady)
    (hfault : (p.conn.processEvents .release parse).fault ≠ none) :
    p.Extends { p with conn := (p.conn.processEvents .release parse).conn } := by
  have hconn : p.Keeps { p with conn := (p.conn.processEvents .release parse).conn } := .of_tasks id id rfl
  refine hconn.extends rfl fun hg => ?_
  rw [h.call_closed hparse hg] at hfault
  exact absurd rfl hfault

theorem Steady.extends_pumped (hparse : InRange parse) (h : p.Steady) (hp : Pumped parse p p') : p.Extends p' := by
  cases hp with
  | told hfault => exact h.extends_call hparse
  | panicked hfault => exact h.extends_panic hparse hfault

theorem Settled.extends_takes (hparse : InRange parse) (h : p.Settled parse) {q : Nat} {r : Received}
    (hr : Takes parse p q r p') : p.Extends p' := by
  cases hr with
  | last chunk queue hqueue => exact .of_tasks id rfl id rfl
  | gone chunk queue hqueue hnone => exact .of_tasks id rfl id rfl
  | more chunk queue current hqueue hcurrent hmany => exact .of_tasks id rfl id rfl
  | pumped chunk queue current hqueue hcurrent hfew =>
    have hresumed : p.Extends { p.dequeue q queue with transport := p.transport.resumeReading } :=
      .of_tasks (fun hc => p.transport.closing_resumeReading.trans hc) (flushing_resumeReading p.transport) id rfl
    have hsteady : Steady { p.dequeue q queue with transport := p.transport.resumeReading } :=
      ⟨h.bounded, h.mode, h.pending, h.serving⟩
    exact hresumed.trans (hsteady.extends_pumped hparse (pumped_afterPump parse _))

theorem Settled.extends_receives (hparse : InRange parse) (h : p.Settled parse) {i : Nat} {t : Cycle}
    (ht : p.tasks[i]? = some t) {r : Option Received} (hr : Receives parse p i t r p') : p.Extends p' := by
  cases hr with
  | empty hbody hfirst => exact extends_setTask ht _ rfl
  | disconnect hset => exact .refl p
  | takes q hbody hcurrent htakes => exact h.extends_takes hparse htakes
  | waits hnone => exact .of_tasks id rfl id rfl
  | gets q hbody hcurrent hempty => exact .of_tasks id rfl id rfl

theorem extends_forget (p : Http11Protocol) (k : Nat) : p.Extends (p.forget k) :=
  .of_tasks id rfl id rfl

theorem Settled.extends_resumes (hparse : InRange parse) (h : p.Settled parse) {k : Nat} {c : Receiving} {r : Received}
    (hr : Resumes parse p k c r p') : p.Extends p' := by
  cases hr with
  | disconnect hset => exact extends_forget p k
  | takes q hget htakes => exact (extends_forget p k).trans ((h.forget k).extends_takes hparse htakes)

theorem Settled.extends_fed (hparse : InRange parse) (h : p.Settled parse) {data : Bytes}
    (hroom : (p.conn.buffer ++ data).length < 2 ^ 63) (hfed : Fed parse p data p') : p.Extends p' := by
  have hready : Steady { p with conn := { p.conn with buffer := p.conn.buffer ++ data } } :=
    ⟨h.bounded.append hroom, h.mode, h.pending, h.serving⟩
  have hread : p.Extends { p with conn := { p.conn with buffer := p.conn.buffer ++ data } } :=
    .of_tasks id rfl id rfl
  cases hfed with
  | upgraded hup => exact .refl p
  | told hplain hfault => exact hread.trans (hready.extends_call hparse)
  | panicked hplain hfault =>
    exact (hread.trans (hready.extends_panic hparse hfault)).trans (.of_tasks (fun _ => rfl) rfl id rfl)

theorem closed_reset {c : FastHttpConnection} (h : c.state = .closed) : c.resetForNextRequest.state = .closed := by
  have hother : ¬ c.state = .servingApp := fun hs => by rw [h] at hs; cases hs
  unfold FastHttpConnection.resetForNextRequest
  rw [if_neg hother]
  exact h

theorem Settled.extends_afterCycle (hparse : InRange parse) (h : p.Settled parse) : p.Extends (p.afterCycle parse) := by
  rw [afterCycle_eq h.pending]
  have hreset : p.Extends p.reset := by
    unfold Http11Protocol.reset
    dsimp only
    split
    · exact .of_tasks (fun _ => rfl) rfl closed_reset rfl
    · exact .of_tasks id rfl closed_reset rfl
  split
  · exact hreset
  · rename_i hopen
    have hsteady : p.reset.Steady := by
      have heq : p.reset = { p.disconnect with
          conn := p.conn.resetForNextRequest
          state := .keepAliveWait } := if_neg hopen
      rw [heq]
      exact ⟨h.bounded.reset, (mode_reset p.conn).trans h.mode, h.pending, nofun⟩
    exact hreset.trans (hsteady.extends_pumped hparse (pumped_afterPump parse _))

theorem Settled.extends_finishes (hparse : InRange parse) (h : p.Settled parse) {i : Nat} {t : Cycle}
    (ht : p.tasks[i]? = some t) {date : Bytes} {ending : Ending} (hends : Finishes parse p i t date ending p') :
    p.Extends p' := by
  have hset : p.Extends (p.setTask i { t with status := .finished }) := extends_setTask ht _ rfl
  have hsettled : (p.setTask i { t with status := .finished }).Settled parse := h.same rfl rfl id
  cases hends with
  | websocket hws =>
    split
    · exact hset.trans (extends_close _)
    · exact hset
  | http hhttp hleft =>
    cases hleft with
    | raised hunsent hopen =>
      have hanswered : Extends (p.setTask i { t with status := .finished })
          { p.setTask i { t with status := .finished } with
            transport := (p.transport.write (errResp date)).close } :=
        .of_tasks (fun _ => rfl) (flushing_write p.transport _) id rfl
      have hkept : Settled parse { p.setTask i { t with status := .finished } with
          transport := (p.transport.write (errResp date)).close } := hsettled.same rfl rfl id
      exact (hset.trans hanswered).trans (hkept.extends_afterCycle hparse)
    | other hother => exact hset.trans (hsettled.extends_afterCycle hparse)

theorem extends_send {i : Nat} {t : Cycle} (ht : p.tasks[i]? = some t) (date : Bytes) (message : Message) :
    p.Extends (p.send i t date message) where
  closing := closing_send date message
  sent _ hf := by
    unfold Http11Protocol.send
    split
    · exact hf
    · dsimp only
      split
      · exact (flushing_write p.transport _).trans hf
      · exact (flushing_write p.transport _).trans hf
  starts j u hu := by
    obtain ⟨⟨t', ht', hstart, -⟩, hother, -⟩ := tasks_send ht date message
    by_cases hj : j = i
    · subst hj
      rw [ht] at hu
      cases hu
      exact ⟨t', ht', hstart⟩
    · exact ⟨u, (hother j hj).trans hu, rfl⟩
  gone hg := by
    refine ⟨?_, (tasks_send ht date message).2.2⟩
    unfold Http11Protocol.send
    split
    · exact hg
    · exact hg

theorem Settled.extends_step (hparse : InRange parse) (h : p.Settled parse) {a : Action} (hst : Stepped parse p a p') :
    p.Extends p' := by
  have hclosed : p.Extends { p with transport := p.transport.close } :=
    .of_tasks (fun _ => rfl) rfl id rfl
  cases hst with
  | dataReceived data hopen hread hroom hfed => exact h.extends_fed hparse hroom hfed
  | eofReceived hopen =>
    unfold Http11Protocol.eofReceived
    split
    · exact .refl p
    · exact hclosed
  | connectionLost => exact hclosed.trans (extends_close _)
  | begin i t ht hstatus =>
    unfold Http11Protocol.begin
    split
    · exact extends_setTask ht _ rfl
    · exact (extends_setTask (p := p) ht { t with status := .running } rfl).trans (.of_tasks id rfl id rfl)
  | receive i t ht hstatus hhttp hr => exact h.extends_receives hparse ht hr
  | resume k c hc hr => exact h.extends_resumes hparse hr
  | abandon k hk => exact extends_forget p k
  | send i t date message ht hstatus hhttp => exact extends_send ht date message
  | finish i t date ending ht hstatus hends => exact h.extends_finishes hparse ht hends

theorem Settled.extends_callback (hparse : InRange parse) (h : p.Settled parse) {a : Callback}
    (hst : p.callback parse a = some p') : p.Extends p' := by
  cases a with
  | step a => exact h.extends_step hparse (stepped_of_step hst)
  | dataReceived data =>
    dsimp only [Http11Protocol.callback] at hst
    split at hst
    · rename_i hroom
      cases hst
      exact h.extends_fed hparse hroom (fed_dataReceived parse p data)
    · cases hst
  | close =>
    cases hst
    exact extends_close p

/-! ## What is written to a transport that is closing -/

/-- In this step the application sends no part of a body to a response that it
has begun and not completed, and the engine refuses nothing. -/
def Silent (parse : Httparse) (p : Http11Protocol) : Callback → Prop
  | .dataReceived data | .step (.dataReceived data) => p.upgraded = false →
    ¬ FastHttpConnection.Refuses parse { p.conn with buffer := p.conn.buffer ++ data }
  | .step (.receive _) | .step (.resume _) => ¬ p.conn.Refuses parse
  | .step (.send i _ (.body _ _)) => ∀ t, p.tasks[i]? = some t →
    t.response.respStatus = .initial ∨ t.response.respStatus = .complete
  | .step (.finish i _ _) => ∀ t, p.tasks[i]? = some t → t.start.isWebsocket = false →
    ¬ p.conn.resetForNextRequest.Refuses parse
  | _ => True

theorem wire_handleEvent (hc : p.transport.closing = true) (e : Event)
    (he : p.transport.flushing = true → ∀ status response, e ≠ .error status response) :
    (p.handleEvent e).transport.wire = p.transport.wire := by
  unfold Http11Protocol.handleEvent
  cases e with
  | requestStart start =>
    dsimp only
    split
    · rfl
    split
    · rfl
    · rfl
  | body chunk moreBody =>
    dsimp only
    split
    · dsimp only
      split
      · exact wire_pauseReading p.transport
      · rfl
    · rfl
  | upgrade proto => rfl
  | message opcode fin payload => rfl
  | error status response =>
    refine wire_close.trans ?_
    show (p.transport.write response).wire = p.transport.wire
    cases hf : p.transport.flushing with
    | false => rw [write_sent hc hf]
    | true => exact absurd rfl (he hf status response)

theorem wire_handleEvents (hc : p.transport.closing = true) (evs : List Event)
    (hevs : p.transport.flushing = true → ∀ status response, .error status response ∉ evs) :
    (p.handleEvents evs).transport.wire = p.transport.wire := by
  induction evs generalizing p with
  | nil => rfl
  | cons e evs ih =>
    have he := wire_handleEvent hc e fun hf status response heq => hevs hf status response (heq ▸ .head _)
    refine (ih ((keeps_handleEvent p e).closing hc) fun hf status response hmem => ?_).trans he
    exact hevs ((flushing_handleEvent p e).symm.trans hf) status response (.tail _ hmem)

theorem wire_call (hc : p.transport.closing = true) (hfault : (p.conn.processEvents .release parse).fault = none)
    (hq : p.transport.flushing = true → ¬ p.conn.Refuses parse) :
    ({ p with conn := (p.conn.processEvents .release parse).conn }.handleEvents
      (p.conn.processEvents .release parse).events).transport.wire = p.transport.wire :=
  wire_handleEvents (p := { p with conn := (p.conn.processEvents .release parse).conn }) hc _
    fun hf status response hmem => hq hf ⟨hfault, status, response, hmem⟩

theorem wire_pumped (hc : p.transport.closing = true) (hq : p.transport.flushing = true → ¬ p.conn.Refuses parse)
    (hp : Pumped parse p p') : p'.transport.wire = p.transport.wire := by
  cases hp with
  | told hfault => exact wire_call hc hfault hq
  | panicked hfault => rfl

theorem wire_takes (hc : p.transport.closing = true) (hq : p.transport.flushing = true → ¬ p.conn.Refuses parse)
    {q : Nat} {r : Received} (hr : Takes parse p q r p') : p'.transport.wire = p.transport.wire := by
  cases hr with
  | last chunk queue hqueue => rfl
  | gone chunk queue hqueue hnone => rfl
  | more chunk queue current hqueue hcurrent hmany => rfl
  | pumped chunk queue current hqueue hcurrent hfew =>
    have hpumped := wire_pumped (p := { p.dequeue q queue with transport := p.transport.resumeReading })
      (p.transport.closing_resumeReading.trans hc) (fun hf => hq ((flushing_resumeReading p.transport).symm.trans hf))
      (pumped_afterPump parse _)
    exact hpumped.trans (wire_resumeReading p.transport)

theorem wire_fed (hc : p.transport.closing = true) {data : Bytes}
    (hq : p.transport.flushing = true → p.upgraded = false →
      ¬ FastHttpConnection.Refuses parse { p.conn with buffer := p.conn.buffer ++ data })
    (hfed : Fed parse p data p') : p'.transport.wire = p.transport.wire := by
  cases hfed with
  | upgraded hup => rfl
  | told hplain hfault =>
    have hcall := wire_call (p := { p with conn := { p.conn with buffer := p.conn.buffer ++ data } }) hc hfault
      fun hf => hq hf hplain
    exact hcall
  | panicked hplain hfault => rfl

theorem wire_send (hc : p.transport.closing = true) (i : Nat) {t : Cycle} (date : Bytes) {message : Message}
    (hq : p.transport.flushing = true → ∀ body moreBody, message = .body body moreBody →
      t.response.respStatus = .initial ∨ t.response.respStatus = .complete) :
    (p.send i t date message).transport.wire = p.transport.wire := by
  unfold Http11Protocol.send
  split
  · rfl
  · rename_i response hsend
    have hwrite : (p.transport.write (response.wire.drop t.response.wire.length)).wire = p.transport.wire := by
      cases hf : p.transport.flushing with
      | false => rw [write_sent hc hf]
      | true =>
        rw [Response.wire_send (hq hf) hsend, List.drop_length]
        exact write_nil p.transport
    dsimp only
    split
    · exact hwrite
    · exact hwrite

theorem wire_afterCycle (hpending : p.pendingPipelineEvents = []) (hc : p.transport.closing = true)
    (hq : p.transport.flushing = true → ¬ p.conn.resetForNextRequest.Refuses parse) :
    (p.afterCycle parse).transport.wire = p.transport.wire := by
  rw [afterCycle_eq hpending]
  have hreset : p.reset.transport.wire = p.transport.wire ∧ p.reset.transport.closing = true ∧
      p.reset.transport.flushing = p.transport.flushing ∧ p.reset.conn = p.conn.resetForNextRequest := by
    unfold Http11Protocol.reset
    dsimp only
    split
    · exact ⟨rfl, rfl, rfl, rfl⟩
    · exact ⟨rfl, hc, rfl, rfl⟩
  obtain ⟨hwire, hclosing, hflushing, hconn⟩ := hreset
  split
  · exact hwire
  · refine (wire_pumped hclosing (fun hf => ?_) (pumped_afterPump parse _)).trans hwire
    rw [hconn]
    exact hq (hflushing.symm.trans hf)

theorem wire_finishes (hpending : p.pendingPipelineEvents = []) (hc : p.transport.closing = true) {i : Nat} {t : Cycle}
    {date : Bytes} {ending : Ending}
    (hq : p.transport.flushing = true → t.start.isWebsocket = false → ¬ p.conn.resetForNextRequest.Refuses parse)
    (hends : Finishes parse p i t date ending p') : p'.transport.wire = p.transport.wire := by
  cases hends with
  | websocket hws =>
    split
    · exact wire_close
    · rfl
  | http hhttp hleft =>
    cases hleft with
    | raised hunsent hopen => exact absurd (hopen.symm.trans hc) Bool.false_ne_true
    | other hother =>
      exact wire_afterCycle (p := p.setTask i { t with status := .finished }) hpending hc fun hf => hq hf hhttp

/-- Nothing is written to a transport that is closing and has sent what was
written before, and nothing in a step that is silent. -/
theorem wire_step (hpending : p.pendingPipelineEvents = []) (hc : p.transport.closing = true) {a : Action}
    (hq : p.transport.flushing = true → p.Silent parse (.step a)) (hst : Stepped parse p a p') :
    p'.transport.wire = p.transport.wire := by
  cases hst with
  | dataReceived data hopen hread hroom hfed => exact wire_fed hc hq hfed
  | eofReceived hopen =>
    unfold Http11Protocol.eofReceived
    split
    · rfl
    · rfl
  | connectionLost => exact wire_close
  | begin i t ht hstatus =>
    unfold Http11Protocol.begin
    split
    · rfl
    · rfl
  | receive i t ht hstatus hhttp hr =>
    cases hr with
    | empty hbody hfirst => rfl
    | disconnect hset => rfl
    | takes q hbody hcurrent htakes => exact wire_takes hc hq htakes
    | waits hnone => rfl
    | gets q hbody hcurrent hempty => rfl
  | resume k c hc' hr =>
    cases hr with
    | disconnect hset => rfl
    | takes q hget htakes =>
      have htaken := wire_takes (p := p.forget k) hc hq htakes
      exact htaken
  | abandon k hk => rfl
  | send i t date message ht hstatus hhttp =>
    refine wire_send hc i date fun hf body moreBody hm => ?_
    cases hm
    exact hq hf t ht
  | finish i t date ending ht hstatus hends =>
    exact wire_finishes hpending hc (fun hf => hq hf t ht) hends

theorem wire_callback (hpending : p.pendingPipelineEvents = []) (hc : p.transport.closing = true) {a : Callback}
    (hq : p.transport.flushing = true → p.Silent parse a) (hst : p.callback parse a = some p') :
    p'.transport.wire = p.transport.wire := by
  cases a with
  | step a => exact wire_step hpending hc hq (stepped_of_step hst)
  | dataReceived data =>
    dsimp only [Http11Protocol.callback] at hst
    split at hst
    · cases hst
      exact wire_fed hc hq (fed_dataReceived parse p data)
    · cases hst
  | close =>
    cases hst
    exact wire_close

end Http11Protocol

end Multiloop.Http
