import Multiloop.Http.Phases
import Multiloop.Http.Steps

/-!
# No stuck connection

A connection is stuck if its transport is open, no task runs the application,
and it does not go on: the engine serves a request that nobody answers, or
nobody reads from the transport. In a run in which no cycle ends before the
body of its request has arrived, or while reading is paused, no connection is
stuck: what the protocol does about the events of the engine keeps it in the
phase that the events tell.
-/

namespace Multiloop.Http

namespace Transport

variable (t : Transport)

theorem closing_pauseReading : t.pauseReading.closing = t.closing := by
  unfold pauseReading
  split
  · rfl
  · rfl

theorem closing_resumeReading : t.resumeReading.closing = t.closing := by
  unfold resumeReading
  split
  · rfl
  · rfl

theorem paused_resumeReading (h : t.paused = false) : t.resumeReading.paused = false := by
  unfold resumeReading
  split
  · exact h
  · rfl

theorem closing_write (bs : Bytes) : (t.write bs).closing = t.closing := by
  unfold write
  split
  · rfl
  · rfl

theorem paused_write (bs : Bytes) : (t.write bs).paused = t.paused := by
  unfold write
  split
  · rfl
  · rfl

end Transport

namespace Http11Protocol

/-- The transport is open, no task is there, and the connection waits for
one, or does not read. -/
structure Stuck (p : Http11Protocol) : Prop where
  opened : p.transport.closing = false
  plain : p.upgraded = false
  alone : ∀ t ∈ p.tasks, t.live = false
  waits : p.conn.state = .servingApp ∨ p.transport.paused = true

/-- A cycle that ends with the transport left open ends after the body of its
request has arrived, and while the transport is read. -/
def Orderly (p : Http11Protocol) : Action → Prop
  | .finish i _ ending => ∀ t, p.tasks[i]? = some t → t.start.isWebsocket = false →
    p.transport.closing = true ∨ (ending = .raised ∧ t.bytesWritten = false) ∨
      p.conn.resetForNextRequest.isClosed = true ∨ (p.conn.state.inBody = false ∧ p.transport.paused = false)
  | _ => True

/-! ## What the protocol is in a phase -/

/-- Nothing more can be asked of the connection. -/
def Exempt (p : Http11Protocol) : Prop := p.transport.closing = true ∨ p.upgraded = true

/-- The tasks that are not done. -/
def live (p : Http11Protocol) : Nat := p.tasks.countP Cycle.live

/-- The protocol, where the engine is in a phase. -/
structure Fits (p : Http11Protocol) (ph : Phase) : Prop where
  /-- One task serves a request. -/
  live : p.live = if ph = .serving then 1 else 0
  state : p.state = .servingApp ↔ ph = .serving
  reads : ph = .idle → p.transport.paused = false
  pending : p.pendingPipelineEvents = []
  calm : ∀ t ∈ p.tasks, t.cancelled = false
  websocket : ∀ t ∈ p.tasks, t.start.isWebsocket = true → t.status = .scheduled
  stays : ph ≠ .gone

def Follows (p : Http11Protocol) (ph : Phase) : Prop := p.Exempt ∨ p.Fits ph

/-- The protocol between its steps. -/
def Sound (p : Http11Protocol) : Prop := ∃ ph, p.conn.Ready ph ∧ p.Follows ph

variable {parse : Httparse} {p : Http11Protocol} {ph ph' : Phase}

/-! ## Events -/

theorem exempt_close (h : p.Exempt) : p.close.Exempt := by
  unfold close
  split
  · exact h
  · exact .inl rfl

theorem exempt_handleEvent (h : p.Exempt) (e : Event) : (p.handleEvent e).Exempt := by
  unfold handleEvent
  cases e with
  | requestStart start =>
    dsimp only
    split
    · exact h
    split
    · exact h
    · exact h
  | body chunk moreBody =>
    dsimp only
    split
    · apply h.imp_left
      intro hc
      show (if _ then p.transport.pauseReading else p.transport).closing = true
      split
      · exact p.transport.closing_pauseReading.trans hc
      · exact hc
    · exact h
  | upgrade proto => exact h
  | message opcode fin payload => exact h
  | error status response => exact exempt_close (.inl rfl)

/-- A task is created where there is none. -/
theorem Fits.createTask (h : p.Fits .idle) {p' : Http11Protocol} (start : RequestStart)
    (htasks : p'.tasks = p.tasks ++ [.new start]) (hstate : p'.state = .servingApp)
    (hpending : p'.pendingPipelineEvents = p.pendingPipelineEvents) : p'.Fits .serving := by
  have hmem : ∀ t ∈ p'.tasks, t ∈ p.tasks ∨ t = .new start := by
    intro t ht
    rw [htasks] at ht
    exact (List.mem_append.1 ht).imp_right List.mem_singleton.1
  refine ⟨?_, ⟨fun _ => rfl, fun _ => hstate⟩, nofun, hpending.trans h.pending, fun t ht => ?_,
    fun t ht hws => ?_, by decide⟩
  · show p'.tasks.countP Cycle.live = 1
    have hnone : p.tasks.countP Cycle.live = 0 := h.live
    rw [htasks, List.countP_append, hnone]
    rfl
  · rcases hmem t ht with ht | rfl
    · exact h.calm t ht
    · rfl
  · rcases hmem t ht with ht | rfl
    · exact h.websocket t ht hws
    · rfl

/-- What the protocol does about an event keeps it in the phase that the event
tells. -/
theorem Follows.handleEvent (h : p.Follows ph) {e : Event} (he : ph.after e = some ph') :
    (p.handleEvent e).Follows ph' := by
  rcases h with h | h
  · exact .inl (exempt_handleEvent h e)
  cases e with
  | requestStart start =>
    cases ph with
    | idle =>
      cases he
      have hstate : p.state ≠ .servingApp := fun hs => absurd (h.state.1 hs) (by decide)
      unfold Http11Protocol.handleEvent
      dsimp only
      split
      · exact .inr (h.createTask start rfl rfl rfl)
      · exact .inr (h.createTask start rfl rfl rfl)
    | serving => cases he
    | gone => cases he
  | body chunk moreBody =>
    cases ph with
    | serving =>
      cases he
      unfold Http11Protocol.handleEvent
      dsimp only
      split
      · exact .inr ⟨h.live, h.state, nofun, h.pending, h.calm, h.websocket, h.stays⟩
      · exact .inr h
    | idle => cases he
    | gone => cases he
  | upgrade proto =>
    cases ph with
    | serving =>
      cases he
      exact .inr h
    | idle => cases he
    | gone => cases he
  | message opcode fin payload =>
    cases ph with
    | idle => cases he
    | serving => cases he
    | gone => cases he
  | error status response => exact .inl (exempt_close (.inl rfl))

theorem Follows.handleEvents (h : p.Follows ph) {evs : List Event} (hevs : ph.afterAll evs = some ph') :
    (p.handleEvents evs).Follows ph' := by
  induction evs generalizing p ph with
  | nil =>
    cases hevs
    exact h
  | cons e evs ih =>
    obtain ⟨ph₁, he, hrest⟩ := Option.bind_eq_some_iff.1 hevs
    exact ih (h.handleEvent he) hrest

theorem conn_close : p.close.conn = p.conn := by
  unfold close
  split
  · rfl
  · rfl

theorem conn_handleEvent (e : Event) : (p.handleEvent e).conn = p.conn := by
  unfold Http11Protocol.handleEvent
  cases e with
  | requestStart start =>
    dsimp only
    split
    · rfl
    split
    · rfl
    · rfl
  | body chunk moreBody =>
    dsimp only
    split
    · rfl
    · rfl
  | upgrade proto => rfl
  | message opcode fin payload => rfl
  | error status response => exact conn_close

theorem conn_handleEvents (evs : List Event) : (p.handleEvents evs).conn = p.conn := by
  induction evs generalizing p with
  | nil => rfl
  | cons e evs ih => exact (ih (p := p.handleEvent e)).trans (conn_handleEvent e)

/-! ## Calls of the engine -/

theorem sound_of_exempt (hb : p.conn.Bounded) (hm : p.conn.mode = .http11) (h : p.Exempt) : p.Sound :=
  ⟨p.conn.state.phase, ⟨hb, hm, .inl rfl⟩, .inl h⟩

/-- A call of the engine that does not panic, and what is done about its
events. -/
theorem Follows.call (h : p.Follows ph) {o : Outcome} (ho : FastHttpConnection.Ends o ph) (hfault : o.fault = none) :
    ({ p with conn := o.conn }.handleEvents o.events).Sound := by
  obtain ⟨ph', htold, htracks⟩ := ho.told hfault
  have hconn := conn_handleEvents (p := { p with conn := o.conn }) o.events
  have hp : ({ p with conn := o.conn } : Http11Protocol).Follows ph := by
    rcases h with h | h
    · exact .inl h
    · exact .inr ⟨h.live, h.state, h.reads, h.pending, h.calm, h.websocket, h.stays⟩
  refine ⟨ph', ?_, hp.handleEvents htold⟩
  rw [hconn]
  exact ⟨ho.bounded, ho.mode, htracks⟩

/-- A call of the engine that panics: its events are lost. -/
theorem Follows.panic (h : p.Follows ph) {o : Outcome} (ho : FastHttpConnection.Ends o ph) (hfault : o.fault ≠ none) :
    ({ p with conn := o.conn } : Http11Protocol).Sound := by
  rcases h with h | h
  · exact sound_of_exempt ho.bounded ho.mode h
  · exact ⟨ph, ⟨ho.bounded, ho.mode, .inr ⟨ho.panicked hfault, h.stays⟩⟩,
      .inr ⟨h.live, h.state, h.reads, h.pending, h.calm, h.websocket, h.stays⟩⟩

theorem Sound.afterPump (hparse : InRange parse) (h : p.Sound) : (p.afterPump parse).Sound := by
  obtain ⟨ph, hready, hfollows⟩ := h
  have ho := FastHttpConnection.ends_processEvents hparse hready
  unfold Http11Protocol.afterPump pump
  dsimp only
  split
  · rename_i hfault
    exact hfollows.call ho hfault
  · rename_i hfault
    exact hfollows.panic ho hfault

/-! ## Tasks -/

section Tasks

variable {i : Nat} {t t' : Cycle}

theorem mem_setTask {p : Http11Protocol} {u : Cycle} (hu : u ∈ (p.setTask i t').tasks) : u ∈ p.tasks ∨ u = t' :=
  List.mem_or_eq_of_mem_set hu

theorem live_setTask (ht : p.tasks[i]? = some t) (t' : Cycle) :
    (p.setTask i t').live + t.live.toNat = p.live + t'.live.toNat := by
  obtain ⟨hi, hget⟩ := List.getElem?_eq_some_iff.1 ht
  have hpos : t.live.toNat ≤ p.live := by
    cases hl : t.live with
    | false => exact Nat.zero_le _
    | true => exact List.countP_pos_iff.2 ⟨t, hget ▸ List.getElem_mem hi, hl⟩
  have hset : (p.setTask i t').live = p.live - (if p.tasks[i].live then 1 else 0) + if t'.live then 1 else 0 :=
    List.countP_set hi
  have hif : ∀ b : Bool, (if b then 1 else 0) = b.toNat := by decide
  rw [hset, hget, hif, hif]
  omega

/-- A variable of a task changes. -/
theorem Follows.setTask (h : p.Follows ph) (ht : p.tasks[i]? = some t) (hstart : t'.start = t.start)
    (hstatus : t'.status = t.status) (hcancelled : t'.cancelled = t.cancelled) : (p.setTask i t').Follows ph := by
  rcases h with h | h
  · exact .inl h
  have hmem : t ∈ p.tasks := List.mem_of_getElem? ht
  have hlive := live_setTask ht t'
  have hsame : t'.live = t.live := by rw [Cycle.live, Cycle.live, hstatus]
  rw [hsame] at hlive
  have hlive' : (p.setTask i t').live = p.live := by omega
  refine .inr ⟨hlive'.trans h.live, h.state, h.reads, h.pending, fun u hu => ?_, fun u hu hws => ?_, h.stays⟩
  · rcases mem_setTask hu with hu | rfl
    · exact h.calm u hu
    · exact hcancelled.trans (h.calm t hmem)
  · rcases mem_setTask hu with hu | rfl
    · exact h.websocket u hu hws
    · exact hstatus.trans (h.websocket t hmem (hstart ▸ hws))

end Tasks

/-! ## Steps -/

theorem Sound.dataReceived (hparse : InRange parse) (h : p.Sound) {data : Bytes}
    (hroom : (p.conn.buffer ++ data).length < 2 ^ 63) : (p.dataReceived parse data).Sound := by
  obtain ⟨ph, hready, hfollows⟩ := id h
  have ho := FastHttpConnection.ends_feedData hparse hready hroom
  unfold Http11Protocol.dataReceived
  split
  · exact h
  · dsimp only
    split
    · rename_i hfault
      exact hfollows.call ho hfault
    · exact sound_of_exempt ho.bounded ho.mode (.inl rfl)

theorem Sound.closing (h : p.Sound) {p' : Http11Protocol} (hconn : p'.conn = p.conn) (hp' : p'.Exempt) : p'.Sound := by
  obtain ⟨ph, hready, -⟩ := h
  exact sound_of_exempt (hconn ▸ hready.bounded) (hconn ▸ hready.mode) hp'

theorem Sound.begin (h : p.Sound) {i : Nat} {t : Cycle} (ht : p.tasks[i]? = some t) (hstatus : t.status = .scheduled) :
    (p.begin i t).Sound := by
  obtain ⟨ph, hready, hfollows⟩ := id h
  have hmem : t ∈ p.tasks := List.mem_of_getElem? ht
  rcases hfollows with hexempt | hfits
  · apply h.closing
    · unfold Http11Protocol.begin
      split <;> rfl
    · unfold Http11Protocol.begin
      split
      · exact hexempt
      · exact hexempt.imp_right fun hu => by rw [hu]; rfl
  have hcalm := hfits.calm t hmem
  unfold Http11Protocol.begin
  rw [if_neg (by rw [hcalm]; exact Bool.false_ne_true)]
  cases hws : t.start.isWebsocket with
  | true =>
    apply h.closing
    · rfl
    · right
      exact Bool.or_true _
  | false =>
    have hset := live_setTask ht { t with status := .running }
    have hlive : t.live = true := by rw [Cycle.live, hstatus]; rfl
    rw [hlive] at hset
    have hsame : (p.setTask i { t with status := .running }).live = p.live := Nat.add_right_cancel hset
    refine ⟨ph, hready, .inr ⟨hsame.trans hfits.live, hfits.state, hfits.reads, hfits.pending, fun u hu => ?_,
      fun u hu huws => ?_, hfits.stays⟩⟩
    · rcases mem_setTask hu with hu | rfl
      · exact hfits.calm u hu
      · exact hcalm
    · rcases mem_setTask hu with hu | rfl
      · exact hfits.websocket u hu huws
      · exact absurd (hws.symm.trans huws) Bool.false_ne_true

/-- The queues of the bodies, and whether the transport is paused, only matter
to the tasks. -/
theorem Sound.unpaused (h : p.Sound) (bodyQueue : Option Nat) (queues : Nat → List (Bytes × Bool))
    (receiving : List Receiving) {t : Transport} (hclosing : p.transport.closing = true → t.closing = true)
    (hpaused : p.transport.paused = false → t.paused = false) :
    ({ p with bodyQueue, queues, receiving, transport := t } : Http11Protocol).Sound := by
  obtain ⟨ph, hready, hfollows⟩ := h
  refine ⟨ph, hready, ?_⟩
  rcases hfollows with h | h
  · exact .inl (h.imp_left hclosing)
  · exact .inr ⟨h.live, h.state, fun hi => hpaused (h.reads hi), h.pending, h.calm, h.websocket, h.stays⟩

theorem Sound.takes (hparse : InRange parse) (h : p.Sound) {q : Nat} {r : Received} {p' : Http11Protocol}
    (hr : Takes parse p q r p') : p'.Sound := by
  cases hr with
  | last chunk queue hqueue => exact h.unpaused none _ p.receiving id id
  | gone chunk queue hqueue hnone => exact h.unpaused p.bodyQueue _ p.receiving id id
  | more chunk queue current hqueue hcurrent hmany => exact h.unpaused p.bodyQueue _ p.receiving id id
  | pumped chunk queue current hqueue hcurrent hfew =>
    have hresumed := h.unpaused p.bodyQueue (Function.update p.queues q queue) p.receiving
      (fun hc => p.transport.closing_resumeReading.trans hc) p.transport.paused_resumeReading
    exact hresumed.afterPump hparse

theorem Sound.receives (hparse : InRange parse) (h : p.Sound) {i : Nat} {t : Cycle} (ht : p.tasks[i]? = some t)
    {r : Option Received} {p' : Http11Protocol} (hr : Receives parse p i t r p') : p'.Sound := by
  cases hr with
  | empty hbody hfirst =>
    obtain ⟨ph, hready, hfollows⟩ := h
    exact ⟨ph, hready, hfollows.setTask ht rfl rfl rfl⟩
  | disconnect hset => exact h
  | takes q hbody hcurrent htakes => exact h.takes hparse htakes
  | waits hnone => exact h.unpaused p.bodyQueue p.queues _ id id
  | gets q hbody hcurrent hempty => exact h.unpaused p.bodyQueue p.queues _ id id

theorem Sound.forget (h : p.Sound) (k : Nat) : (p.forget k).Sound := h.unpaused p.bodyQueue p.queues _ id id

theorem Sound.resumes (hparse : InRange parse) (h : p.Sound) {k : Nat} {c : Receiving} {r : Received}
    {p' : Http11Protocol} (hr : Resumes parse p k c r p') : p'.Sound := by
  cases hr with
  | disconnect hset => exact h.forget k
  | takes q hget htakes => exact (h.forget k).takes hparse htakes

theorem Sound.send (h : p.Sound) {i : Nat} {t : Cycle} (ht : p.tasks[i]? = some t) (date : Bytes) (message : Message) :
    (p.send i t date message).Sound := by
  obtain ⟨ph, hready, hfollows⟩ := id h
  unfold Http11Protocol.send
  split
  · exact h
  · rename_i response hr
    have hset : ∀ t' : Cycle, t'.start = t.start → t'.status = t.status → t'.cancelled = t.cancelled →
        (p.setTask i t').Sound := fun _ h₁ h₂ h₃ => ⟨ph, hready, hfollows.setTask ht h₁ h₂ h₃⟩
    refine Sound.unpaused (hset { t with response, bytesWritten := _ } rfl rfl rfl) p.bodyQueue p.queues p.receiving ?_ ?_
    · intro hc
      split
      · rfl
      · exact (p.transport.closing_write _).trans hc
    · intro hp
      split
      · exact (p.transport.paused_write _).trans hp
      · exact (p.transport.paused_write _).trans hp

/-- The engine is reset where no task is left. -/
theorem Sound.afterCycle (hparse : InRange parse) (hb : p.conn.Bounded) (hm : p.conn.mode = .http11)
    (h : p.Exempt ∨ p.conn.resetForNextRequest.isClosed = true ∨ p.conn.state = .servingApp ∧
      p.transport.paused = false ∧ p.live = 0 ∧ p.pendingPipelineEvents = [] ∧ (∀ t ∈ p.tasks, t.cancelled = false) ∧
      ∀ t ∈ p.tasks, t.start.isWebsocket = true → t.status = .scheduled) : (p.afterCycle parse).Sound := by
  have hreset : p.conn.resetForNextRequest.mode = .http11 := by
    unfold FastHttpConnection.resetForNextRequest
    split
    · split
      · exact hm
      · exact hm
    · exact hm
  unfold Http11Protocol.afterCycle
  dsimp only
  split
  · exact sound_of_exempt hb.reset hreset (.inl rfl)
  rename_i hopen
  rcases h with h | hclosed | ⟨hserving, hpaused, hlive, hpending, hcalm, hws⟩
  · split
    · exact sound_of_exempt hb.reset hreset h
    · exact (sound_of_exempt (p := { p with
        state := .keepAliveWait
        disconnectEvent := true
        receiving := p.receiving.map Receiving.wake
        conn := p.conn.resetForNextRequest }) hb.reset hreset h).afterPump hparse
  · exact absurd hclosed hopen
  · have hidle : p.conn.resetForNextRequest.state.phase = .idle := by
      unfold FastHttpConnection.isClosed at hopen
      unfold FastHttpConnection.resetForNextRequest at hopen ⊢
      rw [if_pos hserving] at hopen ⊢
      split at hopen
      · exact absurd rfl hopen
      · rename_i hkeep
        rw [if_neg hkeep]
        rfl
    rw [show p.disconnect.pendingPipelineEvents = [] from hpending]
    apply Sound.afterPump hparse
    exact ⟨.idle, ⟨hb.reset, hreset, .inl hidle⟩,
      .inr ⟨hlive, ⟨nofun, nofun⟩, fun _ => hpaused, rfl, hcalm, hws, by decide⟩⟩

theorem Sound.finish (hparse : InRange parse) (h : p.Sound) {i : Nat} {t : Cycle} (ht : p.tasks[i]? = some t)
    (hstatus : t.status = .running) (date : Bytes) {ending : Ending} (hok : p.Orderly (.finish i date ending)) :
    (p.finish parse i t date ending).Sound := by
  obtain ⟨ph, hready, hfollows⟩ := id h
  have hmem : t ∈ p.tasks := List.mem_of_getElem? ht
  have hok := hok t ht
  unfold Http11Protocol.finish
  dsimp only
  split
  · rename_i hws
    -- A websocket task runs in a connection that is upgraded.
    have hexempt : p.Exempt := by
      rcases hfollows with hexempt | hfits
      · exact hexempt
      · have hsched := hfits.websocket t hmem hws
        rw [hstatus] at hsched
        cases hsched
    split
    · exact h.closing conn_close (exempt_close hexempt)
    · exact h.closing rfl hexempt
  · rename_i hws
    split
    · exact Sound.afterCycle hparse hready.bounded hready.mode (.inl (.inl rfl))
    · rename_i hraised
      refine Sound.afterCycle (p := p.setTask i { t with status := .finished }) hparse hready.bounded hready.mode ?_
      rcases hfollows with hexempt | hfits
      · exact .inl hexempt
      rcases hok (eq_false_of_ne_true hws) with hclosing | hraise | hclosed | ⟨hbody, hpaused⟩
      · exact .inl (.inl hclosing)
      · by_cases hclosing : p.transport.closing = true
        · exact .inl (.inl hclosing)
        · refine absurd ?_ hraised
          rw [hraise.1, hraise.2]
          exact ⟨rfl, by decide, hclosing⟩
      · exact .inr (.inl hclosed)
      -- The task that ends is the one that serves, so none is left.
      have hlive : t.live = true := by rw [Cycle.live, hstatus]; rfl
      have hset := live_setTask ht { t with status := .finished }
      have hdone : (Cycle.live { t with status := .finished }) = false := rfl
      rw [hlive, hdone, hfits.live] at hset
      by_cases hph : ph = .serving
      · rw [if_pos hph] at hset
        have hnone : (p.setTask i { t with status := .finished }).live = 0 := Nat.add_right_cancel hset
        have hserving : p.conn.state = .servingApp :=
          HttpParserState.servingApp_of_tracks (hph ▸ hready.tracks) hbody
        refine .inr (.inr ⟨hserving, hpaused, hnone, hfits.pending, fun u hu => ?_, fun u hu huws => ?_⟩)
        · rcases mem_setTask hu with hu | rfl
          · exact hfits.calm u hu
          · exact hfits.calm t hmem
        · rcases mem_setTask hu with hu | rfl
          · exact hfits.websocket u hu huws
          · exact absurd huws hws
      · rw [if_neg hph] at hset
        cases hset


theorem Sound.step (hparse : InRange parse) (h : p.Sound) {a : Action} (hok : p.Orderly a) {p' : Http11Protocol}
    (hst : p.step parse a = some p') : p'.Sound := by
  cases a with
  | dataReceived data =>
    unfold Http11Protocol.step at hst
    dsimp only at hst
    split at hst
    · rename_i hroom
      cases hst
      exact h.dataReceived hparse hroom.2.2
    · cases hst
  | eofReceived =>
    unfold Http11Protocol.step eofReceived at hst
    dsimp only at hst
    split at hst
    · cases hst
    split at hst
    · cases hst
      exact h
    · cases hst
      exact h.closing rfl (.inl rfl)
  | connectionLost =>
    cases hst
    exact h.closing conn_close (exempt_close (.inl rfl))
  | begin i =>
    obtain ⟨t, ht, hst⟩ := Option.bind_eq_some_iff.1 hst
    split at hst
    · rename_i hstatus
      cases hst
      exact h.begin ht hstatus
    · cases hst
  | receive i =>
    obtain ⟨t, ht, hst⟩ := Option.bind_eq_some_iff.1 hst
    split at hst
    · cases hst
    · cases hst
      exact h.receives hparse ht (receives_receive parse p i t)
  | resume k =>
    obtain ⟨c, hc, hst⟩ := Option.bind_eq_some_iff.1 hst
    obtain ⟨r, hr, rfl⟩ := Option.map_eq_some_iff.1 hst
    exact h.resumes hparse (resumes_of_resume hr)
  | abandon k =>
    dsimp only [Http11Protocol.step] at hst
    split at hst
    · cases hst
      exact h.forget k
    · cases hst
  | send i date message =>
    obtain ⟨t, ht, hst⟩ := Option.bind_eq_some_iff.1 hst
    split at hst
    · cases hst
    · cases hst
      exact h.send ht date message
  | finish i date ending =>
    obtain ⟨t, ht, hst⟩ := Option.bind_eq_some_iff.1 hst
    split at hst
    · rename_i hstatus
      cases hst
      exact h.finish hparse ht hstatus date hok
    · cases hst

theorem sound_new : new.Sound := by
  have htasks : ∀ t, t ∉ new.tasks := fun _ => List.not_mem_nil
  refine ⟨.idle, ⟨FastHttpConnection.bounded_new _ _ _ (by decide), rfl, .inl rfl⟩, .inr ?_⟩
  exact ⟨rfl, ⟨nofun, nofun⟩, fun _ => rfl, rfl, fun t ht => absurd ht (htasks t),
    fun t ht => absurd ht (htasks t), by decide⟩

theorem sound_of_reachable (hparse : InRange parse) (h : (http11 parse).ReachableWhen Orderly p) : p.Sound := by
  apply h.inv
  · intro p hp
    obtain rfl : p = .new := hp
    exact sound_new
  · intro p a p' hp hok hst
    exact hp.step hparse hok hst

/-- Where the protocol follows the engine, it is not stuck. -/
theorem Sound.not_stuck (h : p.Sound) : ¬ p.Stuck := by
  intro hstuck
  obtain ⟨ph, hready, hfollows⟩ := h
  have hnone : p.live = 0 := List.countP_eq_zero.2 fun t ht => by rw [hstuck.alone t ht]; exact Bool.false_ne_true
  rcases hfollows with hexempt | hfits
  · rcases hexempt with hclosing | hupgraded
    · rw [hstuck.opened] at hclosing
      cases hclosing
    · rw [hstuck.plain] at hupgraded
      cases hupgraded
  have hlive := hfits.live
  rw [hnone] at hlive
  cases ph with
  | idle =>
    rcases hstuck.waits with hserving | hpaused
    · rcases hready.tracks with hphase | ⟨⟨n, hn, -⟩, -⟩
      · rw [hserving] at hphase
        cases hphase
      · rw [hserving] at hn
        cases hn
    · rw [hfits.reads rfl] at hpaused
      cases hpaused
  | serving => cases hlive
  | gone => exact hfits.stays rfl

/-- In every run in which each cycle that leaves the transport open ends after
the body of its request has arrived, and while the transport is read, no
connection is stuck. -/
theorem no_stuck_connection (hparse : InRange parse) (h : (http11 parse).ReachableWhen Orderly p) : ¬ p.Stuck :=
  (sound_of_reachable hparse h).not_stuck

def midnight : Bytes := bytes "Thu, 01 Jan 1970 00:00:00 GMT"

/-- A cycle that reads its body and responds. -/
theorem no_stuck_connection_served : ∃ p : Http11Protocol,
    p.tasks.map Cycle.status = [.finished] ∧ p.conn.state = .keepAliveWait ∧ ¬ p.Stuck := by
  have h : (http11 parseChunkedHead).ReachableWhen Orderly new := .init rfl
  have h := h.next (.dataReceived (chunkedHead ++ bytes "2\r\nab\r\n0\r\n\r\n")) trivial rfl
  have h := h.next (.begin 0) trivial rfl
  have h := h.next (.receive 0) trivial rfl
  have h := h.next (.send 0 midnight (.start 200 [])) trivial rfl
  have h := h.next (.send 0 midnight (.body (bytes "ok") false)) trivial rfl
  have h := h.next (.finish 0 midnight .returned) (fun _ _ _ => .inr (.inr (.inr ⟨rfl, rfl⟩))) rfl
  exact ⟨_, rfl, rfl, no_stuck_connection parseChunkedHead_inRange h⟩

/-- The application responds before the body of its request has arrived. When
it has, nobody resets the engine. -/
theorem early_response_sticks : ∃ p, (http11 parseChunkedHead).Reachable p ∧ p.Stuck := by
  obtain ⟨p, hp, hopened, hplain, halone, hwaits⟩ := System.exists_reachable_of_run (M := http11 parseChunkedHead)
    (s := new) (p := fun p => p.transport.closing = false ∧ p.upgraded = false ∧
      (∀ t ∈ p.tasks, t.live = false) ∧ (p.conn.state = .servingApp ∨ p.transport.paused = true))
    [.dataReceived chunkedHead, .begin 0, .send 0 midnight (.start 200 []), .send 0 midnight (.body (bytes "ok") false),
      .finish 0 midnight .returned, .dataReceived (bytes "0\r\n\r\n")] rfl (by decide +kernel)
  exact ⟨p, hp, hopened, hplain, halone, hwaits⟩

end Http11Protocol

end Multiloop.Http
