import Multiloop.Http.Closing
import Multiloop.Http.Steps

/-!
# One cycle at a time

The monitor of the events of the engine, carried along the runs of the
protocol: in every run at most one task serves a request, it is the one that
was created last, it serves the last request that the engine told, and none is
left when the engine waits for the head of another one. No task is created
after one for a websocket.
-/

namespace Multiloop.Http

namespace Http11Protocol

variable {parse : Httparse} {p p' : Http11Protocol} {v v' : Monitor}

/-- A task that is not done, or serves a websocket, is the last one created, and
serves the last request that the monitor has seen. -/
def Alone (p : Http11Protocol) (v : Monitor) : Prop :=
  ∀ (i : Nat) (t : Cycle), p.tasks[i]? = some t → t.live = true ∨ t.start.isWebsocket = true →
    i + 1 = p.tasks.length ∧ t.start.keepAlive = v.keepAlive ∧ v.stage ≠ .idle

/-- The protocol between its steps. -/
structure Serves (parse : Httparse) (p : Http11Protocol) (v : Monitor) : Prop extends p.Settled parse where
  watched : Session.Watched (max 1 maxKeepaliveRequests) p.conn v
  alone : p.Alone v

/-! ## Events -/

/-- A task is created where there is none. -/
theorem Alone.createTask (h : p.Alone v) (hidle : v.stage = .idle) (start : RequestStart)
    (htasks : p'.tasks = p.tasks ++ [.new start]) (hstage : v'.stage ≠ .idle) (hkeep : v'.keepAlive = start.keepAlive) :
    p'.Alone v' := by
  intro i t ht hlive
  rw [htasks] at ht ⊢
  rcases Nat.lt_or_ge i p.tasks.length with hlt | hge
  · rw [List.getElem?_append_left hlt] at ht
    exact absurd hidle (h i t ht hlive).2.2
  · obtain ⟨hi, -⟩ := List.getElem?_eq_some_iff.1 ht
    rw [List.length_append, List.length_singleton] at hi ⊢
    obtain rfl : i = p.tasks.length := by omega
    rw [List.getElem?_concat_length] at ht
    cases ht
    exact ⟨rfl, hkeep.symm, hstage⟩

/-- The tasks are no others, and none of them comes to life. -/
theorem Alone.same (h : p.Alone v) (hlen : p'.tasks.length = p.tasks.length)
    (htasks : ∀ (i : Nat) (t' : Cycle), p'.tasks[i]? = some t' →
      ∃ t, p.tasks[i]? = some t ∧ t'.start = t.start ∧ (t'.live = true → t.live = true))
    (hkeep : v'.keepAlive = v.keepAlive) (hidle : v.stage ≠ .idle → v'.stage ≠ .idle) : p'.Alone v' := by
  intro i t' ht' hlive
  obtain ⟨t, ht, hstart, hl⟩ := htasks i t' ht'
  obtain ⟨hi, hk, hs⟩ := h i t ht (hlive.imp hl fun hws => hstart ▸ hws)
  rw [hlen, hstart, hk, hkeep]
  exact ⟨hi, rfl, hidle hs⟩

/-- Nothing changes about the tasks. -/
theorem Alone.of_tasks (h : p.Alone v) (htasks : p'.tasks = p.tasks) (hkeep : v'.keepAlive = v.keepAlive)
    (hidle : v.stage ≠ .idle → v'.stage ≠ .idle) : p'.Alone v' :=
  h.same (congrArg List.length htasks) (fun _ t ht => ⟨t, htasks ▸ ht, rfl, id⟩) hkeep hidle

theorem Alone.setTask (h : p.Alone v) {i : Nat} {t t' : Cycle} (ht : p.tasks[i]? = some t) (hstart : t'.start = t.start)
    (hlive : t'.live = true → t.live = true) : (p.setTask i t').Alone v := by
  refine h.same List.length_set (fun j u hu => ?_) rfl id
  change (p.tasks.set i t')[j]? = some u at hu
  by_cases hj : i = j
  · subst hj
    obtain ⟨hi, -⟩ := List.getElem?_eq_some_iff.1 ht
    rw [List.getElem?_set_self hi] at hu
    cases hu
    exact ⟨t, ht, hstart, hlive⟩
  · rw [List.getElem?_set_ne hj] at hu
    exact ⟨u, hu, rfl, id⟩

theorem cancel_same (b : Prop) [Decidable b] (t : Cycle) :
    (if b then t.cancel else t).start = t.start ∧ (if b then t.cancel else t).live = t.live := by
  split
  · unfold Cycle.cancel
    split
    · exact ⟨rfl, rfl⟩
    · exact ⟨rfl, rfl⟩
  · exact ⟨rfl, rfl⟩

theorem Alone.close (h : p.Alone v) : p.close.Alone v := by
  unfold Http11Protocol.close
  split
  · exact h
  · refine h.same ?_ ?_ rfl id
    · dsimp only
      split
      · exact List.length_modify _ _ _
      · rfl
    · intro i t' ht'
      dsimp only at ht'
      split at ht'
      · rename_i k _
        rw [List.getElem?_modify] at ht'
        obtain ⟨t, ht, rfl⟩ := Option.map_eq_some_iff.1 ht'
        obtain ⟨hstart, hlive⟩ := cancel_same (k = i) t
        exact ⟨t, ht, hstart, fun hl => hlive ▸ hl⟩
      · exact ⟨t', ht', rfl, id⟩

theorem Alone.handleEvent (h : p.Alone v) {e : Event} (he : v.after e = some v') : (p.handleEvent e).Alone v' := by
  cases e with
  | requestStart start =>
    obtain ⟨hidle, -, -, hkeep⟩ := Monitor.idle_of_afterStart he
    have hstage : v'.stage ≠ .idle := by
      change v.afterStart start = some v' at he
      unfold Monitor.afterStart at he
      dsimp only at he
      split at he
      · cases hws : start.isWebsocket <;> cases hbody : start.hasBody <;> rw [hws, hbody] at he <;> cases he <;>
          exact nofun
      · cases he
    unfold Http11Protocol.handleEvent
    dsimp only
    split
    · exact h.createTask hidle start rfl hstage hkeep
    split
    · exact fun i t ht hl => absurd hidle (h i t ht hl).2.2
    · exact h.createTask hidle start rfl hstage hkeep
  | body chunk moreBody =>
    change (if _ then _ else _) = some v' at he
    split at he
    · rename_i hin
      cases he
      have hnot : (if moreBody = true then Stage.inBody else Stage.ended) ≠ .idle := by
        split
        · exact nofun
        · exact nofun
      unfold Http11Protocol.handleEvent
      dsimp only
      split
      · exact h.of_tasks rfl rfl fun _ => hnot
      · exact h.of_tasks rfl rfl fun _ => hnot
    · cases he
  | upgrade proto =>
    change (if _ then _ else _) = some v' at he
    split at he
    · cases he
      exact h.of_tasks rfl rfl fun _ => nofun
    · cases he
  | message opcode fin payload => cases he
  | error status response =>
    change (if _ then _ else _) = some v' at he
    split at he
    · cases he
      have hsame : Alone { p with transport := (p.transport.write response).close } { v with stage := .gone } :=
        h.of_tasks rfl rfl fun _ => nofun
      exact hsame.close
    · cases he

theorem Alone.handleEvents (h : p.Alone v) {evs : List Event} (hevs : evs.foldlM Monitor.after v = some v') :
    (p.handleEvents evs).Alone v' := by
  induction evs generalizing p v with
  | nil =>
    cases hevs
    exact h
  | cons e evs ih =>
    obtain ⟨v₁, he, hrest⟩ := Option.bind_eq_some_iff.1 hevs
    exact ih (h.handleEvent he) hrest

/-! ## Calls of the engine -/

/-- The monitor before a call of the engine, and the one after it. -/
structure Ready (parse : Httparse) (p : Http11Protocol) (v : Monitor) : Prop extends p.Steady where
  watched : Session.Watched (max 1 maxKeepaliveRequests) p.conn v
  alone : p.Alone v

theorem Ready.call (hparse : InRange parse) (h : p.Ready parse v)
    (hfault : (p.conn.processEvents .release parse).fault = none) :
    ∃ v', (p.conn.processEvents .release parse).events.foldlM Monitor.after v = some v' ∧
      Serves parse ({ p with conn := (p.conn.processEvents .release parse).conn }.handleEvents
        (p.conn.processEvents .release parse).events) v' := by
  have hobs := FastHttpConnection.observed_processEvents hparse (Session.kept_watched hparse) h.bounded h.mode
    h.watched.compact
  obtain ⟨-, v', htold, hwatched⟩ := hobs.told hfault
  have hsettled := h.toSteady.call hparse hfault
  have halone : Alone { p with conn := (p.conn.processEvents .release parse).conn } v := h.alone
  refine ⟨v', htold, hsettled, ?_, halone.handleEvents htold⟩
  rw [conn_handleEvents]
  exact hwatched

theorem Ready.panic (hparse : InRange parse) (h : p.Ready parse v)
    (hfault : (p.conn.processEvents .release parse).fault ≠ none) :
    Serves parse { p with conn := (p.conn.processEvents .release parse).conn } v := by
  have hobs := FastHttpConnection.observed_processEvents hparse (Session.kept_watched hparse) h.bounded h.mode
    h.watched.compact
  exact ⟨h.toSteady.panic hparse hfault, h.watched.panicked hparse h.bounded h.mode rfl hobs hfault, h.alone⟩

theorem Ready.afterPump (hparse : InRange parse) (h : p.Ready parse v) : ∃ v', (p.afterPump parse).Serves parse v' := by
  unfold Http11Protocol.afterPump pump
  dsimp only
  split
  · rename_i hfault
    obtain ⟨v', -, hserves⟩ := h.call hparse hfault
    exact ⟨v', hserves⟩
  · rename_i hfault
    exact ⟨v, h.panic hparse hfault⟩

/-! ## Steps -/

theorem Serves.ready (h : p.Serves parse v) : p.Ready parse v := ⟨h.toSteady, h.watched, h.alone⟩

/-- The engine and the tasks stay as they are. -/
theorem Serves.same (h : p.Serves parse v) (hconn : p'.conn = p.conn)
    (hpending : p'.pendingPipelineEvents = p.pendingPipelineEvents)
    (hstate : p'.state = .servingApp → p.state = .servingApp) (htasks : p'.tasks = p.tasks) : p'.Serves parse v where
  toSettled := h.toSettled.same hconn hpending hstate
  watched := hconn ▸ h.watched
  alone := h.alone.of_tasks htasks rfl id

theorem Serves.close (h : p.Serves parse v) : p.close.Serves parse v where
  toSettled := h.toSettled.close
  watched := conn_close (p := p) ▸ h.watched
  alone := h.alone.close

theorem Serves.setTask (h : p.Serves parse v) {i : Nat} {t t' : Cycle} (ht : p.tasks[i]? = some t)
    (hstart : t'.start = t.start) (hlive : t'.live = true → t.live = true) : (p.setTask i t').Serves parse v where
  toSettled := h.toSettled.same rfl rfl id
  watched := h.watched
  alone := h.alone.setTask ht hstart hlive

theorem Serves.fed (hparse : InRange parse) (h : p.Serves parse v) {data : Bytes}
    (hroom : (p.conn.buffer ++ data).length < 2 ^ 63) (hfed : Fed parse p data p') : ∃ v', p'.Serves parse v' := by
  have hready : Ready parse { p with conn := { p.conn with buffer := p.conn.buffer ++ data } } v :=
    ⟨⟨h.bounded.append hroom, h.mode, h.pending, h.serving⟩, h.watched.append data, h.alone⟩
  cases hfed with
  | upgraded hup => exact ⟨v, h⟩
  | told hplain hfault =>
    obtain ⟨v', -, hserves⟩ := hready.call hparse hfault
    exact ⟨v', hserves⟩
  | panicked hplain hfault => exact ⟨v, (hready.panic hparse hfault).same rfl rfl id rfl⟩

theorem Serves.takes (hparse : InRange parse) (h : p.Serves parse v) {q : Nat} {r : Received}
    (hr : Takes parse p q r p') : ∃ v', p'.Serves parse v' := by
  cases hr with
  | last chunk queue hqueue => exact ⟨v, h.same rfl rfl id rfl⟩
  | gone chunk queue hqueue hnone => exact ⟨v, h.same rfl rfl id rfl⟩
  | more chunk queue current hqueue hcurrent hmany => exact ⟨v, h.same rfl rfl id rfl⟩
  | pumped chunk queue current hqueue hcurrent hfew =>
    have hresumed : Ready parse { p.dequeue q queue with transport := p.transport.resumeReading } v :=
      ⟨⟨h.bounded, h.mode, h.pending, h.serving⟩, h.watched, h.alone⟩
    exact hresumed.afterPump hparse

theorem Serves.receives (hparse : InRange parse) (h : p.Serves parse v) {i : Nat} {t : Cycle}
    (ht : p.tasks[i]? = some t) {r : Option Received} (hr : Receives parse p i t r p') : ∃ v', p'.Serves parse v' := by
  cases hr with
  | empty hbody hfirst => exact ⟨v, h.setTask ht rfl id⟩
  | disconnect hset => exact ⟨v, h⟩
  | takes q hbody hcurrent htakes => exact h.takes hparse htakes
  | waits hnone => exact ⟨v, h.same rfl rfl id rfl⟩
  | gets q hbody hcurrent hempty => exact ⟨v, h.same rfl rfl id rfl⟩

theorem Serves.forget (h : p.Serves parse v) (k : Nat) : (p.forget k).Serves parse v := h.same rfl rfl id rfl

theorem Serves.resumes (hparse : InRange parse) (h : p.Serves parse v) {k : Nat} {c : Receiving} {r : Received}
    (hr : Resumes parse p k c r p') : ∃ v', p'.Serves parse v' := by
  cases hr with
  | disconnect hset => exact ⟨v, h.forget k⟩
  | takes q hget htakes => exact (h.forget k).takes hparse htakes

theorem Serves.send (h : p.Serves parse v) {i : Nat} {t : Cycle} (ht : p.tasks[i]? = some t) (date : Bytes)
    (message : Message) : (p.send i t date message).Serves parse v := by
  unfold Http11Protocol.send
  split
  · exact h
  · have hset : ∀ t' : Cycle, t'.start = t.start → t'.status = t.status → (p.setTask i t').Serves parse v := by
      intro t' hstart hstatus
      refine h.setTask ht hstart fun hl => ?_
      unfold Cycle.live at hl ⊢
      rwa [hstatus] at hl
    rename_i response _
    exact (hset { t with response, bytesWritten := _ } rfl rfl).same rfl rfl id rfl

/-- No task is left once the one that is not done ends. -/
theorem Alone.finished (h : p.Alone v) {i : Nat} {t : Cycle} (ht : p.tasks[i]? = some t) (hlive : t.live = true)
    (hhttp : t.start.isWebsocket = false) (v' : Monitor) : (p.setTask i { t with status := .finished }).Alone v' := by
  intro j u hu hl
  change (p.tasks.set i { t with status := .finished })[j]? = some u at hu
  have hi := (h i t ht (.inl hlive)).1
  by_cases hj : i = j
  · subst hj
    rw [List.getElem?_set_self (by omega)] at hu
    cases hu
    rcases hl with hl | hws
    · cases hl
    · exact absurd (hhttp.symm.trans hws) Bool.false_ne_true
  · rw [List.getElem?_set_ne hj] at hu
    have hj' := (h j u hu hl).1
    omega

/-- After a cycle the engine is closed, and the transport with it. -/
theorem serves_reset (hparse : InRange parse) (h : p.Settled parse)
    (hw : Session.Watched (max 1 maxKeepaliveRequests) p.conn v) (hnone : p.Alone v.afterReset)
    (hclosed : p.conn.resetForNextRequest.isClosed = true) : p.reset.Serves parse v.afterReset := by
  have hsettled := h.afterCycle hparse
  rw [afterCycle_eq h.pending, if_pos hclosed] at hsettled
  have hreset : p.reset = { p.disconnect with
      conn := p.conn.resetForNextRequest
      transport := p.transport.close } := if_pos hclosed
  rw [hreset] at hsettled ⊢
  exact ⟨hsettled, hw.reset, hnone⟩

/-- After a cycle the engine may read on. -/
theorem ready_reset (h : p.Settled parse) (hw : Session.Watched (max 1 maxKeepaliveRequests) p.conn v)
    (hnone : p.Alone v.afterReset) (hopen : ¬ p.conn.resetForNextRequest.isClosed = true) :
    p.reset.Ready parse v.afterReset := by
  have hreset : p.reset = { p.disconnect with
      conn := p.conn.resetForNextRequest
      state := .keepAliveWait } := if_neg hopen
  rw [hreset]
  exact ⟨⟨h.bounded.reset, (mode_reset p.conn).trans h.mode, h.pending, nofun⟩, hw.reset, hnone⟩

theorem Serves.afterCycle (hparse : InRange parse) (h : p.Settled parse)
    (hw : Session.Watched (max 1 maxKeepaliveRequests) p.conn v) (hnone : p.Alone v.afterReset) :
    ∃ v', (p.afterCycle parse).Serves parse v' := by
  rw [afterCycle_eq h.pending]
  split
  · rename_i hclosed
    exact ⟨v.afterReset, serves_reset hparse h hw hnone hclosed⟩
  · rename_i hopen
    exact (ready_reset h hw hnone hopen).afterPump hparse

theorem Cycle.live_running {t : Cycle} (h : t.status = .running) : t.live = true := by
  unfold Cycle.live
  rw [h]
  rfl

theorem Cycle.live_scheduled {t : Cycle} (h : t.status = .scheduled) : t.live = true := by
  unfold Cycle.live
  rw [h]
  rfl

theorem Serves.finishes (hparse : InRange parse) (h : p.Serves parse v) {i : Nat} {t : Cycle}
    (ht : p.tasks[i]? = some t) (hstatus : t.status = .running) {date : Bytes} {ending : Ending}
    (hends : Finishes parse p i t date ending p') : ∃ v', p'.Serves parse v' := by
  have hset : (p.setTask i { t with status := .finished }).Serves parse v := h.setTask ht rfl nofun
  cases hends with
  | websocket hws =>
    split
    · exact ⟨v, hset.close⟩
    · exact ⟨v, hset⟩
  | http hhttp hleft =>
    have hdone := h.alone.finished ht (Cycle.live_running hstatus) hhttp v.afterReset
    cases hleft with
    | raised hunsent hopen => exact Serves.afterCycle hparse (hset.toSettled.same rfl rfl id) hset.watched hdone
    | other hother => exact Serves.afterCycle hparse hset.toSettled hset.watched hdone

theorem Serves.step (hparse : InRange parse) (h : p.Serves parse v) {a : Action} (hst : Stepped parse p a p') :
    ∃ v', p'.Serves parse v' := by
  cases hst with
  | dataReceived data hopen hread hroom hfed => exact h.fed hparse hroom hfed
  | eofReceived hopen =>
    unfold Http11Protocol.eofReceived
    split
    · exact ⟨v, h⟩
    · exact ⟨v, h.same rfl rfl id rfl⟩
  | connectionLost =>
    have hclosing : Serves parse { p with transport := p.transport.close } v := h.same rfl rfl id rfl
    exact ⟨v, hclosing.close⟩
  | begin i t ht hstatus =>
    unfold Http11Protocol.begin
    split
    · exact ⟨v, h.setTask ht rfl nofun⟩
    · have hset : (p.setTask i { t with status := .running }).Serves parse v :=
        h.setTask ht rfl fun _ => Cycle.live_scheduled hstatus
      exact ⟨v, hset.same rfl rfl id rfl⟩
  | receive i t ht hstatus hhttp hr => exact h.receives hparse ht hr
  | resume k c hc hr => exact h.resumes hparse hr
  | abandon k hk => exact ⟨v, h.forget k⟩
  | send i t date message ht hstatus hhttp => exact ⟨v, h.send ht date message⟩
  | finish i t date ending ht hstatus hends => exact h.finishes hparse ht hstatus hends

theorem serves_new : new.Serves parse .fresh where
  toSettled := settled_new
  watched := by
    refine ⟨rfl, .inl ⟨Nat.zero_le _, fun _ => ⟨rfl, rfl, rfl, by decide⟩, nofun, nofun, nofun⟩⟩
  alone i t ht hl := by
    have hnone : new.tasks[i]? = none := List.getElem?_nil
    rw [hnone] at ht
    cases ht

theorem Serves.callback (hparse : InRange parse) (h : p.Serves parse v) {a : Callback}
    (hst : p.callback parse a = some p') : ∃ v', p'.Serves parse v' := by
  cases a with
  | step a => exact h.step hparse (stepped_of_step hst)
  | dataReceived data =>
    dsimp only [Http11Protocol.callback] at hst
    split at hst
    · rename_i hroom
      cases hst
      exact h.fed hparse hroom (fed_dataReceived parse p data)
    · cases hst
  | close =>
    cases hst
    exact ⟨v, h.close⟩

theorem serves_of_reachable (hparse : InRange parse) (h : (anytime parse).Reachable p) : ∃ v, p.Serves parse v := by
  apply h.inv (I := fun p => ∃ v, p.Serves parse v)
  · rintro p rfl
    exact ⟨.fresh, serves_new⟩
  · rintro p a p' ⟨v, hp⟩ hst
    exact hp.callback hparse hst

theorem anytime_of_reachable (h : (http11 parse).Reachable p) : (anytime parse).Reachable p :=
  h.inv (fun _ h0 => .init h0) fun _ a _ hp hst => hp.step (a := .step a) trivial hst

/-- While a task is not done, the engine waits for no head. -/
theorem Ready.busy (h : p.Ready parse v) (hstage : v.stage ≠ .idle) : p.conn.state.phase ≠ .idle := by
  intro hidle
  rcases h.watched.2 with hknown | ⟨hwraps, -⟩
  · have hwaits : p.conn.state = .waitingHeader ∨ p.conn.state = .keepAliveWait := by
      cases hs : p.conn.state with
      | waitingHeader => exact .inl rfl
      | keepAliveWait => exact .inr rfl
      | receivingContentLength remaining => rw [hs] at hidle; cases hidle
      | receivingChunked stage => rw [hs] at hidle; cases hidle
      | servingApp => rw [hs] at hidle; cases hidle
      | closed => rw [hs] at hidle; cases hidle
    exact hstage (hknown.waiting hwaits).1
  · rw [phase_of_wraps hwraps] at hidle
    cases hidle

theorem Serves.busy (h : p.Serves parse v) (hstage : v.stage ≠ .idle) : p.conn.state.phase ≠ .idle := h.ready.busy hstage

/-- At most one task is not done. -/
theorem Alone.live_le_one (h : p.Alone v) : p.live ≤ 1 := by
  unfold live
  rcases List.eq_nil_or_concat p.tasks with hnil | ⟨before, last, htasks⟩
  · rw [hnil]
    exact Nat.zero_le 1
  · have hnone : before.countP Cycle.live = 0 := by
      rw [List.countP_eq_zero]
      intro t ht hl
      obtain ⟨i, hi⟩ := List.getElem?_of_mem ht
      have hlt := (List.getElem?_eq_some_iff.1 hi).1
      have hlast := (h i t (by rw [htasks, List.concat_eq_append, List.getElem?_append_left hlt, hi]) (.inl hl)).1
      rw [htasks, List.length_concat] at hlast
      omega
    have hone : [last].countP Cycle.live ≤ 1 := List.countP_le_length
    rw [htasks, List.concat_eq_append, List.countP_append, hnone]
    omega

theorem Serves.keepAlive (h : p.Serves parse v) (hs : p.conn.state = .servingApp) : p.conn.keepAlive = v.keepAlive := by
  rcases h.watched.2 with hknown | ⟨⟨n, hn, -⟩, -⟩
  · exact (hknown.serving hs).2.2.symm
  · rw [hs] at hn
    cases hn

end Http11Protocol

end Multiloop.Http
