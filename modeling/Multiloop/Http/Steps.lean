import Multiloop.Http.Protocol

/-!
# What a step can do

The steps of a connection as relations, with what each needs and where it
leads: a call of the engine, `receive` up to where it is suspended and from
there on, the end of a cycle, and the steps themselves. What all steps keep is shown by cases on them.
-/

namespace Multiloop.Http

namespace Http11Protocol

variable {parse : Httparse} {p p' : Http11Protocol}

/-- A call of the engine, and what is done about its events. -/
inductive Pumped (parse : Httparse) (p : Http11Protocol) : Http11Protocol → Prop
  | told (hfault : (p.conn.processEvents .release parse).fault = none) :
      Pumped parse p ({ p with conn := (p.conn.processEvents .release parse).conn }.handleEvents
        (p.conn.processEvents .release parse).events)
  | panicked (hfault : (p.conn.processEvents .release parse).fault ≠ none) :
      Pumped parse p { p with conn := (p.conn.processEvents .release parse).conn }

theorem pumped_afterPump (parse : Httparse) (p : Http11Protocol) : Pumped parse p (p.afterPump parse) := by
  unfold Http11Protocol.afterPump pump
  dsimp only
  split
  · rename_i hfault
    exact .told hfault
  · rename_i hfault
    exact .panicked hfault

theorem pump_eq_some (h : p.pump parse = some p') :
    (p.conn.processEvents .release parse).fault = none ∧ p.afterPump parse = p' := by
  refine ⟨?_, by rw [Http11Protocol.afterPump, h, Option.getD_some]⟩
  unfold pump at h
  dsimp only at h
  split at h
  · rename_i hfault
    exact hfault
  · cases h

theorem pump_eq_none (h : p.pump parse = none) : (p.conn.processEvents .release parse).fault ≠ none := by
  unfold pump at h
  dsimp only at h
  split at h
  · cases h
  · rename_i hfault
    exact hfault

/-- What `receive` can return, and do, once it is given the first item of queue
`q`. -/
inductive Takes (parse : Httparse) (p : Http11Protocol) (q : Nat) : Received → Http11Protocol → Prop
  | last (chunk : Bytes) (queue : List (Bytes × Bool)) (hqueue : p.queues q = (chunk, false) :: queue) :
      Takes parse p q (.request chunk false) { p.dequeue q queue with bodyQueue := none }
  /-- The queue was removed while the call was suspended. -/
  | gone (chunk : Bytes) (queue : List (Bytes × Bool)) (hqueue : p.queues q = (chunk, true) :: queue)
      (hnone : p.bodyQueue = none) : Takes parse p q .attributeError (p.dequeue q queue)
  | more (chunk : Bytes) (queue : List (Bytes × Bool)) (current : Nat)
      (hqueue : p.queues q = (chunk, true) :: queue) (hcurrent : p.bodyQueue = some current)
      (hmany : queueResumeSize < ((p.dequeue q queue).queues current).length) :
      Takes parse p q (.request chunk true) (p.dequeue q queue)
  | pumped (chunk : Bytes) (queue : List (Bytes × Bool)) (current : Nat)
      (hqueue : p.queues q = (chunk, true) :: queue) (hcurrent : p.bodyQueue = some current)
      (hfew : ((p.dequeue q queue).queues current).length ≤ queueResumeSize) :
      Takes parse p q
        (if (p.conn.processEvents .release parse).fault = none then .request chunk true else .panicked)
        ({ p.dequeue q queue with transport := p.transport.resumeReading }.afterPump parse)

theorem takes_of_take {q : Nat} {r : Received × Http11Protocol} (hr : p.take parse q = some r) :
    Takes parse p q r.1 r.2 := by
  unfold Http11Protocol.take at hr
  split at hr
  · cases hr
  rename_i chunk more queue hqueue
  dsimp only at hr
  cases more with
  | false =>
    cases hr
    exact .last chunk queue hqueue
  | true =>
    rw [if_neg (not_not.2 rfl)] at hr
    split at hr
    · rename_i hnone
      cases hr
      exact .gone chunk queue hqueue hnone
    · rename_i current hcurrent
      split at hr
      · rename_i hfew
        have hpumped : Takes parse p q _ _ := .pumped chunk queue current hqueue hcurrent hfew
        split at hr
        · rename_i p' hp'
          cases hr
          obtain ⟨hfault, rfl⟩ := pump_eq_some hp'
          change (p.conn.processEvents .release parse).fault = none at hfault
          rw [if_pos hfault] at hpumped
          exact hpumped
        · rename_i hp'
          cases hr
          have hfault := pump_eq_none hp'
          change (p.conn.processEvents .release parse).fault ≠ none at hfault
          rw [if_neg hfault] at hpumped
          exact hpumped
      · rename_i hmany
        cases hr
        exact .more chunk queue current hqueue hcurrent (Nat.lt_of_not_le hmany)

/-- An empty queue gives nothing. -/
theorem take_eq_none {q : Nat} (hr : p.take parse q = none) : p.queues q = [] := by
  unfold Http11Protocol.take at hr
  split at hr
  · rename_i hqueue
    exact hqueue
  · dsimp only at hr
    split at hr
    · cases hr
    split at hr
    · cases hr
    split at hr
    · split at hr
      · cases hr
      · cases hr
    · cases hr

/-- What a call of `receive` can return, and do; it returns nothing where it is
suspended. -/
inductive Receives (parse : Httparse) (p : Http11Protocol) (i : Nat) (t : Cycle) :
    Option Received → Http11Protocol → Prop
  | empty (hbody : t.start.hasBody = false) (hfirst : t.emptyBodyDelivered = false) :
      Receives parse p i t (some (.request [] false)) (p.setTask i { t with emptyBodyDelivered := true })
  | disconnect (hset : p.disconnectEvent = true) : Receives parse p i t (some .disconnect) p
  | takes (q : Nat) (hbody : t.start.hasBody = true) (hcurrent : p.bodyQueue = some q) {r : Received}
      {p' : Http11Protocol} (htakes : Takes parse p q r p') : Receives parse p i t (some r) p'
  /-- There is no queue for it. -/
  | waits (hnone : t.start.hasBody = true → p.bodyQueue = none) :
      Receives parse p i t none (p.suspend i (.disconnect false))
  /-- The queue is empty. -/
  | gets (q : Nat) (hbody : t.start.hasBody = true) (hcurrent : p.bodyQueue = some q) (hempty : p.queues q = []) :
      Receives parse p i t none (p.suspend i (.get q))

theorem receives_receive (parse : Httparse) (p : Http11Protocol) (i : Nat) (t : Cycle) :
    Receives parse p i t (p.receive parse i t).1 (p.receive parse i t).2 := by
  unfold Http11Protocol.receive
  split
  · rename_i hempty
    exact .empty (eq_false_of_ne_true hempty.1) (eq_false_of_ne_true hempty.2)
  split
  · rename_i hnone
    split
    · rename_i hset
      exact .disconnect hset
    · refine .waits fun hbody => ?_
      rwa [if_pos hbody] at hnone
  · rename_i q hq
    have hbody : t.start.hasBody = true := by
      by_contra hnone
      rw [if_neg hnone] at hq
      cases hq
    rw [if_pos hbody] at hq
    split
    · rename_i r p' hr
      exact .takes q hbody hq (takes_of_take hr)
    · rename_i hr
      exact .gets q hbody hq (take_eq_none hr)

/-- What a call of `receive` that was suspended can return, and do. -/
inductive Resumes (parse : Httparse) (p : Http11Protocol) (k : Nat) (c : Receiving) : Received → Http11Protocol → Prop
  | disconnect (hset : c.suspension = .disconnect true) : Resumes parse p k c .disconnect (p.forget k)
  | takes (q : Nat) (hget : c.suspension = .get q) {r : Received} {p' : Http11Protocol}
      (htakes : Takes parse (p.forget k) q r p') : Resumes parse p k c r p'

theorem resumes_of_resume {k : Nat} {c : Receiving} {r : Received × Http11Protocol}
    (hr : p.resume parse k c = some r) : Resumes parse p k c r.1 r.2 := by
  unfold Http11Protocol.resume at hr
  split at hr
  · rename_i set hset
    cases set with
    | true =>
      cases hr
      exact .disconnect hset
    | false => cases hr
  · rename_i q hget
    exact .takes q hget (takes_of_take hr)

/-- What bytes that are received can do. -/
inductive Fed (parse : Httparse) (p : Http11Protocol) (data : Bytes) : Http11Protocol → Prop
  | upgraded (hup : p.upgraded = true) : Fed parse p data p
  | told (hplain : p.upgraded = false) (hfault : (p.conn.feedData .release parse data).fault = none) :
      Fed parse p data ({ p with conn := (p.conn.feedData .release parse data).conn }.handleEvents
        (p.conn.feedData .release parse data).events)
  | panicked (hplain : p.upgraded = false) (hfault : (p.conn.feedData .release parse data).fault ≠ none) :
      Fed parse p data
        { p with conn := (p.conn.feedData .release parse data).conn, transport := p.transport.close }

theorem fed_dataReceived (parse : Httparse) (p : Http11Protocol) (data : Bytes) :
    Fed parse p data (p.dataReceived parse data) := by
  unfold Http11Protocol.dataReceived
  split
  · rename_i hup
    exact .upgraded hup
  · rename_i hup
    have hplain := eq_false_of_ne_true hup
    dsimp only
    split
    · rename_i hfault
      exact .told hplain hfault
    · rename_i hfault
      exact .panicked hplain hfault

/-- The `finally` block, up to the pump. -/
def reset (p : Http11Protocol) : Http11Protocol :=
  let p := { p.disconnect with conn := p.conn.resetForNextRequest }
  if p.conn.isClosed then { p with transport := p.transport.close } else { p with state := .keepAliveWait }

theorem afterCycle_eq (hpending : p.pendingPipelineEvents = []) :
    p.afterCycle parse = if p.conn.resetForNextRequest.isClosed then p.reset else p.reset.afterPump parse := by
  unfold Http11Protocol.afterCycle reset
  dsimp only
  split
  · rfl
  · rw [show p.disconnect.pendingPipelineEvents = [] from hpending]

/-- What the application may leave to the `finally` block: the task is done,
and an error was answered if it responded nothing and the transport is open. -/
inductive Left (p : Http11Protocol) (i : Nat) (t : Cycle) (date : Bytes) : Ending → Http11Protocol → Prop
  | raised (hunsent : t.bytesWritten = false) (hopen : p.transport.closing = false) : Left p i t date .raised
      { p.setTask i { t with status := .finished } with transport := (p.transport.write (errResp date)).close }
  | other {ending : Ending} (hother : ¬ (ending = .raised ∧ t.bytesWritten = false ∧ p.transport.closing = false)) :
      Left p i t date ending (p.setTask i { t with status := .finished })

/-- What the end of an application can do. -/
inductive Finishes (parse : Httparse) (p : Http11Protocol) (i : Nat) (t : Cycle) (date : Bytes) (ending : Ending) :
    Http11Protocol → Prop
  | websocket (hws : t.start.isWebsocket = true) : Finishes parse p i t date ending
      (if ending = .returned then (p.setTask i { t with status := .finished }).close
        else p.setTask i { t with status := .finished })
  | http (hhttp : t.start.isWebsocket = false) {q : Http11Protocol} (hleft : Left p i t date ending q) :
      Finishes parse p i t date ending (q.afterCycle parse)

theorem finishes_finish (parse : Httparse) (p : Http11Protocol) (i : Nat) (t : Cycle) (date : Bytes) (ending : Ending) :
    Finishes parse p i t date ending (p.finish parse i t date ending) := by
  unfold Http11Protocol.finish
  dsimp only
  split
  · rename_i hws
    exact .websocket hws
  · rename_i hhttp
    apply Finishes.http (eq_false_of_ne_true hhttp)
    split
    · rename_i herror
      obtain ⟨rfl, hunsent, hopen⟩ := herror
      exact .raised (eq_false_of_ne_true hunsent) (eq_false_of_ne_true hopen)
    · rename_i hother
      refine .other fun ⟨hraised, hunsent, hopen⟩ => hother ⟨hraised, ?_, ?_⟩
      · rw [hunsent]
        exact Bool.false_ne_true
      · show ¬ p.transport.closing = true
        rw [hopen]
        exact Bool.false_ne_true

/-- A step, with the task that takes it. -/
inductive Stepped (parse : Httparse) (p : Http11Protocol) : Action → Http11Protocol → Prop
  | dataReceived (data : Bytes) (hopen : p.transport.closing = false) (hread : p.transport.paused = false)
      (hroom : (p.conn.buffer ++ data).length < 2 ^ 63) {q : Http11Protocol} (hfed : Fed parse p data q) :
      Stepped parse p (.dataReceived data) q
  | eofReceived (hopen : p.transport.closing = false) : Stepped parse p .eofReceived p.eofReceived
  | connectionLost : Stepped parse p .connectionLost p.connectionLost
  | begin (i : Nat) (t : Cycle) (ht : p.tasks[i]? = some t) (hstatus : t.status = .scheduled) :
      Stepped parse p (.begin i) (p.begin i t)
  | receive (i : Nat) (t : Cycle) (ht : p.tasks[i]? = some t) (hstatus : t.status ≠ .scheduled)
      (hhttp : t.start.isWebsocket = false) {r : Option Received} {q : Http11Protocol}
      (hr : Receives parse p i t r q) : Stepped parse p (.receive i) q
  | resume (k : Nat) (c : Receiving) (hc : p.receiving[k]? = some c) {r : Received} {q : Http11Protocol}
      (hr : Resumes parse p k c r q) : Stepped parse p (.resume k) q
  | abandon (k : Nat) (hk : k < p.receiving.length) : Stepped parse p (.abandon k) (p.forget k)
  | send (i : Nat) (t : Cycle) (date : Bytes) (message : Message) (ht : p.tasks[i]? = some t)
      (hstatus : t.status ≠ .scheduled) (hhttp : t.start.isWebsocket = false) :
      Stepped parse p (.send i date message) (p.send i t date message)
  | finish (i : Nat) (t : Cycle) (date : Bytes) (ending : Ending) (ht : p.tasks[i]? = some t)
      (hstatus : t.status = .running) {q : Http11Protocol} (hends : Finishes parse p i t date ending q) :
      Stepped parse p (.finish i date ending) q

theorem stepped_of_step {a : Action} (hst : p.step parse a = some p') : Stepped parse p a p' := by
  cases a with
  | dataReceived data =>
    dsimp only [Http11Protocol.step] at hst
    split at hst
    · rename_i hroom
      cases hst
      exact .dataReceived data (eq_false_of_ne_true hroom.1) (eq_false_of_ne_true hroom.2.1) hroom.2.2
        (fed_dataReceived parse p data)
    · cases hst
  | eofReceived =>
    dsimp only [Http11Protocol.step] at hst
    split at hst
    · cases hst
    · rename_i hopen
      cases hst
      exact .eofReceived (eq_false_of_ne_true hopen)
  | connectionLost =>
    cases hst
    exact .connectionLost
  | begin i =>
    obtain ⟨t, ht, hst⟩ := Option.bind_eq_some_iff.1 hst
    split at hst
    · rename_i hstatus
      cases hst
      exact .begin i t ht hstatus
    · cases hst
  | receive i =>
    obtain ⟨t, ht, hst⟩ := Option.bind_eq_some_iff.1 hst
    split at hst
    · cases hst
    · rename_i hlegal
      rw [not_or] at hlegal
      cases hst
      exact .receive i t ht hlegal.1 (eq_false_of_ne_true hlegal.2) (receives_receive parse p i t)
  | resume k =>
    obtain ⟨c, hc, hst⟩ := Option.bind_eq_some_iff.1 hst
    obtain ⟨r, hr, rfl⟩ := Option.map_eq_some_iff.1 hst
    exact .resume k c hc (resumes_of_resume hr)
  | abandon k =>
    dsimp only [Http11Protocol.step] at hst
    split at hst
    · rename_i hk
      cases hst
      exact .abandon k hk
    · cases hst
  | send i date message =>
    obtain ⟨t, ht, hst⟩ := Option.bind_eq_some_iff.1 hst
    split at hst
    · cases hst
    · rename_i hlegal
      rw [not_or] at hlegal
      cases hst
      exact .send i t date message ht hlegal.1 (eq_false_of_ne_true hlegal.2)
  | finish i date ending =>
    obtain ⟨t, ht, hst⟩ := Option.bind_eq_some_iff.1 hst
    split at hst
    · rename_i hstatus
      cases hst
      exact .finish i t date ending ht hstatus (finishes_finish parse p i t date ending)
    · cases hst

theorem step_send {i : Nat} {t : Cycle} (ht : p.tasks[i]? = some t) (hstatus : t.status ≠ .scheduled)
    (hhttp : t.start.isWebsocket = false) (date : Bytes) (message : Message) :
    p.step parse (.send i date message) = some (p.send i t date message) := by
  have hlegal : ¬ (t.status = .scheduled ∨ t.start.isWebsocket = true) := by
    rw [not_or, hhttp]
    exact ⟨hstatus, Bool.false_ne_true⟩
  show p.tasks[i]?.bind _ = _
  rw [ht, Option.bind_some]
  exact if_neg hlegal

end Http11Protocol

end Multiloop.Http
