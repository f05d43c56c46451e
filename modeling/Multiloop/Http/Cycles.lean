import Multiloop.Http.KeepAlive
import Multiloop.Http.Steps

/-!
# What becomes of a task

Whatever happens to the connection, a task keeps the request it serves, and
only its own `send` changes what it has responded. A transport that is closed
stays so.
-/

namespace Multiloop.Http

namespace Http11Protocol

variable {parse : Httparse} {p p' p'' : Http11Protocol}

/-- The tasks keep what they have responded, those that are new have responded
nothing, and a closed transport stays closed. -/
structure Keeps (p p' : Http11Protocol) : Prop where
  closing : p.transport.closing = true → p'.transport.closing = true
  task : ∀ (i : Nat) (t : Cycle), p.tasks[i]? = some t →
    ∃ t', p'.tasks[i]? = some t' ∧ t'.start = t.start ∧ t'.response = t.response ∧ t'.bytesWritten = t.bytesWritten
  fresh : ∀ (i : Nat) (t' : Cycle), p'.tasks[i]? = some t' → p.tasks[i]? = none →
    t'.response = .new t'.start.keepAlive ∧ t'.bytesWritten = false
  upgraded : p'.upgraded = true → p.upgraded = true ∨ ∃ t ∈ p'.tasks, t.start.isWebsocket = true

theorem Keeps.websocket (h : p.Keeps p') (hws : ∃ t ∈ p.tasks, t.start.isWebsocket = true) :
    ∃ t ∈ p'.tasks, t.start.isWebsocket = true := by
  obtain ⟨t, ht, hws⟩ := hws
  obtain ⟨i, hi⟩ := List.getElem?_of_mem ht
  obtain ⟨t', ht', hstart, -⟩ := h.task i t hi
  exact ⟨t', List.mem_of_getElem? ht', hstart ▸ hws⟩

theorem Keeps.refl (p : Http11Protocol) : p.Keeps p where
  closing := id
  task _ t ht := ⟨t, ht, rfl, rfl, rfl⟩
  fresh _ t ht hnone := absurd (ht.symm.trans hnone) (Option.some_ne_none t)
  upgraded := .inl

theorem Keeps.trans (h : p.Keeps p') (h' : p'.Keeps p'') : p.Keeps p'' where
  closing hc := h'.closing (h.closing hc)
  task i t ht := by
    obtain ⟨t', ht', hs, hr, hb⟩ := h.task i t ht
    obtain ⟨t'', ht'', hs', hr', hb'⟩ := h'.task i t' ht'
    exact ⟨t'', ht'', hs'.trans hs, hr'.trans hr, hb'.trans hb⟩
  fresh i t'' ht'' hnone := by
    cases hmid : p'.tasks[i]? with
    | none => exact h'.fresh i t'' ht'' hmid
    | some t' =>
      obtain ⟨hr, hb⟩ := h.fresh i t' hmid hnone
      obtain ⟨u, hu, hs', hr', hb'⟩ := h'.task i t' hmid
      rw [ht''] at hu
      cases hu
      exact ⟨by rw [hr', hs', hr], hb'.trans hb⟩
  upgraded hup := by
    rcases h'.upgraded hup with hup | hws
    · exact (h.upgraded hup).imp_right h'.websocket
    · exact .inr hws

theorem Keeps.of_tasks (hclosing : p.transport.closing = true → p'.transport.closing = true)
    (hupgraded : p'.upgraded = true → p.upgraded = true) (htasks : p'.tasks = p.tasks) : p.Keeps p' where
  closing := hclosing
  task _ t ht := ⟨t, htasks ▸ ht, rfl, rfl, rfl⟩
  fresh _ t ht hnone := absurd ((htasks ▸ ht).symm.trans hnone) (Option.some_ne_none t)
  upgraded hup := .inl (hupgraded hup)

theorem keeps_setTask {i : Nat} {t t' : Cycle} (ht : p.tasks[i]? = some t) (hstart : t'.start = t.start)
    (hresponse : t'.response = t.response) (hwritten : t'.bytesWritten = t.bytesWritten) :
    p.Keeps (p.setTask i t') where
  closing := id
  task j u hu := by
    show ∃ u', (p.tasks.set i t')[j]? = some u' ∧ _
    by_cases hj : i = j
    · subst hj
      rw [ht] at hu
      cases hu
      exact ⟨t', List.getElem?_set_self (List.getElem?_eq_some_iff.1 ht).1, hstart, hresponse, hwritten⟩
    · exact ⟨u, (List.getElem?_set_ne hj).trans hu, rfl, rfl, rfl⟩
  fresh j u hu hnone := by
    change (p.tasks.set i t')[j]? = some u at hu
    have hj := (List.getElem?_eq_some_iff.1 hu).1
    rw [List.length_set] at hj
    have hlen := List.getElem?_eq_none_iff.1 hnone
    omega
  upgraded := .inl

theorem keeps_createTask (p : Http11Protocol) (start : RequestStart) : p.Keeps (p.createTask start) where
  closing := id
  task i t ht := by
    refine ⟨t, ?_, rfl, rfl, rfl⟩
    show (p.tasks ++ [.new start])[i]? = some t
    rw [List.getElem?_append_left (List.getElem?_eq_some_iff.1 ht).1]
    exact ht
  fresh i t' ht' hnone := by
    change (p.tasks ++ [.new start])[i]? = some t' at ht'
    rw [List.getElem?_append_right (List.getElem?_eq_none_iff.1 hnone)] at ht'
    rw [List.mem_singleton.1 (List.mem_of_getElem? ht')]
    exact ⟨rfl, rfl⟩
  upgraded := .inl

theorem cancel_keeps (t : Cycle) :
    t.cancel.start = t.start ∧ t.cancel.response = t.response ∧ t.cancel.bytesWritten = t.bytesWritten := by
  unfold Cycle.cancel
  split
  · exact ⟨rfl, rfl, rfl⟩
  · exact ⟨rfl, rfl, rfl⟩

theorem keeps_close (p : Http11Protocol) : p.Keeps p.close := by
  unfold Http11Protocol.close
  split
  · exact .refl p
  · have hclosed : p.Keeps { p.disconnect with state := .closed, transport := p.transport.close } :=
      .of_tasks (fun _ => rfl) id rfl
    cases hcurrent : p.currentTask with
    | none => exact .of_tasks (fun _ => rfl) id rfl
    | some k =>
      cases hk : p.tasks[k]? with
      | none =>
        refine .of_tasks (fun _ => rfl) id ?_
        exact List.modify_eq_self (List.getElem?_eq_none_iff.1 hk)
      | some t =>
        obtain ⟨hs, hr, hb⟩ := cancel_keeps t
        have hset : p.Keeps ({ p.disconnect with
            state := .closed
            transport := p.transport.close }.setTask k t.cancel) := hclosed.trans (keeps_setTask hk hs hr hb)
        refine hset.trans (.of_tasks id id ?_)
        show p.tasks.modify k Cycle.cancel = p.tasks.set k t.cancel
        rw [List.modify_eq_set_getElem?, hk]
        rfl

theorem keeps_serve (p : Http11Protocol) (start : RequestStart) : p.Keeps (p.serve start) := by
  have hserving : p.Keeps { p with
      state := .servingApp
      bodyQueue := if start.hasBody then some p.tasks.length else none
      queues := Function.update p.queues p.tasks.length []
      disconnectEvent := false } := .of_tasks id id rfl
  exact hserving.trans (keeps_createTask _ start)

theorem keeps_handleEvent (p : Http11Protocol) (e : Event) : p.Keeps (p.handleEvent e) := by
  unfold handleEvent
  cases e with
  | requestStart start =>
    dsimp only
    split
    · have hserving : p.Keeps { p with state := .servingApp } := .of_tasks id id rfl
      exact hserving.trans (keeps_createTask _ start)
    split
    · exact .of_tasks id id rfl
    · exact keeps_serve p start
  | body chunk moreBody =>
    dsimp only
    split
    · refine .of_tasks (fun hc => ?_) id rfl
      show (if _ then p.transport.pauseReading else p.transport).closing = true
      split
      · exact p.transport.closing_pauseReading.trans hc
      · exact hc
    · exact .refl p
  | upgrade proto => exact .refl p
  | message opcode fin payload => exact .refl p
  | error status response =>
    have hclosed : p.Keeps { p with transport := (p.transport.write response).close } := .of_tasks (fun _ => rfl) id rfl
    exact hclosed.trans (keeps_close _)

theorem keeps_handleEvents (p : Http11Protocol) (evs : List Event) : p.Keeps (p.handleEvents evs) := by
  induction evs generalizing p with
  | nil => exact .refl p
  | cons e evs ih => exact (keeps_handleEvent p e).trans (ih (p.handleEvent e))

theorem keeps_afterPump (parse : Httparse) (p : Http11Protocol) : p.Keeps (p.afterPump parse) := by
  have hconn : ∀ c, p.Keeps { p with conn := c } := fun c => .of_tasks id id rfl
  unfold Http11Protocol.afterPump pump
  dsimp only
  split
  · exact (hconn _).trans (keeps_handleEvents _ _)
  · exact hconn _

theorem keeps_takes {q : Nat} {r : Received} (hr : Takes parse p q r p') : p.Keeps p' := by
  cases hr with
  | last chunk queue hqueue => exact .of_tasks id id rfl
  | gone chunk queue hqueue hnone => exact .of_tasks id id rfl
  | more chunk queue current hqueue hcurrent hmany => exact .of_tasks id id rfl
  | pumped chunk queue current hqueue hcurrent hfew =>
    have hresumed : p.Keeps { p.dequeue q queue with transport := p.transport.resumeReading } :=
      .of_tasks (fun hc => p.transport.closing_resumeReading.trans hc) id rfl
    exact hresumed.trans (keeps_afterPump parse _)

theorem keeps_receives {i : Nat} {t : Cycle} (ht : p.tasks[i]? = some t) {r : Option Received}
    (hr : Receives parse p i t r p') : p.Keeps p' := by
  cases hr with
  | empty hbody hfirst => exact keeps_setTask ht rfl rfl rfl
  | disconnect hset => exact .refl p
  | takes q hbody hcurrent htakes => exact keeps_takes htakes
  | waits hnone => exact .of_tasks id id rfl
  | gets q hbody hcurrent hempty => exact .of_tasks id id rfl

theorem keeps_forget (p : Http11Protocol) (k : Nat) : p.Keeps (p.forget k) := .of_tasks id id rfl

theorem keeps_resumes {k : Nat} {c : Receiving} {r : Received} (hr : Resumes parse p k c r p') : p.Keeps p' := by
  cases hr with
  | disconnect hset => exact keeps_forget p k
  | takes q hget htakes => exact (keeps_forget p k).trans (keeps_takes htakes)

theorem keeps_fed {data : Bytes} (hfed : Fed parse p data p') : p.Keeps p' := by
  have hconn : ∀ c, p.Keeps { p with conn := c } := fun c => .of_tasks id id rfl
  cases hfed with
  | upgraded hup => exact .refl p
  | told hplain hfault => exact (hconn _).trans (keeps_handleEvents _ _)
  | panicked hplain hfault => exact .of_tasks (fun _ => rfl) id rfl

theorem keeps_afterCycle (parse : Httparse) (p : Http11Protocol) : p.Keeps (p.afterCycle parse) := by
  unfold Http11Protocol.afterCycle
  dsimp only
  split
  · exact .of_tasks (fun _ => rfl) id rfl
  · split
    · rename_i start pending _
      have hreset : p.Keeps { p.disconnect with
          state := .keepAliveWait
          conn := p.conn.resetForNextRequest
          pendingPipelineEvents := pending } := .of_tasks id id rfl
      exact hreset.trans (keeps_serve _ start)
    · have hreset : p.Keeps { p.disconnect with
          state := .keepAliveWait
          conn := p.conn.resetForNextRequest } := .of_tasks id id rfl
      exact hreset.trans (keeps_afterPump parse _)

theorem keeps_finishes {i : Nat} {t : Cycle} (ht : p.tasks[i]? = some t) {date : Bytes} {ending : Ending}
    (hends : Finishes parse p i t date ending p') : p.Keeps p' := by
  have hset : p.Keeps (p.setTask i { t with status := .finished }) := keeps_setTask ht rfl rfl rfl
  cases hends with
  | websocket hws =>
    split
    · exact hset.trans (keeps_close _)
    · exact hset
  | http hhttp hleft =>
    cases hleft with
    | raised hunsent hopen =>
      have hanswered : p.Keeps { p.setTask i { t with status := .finished } with
          transport := (p.transport.write (errResp date)).close } := hset.trans (.of_tasks (fun _ => rfl) id rfl)
      exact hanswered.trans (keeps_afterCycle parse _)
    | other hother => exact hset.trans (keeps_afterCycle parse _)

theorem keeps_begin {i : Nat} {t : Cycle} (ht : p.tasks[i]? = some t) : p.Keeps (p.begin i t) := by
  unfold Http11Protocol.begin
  split
  · exact keeps_setTask ht rfl rfl rfl
  · have hset : p.Keeps (p.setTask i { t with status := .running }) := keeps_setTask ht rfl rfl rfl
    refine ⟨hset.closing, hset.task, hset.fresh, fun hup => ?_⟩
    change (p.upgraded || t.start.isWebsocket) = true at hup
    rcases Bool.or_eq_true_iff.1 hup with hup | hws
    · exact .inl hup
    · obtain ⟨t', ht', hstart, -⟩ := hset.task i t ht
      exact .inr ⟨t', List.mem_of_getElem? ht', hstart ▸ hws⟩

/-- What a step does to the tasks: a task sends, or all keep what they have
responded. -/
theorem step_keeps {a : Action} (hst : Stepped parse p a p') :
    (∃ i t date message, a = .send i date message ∧ p.tasks[i]? = some t ∧ p' = p.send i t date message) ∨
      p.Keeps p' := by
  cases hst with
  | dataReceived data hopen hread hroom hfed => exact .inr (keeps_fed hfed)
  | eofReceived hopen =>
    unfold Http11Protocol.eofReceived
    right
    split
    · exact .refl p
    · exact .of_tasks (fun _ => rfl) id rfl
  | connectionLost =>
    have hclosed : p.Keeps { p with transport := p.transport.close } := .of_tasks (fun _ => rfl) id rfl
    exact .inr (hclosed.trans (keeps_close _))
  | begin i t ht hstatus => exact .inr (keeps_begin ht)
  | receive i t ht hstatus hhttp hr => exact .inr (keeps_receives ht hr)
  | resume k c hc hr => exact .inr (keeps_resumes hr)
  | abandon k hk => exact .inr (keeps_forget p k)
  | send i t date message ht hstatus hhttp => exact .inl ⟨i, t, date, message, rfl, ht, rfl⟩
  | finish i t date ending ht hstatus hends => exact .inr (keeps_finishes ht hends)

/-- What a `send` does to its task. -/
theorem tasks_send {i : Nat} {t : Cycle} (ht : p.tasks[i]? = some t) (date : Bytes) (message : Message) :
    (∃ t', (p.send i t date message).tasks[i]? = some t' ∧ t'.start = t.start ∧ t'.status = t.status ∧
      (t'.response = t.response ∨ t.response.send t.start.method date message = .ok t'.response) ∧
      (t.bytesWritten = true → t'.bytesWritten = true)) ∧
    (∀ j, j ≠ i → (p.send i t date message).tasks[j]? = p.tasks[j]?) ∧
    (p.send i t date message).tasks.length = p.tasks.length := by
  unfold Http11Protocol.send
  split
  · exact ⟨⟨t, ht, rfl, rfl, .inl rfl, id⟩, fun j hj => rfl, rfl⟩
  · rename_i response hresponse
    refine ⟨⟨_, List.getElem?_set_self (List.getElem?_eq_some_iff.1 ht).1, rfl, rfl, .inr hresponse, fun hb => ?_⟩,
      fun j hj => List.getElem?_set_ne hj.symm, List.length_set⟩
    dsimp only
    rw [hb]
    rfl

theorem closing_send {i : Nat} {t : Cycle} (date : Bytes) (message : Message) (h : p.transport.closing = true) :
    (p.send i t date message).transport.closing = true := by
  unfold Http11Protocol.send
  split
  · exact h
  · dsimp only
    split
    · rfl
    · exact (p.transport.closing_write _).trans h

/-- Only a websocket makes the protocol hand over what it receives. -/
theorem websocket_of_upgraded (h : (http11 parse).Reachable p) (hup : p.upgraded = true) :
    ∃ t ∈ p.tasks, t.start.isWebsocket = true := by
  suffices hinv : p.upgraded = true → ∃ t ∈ p.tasks, t.start.isWebsocket = true from hinv hup
  clear hup
  refine h.inv (I := fun p => p.upgraded = true → ∃ t ∈ p.tasks, t.start.isWebsocket = true) ?_ ?_
  · rintro p rfl hup
    cases hup
  · intro p a p' ih hst hup
    rcases step_keeps (stepped_of_step hst) with ⟨i, t, date, message, -, ht, rfl⟩ | hkeeps
    · have hsame : (p.send i t date message).upgraded = p.upgraded := by
        unfold Http11Protocol.send
        split
        · rfl
        · rfl
      obtain ⟨u, hu, hws⟩ := ih (hsame.symm.trans hup)
      obtain ⟨j, hj⟩ := List.getElem?_of_mem hu
      obtain ⟨⟨t', ht', hstart, -⟩, hother, -⟩ := tasks_send ht date message
      by_cases hji : j = i
      · subst hji
        rw [ht] at hj
        cases hj
        exact ⟨t', List.mem_of_getElem? ht', hstart ▸ hws⟩
      · exact ⟨u, List.mem_of_getElem? ((hother j hji).trans hj), hws⟩
    · exact (hkeeps.upgraded hup).elim (fun hup => hkeeps.websocket (ih hup)) id

end Http11Protocol

end Multiloop.Http
