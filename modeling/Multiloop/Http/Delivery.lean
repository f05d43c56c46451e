import Multiloop.Http.Bodies
import Multiloop.Http.Cycles
import Multiloop.Http.Serving

/-!
# Delivery of request bodies

What `receive` returns to the applications of a connection, in every run: the
messages for a request are the first of the parts of its body, as its bytes
spell them. What is in the queue that was made for a request is the rest of the
parts that the engine has told, as long as the queue is in place; after that a
call that was suspended at it may still take a part. In a run in which no cycle
that leaves the connection open ends while reading is paused, and no such call
takes the last part while the queue of another request is in place, an
application that waits for a message does not wait for a transport that is
paused.
-/

namespace Multiloop.Http

namespace Receiving

variable {c : Receiving} {q : Nat}

@[simp] theorem task_wake (c : Receiving) : c.wake.task = c.task := by
  unfold wake
  split
  · rfl
  · rfl

theorem wake_get (h : c.wake.suspension = .get q) : c.wake = c := by
  unfold wake at h ⊢
  split
  · rename_i set hset
    rw [hset] at h
    cases h
  · rfl

theorem wake_disconnect {set : Bool} (h : c.wake.suspension = .disconnect set) :
    ∃ set', c.suspension = .disconnect set' := by
  unfold wake at h
  split at h
  · rename_i set' hset
    exact ⟨set', hset⟩
  · exact ⟨set, h⟩

end Receiving

namespace Http11Protocol

variable {parse : Httparse} {p p' : Http11Protocol} {v v' : Told} {mv mv' : Monitor} {ph ph' : Phase}
  {got : Nat → List Part} {jam idle : Prop}

/-! ## The calls that are suspended -/

/-- A call of `receive` for request `i` waits for a part of its body. -/
def Held (p : Http11Protocol) (i : Nat) : Prop := ⟨i, .get i⟩ ∈ p.receiving

/-- A call waits at the queue of its own request, which has a body, or for the
end of the connection while its request has no queue. -/
def Placed (p : Http11Protocol) (start : RequestStart) (c : Receiving) : Prop :=
  match c.suspension with
  | .get q => q = c.task ∧ start.hasBody = true
  | .disconnect _ => p.bodyQueue ≠ some c.task

/-- Calls are made one at a time, each for a request that was started. -/
structure Calling (p : Http11Protocol) : Prop where
  single : (p.receiving.map (·.task)).Nodup
  placed : ∀ c ∈ p.receiving, ∃ start, (p.tasks.map (·.start))[c.task]? = some start ∧ p.Placed start c

/-- No call is suspended that was not before. -/
structure Fewer (p p' : Http11Protocol) : Prop where
  single : (p'.receiving.map (·.task)).Sublist (p.receiving.map (·.task))
  before : ∀ c ∈ p'.receiving, ∃ c₀ ∈ p.receiving, c = c₀ ∨ c = c₀.wake

theorem fewer_of_eq (h : p'.receiving = p.receiving) : p.Fewer p' where
  single := by rw [h]
  before c hc := ⟨c, h ▸ hc, .inl rfl⟩

theorem fewer_disconnect (h : p'.receiving = p.receiving.map Receiving.wake) : p.Fewer p' where
  single := by
    have hmap : p'.receiving.map (·.task) = p.receiving.map (·.task) := by
      rw [h, List.map_map]
      exact List.map_congr_left fun c _ => c.task_wake
    rw [hmap]
  before c hc := by
    rw [h] at hc
    obtain ⟨c₀, hc₀, rfl⟩ := List.mem_map.1 hc
    exact ⟨c₀, hc₀, .inr rfl⟩

theorem fewer_forget {k : Nat} (h : p'.receiving = p.receiving.eraseIdx k) : p.Fewer p' where
  single := by
    rw [h]
    exact (List.eraseIdx_sublist _ k).map _
  before c hc := ⟨c, List.mem_of_mem_eraseIdx (h ▸ hc), .inl rfl⟩

theorem Fewer.held (h : p.Fewer p') {i : Nat} (hheld : p'.Held i) : p.Held i := by
  obtain ⟨c, hc, heq | heq⟩ := h.before _ hheld
  · unfold Held
    rw [heq]
    exact hc
  · have hsame : c.wake = c := Receiving.wake_get (q := i) (by rw [← heq])
    unfold Held
    rw [heq, hsame]
    exact hc

/-- The calls go on to wait, where a queue is at most taken away, or is that of
a request that starts. -/
theorem Calling.fewer (h : p.Calling) (hf : p.Fewer p')
    (htasks : ∀ (i : Nat) (start : RequestStart), (p.tasks.map (·.start))[i]? = some start →
      (p'.tasks.map (·.start))[i]? = some start)
    (hqueue : ∀ i, p'.bodyQueue = some i → p.bodyQueue = some i ∨ p.tasks.length ≤ i) : p'.Calling where
  single := h.single.sublist hf.single
  placed c hc := by
    obtain ⟨c₀, hc₀, heq⟩ := hf.before c hc
    obtain ⟨start, hstart, hplaced⟩ := h.placed c₀ hc₀
    have htask : c.task = c₀.task := by
      rcases heq with rfl | rfl
      · rfl
      · exact c₀.task_wake
    refine ⟨start, htask ▸ htasks _ _ hstart, ?_⟩
    unfold Placed at hplaced ⊢
    split
    · rename_i q hget
      have hsame : c = c₀ := heq.elim id fun hwake => hwake.trans (Receiving.wake_get (hwake ▸ hget))
      subst hsame
      rw [hget] at hplaced
      exact hplaced
    · rename_i set hset
      obtain ⟨set', hset'⟩ : ∃ set', c₀.suspension = .disconnect set' := by
        rcases heq with rfl | rfl
        · exact ⟨set, hset⟩
        · exact Receiving.wake_disconnect hset
      rw [hset'] at hplaced
      intro hcurrent
      rw [htask] at hcurrent
      rcases hqueue _ hcurrent with hold | hnew
      · exact hplaced hold
      · have hlt := (List.getElem?_eq_some_iff.1 hstart).1
        rw [List.length_map] at hlt
        omega

/-- Another call is suspended. -/
theorem Calling.suspend (h : p.Calling) {i : Nat} {t : Cycle} (ht : p.tasks[i]? = some t)
    (hnone : ∀ c ∈ p.receiving, c.task ≠ i) {s : Suspension} (hplaced : p.Placed t.start ⟨i, s⟩) :
    (p.suspend i s).Calling where
  single := by
    show ((p.receiving ++ [(⟨i, s⟩ : Receiving)]).map Receiving.task).Nodup
    rw [List.map_append, List.map_singleton]
    refine List.nodup_append.2 ⟨h.single, List.nodup_cons.2 ⟨List.not_mem_nil, List.nodup_nil⟩,
      fun j hj i' hi heq => ?_⟩
    obtain ⟨c, hc, htask⟩ := List.mem_map.1 hj
    exact hnone c hc (htask.trans (heq.trans (List.mem_singleton.1 hi)))
  placed c hc := by
    rcases List.mem_append.1 hc with hc | hc
    · exact h.placed c hc
    · obtain rfl := List.mem_singleton.1 hc
      refine ⟨t.start, ?_, hplaced⟩
      show (p.tasks.map (·.start))[i]? = _
      rw [List.getElem?_map, ht]
      rfl

/-- A call that goes on is suspended no more. -/
theorem Calling.not_held (h : p.Calling) {k : Nat} {c : Receiving} (hc : p.receiving[k]? = some c) :
    ¬ (p.forget k).Held c.task := by
  intro hheld
  obtain ⟨hk, hget⟩ := List.getElem?_eq_some_iff.1 hc
  have hsplit : p.receiving = p.receiving.take k ++ c :: p.receiving.drop (k + 1) := by
    rw [← hget, ← List.drop_eq_getElem_cons hk, List.take_append_drop]
  have hsingle := h.single
  rw [hsplit, List.map_append, List.map_cons, List.perm_middle.nodup_iff, ← List.map_append,
    ← List.eraseIdx_eq_take_drop_succ] at hsingle
  exact (List.nodup_cons.1 hsingle).1 (List.mem_map.2 ⟨⟨c.task, .get c.task⟩, hheld, rfl⟩)

/-! ## The queues -/

/-- What was returned of the parts told of request `i`, and what is in its
queue; `jam` says that the engine panics at every call, and `idle` that it was
not said to serve a request. -/
inductive Queued (jam idle : Prop) (p : Http11Protocol) (i : Nat) (parts got : List Part) : Prop
  /-- The queue is in place: the parts that were not returned are in it. -/
  | current (hcurrent : p.bodyQueue = some i) (hgot : got ++ p.queues i = parts)
  /-- The queue is not in place: only a call that waits for a part still gets
  one of it. -/
  | detached (hother : p.bodyQueue ≠ some i) (hgot : got <+: parts) (hheld : p.Held i → got ++ p.queues i <+: parts)
  /-- A part was lost as the engine panicked; every call that takes another one
  panics, or finds no queue. -/
  | lost (hjam : jam) (hfew : ∀ q, p.bodyQueue = some q → (p.queues q).length ≤ queueResumeSize)
      (hmore : (∀ m ∈ p.queues i, m.2 = true) ∨ idle ∧ ¬ p.Held i) (hgot : got <+: parts)

/-- The parts told, what was returned of them, and the tasks. -/
structure Feeds (jam idle : Prop) (p : Http11Protocol) (v : Told) (got : Nat → List Part) : Prop where
  starts : p.tasks.map (·.start) = v.map Prod.fst
  /-- The queue in place is that of the last request, websockets apart. -/
  newest : ∀ q, p.bodyQueue = some q → (∃ told, v[q]? = some told ∧ told.1.hasBody = true) ∧
    ∀ i told, q < i → v[i]? = some told → told.1.isWebsocket = true ∧ told.1.hasBody = false
  parts : ∀ (i : Nat) (start : RequestStart) (parts : List Part), v[i]? = some (start, parts) → start.hasBody = true →
    Queued jam idle p i parts (got i)
  empty : ∀ (i : Nat) (t : Cycle), p.tasks[i]? = some t → t.start.hasBody = false →
    got i <+: [([], false)] ∧ (t.emptyBodyDelivered = false → got i = [])
  beyond : ∀ i, v.length ≤ i → got i = []
  calling : p.Calling

theorem Queued.first {i : Nat} {parts got : List Part} (h : Queued jam idle p i parts got) : got <+: parts := by
  cases h with
  | current _ hgot =>
    rw [← hgot]
    exact List.prefix_append _ _
  | detached _ hgot _ => exact hgot
  | lost _ _ _ hgot => exact hgot

theorem Queued.mono {jam' idle' : Prop} (hjam : jam → jam') (hidle : jam → idle → idle') {i : Nat} {parts got : List Part}
    (h : Queued jam idle p i parts got) : Queued jam' idle' p i parts got := by
  cases h with
  | current hcurrent hgot => exact .current hcurrent hgot
  | detached hother hgot hheld => exact .detached hother hgot hheld
  | lost hj hfew hmore hgot => exact .lost (hjam hj) hfew (hmore.imp_right (And.imp_left (hidle hj))) hgot

/-- The queue stays as it is, or is replaced, and other queues get no longer. -/
theorem Queued.same {i : Nat} {parts got : List Part} (h : Queued jam idle p i parts got)
    (hqueue : p'.queues i = p.queues i) (hbody : p'.bodyQueue = some i ↔ p.bodyQueue = some i) (hf : p.Fewer p')
    (hfew : jam → ∀ q, p'.bodyQueue = some q → p.bodyQueue = some q ∧ (p'.queues q).length ≤ (p.queues q).length) :
    Queued jam idle p' i parts got := by
  cases h with
  | current hcurrent hgot => exact .current (hbody.2 hcurrent) (hqueue ▸ hgot)
  | detached hother hgot hheld =>
    exact .detached (mt hbody.1 hother) hgot fun hh => hqueue ▸ hheld (hf.held hh)
  | lost hj hfew' hmore hgot =>
    refine .lost hj (fun q hq => ?_) (hqueue ▸ hmore.imp_right (And.imp_right (mt hf.held))) hgot
    obtain ⟨hold, hle⟩ := hfew hj q hq
    exact Nat.le_trans hle (hfew' q hold)

/-- The queue is taken away. -/
theorem Queued.removed {i : Nat} {parts got : List Part} (h : Queued jam idle p i parts got)
    (hqueue : p'.queues i = p.queues i) (hbody : p'.bodyQueue ≠ some i) (hf : p.Fewer p')
    (hfew : jam → p'.bodyQueue = none) : Queued jam idle p' i parts got := by
  cases h with
  | current hcurrent hgot =>
    refine .detached hbody ?_ fun _ => ?_
    · rw [← hgot]
      exact List.prefix_append _ _
    · have hsame : got ++ p'.queues i = parts := by rw [hqueue, hgot]
      exact hsame ▸ List.prefix_refl _
  | detached hother hgot hheld => exact .detached hbody hgot fun hh => hqueue ▸ hheld (hf.held hh)
  | lost hj hfew' hmore hgot =>
    refine .lost hj (fun q hq => ?_) (hqueue ▸ hmore.imp_right (And.imp_right (mt hf.held))) hgot
    rw [hfew hj] at hq
    cases hq

theorem Feeds.mono {jam' idle' : Prop} (h : p.Feeds jam idle v got) (hjam : jam → jam') (hidle : jam → idle → idle') :
    p.Feeds jam' idle' v got :=
  ⟨h.starts, h.newest, fun i start parts hv hbody => (h.parts i start parts hv hbody).mono hjam hidle, h.empty, h.beyond,
    h.calling⟩

/-- Neither the queues change, nor what the tasks know of their requests. -/
theorem Feeds.same (h : p.Feeds jam idle v got) (hbody : p'.bodyQueue = p.bodyQueue) (hqueues : p'.queues = p.queues)
    (hf : p.Fewer p') (htasks : p'.tasks.map (fun t => (t.start, t.emptyBodyDelivered)) =
      p.tasks.map fun t => (t.start, t.emptyBodyDelivered)) : p'.Feeds jam idle v got := by
  have hstarts : p'.tasks.map (·.start) = p.tasks.map (·.start) := by
    have hfst := congrArg (List.map Prod.fst) htasks
    rw [List.map_map, List.map_map] at hfst
    exact hfst
  refine ⟨hstarts.trans h.starts, hbody ▸ h.newest, fun i start parts hv hb => ?_, fun i t' ht' hb => ?_, h.beyond, ?_⟩
  · refine (h.parts i start parts hv hb).same (by rw [hqueues]) (by rw [hbody]) hf fun _ q hq => ⟨hbody ▸ hq, ?_⟩
    rw [hqueues]
  · have hget : (p'.tasks.map fun t => (t.start, t.emptyBodyDelivered))[i]? =
        (p.tasks.map fun t => (t.start, t.emptyBodyDelivered))[i]? := by rw [htasks]
    rw [List.getElem?_map, List.getElem?_map, ht'] at hget
    obtain ⟨t, ht, heq⟩ := Option.map_eq_some_iff.1 hget.symm
    obtain ⟨hstart, hempty⟩ := Prod.mk.inj heq
    rw [← hempty]
    exact h.empty i t ht (hstart ▸ hb)
  · exact h.calling.fewer hf (fun i start hi => hstarts ▸ hi) fun i hi => .inl (hbody ▸ hi)

theorem map_setTask {α : Type} (f : Cycle → α) {i : Nat} {t t' : Cycle} (ht : p.tasks[i]? = some t) (hf : f t' = f t) :
    (p.setTask i t').tasks.map f = p.tasks.map f := by
  show (p.tasks.set i t').map f = _
  obtain ⟨hi, hget⟩ := List.getElem?_eq_some_iff.1 ht
  have hi' : i < (p.tasks.map f).length := by rwa [List.length_map]
  have hmap : (p.tasks.map f)[i] = f t := by rw [List.getElem_map, hget]
  rw [List.map_set, hf, ← hmap, List.set_getElem_self]

theorem map_close {α : Type} (f : Cycle → α) (hf : ∀ t : Cycle, f t.cancel = f t) : p.close.tasks.map f = p.tasks.map f := by
  unfold Http11Protocol.close
  split
  · rfl
  · dsimp only
    split
    · rename_i k _
      apply List.ext_getElem?
      intro i
      rw [List.getElem?_map, List.getElem?_modify, List.getElem?_map]
      cases p.tasks[i]? with
      | none => rfl
      | some t =>
        show some (f (if k = i then t.cancel else t)) = some (f t)
        split
        · rw [hf]
        · rfl
    · rfl

theorem bodyQueue_close : p.close.bodyQueue = p.bodyQueue := by
  unfold Http11Protocol.close
  split
  · rfl
  · rfl

theorem queues_close : p.close.queues = p.queues := by
  unfold Http11Protocol.close
  split
  · rfl
  · rfl

theorem fewer_close (p : Http11Protocol) : p.Fewer p.close := by
  unfold Http11Protocol.close
  split
  · exact fewer_of_eq rfl
  · exact fewer_disconnect rfl

theorem cancel_fed (t : Cycle) : (t.cancel.start, t.cancel.emptyBodyDelivered) = (t.start, t.emptyBodyDelivered) := by
  unfold Cycle.cancel
  split
  · rfl
  · rfl

theorem Feeds.close (h : p.Feeds jam idle v got) : p.close.Feeds jam idle v got :=
  h.same bodyQueue_close queues_close (fewer_close p) (map_close _ cancel_fed)

/-! ## Events -/

/-- A request starts, and a queue is made for its body, unless it is for a
websocket. -/
theorem Feeds.start (h : p.Feeds False idle v got) {start : RequestStart} (htasks : p'.tasks = p.tasks ++ [.new start])
    (hws : start.isWebsocket = true → start.hasBody = false)
    (hqueue : (start.isWebsocket = true ∧ p'.bodyQueue = p.bodyQueue ∧ p'.queues = p.queues) ∨
      (p'.bodyQueue = (if start.hasBody then some p.tasks.length else none) ∧
        p'.queues = Function.update p.queues p.tasks.length []))
    (hf : p'.receiving = p.receiving) : p'.Feeds False idle (v ++ [(start, [])]) got := by
  have hlen : p.tasks.length = v.length := by
    have hl := congrArg List.length h.starts
    rwa [List.length_map, List.length_map] at hl
  have hold : ∀ {i : Nat}, i < v.length → (v ++ [(start, ([] : List Part))])[i]? = v[i]? := fun hi =>
    List.getElem?_append_left hi
  have hfewer : p.Fewer p' := fewer_of_eq hf
  refine ⟨?_, fun q hq => ?_, fun i s parts hi hbody => ?_, fun i t ht hbody => ?_, fun i hi => ?_, ?_⟩
  · rw [htasks, List.map_append, h.starts, List.map_append]
    rfl
  · rcases hqueue with ⟨hwebsocket, hsame, -⟩ | ⟨hnew, -⟩
    · obtain ⟨⟨told, htold, hbody⟩, hlater⟩ := h.newest q (hsame ▸ hq)
      have hlt := (List.getElem?_eq_some_iff.1 htold).1
      refine ⟨⟨told, (hold hlt).trans htold, hbody⟩, fun i told hqi hi => ?_⟩
      rcases Nat.lt_or_ge i v.length with hlt' | hge
      · rw [hold hlt'] at hi
        exact hlater i told hqi hi
      · have hi' := (List.getElem?_eq_some_iff.1 hi).1
        rw [List.length_append, List.length_singleton] at hi'
        obtain rfl : i = v.length := by omega
        rw [List.getElem?_concat_length] at hi
        cases hi
        exact ⟨hwebsocket, hws hwebsocket⟩
    · rw [hnew] at hq
      obtain ⟨hbody, heq⟩ := Option.ite_none_right_eq_some.1 hq
      obtain rfl : p.tasks.length = q := Option.some.inj heq
      refine ⟨⟨(start, []), by rw [hlen, List.getElem?_concat_length], hbody⟩, fun i told hqi hi => ?_⟩
      have hi' := (List.getElem?_eq_some_iff.1 hi).1
      rw [List.length_append, List.length_singleton] at hi'
      omega
  · rcases Nat.lt_or_ge i v.length with hlt | hge
    · rw [hold hlt] at hi
      have hqueued := h.parts i s parts hi hbody
      rcases hqueue with ⟨-, hsame, hqueues⟩ | ⟨hnew, hqueues⟩
      · exact hqueued.same (by rw [hqueues]) (by rw [hsame]) hfewer fun hj => hj.elim
      · refine hqueued.removed ?_ ?_ hfewer fun hj => hj.elim
        · rw [hqueues, Function.update_of_ne (by omega)]
        · rw [hnew]
          split
          · exact fun heq => absurd (Option.some.inj heq) (by omega)
          · exact nofun
    · have hi' := (List.getElem?_eq_some_iff.1 hi).1
      rw [List.length_append, List.length_singleton] at hi'
      obtain rfl : i = v.length := by omega
      rw [List.getElem?_concat_length] at hi
      cases hi
      rcases hqueue with ⟨hwebsocket, -⟩ | ⟨hnew, hqueues⟩
      · exact absurd ((hws hwebsocket).symm.trans hbody) Bool.false_ne_true
      · refine .current ?_ ?_
        · rw [hnew, if_pos hbody, hlen]
        · rw [h.beyond _ (Nat.le_refl _), hqueues, hlen, Function.update_self]
          rfl
  · rw [htasks] at ht
    rcases Nat.lt_or_ge i p.tasks.length with hlt | hge
    · rw [List.getElem?_append_left hlt] at ht
      exact h.empty i t ht hbody
    · have hnone := h.beyond i (hlen ▸ hge)
      rw [hnone]
      exact ⟨List.nil_prefix, fun _ => rfl⟩
  · rw [List.length_append] at hi
    exact h.beyond i (by omega)
  · refine h.calling.fewer hfewer (fun i s hi => ?_) fun i hi => ?_
    · rw [htasks, List.map_append, List.getElem?_append_left (List.getElem?_eq_some_iff.1 hi).1]
      exact hi
    · rcases hqueue with ⟨-, hsame, -⟩ | ⟨hnew, -⟩
      · exact .inl (hsame ▸ hi)
      · rw [hnew] at hi
        split at hi
        · exact .inr (Nat.le_of_eq (Option.some.inj hi))
        · cases hi

theorem after_body_iff {chunk : Bytes} {moreBody : Bool} (hv : v.after (.body chunk moreBody) = some v') :
    ∃ v₀ start parts, v = v₀ ++ [(start, parts)] ∧ start.hasBody = true ∧ (∀ m ∈ parts, m.2 = true) ∧
      v' = v₀ ++ [(start, parts ++ [(chunk, moreBody)])] := by
  obtain ⟨last, hlast, hv⟩ := Option.bind_eq_some_iff.1 hv
  split at hv
  · rename_i hok
    cases hv
    refine ⟨v.dropLast, last.1, last.2, ?_, hok.1, hok.2, rfl⟩
    rw [List.dropLast_append_getLast? last hlast]
  · cases hv

theorem tasks_handleBody (p : Http11Protocol) (chunk : Bytes) (moreBody : Bool) :
    (p.handleEvent (.body chunk moreBody)).tasks = p.tasks ∧
      (p.handleEvent (.body chunk moreBody)).receiving = p.receiving ∧
      (p.handleEvent (.body chunk moreBody)).bodyQueue = p.bodyQueue := by
  unfold handleEvent
  dsimp only
  split
  · rename_i q hq
    exact ⟨rfl, rfl, rfl⟩
  · exact ⟨rfl, rfl, rfl⟩

/-- A part of the body of the last request is put into its queue, if that is in
place. -/
theorem queues_handleBody (p : Http11Protocol) (chunk : Bytes) (moreBody : Bool) (i : Nat) :
    (p.handleEvent (.body chunk moreBody)).queues i =
      if p.bodyQueue = some i then p.queues i ++ [(chunk, moreBody)] else p.queues i := by
  unfold handleEvent
  dsimp only
  split
  · rename_i q hq
    dsimp only
    rw [hq]
    by_cases hi : i = q
    · subst hi
      rw [Function.update_self, if_pos rfl]
    · rw [Function.update_of_ne hi, if_neg fun heq => hi (Option.some.inj heq).symm]
  · rename_i hq
    rw [hq, if_neg nofun]

theorem Feeds.body (h : p.Feeds False idle v got) {chunk : Bytes} {moreBody : Bool}
    (hv : v.after (.body chunk moreBody) = some v') : (p.handleEvent (.body chunk moreBody)).Feeds False idle v' got := by
  obtain ⟨v₀, start, parts, rfl, hbody, hmore, rfl⟩ := after_body_iff hv
  obtain ⟨htasks, hreceiving, hsame⟩ := tasks_handleBody p chunk moreBody
  have hqueues := queues_handleBody p chunk moreBody
  generalize p.handleEvent (.body chunk moreBody) = p' at htasks hreceiving hsame hqueues
  have hlen : ∀ parts : List Part, (v₀ ++ [(start, parts)]).length = v₀.length + 1 := fun _ => List.length_append
  have hfewer : p.Fewer p' := fewer_of_eq hreceiving
  -- The queue in place is that of the request whose body goes on.
  have hlast : ∀ q, p.bodyQueue = some q → q = v₀.length := by
    intro q hq
    obtain ⟨⟨told, htold, -⟩, hlater⟩ := h.newest q hq
    have hlt := (List.getElem?_eq_some_iff.1 htold).1
    rw [hlen] at hlt
    by_contra hne
    have hnone := (hlater v₀.length (start, parts) (by omega) List.getElem?_concat_length).2
    exact Bool.false_ne_true (hnone.symm.trans hbody)
  refine ⟨?_, fun q hq => ?_, fun i s ps hi hb => ?_, htasks ▸ h.empty, fun i hi => ?_, ?_⟩
  · rw [htasks, h.starts, List.map_append, List.map_append]
    rfl
  · obtain rfl := hlast q (hsame ▸ hq)
    refine ⟨⟨_, List.getElem?_concat_length, hbody⟩, fun i told hqi hi => ?_⟩
    have hi' := (List.getElem?_eq_some_iff.1 hi).1
    rw [hlen] at hi'
    omega
  · rcases Nat.lt_or_ge i v₀.length with hlt | hge
    · rw [List.getElem?_append_left hlt] at hi
      have hne : p.bodyQueue ≠ some i := fun hq => absurd (hlast i hq) (by omega)
      have hqueued := h.parts i s ps (by rw [List.getElem?_append_left hlt]; exact hi) hb
      exact hqueued.same ((hqueues i).trans (if_neg hne)) (by rw [hsame]) hfewer fun hj => hj.elim
    · have hi' := (List.getElem?_eq_some_iff.1 hi).1
      rw [hlen] at hi'
      obtain rfl : i = v₀.length := by omega
      rw [List.getElem?_concat_length] at hi
      cases hi
      cases h.parts v₀.length start parts List.getElem?_concat_length hbody with
      | current hcurrent hgot =>
        refine .current (hsame.trans hcurrent) ?_
        rw [hqueues, if_pos hcurrent, ← hgot, List.append_assoc]
      | detached hother hgot hheld =>
        have hlonger : ∀ {l : List Part}, l <+: parts → l <+: parts ++ [(chunk, moreBody)] := fun hl =>
          hl.trans (List.prefix_append _ _)
        refine .detached (hsame ▸ hother) (hlonger hgot) fun hh => ?_
        rw [hqueues, if_neg hother]
        exact hlonger (hheld (hfewer.held hh))
      | lost hjam => exact hjam.elim
  · rw [hlen] at hi
    exact h.beyond i (by rw [hlen]; exact hi)
  · exact h.calling.fewer hfewer (fun i s hi => htasks ▸ hi) fun i hi => .inl (hsame ▸ hi)

theorem Feeds.handleEvent (h : p.Feeds False idle v got) (hq : p.Unqueued ph) {e : Event} (he : ph.after e = some ph')
    (hm : mv.after e = some mv') (hv : v.after e = some v') : (p.handleEvent e).Feeds False idle v' got := by
  cases e with
  | requestStart start =>
    cases hv
    have hstate : p.state ≠ .servingApp := by
      intro hs
      cases ph with
      | idle => exact hq.serving hs rfl
      | serving => cases he
      | gone => cases he
    have hbodiless : start.isWebsocket = true → start.hasBody = false := by
      intro hws
      by_contra hbody
      have hstart : mv.afterStart start = some mv' := hm
      unfold Monitor.afterStart at hstart
      rw [hws, eq_true_of_ne_false hbody] at hstart
      dsimp only at hstart
      split at hstart
      · cases hstart
      · cases hstart
    unfold Http11Protocol.handleEvent
    dsimp only
    split
    · rename_i hws
      exact h.start rfl hbodiless (.inl ⟨hws, rfl, rfl⟩) rfl
    exact h.start rfl hbodiless (.inr ⟨rfl, rfl⟩) rfl
  | body chunk moreBody => exact h.body hv
  | upgrade proto =>
    cases hv
    exact h
  | message opcode fin payload =>
    cases hv
    exact h
  | error status response =>
    cases hv
    have hclosed : Feeds False idle { p with transport := (p.transport.write response).close } v got :=
      h.same rfl rfl (fewer_of_eq rfl) rfl
    exact hclosed.close

theorem Feeds.handleEvents (h : p.Feeds False idle v got) (hq : p.Unqueued ph) {evs : List Event}
    (hevs : ph.afterAll evs = some ph') (hm : evs.foldlM Monitor.after mv = some mv')
    (hv : evs.foldlM Told.after v = some v') : (p.handleEvents evs).Feeds False idle v' got := by
  induction evs generalizing p ph mv v with
  | nil =>
    cases hv
    exact h
  | cons e evs ih =>
    obtain ⟨ph₁, he, hrest⟩ := Option.bind_eq_some_iff.1 hevs
    obtain ⟨mv₁, hme, hmrest⟩ := Option.bind_eq_some_iff.1 hm
    obtain ⟨v₁, hve, hvrest⟩ := Option.bind_eq_some_iff.1 hv
    exact ih (h.handleEvent hq he hme hve) (hq.handleEvent he) hrest hmrest hvrest

/-! ## The parts and the monitor -/

/-- While the monitor waits for the rest of a body, none of the parts told of it
is the last one. -/
def Awaits (mv : Monitor) (v : Told) : Prop :=
  mv.stage = .inBody → ∃ v₀ start parts, v = v₀ ++ [(start, parts)] ∧ start.hasBody = true ∧ ∀ m ∈ parts, m.2 = true

theorem Awaits.event (h : Awaits mv v) {e : Event} (hm : mv.after e = some mv') (hv : v.after e = some v') :
    Awaits mv' v' := by
  cases e with
  | requestStart start =>
    cases hv
    intro hin
    refine ⟨v, start, [], rfl, ?_, fun m hm => absurd hm List.not_mem_nil⟩
    have hstart : mv.afterStart start = some mv' := hm
    unfold Monitor.afterStart at hstart
    dsimp only at hstart
    split at hstart
    · cases hws : start.isWebsocket <;> cases hbody : start.hasBody <;> rw [hws, hbody] at hstart <;> cases hstart <;>
        first | rfl | cases hin
    · cases hstart
  | body chunk moreBody =>
    obtain ⟨v₀, start, parts, rfl, hbody, hmore, rfl⟩ := after_body_iff hv
    change (if _ then _ else _) = some mv' at hm
    split at hm
    · cases hm
      intro hin
      refine ⟨v₀, start, _, rfl, hbody, fun m hmem => ?_⟩
      rcases List.mem_append.1 hmem with hmem | hmem
      · exact hmore m hmem
      · rw [List.mem_singleton.1 hmem]
        by_contra hend
        dsimp only at hin
        rw [if_neg hend] at hin
        cases hin
    · cases hm
  | upgrade proto =>
    change (if _ then _ else _) = some mv' at hm
    split at hm
    · cases hm
      exact nofun
    · cases hm
  | message opcode fin payload => cases hm
  | error status response =>
    change (if _ then _ else _) = some mv' at hm
    split at hm
    · cases hm
      exact nofun
    · cases hm

theorem Awaits.reset (h : Awaits mv v) : Awaits mv.afterReset v := by
  intro hin
  apply h
  unfold Monitor.afterReset at hin
  split at hin
  · cases hin
  · exact hin

/-! ## Reading -/

/-- Reading is paused only while more is in the queue in place than `receive`
waits for before it resumes. -/
def Reads (p : Http11Protocol) (mv : Monitor) : Prop :=
  p.transport.paused = true → p.transport.closing = true ∨
    mv.stage ≠ .idle ∧ ∃ q, p.bodyQueue = some q ∧ queueResumeSize < (p.queues q).length

theorem Reads.handleEvent (h : p.Reads mv) {e : Event} (hm : mv.after e = some mv') : (p.handleEvent e).Reads mv' := by
  cases e with
  | requestStart start =>
    have hidle : mv.stage = .idle := (Monitor.idle_of_afterStart hm).1
    have hread : p.transport.paused = true → p.transport.closing = true := fun hp =>
      (h hp).resolve_right fun hq => hq.1 hidle
    have htransport : (p.handleEvent (.requestStart start)).transport = p.transport := by
      unfold Http11Protocol.handleEvent
      dsimp only
      split
      · rfl
      split
      · rfl
      · rfl
    unfold Reads
    rw [htransport]
    exact fun hp => .inl (hread hp)
  | body chunk moreBody =>
    change (if _ then _ else _) = some mv' at hm
    split at hm
    · cases hm
      have hstage : (if moreBody = true then Stage.inBody else Stage.ended) ≠ .idle := by
        split
        · exact nofun
        · exact nofun
      unfold Http11Protocol.handleEvent
      dsimp only
      split
      · rename_i q hq
        intro hp
        by_cases hfull : queueMaxSize ≤ (p.queues q ++ [(chunk, moreBody)]).length
        · refine .inr ⟨hstage, q, hq, ?_⟩
          dsimp only
          rw [Function.update_self]
          exact Nat.lt_of_lt_of_le (by decide) hfull
        · dsimp only at hp ⊢
          rw [if_neg hfull] at hp ⊢
          refine (h hp).imp_right fun ⟨_, q', hq', hmany⟩ => ⟨hstage, q, hq, ?_⟩
          obtain rfl : q = q' := Option.some.inj (hq.symm.trans hq')
          rw [Function.update_self, List.length_append]
          omega
      · rename_i hq
        intro hp
        rcases h hp with hc | ⟨-, q, hq', -⟩
        · exact .inl hc
        · rw [hq] at hq'
          cases hq'
    · cases hm
  | upgrade proto =>
    change (if _ then _ else _) = some mv' at hm
    split at hm
    · cases hm
      exact fun hp => (h hp).imp_right fun hq => ⟨nofun, hq.2⟩
    · cases hm
  | message opcode fin payload => cases hm
  | error status response =>
    exact fun _ => .inl ((keeps_close { p with transport := (p.transport.write response).close }).closing rfl)

theorem Reads.handleEvents (h : p.Reads mv) {evs : List Event} (hm : evs.foldlM Monitor.after mv = some mv') :
    (p.handleEvents evs).Reads mv' := by
  induction evs generalizing p mv with
  | nil =>
    cases hm
    exact h
  | cons e evs ih =>
    obtain ⟨mv₁, he, hrest⟩ := Option.bind_eq_some_iff.1 hm
    exact ih (h.handleEvent he) hrest

theorem awaits_events (h : Awaits mv v) {evs : List Event} (hm : evs.foldlM Monitor.after mv = some mv')
    (hv : evs.foldlM Told.after v = some v') : Awaits mv' v' := by
  induction evs generalizing mv v with
  | nil =>
    cases hm
    cases hv
    exact h
  | cons e evs ih =>
    obtain ⟨mv₁, hme, hm⟩ := Option.bind_eq_some_iff.1 hm
    obtain ⟨v₁, hve, hv⟩ := Option.bind_eq_some_iff.1 hv
    exact ih (h.event hme hve) hm hv

/-! ## Calls of the engine -/

/-- The protocol before a call of the engine: all that the owner was told is
read from the bytes received, and delivered or queued. -/
structure Due (parse : Httparse) (fed : Bytes) (got : Nat → List Part) (p : Http11Protocol) (mv : Monitor) (v : Told) :
    Prop where
  ready : p.Ready parse mv
  linked : p.conn.Linked parse fed v
  feeds : p.Feeds (p.conn.Jammed parse) (mv.stage = .idle) v got
  awaits : Awaits mv v

/-- The protocol between its steps. -/
structure Delivers (parse : Httparse) (fed : Bytes) (got : Nat → List Part) (p : Http11Protocol) (mv : Monitor) (v : Told) :
    Prop extends Due parse fed got p mv v where
  rests : p.conn.Rests parse

variable {fed : Bytes}

theorem Delivers.serves (h : Delivers parse fed got p mv v) : p.Serves parse mv where
  toSteady := h.ready.toSteady
  rests := h.rests
  watched := h.ready.watched
  alone := h.ready.alone

/-- What is delivered, with what the monitor has seen of the protocol. -/
theorem Serves.delivers (h : p.Serves parse mv) (hlinked : p.conn.Linked parse fed v)
    (hfeeds : p.Feeds (p.conn.Jammed parse) (mv.stage = .idle) v got) (hawaits : Awaits mv v) : Delivers parse fed got p mv v where
  ready := h.ready
  linked := hlinked
  feeds := hfeeds
  awaits := hawaits
  rests := h.rests

/-- A call that returns. -/
theorem Due.told (hparse : InRange parse) (h : Due parse fed got p mv v)
    (hfault : (p.conn.processEvents .release parse).fault = none) :
    ∃ mv' v', Delivers parse fed got ({ p with conn := (p.conn.processEvents .release parse).conn }.handleEvents
        (p.conn.processEvents .release parse).events) mv' v' ∧
      (p.Reads mv → ({ p with conn := (p.conn.processEvents .release parse).conn }.handleEvents
        (p.conn.processEvents .release parse).events).Reads mv') := by
  have hb := h.ready.bounded
  have hm := h.ready.mode
  obtain ⟨mv', hmv, hserves⟩ := h.ready.call hparse hfault
  obtain ⟨v', hv, hlinked⟩ := h.linked.told hparse hb hm hfault
  obtain ⟨ph', hph, -⟩ := (FastHttpConnection.ends_processEvents hparse h.ready.toSteady.ready).told hfault
  have hcalm : ¬ p.conn.Jammed parse := fun hj => hj.call hparse hb hm hfault
  have hfeeds : Feeds False True { p with conn := (p.conn.processEvents .release parse).conn } v got :=
    (h.feeds.mono hcalm fun _ _ => trivial).same rfl rfl (fewer_of_eq rfl) rfl
  have hq : Unqueued { p with conn := (p.conn.processEvents .release parse).conn } p.conn.state.phase :=
    ⟨h.ready.pending, h.ready.serving⟩
  refine ⟨mv', v', hserves.delivers ?_ ((hfeeds.handleEvents hq hph hmv hv).mono False.elim False.elim) (awaits_events h.awaits hmv hv),
    fun hreads => ?_⟩
  · rw [conn_handleEvents]
    exact hlinked
  · have hreads' : Reads { p with conn := (p.conn.processEvents .release parse).conn } mv := hreads
    exact hreads'.handleEvents hmv

/-- A call that panics. -/
theorem Due.panicked (hparse : InRange parse) (h : Due parse fed got p mv v)
    (hfault : (p.conn.processEvents .release parse).fault ≠ none) :
    Delivers parse fed got { p with conn := (p.conn.processEvents .release parse).conn } mv v := by
  have hb := h.ready.bounded
  have hm := h.ready.mode
  have hfeeds : Feeds (p.conn.Jammed parse) (mv.stage = .idle) { p with conn := (p.conn.processEvents .release parse).conn } v got :=
    h.feeds.same rfl rfl (fewer_of_eq rfl) rfl
  exact (h.ready.panic hparse hfault).delivers (h.linked.panicked hparse hb hm hfault)
    (hfeeds.mono (fun _ => FastHttpConnection.jammed_of_fault hparse hb hm hfault) fun _ => id) h.awaits

theorem Due.afterPump (hparse : InRange parse) (h : Due parse fed got p mv v) :
    ∃ mv' v', Delivers parse fed got (p.afterPump parse) mv' v' ∧ (p.Reads mv → (p.afterPump parse).Reads mv') := by
  have hpumped := pumped_afterPump parse p
  generalize p.afterPump parse = q at hpumped
  cases hpumped with
  | told hfault => exact h.told hparse hfault
  | panicked hfault => exact ⟨mv, v, h.panicked hparse hfault, id⟩

/-! ## Steps -/

/-- The engine and the queues stay as they are, and the tasks know no more of
their requests. -/
theorem Delivers.same (h : Delivers parse fed got p mv v) (hserves : p'.Serves parse mv) (hconn : p'.conn = p.conn)
    (hbody : p'.bodyQueue = p.bodyQueue) (hqueues : p'.queues = p.queues) (hf : p.Fewer p')
    (htasks : p'.tasks.map (fun t => (t.start, t.emptyBodyDelivered)) =
      p.tasks.map fun t => (t.start, t.emptyBodyDelivered)) : Delivers parse fed got p' mv v :=
  hserves.delivers (hconn ▸ h.linked) (hconn ▸ h.feeds.same hbody hqueues hf htasks) h.awaits

theorem Delivers.setTask (h : Delivers parse fed got p mv v) {i : Nat} {t t' : Cycle} (ht : p.tasks[i]? = some t)
    (hstart : t'.start = t.start) (hempty : t'.emptyBodyDelivered = t.emptyBodyDelivered)
    (hlive : t'.live = true → t.live = true) : Delivers parse fed got (p.setTask i t') mv v :=
  h.same (h.serves.setTask ht hstart hlive) rfl rfl rfl (fewer_of_eq rfl) (map_setTask _ ht (by rw [hstart, hempty]))

theorem Delivers.close (h : Delivers parse fed got p mv v) : Delivers parse fed got p.close mv v :=
  h.same h.serves.close conn_close bodyQueue_close queues_close (fewer_close p) (map_close _ cancel_fed)

theorem Delivers.forget (h : Delivers parse fed got p mv v) (k : Nat) : Delivers parse fed got (p.forget k) mv v :=
  h.same (h.serves.forget k) rfl rfl rfl (fewer_forget rfl) rfl

/-- Bytes are received. -/
theorem Delivers.feed (hparse : InRange parse) (h : Delivers parse fed got p mv v) {data : Bytes}
    (hroom : (p.conn.buffer ++ data).length < 2 ^ 63) (hfed : Fed parse p data p') :
    ∃ mv' v', Delivers parse (if p.upgraded then fed else fed ++ data) got p' mv' v' ∧ (p.Reads mv → p'.Reads mv') := by
  have hb := h.ready.bounded
  have hm := h.ready.mode
  have hdue : Due parse (fed ++ data) got { p with conn := { p.conn with buffer := p.conn.buffer ++ data } } mv v := by
    refine ⟨⟨⟨hb.append hroom, hm, h.ready.pending, h.ready.serving⟩, h.ready.watched.append data, h.ready.alone⟩,
      h.linked.append hparse hb hm hroom, ?_, h.awaits⟩
    have hfeeds : Feeds (p.conn.Jammed parse) (mv.stage = .idle) { p with conn := { p.conn with buffer := p.conn.buffer ++ data } } v got :=
      h.feeds.same rfl rfl (fewer_of_eq rfl) rfl
    exact hfeeds.mono (fun hj => hj.append hparse hb hm hroom) fun _ => id
  cases hfed with
  | upgraded hup =>
    rw [if_pos hup]
    exact ⟨mv, v, h, id⟩
  | told hplain hfault =>
    rw [if_neg (by rw [hplain]; exact Bool.false_ne_true)]
    exact hdue.told hparse hfault
  | panicked hplain hfault =>
    rw [if_neg (by rw [hplain]; exact Bool.false_ne_true)]
    have hafter := hdue.panicked hparse hfault
    exact ⟨mv, v, hafter.same (hafter.serves.same rfl rfl id rfl) rfl rfl rfl (fewer_of_eq rfl) rfl, fun _ _ => .inl rfl⟩

/-- The task that runs serves the request that was told last. -/
theorem Delivers.last (h : Delivers parse fed got p mv v) {i : Nat} {t : Cycle} (ht : p.tasks[i]? = some t)
    (hlive : t.live = true) : mv.stage ≠ .idle ∧ ∃ v₀ parts, v = v₀ ++ [(t.start, parts)] ∧ v₀.length = i := by
  obtain ⟨hi, -, hstage⟩ := h.ready.alone i t ht (.inl hlive)
  refine ⟨hstage, ?_⟩
  have hstarts := h.feeds.starts
  have hlen := congrArg List.length hstarts
  rw [List.length_map, List.length_map] at hlen
  rcases List.eq_nil_or_concat v with hnil | ⟨v₀, last, rfl⟩
  · rw [hnil, List.length_nil] at hlen
    omega
  · rw [List.concat_eq_append] at *
    rw [List.length_append, List.length_singleton] at hlen
    obtain rfl : i = v₀.length := by omega
    have hget : (p.tasks.map (·.start))[v₀.length]? = some last.1 := by
      rw [hstarts, List.getElem?_map, List.getElem?_concat_length]
      rfl
    rw [List.getElem?_map, ht] at hget
    have hstart : t.start = last.1 := Option.some.inj hget
    exact ⟨v₀, last.2, by rw [hstart], rfl⟩

/-- What follows the part that completes a body. -/
theorem Delivers.ends (h : Delivers parse fed got p mv v) {i : Nat} {start : RequestStart} {parts : List Part}
    (hv : v[i]? = some (start, parts)) {before after : List Part} {m : Part} (hparts : parts = before ++ m :: after)
    (hm : m.2 = false) : after = [] := by
  obtain ⟨rs, hrs, hsound, -⟩ := h.linked.spelled
  have hmem : (start, parts) ∈ rs.map Reading.told := by
    rw [← hrs]
    exact List.mem_of_getElem? hv
  obtain ⟨r, hr, htold⟩ := List.mem_map.1 hmem
  obtain ⟨f, -, hbody⟩ := hsound r hr
  exact hbody.last ((congrArg Prod.snd htold).trans hparts) hm

/-- The message for a request without a body. -/
theorem Feeds.receiveEmpty (h : p.Feeds jam idle v got) {i : Nat} {t : Cycle} (ht : p.tasks[i]? = some t)
    (hbody : t.start.hasBody = false) (hfirst : t.emptyBodyDelivered = false) :
    (p.setTask i { t with emptyBodyDelivered := true }).Feeds jam idle v (Function.update got i (got i ++ [([], false)])) := by
  have hsame : (p.setTask i { t with emptyBodyDelivered := true }).tasks.map (·.start) = p.tasks.map (·.start) :=
    map_setTask (·.start) ht rfl
  have hfewer : p.Fewer (p.setTask i { t with emptyBodyDelivered := true }) := fewer_of_eq rfl
  refine ⟨hsame.trans h.starts, h.newest, fun j s ps hj hb => ?_, fun j u hu hb => ?_, fun j hj => ?_, ?_⟩
  · have hne : j ≠ i := by
      rintro rfl
      have hget : (p.tasks.map (·.start))[j]? = some s := by
        rw [h.starts, List.getElem?_map, hj]
        rfl
      rw [List.getElem?_map, ht] at hget
      have hstart : t.start = s := Option.some.inj hget
      rw [hstart, hb] at hbody
      cases hbody
    rw [Function.update_of_ne hne]
    exact (h.parts j s ps hj hb).same rfl Iff.rfl hfewer fun _ q hq => ⟨hq, Nat.le_refl _⟩
  · change (p.tasks.set i { t with emptyBodyDelivered := true })[j]? = some u at hu
    by_cases hj : j = i
    · subst hj
      rw [List.getElem?_set_self (List.getElem?_eq_some_iff.1 ht).1] at hu
      cases hu
      rw [Function.update_self, (h.empty j t ht hbody).2 hfirst]
      exact ⟨List.prefix_refl _, nofun⟩
    · rw [List.getElem?_set_ne (Ne.symm hj)] at hu
      rw [Function.update_of_ne hj]
      exact h.empty j u hu hb
  · have hne : j ≠ i := by
      rintro rfl
      have hlen := congrArg List.length h.starts
      rw [List.length_map, List.length_map] at hlen
      have hi := (List.getElem?_eq_some_iff.1 ht).1
      omega
    rw [Function.update_of_ne hne]
    exact h.beyond j hj
  · exact h.calling.fewer hfewer (fun j s hj => hsame ▸ hj) fun j hj => .inl hj

/-- What the applications were given, after what `receive` returns to one. -/
def noted (got : Nat → List Part) (i : Nat) : Received → Nat → List Part
  | .request body moreBody => Function.update got i (got i ++ [(body, moreBody)])
  | _ => got

/-- The engine can only wrap around in the body that is served. -/
theorem inBody_of_watched {cap : Nat} {c : FastHttpConnection} (h : Session.Watched cap c mv) (hstage : mv.stage ≠ .idle)
    (hwraps : c.state.Wraps) : mv.stage = .inBody := by
  rcases h.2 with hknown | ⟨-, -, hidle | hin⟩
  · obtain ⟨n, hn, -⟩ := hwraps
    refine (hknown.inBody ?_).1
    show c.state.inBody = true
    rw [hn]
    rfl
  · exact absurd hidle hstage
  · exact hin

/-- An item was taken from a queue, and none got longer. -/
theorem length_dequeue_le {i : Nat} {m : Part} {queue : List Part} (hqueue : p.queues i = m :: queue) (q : Nat) :
    (Function.update p.queues i queue q).length ≤ (p.queues q).length := by
  by_cases hq : q = i
  · subst hq
    rw [Function.update_self, hqueue]
    exact Nat.le_succ _
  · rw [Function.update_of_ne hq]

/-- The first part of a queue is taken. -/
theorem Feeds.take {jam' : Prop} (h : p.Feeds jam idle v got) {i : Nat} {start : RequestStart} {parts messages : List Part}
    (hv : v[i]? = some (start, parts)) (hb : start.hasBody = true) (hnew : Queued jam' idle p' i parts messages) {m : Part}
    {queue : List Part} (hqueue : p.queues i = m :: queue) (hqueues : p'.queues = Function.update p.queues i queue)
    (htasks : p'.tasks = p.tasks) (hf : p.Fewer p') (hbody : p'.bodyQueue = none ∨ p'.bodyQueue = p.bodyQueue)
    (hjam : jam → jam') : p'.Feeds jam' idle v (Function.update got i messages) := by
  have hsub : ∀ q, p'.bodyQueue = some q → p.bodyQueue = some q := by
    intro q hq
    rcases hbody with hnone | hsame
    · rw [hnone] at hq
      cases hq
    · exact hsame ▸ hq
  have hi := (List.getElem?_eq_some_iff.1 hv).1
  refine ⟨htasks ▸ h.starts, fun q hq => h.newest q (hsub q hq), fun j s ps hj hb' => ?_, fun j t ht hnone => ?_,
    fun j hj => ?_, h.calling.fewer hf (fun j s hj => htasks ▸ hj) fun j hj => .inl (hsub j hj)⟩
  · by_cases hji : j = i
    · subst hji
      rw [hv] at hj
      cases hj
      rw [Function.update_self]
      exact hnew
    · rw [Function.update_of_ne hji]
      have hqueued := h.parts j s ps hj hb'
      have hsame : p'.queues j = p.queues j := by rw [hqueues, Function.update_of_ne hji]
      refine Queued.mono hjam (fun _ => id) ?_
      rcases hbody with hgone | hkept
      · exact hqueued.removed hsame (by rw [hgone]; exact nofun) hf fun _ => hgone
      · refine hqueued.same hsame (by rw [hkept]) hf fun _ q hq => ⟨hsub q hq, ?_⟩
        rw [hqueues]
        exact length_dequeue_le hqueue q
  · rw [htasks] at ht
    have hji : j ≠ i := by
      rintro rfl
      have hget : (p.tasks.map (·.start))[j]? = some start := by
        rw [h.starts, List.getElem?_map, hv]
        rfl
      rw [List.getElem?_map, ht] at hget
      have hstart : t.start = start := Option.some.inj hget
      rw [hstart, hb] at hnone
      cases hnone
    rw [Function.update_of_ne hji]
    exact h.empty j t ht hnone
  · rw [Function.update_of_ne (by omega)]
    exact h.beyond j hj

theorem Reads.resume : Reads { p with transport := p.transport.resumeReading } mv := by
  unfold Reads Transport.resumeReading
  dsimp only
  split
  · rename_i hc
    exact fun _ => .inl hc
  · intro hp
    cases hp

/-- A call that takes the last part of a body, and with it the queue in place,
takes away its own. -/
def TakesOwn (p : Http11Protocol) (q : Nat) : Prop :=
  p.bodyQueue = none ∨ p.bodyQueue = some q ∨ ∀ m queue, p.queues q = m :: queue → m.2 = true

/-- What is left of a queue whose first part was taken by the call that waited
for it: the part was returned, or lost. -/
inductive Taken (jam : Prop) (p : Http11Protocol) (i : Nat) (parts got : List Part) (m : Part) (queue : List Part) : Prop
  | current (hcurrent : p.bodyQueue = some i) (hall : got ++ [m] ++ queue = parts)
  | detached (hother : p.bodyQueue ≠ some i) (hgot : got ++ [m] <+: parts)
  | lost (hjam : jam) (hfew : ∀ q, p.bodyQueue = some q → (p.queues q).length ≤ queueResumeSize)
      (hmore : ∀ m' ∈ m :: queue, m'.2 = true) (hgot : got <+: parts)

theorem Queued.taken {i : Nat} {parts got queue : List Part} {m : Part} (h : Queued jam idle p i parts got)
    (hheld : p.Held i) (hqueue : p.queues i = m :: queue) : Taken jam p i parts got m queue := by
  cases h with
  | current hcurrent hgot =>
    rw [hqueue] at hgot
    exact .current hcurrent (by rwa [List.append_assoc])
  | detached hother hgot hnext =>
    have hparts := hnext hheld
    rw [hqueue, ← List.singleton_append, ← List.append_assoc] at hparts
    exact .detached hother ((List.prefix_append _ _).trans hparts)
  | lost hjam hfew hmore hgot => exact .lost hjam hfew (hqueue ▸ hmore.resolve_right fun hnot => hnot.2 hheld) hgot

theorem Taken.first {i : Nat} {parts got queue : List Part} {m : Part} (h : Taken jam p i parts got m queue) :
    got <+: parts := by
  cases h with
  | current hcurrent hall =>
    rw [← hall, List.append_assoc]
    exact List.prefix_append _ _
  | detached hother hgot => exact (List.prefix_append _ _).trans hgot
  | lost hjam hfew hmore hgot => exact hgot

/-- The part is returned, and the queue stays in place. -/
theorem Taken.returned {i : Nat} {parts got queue : List Part} {m : Part} (h : Taken jam p i parts got m queue)
    (hqueues : p'.queues i = queue) (hbody : p'.bodyQueue = p.bodyQueue) (hnot : ¬ p'.Held i)
    (hcalm : jam → ∃ q, p.bodyQueue = some q ∧ queueResumeSize < (p.queues q).length) :
    Queued jam idle p' i parts (got ++ [m]) := by
  cases h with
  | current hcurrent hall => exact .current (hbody.trans hcurrent) (hqueues ▸ hall)
  | detached hother hgot => exact .detached (hbody ▸ hother) hgot fun hh => absurd hh hnot
  | lost hjam hfew =>
    obtain ⟨q, hq, hmany⟩ := hcalm hjam
    exact absurd hmany (Nat.not_lt.2 (hfew q hq))

/-- The part is not returned, as the engine panics. -/
theorem Taken.panicked {jam' : Prop} {i : Nat} {parts got queue : List Part} {m : Part}
    (h : Taken jam p i parts got m queue) (hqueues : p'.queues i = queue) (hbody : p'.bodyQueue = p.bodyQueue)
    (hnot : ¬ p'.Held i) (hjam : jam') (hfew : ∀ q, p'.bodyQueue = some q → (p'.queues q).length ≤ queueResumeSize)
    (hopen : p.bodyQueue = some i → idle ∨ ∀ m ∈ parts, m.2 = true) : Queued jam' idle p' i parts got := by
  have hfirst := h.first
  cases h with
  | current hcurrent hall =>
    refine .lost hjam hfew ?_ hfirst
    rcases hopen hcurrent with hidle | hmore
    · exact .inr ⟨hidle, hnot⟩
    · refine .inl fun m' hm' => hmore m' ?_
      rw [← hall]
      exact List.mem_append_right _ (hqueues ▸ hm')
  | detached hother hgot => exact .detached (hbody ▸ hother) hfirst fun hh => absurd hh hnot
  | lost hj hfew' hmore hgot => exact .lost hjam hfew (.inl fun m' hm' => hmore m' (.tail _ (hqueues ▸ hm'))) hgot

/-- A call that was suspended takes the next part of its body. -/
theorem Delivers.takes (hparse : InRange parse) (h : Delivers parse fed got p mv v) {k : Nat} {c : Receiving}
    (hc : p.receiving[k]? = some c) {q : Nat} (hget : c.suspension = .get q) {r : Received}
    (hr : Takes parse (p.forget k) q r p') :
    ∃ mv' v', Delivers parse fed (noted got c.task r) p' mv' v' ∧ (p.TakesOwn q → p.Reads mv → p'.Reads mv') := by
  obtain ⟨start, hstart, hplaced⟩ := h.feeds.calling.placed c (List.mem_of_getElem? hc)
  have hnot := h.feeds.calling.not_held hc
  obtain ⟨i, s⟩ := c
  obtain rfl : s = .get q := hget
  obtain ⟨rfl, hbody⟩ : q = i ∧ start.hasBody = true := hplaced
  dsimp only at hnot ⊢
  have hheld : p.Held q := List.mem_of_getElem? hc
  obtain ⟨parts, hv⟩ : ∃ parts, v[q]? = some (start, parts) := by
    rw [h.feeds.starts, List.getElem?_map] at hstart
    obtain ⟨told, htold, rfl⟩ := Option.map_eq_some_iff.1 hstart
    exact ⟨told.2, htold⟩
  have hqueued := h.feeds.parts q start parts hv hbody
  cases hr with
  | last chunk queue hqueue =>
    have htaken := hqueued.taken hheld hqueue
    have hserves : Serves parse { (p.forget k).dequeue q queue with bodyQueue := none } mv := h.serves.same rfl rfl id rfl
    have hgot : got q ++ [(chunk, false)] <+: parts := by
      cases htaken with
      | current hcurrent hall => exact hall ▸ List.prefix_append _ _
      | detached hother hgot => exact hgot
      | lost _ _ hmore => exact absurd (hmore _ (.head _)) Bool.false_ne_true
    have hnew : Queued (p.conn.Jammed parse) (mv.stage = .idle) { (p.forget k).dequeue q queue with bodyQueue := none } q parts
        (got q ++ [(chunk, false)]) := .detached nofun hgot fun hh => absurd hh hnot
    have hfeeds := h.feeds.take hv hbody hnew hqueue rfl rfl (fewer_forget rfl) (.inl rfl) id
    refine ⟨mv, v, hserves.delivers h.linked hfeeds h.awaits, fun hown hreads hp => ?_⟩
    rcases hreads hp with hclosing | ⟨-, q', hq', hmany⟩
    · exact .inl hclosing
    · exfalso
      rcases hown with hnone | hsame | hmore
      · rw [hnone] at hq'
        cases hq'
      · rw [hsame] at hq'
        cases hq'
        cases htaken with
        | current hcurrent hall =>
          obtain rfl : queue = [] := h.ends hv (by rw [← hall, List.append_assoc]; rfl) rfl
          rw [show p.queues q = [(chunk, false)] from hqueue] at hmany
          exact absurd hmany (Nat.not_lt.2 (Nat.le_add_left 1 15))
        | detached hother => exact hother hsame
        | lost _ _ hmore => exact absurd (hmore _ (.head _)) Bool.false_ne_true
      · cases hmore _ _ hqueue
  | gone chunk queue hqueue hnone =>
    have htaken := hqueued.taken hheld hqueue
    have hserves : Serves parse ((p.forget k).dequeue q queue) mv := h.serves.same rfl rfl id rfl
    have hother : p.bodyQueue ≠ some q := fun hq => Option.some_ne_none q (hq.symm.trans hnone)
    have hnew : Queued (p.conn.Jammed parse) (mv.stage = .idle) ((p.forget k).dequeue q queue) q parts (got q) :=
      .detached hother htaken.first fun hh => absurd hh hnot
    have hfeeds := h.feeds.take hv hbody hnew hqueue rfl rfl (fewer_forget rfl) (.inr rfl) id
    rw [Function.update_eq_self] at hfeeds
    refine ⟨mv, v, hserves.delivers h.linked hfeeds h.awaits, fun _ hreads hp => (hreads hp).imp_right ?_⟩
    rintro ⟨-, q', hq', -⟩
    exact absurd (hq'.symm.trans hnone) (Option.some_ne_none q')
  | more chunk queue current hqueue hcurrent hmany =>
    have htaken := hqueued.taken hheld hqueue
    have hserves : Serves parse ((p.forget k).dequeue q queue) mv := h.serves.same rfl rfl id rfl
    have hnew : Queued (p.conn.Jammed parse) (mv.stage = .idle) ((p.forget k).dequeue q queue) q parts (got q ++ [(chunk, true)]) := by
      refine htaken.returned (Function.update_self ..) rfl hnot fun _ => ⟨current, hcurrent, ?_⟩
      exact Nat.lt_of_lt_of_le hmany (length_dequeue_le hqueue current)
    have hfeeds := h.feeds.take hv hbody hnew hqueue rfl rfl (fewer_forget rfl) (.inr rfl) id
    exact ⟨mv, v, hserves.delivers h.linked hfeeds h.awaits,
      fun _ hreads hp => (hreads hp).imp_right fun hq => ⟨hq.1, current, hcurrent, hmany⟩⟩
  | pumped chunk queue current hqueue hcurrent hfew =>
    have htaken := hqueued.taken hheld hqueue
    have hready : Ready parse { (p.forget k).dequeue q queue with transport := p.transport.resumeReading } mv :=
      ⟨⟨h.ready.bounded, h.ready.mode, h.ready.pending, h.ready.serving⟩, h.ready.watched, h.ready.alone⟩
    have hpumped := pumped_afterPump parse { (p.forget k).dequeue q queue with transport := p.transport.resumeReading }
    show ∃ mv' v', Delivers parse fed _ (afterPump parse
      { (p.forget k).dequeue q queue with transport := p.transport.resumeReading }) mv' v' ∧ (_ → _ → Reads (afterPump parse
      { (p.forget k).dequeue q queue with transport := p.transport.resumeReading }) mv')
    generalize afterPump parse { (p.forget k).dequeue q queue with transport := p.transport.resumeReading } = p' at hpumped ⊢
    cases hpumped with
    | told hfault =>
      change (p.conn.processEvents .release parse).fault = none at hfault
      rw [if_pos (show ((p.forget k).conn.processEvents .release parse).fault = none from hfault)]
      have hnew : Queued (p.conn.Jammed parse) (mv.stage = .idle)
          { (p.forget k).dequeue q queue with transport := p.transport.resumeReading } q parts
          (got q ++ [(chunk, true)]) :=
        htaken.returned (Function.update_self ..) rfl hnot fun hjam =>
          absurd hfault (hjam.call hparse h.ready.bounded h.ready.mode)
      have hfeeds := h.feeds.take hv hbody hnew hqueue rfl rfl (fewer_forget rfl) (.inr rfl) id
      have hdue : Due parse fed _ _ mv _ := ⟨hready, h.linked, hfeeds, h.awaits⟩
      obtain ⟨mv', v', hafter, hreads⟩ := hdue.told hparse hfault
      exact ⟨mv', v', hafter, fun _ _ => hreads .resume⟩
    | panicked hfault =>
      change (p.conn.processEvents .release parse).fault ≠ none at hfault
      rw [if_neg (show ((p.forget k).conn.processEvents .release parse).fault ≠ none from hfault)]
      have hjam := FastHttpConnection.jammed_of_fault hparse h.ready.bounded h.ready.mode hfault
      have hserves := hready.panic hparse hfault
      -- The panic comes from the body of the last request, so the part that completes it was not told.
      have hopen : p.bodyQueue = some q → mv.stage = .idle ∨ ∀ m ∈ parts, m.2 = true := by
        intro hq
        by_cases hstage : mv.stage = .idle
        · exact .inl hstage
        have hin := inBody_of_watched hserves.watched hstage (hjam.wraps hparse hserves.bounded hserves.mode)
        obtain ⟨v₀, last, ps, rfl, hbody', hmore⟩ := h.awaits hin
        have hlast : q = v₀.length := by
          have hlt := (List.getElem?_eq_some_iff.1 hv).1
          rw [List.length_append, List.length_singleton] at hlt
          by_contra hne
          have hnone := ((h.feeds.newest q hq).2 v₀.length (last, ps) (by omega) List.getElem?_concat_length).2
          exact Bool.false_ne_true (hnone.symm.trans hbody')
        rw [hlast, List.getElem?_concat_length] at hv
        cases hv
        exact .inr hmore
      have hnew : Queued ((p.conn.processEvents .release parse).conn.Jammed parse) (mv.stage = .idle)
          { (p.forget k).dequeue q queue with
            transport := p.transport.resumeReading
            conn := (p.conn.processEvents .release parse).conn } q parts (got q) := by
        refine htaken.panicked (Function.update_self ..) rfl hnot hjam (fun q' hq' => ?_) hopen
        obtain rfl : current = q' := Option.some.inj (hcurrent.symm.trans hq')
        exact hfew
      have hfeeds := h.feeds.take hv hbody hnew hqueue rfl rfl (fewer_forget rfl) (.inr rfl) fun _ => hjam
      rw [Function.update_eq_self] at hfeeds
      exact ⟨mv, v, hserves.delivers (h.linked.panicked hparse h.ready.bounded h.ready.mode hfault) hfeeds h.awaits,
        fun _ _ => Reads.resume (p := { (p.forget k).dequeue q queue with
          conn := (p.conn.processEvents .release parse).conn })⟩

/-- A call of `receive` by the task that runs, which waits for none. -/
theorem Delivers.suspend (h : Delivers parse fed got p mv v) {i : Nat} {t : Cycle} (ht : p.tasks[i]? = some t)
    (hlive : t.live = true) (hnone : ∀ c ∈ p.receiving, c.task ≠ i) {s : Suspension} (hplaced : p.Placed t.start ⟨i, s⟩)
    (hget : s = .get i → p.bodyQueue = some i) : Delivers parse fed got (p.suspend i s) mv v := by
  obtain ⟨hstage, -⟩ := h.last ht hlive
  have hserves : (p.suspend i s).Serves parse mv := h.serves.same rfl rfl id rfl
  refine hserves.delivers h.linked ?_ h.awaits
  refine ⟨h.feeds.starts, h.feeds.newest, fun j start parts hj hbody => ?_, h.feeds.empty, h.feeds.beyond,
    h.feeds.calling.suspend ht hnone hplaced⟩
  have hheld : (p.suspend i s).Held j → p.Held j ∨ p.bodyQueue = some j := by
    intro hh
    rcases List.mem_append.1 hh with hh | hh
    · exact .inl hh
    · cases List.mem_singleton.1 hh
      exact .inr (hget rfl)
  cases h.feeds.parts j start parts hj hbody with
  | current hcurrent hgot => exact .current hcurrent hgot
  | detached hother hgot hnext => exact .detached hother hgot fun hh => hnext ((hheld hh).resolve_right hother)
  | lost hjam hfew hmore hgot => exact .lost hjam hfew (.inl (hmore.resolve_right fun hidle => hstage hidle.1)) hgot

theorem forget_suspend (p : Http11Protocol) (i : Nat) (s : Suspension) :
    (p.suspend i s).forget p.receiving.length = p := by
  unfold suspend forget
  dsimp only
  rw [List.eraseIdx_append_of_length_le (Nat.le_refl _), Nat.sub_self]
  show { p with receiving := p.receiving ++ [] } = p
  rw [List.append_nil]

/-- What `receive` returns to the application that is served. -/
theorem Delivers.receives (hparse : InRange parse) (h : Delivers parse fed got p mv v) {i : Nat} {t : Cycle}
    (ht : p.tasks[i]? = some t) (hlive : t.live = true) (hhttp : t.start.isWebsocket = false)
    (hnone : ∀ c ∈ p.receiving, c.task ≠ i) {r : Option Received} (hr : Receives parse p i t r p') :
    ∃ mv' v', Delivers parse fed (r.elim got (noted got i)) p' mv' v' ∧ (p.Reads mv → p'.Reads mv') := by
  obtain ⟨hstage, v₀, parts, rfl, rfl⟩ := h.last ht hlive
  -- The queue in place is its own.
  have hown : ∀ q, p.bodyQueue = some q → t.start.hasBody = true ∧ q = v₀.length := by
    intro q hq
    obtain ⟨⟨told, htold, hbody⟩, hlater⟩ := h.feeds.newest q hq
    have hlt := (List.getElem?_eq_some_iff.1 htold).1
    rw [List.length_append, List.length_singleton] at hlt
    have hlast : q = v₀.length := by
      by_contra hne
      have hws := (hlater v₀.length (t.start, parts) (by omega) List.getElem?_concat_length).1
      exact Bool.false_ne_true (hhttp.symm.trans hws)
    rw [hlast, List.getElem?_concat_length] at htold
    cases htold
    exact ⟨hbody, hlast⟩
  cases hr with
  | empty hbody hfirst =>
    have hserves : (p.setTask v₀.length { t with emptyBodyDelivered := true }).Serves parse mv := h.serves.setTask ht rfl id
    exact ⟨mv, _, hserves.delivers h.linked (h.feeds.receiveEmpty ht hbody hfirst) h.awaits, id⟩
  | disconnect hset => exact ⟨mv, _, h, id⟩
  | takes q hbody hcurrent htakes =>
    -- The call takes what it would take if it were suspended first.
    obtain ⟨-, rfl⟩ := hown q hcurrent
    have hwaits := h.suspend ht hlive hnone (s := .get v₀.length) ⟨rfl, hbody⟩ fun _ => hcurrent
    obtain ⟨mv', v', hafter, hreads⟩ := hwaits.takes hparse (k := p.receiving.length) List.getElem?_concat_length rfl
      (by rw [forget_suspend]; exact htakes)
    exact ⟨mv', v', hafter, hreads (.inr (.inl hcurrent))⟩
  | waits hqueue =>
    refine ⟨mv, _, h.suspend ht hlive hnone ?_ nofun, id⟩
    intro hq
    obtain ⟨hbody, -⟩ := hown _ hq
    exact Option.some_ne_none _ (hq.symm.trans (hqueue hbody))
  | gets q hbody hcurrent hempty =>
    obtain ⟨-, rfl⟩ := hown q hcurrent
    exact ⟨mv, _, h.suspend ht hlive hnone ⟨rfl, hbody⟩ fun _ => hcurrent, id⟩

/-- What `receive` returns to a call that was suspended. -/
theorem Delivers.resumes (hparse : InRange parse) (h : Delivers parse fed got p mv v) {k : Nat} {c : Receiving}
    (hc : p.receiving[k]? = some c) {r : Received} (hr : Resumes parse p k c r p') :
    ∃ mv' v', Delivers parse fed (noted got c.task r) p' mv' v' ∧
      ((∀ q, c.suspension = .get q → p.TakesOwn q) → p.Reads mv → p'.Reads mv') := by
  cases hr with
  | disconnect hset => exact ⟨mv, v, h.forget k, fun _ => id⟩
  | takes q hget htakes =>
    obtain ⟨mv', v', hafter, hreads⟩ := h.takes hparse hc hget htakes
    exact ⟨mv', v', hafter, fun hown => hreads (hown q hget)⟩

theorem Delivers.send (h : Delivers parse fed got p mv v) {i : Nat} {t : Cycle} (ht : p.tasks[i]? = some t)
    (date : Bytes) (message : Message) :
    Delivers parse fed got (p.send i t date message) mv v ∧ (p.Reads mv → (p.send i t date message).Reads mv) := by
  have hserves := h.serves.send ht date message
  unfold Http11Protocol.send at hserves ⊢
  split
  · exact ⟨h, id⟩
  · rename_i response hresponse
    rw [hresponse] at hserves
    refine ⟨h.same hserves rfl rfl rfl (fewer_of_eq rfl) (map_setTask _ ht rfl), fun hreads hp => ?_⟩
    have hwrite := (p.transport.closing_write (response.wire.drop t.response.wire.length))
    have hpaused := (p.transport.paused_write (response.wire.drop t.response.wire.length))
    dsimp only at hp ⊢
    split at hp
    · rename_i hclosed
      rw [if_pos hclosed]
      exact .inl rfl
    · rename_i hopen
      rw [if_neg hopen, hwrite]
      exact hreads (hpaused ▸ hp)

theorem Delivers.begin (h : Delivers parse fed got p mv v) {i : Nat} {t : Cycle} (ht : p.tasks[i]? = some t)
    (hstatus : t.status = .scheduled) : Delivers parse fed got (p.begin i t) mv v := by
  unfold Http11Protocol.begin
  split
  · exact h.setTask ht rfl rfl nofun
  · have hset : Delivers parse fed got (p.setTask i { t with status := .running }) mv v :=
      h.setTask ht rfl rfl fun _ => Cycle.live_scheduled hstatus
    exact hset.same (hset.serves.same rfl rfl id rfl) rfl rfl rfl (fewer_of_eq rfl) rfl

theorem Reads.begin (h : p.Reads mv) (i : Nat) (t : Cycle) : (p.begin i t).Reads mv := by
  unfold Http11Protocol.begin
  split
  · exact h
  · exact h

theorem closing_close : p.close.transport.closing = true ∨ p.close = p := by
  unfold Http11Protocol.close
  split
  · exact .inr rfl
  · exact .inl rfl

theorem Reads.close (h : p.Reads mv) : p.close.Reads mv := by
  rcases closing_close (p := p) with hc | hsame
  · exact fun _ => .inl hc
  · rw [hsame]
    exact h

/-- An end of a cycle that leaves the connection open, after the engine has read
all of the request, leaves it read. -/
def ReadsOn (p : Http11Protocol) (t : Cycle) (ending : Ending) : Prop :=
  p.transport.closing = true ∨ p.transport.paused = false ∨ (ending = .raised ∧ t.bytesWritten = false) ∨
    p.conn.state ≠ .servingApp ∨ p.conn.Final

/-- The engine is reset while it waits for no head. -/
theorem Serves.afterReset (h : p.Serves parse mv) (hstage : mv.stage ≠ .idle) (hs : p.conn.state ≠ .servingApp)
    (hfinal : ¬ p.conn.Final) : mv.afterReset = mv := by
  refine if_neg fun hended => ?_
  rcases h.watched.2 with hknown | ⟨-, -, hstage' | hstage'⟩
  · have hin : p.conn.state.inBody = true := by
      have hbusy := h.busy hstage
      cases hstate : p.conn.state with
      | waitingHeader => exact absurd (by rw [hstate]; rfl) hbusy
      | keepAliveWait => exact absurd (by rw [hstate]; rfl) hbusy
      | receivingContentLength remaining => rfl
      | receivingChunked stage => rfl
      | servingApp => exact absurd hstate hs
      | closed => exact absurd (.inl hstate) hfinal
    rw [(hknown.inBody hin).1] at hended
    cases hended
  · exact hstage hstage'
  · rw [hstage'] at hended
    cases hended

/-- The application is done, and the `finally` block runs. -/
theorem Delivers.afterCycle (hparse : InRange parse) (h : Delivers parse fed got p mv v) (hstage : mv.stage ≠ .idle)
    (hnone : p.Alone mv.afterReset) :
    ∃ mv' v', Delivers parse fed got (p.afterCycle parse) mv' v' ∧
      (p.Reads mv → p.transport.closing = true ∨ p.transport.paused = false ∨ p.conn.state ≠ .servingApp ∨ p.conn.Final →
        (p.afterCycle parse).Reads mv') := by
  have hset := h.serves.toSettled
  have hconn : p.reset.conn = p.conn.resetForNextRequest := by
    unfold reset
    dsimp only
    split
    · rfl
    · rfl
  have hqueue : p.reset.bodyQueue = p.bodyQueue ∧ p.reset.queues = p.queues := by
    unfold reset
    dsimp only
    split
    · exact ⟨rfl, rfl⟩
    · exact ⟨rfl, rfl⟩
  have hfewer : p.Fewer p.reset := by
    unfold reset
    dsimp only
    split
    · exact fewer_disconnect rfl
    · exact fewer_disconnect rfl
  have htasks : p.reset.tasks = p.tasks := by
    unfold reset
    dsimp only
    split
    · rfl
    · rfl
  have hlinked : p.reset.conn.Linked parse fed v := by
    rw [hconn]
    exact h.linked.reset hparse h.ready.bounded h.ready.mode
  have hfeeds : p.reset.Feeds (p.reset.conn.Jammed parse) (mv.afterReset.stage = .idle) v got := by
    have hsame : p.reset.Feeds (p.conn.Jammed parse) (mv.stage = .idle) v got :=
      h.feeds.same hqueue.1 hqueue.2 hfewer (by rw [htasks])
    refine hsame.mono (fun hj => ?_) fun _ hidle => absurd hidle hstage
    obtain ⟨n, hn, -⟩ := hj.wraps hparse h.ready.bounded h.ready.mode
    have hreset : p.conn.resetForNextRequest = p.conn := if_neg (by rw [hn]; exact nofun)
    rw [hconn, hreset]
    exact hj
  have hreads : p.Reads mv → p.transport.closing = true ∨ p.transport.paused = false ∨ p.conn.state ≠ .servingApp ∨
      p.conn.Final → p.reset.Reads mv.afterReset := by
    intro hreads hcond hpaused
    unfold reset at hpaused ⊢
    dsimp only at hpaused ⊢
    split
    · exact .inl rfl
    · rename_i hopen
      rw [if_neg hopen] at hpaused
      have hfinal : ¬ p.conn.Final := fun hf => hopen (FastHttpConnection.isClosed_reset.2 hf)
      rcases hcond with hc | hread | hs | hf
      · exact .inl hc
      · exact absurd (hread.symm.trans hpaused) Bool.false_ne_true
      · rw [h.serves.afterReset hstage hs hfinal]
        exact hreads hpaused
      · exact absurd hf hfinal
  rw [afterCycle_eq hset.pending]
  split
  · rename_i hclosed
    exact ⟨mv.afterReset, v, (serves_reset hparse hset h.ready.watched hnone hclosed).delivers hlinked hfeeds h.awaits.reset,
      hreads⟩
  · rename_i hopen
    have hdue : Due parse fed got p.reset mv.afterReset v :=
      ⟨ready_reset hset h.ready.watched hnone hopen, hlinked, hfeeds, h.awaits.reset⟩
    obtain ⟨mv', v', hafter, hread⟩ := hdue.afterPump hparse
    exact ⟨mv', v', hafter, fun hr hc => hread (hreads hr hc)⟩

theorem Delivers.finishes (hparse : InRange parse) (h : Delivers parse fed got p mv v) {i : Nat} {t : Cycle}
    (ht : p.tasks[i]? = some t) (hstatus : t.status = .running) {date : Bytes} {ending : Ending}
    (hends : Finishes parse p i t date ending p') :
    ∃ mv' v', Delivers parse fed got p' mv' v' ∧
      (p.Reads mv → (t.start.isWebsocket = false → p.ReadsOn t ending) → p'.Reads mv') := by
  have hset : Delivers parse fed got (p.setTask i { t with status := .finished }) mv v := h.setTask ht rfl rfl nofun
  have hlive := Cycle.live_running hstatus
  obtain ⟨hstage, -⟩ := h.last ht hlive
  cases hends with
  | websocket hws =>
    split
    · exact ⟨mv, v, hset.close, fun hreads _ => Reads.close (p := p.setTask i { t with status := .finished }) hreads⟩
    · exact ⟨mv, v, hset, fun hreads _ => hreads⟩
  | http hhttp hleft =>
    have hdone := h.ready.alone.finished ht hlive hhttp mv.afterReset
    cases hleft with
    | raised hunsent hopen =>
      have hleft : Delivers parse fed got { p.setTask i { t with status := .finished } with
          transport := (p.transport.write (errResp date)).close } mv v :=
        hset.same (hset.serves.same rfl rfl id rfl) rfl rfl rfl (fewer_of_eq rfl) rfl
      obtain ⟨mv', v', hafter, hreads⟩ := hleft.afterCycle hparse hstage hdone
      exact ⟨mv', v', hafter, fun _ _ => hreads (fun _ => .inl rfl) (.inl rfl)⟩
    | other hother =>
      obtain ⟨mv', v', hafter, hreads⟩ := hset.afterCycle hparse hstage hdone
      refine ⟨mv', v', hafter, fun hr hon => hreads hr ?_⟩
      rcases hon hhttp with hc | hread | hraised | hs | hf
      · exact .inl hc
      · exact .inr (.inl hread)
      · by_cases hc : p.transport.closing = true
        · exact .inl hc
        · exact absurd ⟨hraised.1, hraised.2, eq_false_of_ne_true hc⟩ hother
      · exact .inr (.inr (.inl hs))
      · exact .inr (.inr (.inr hf))

end Http11Protocol

end Multiloop.Http
