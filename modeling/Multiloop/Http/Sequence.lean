import Multiloop.Http.Frozen
import Multiloop.Http.Progress

/-!
# Responses in a sequence

What is written to a connection, before it is upgraded, should be one whole
response after the other, each for the next request, and at most one more that
is not complete: it is being written, or the transport is closed. While the
transport is open, that follows from how far the response of each task is, as
only the last task has not responded.
-/

namespace Multiloop.Http

/-! ## Lists -/

section Lists

variable {α β : Type} {l : List α} {a : α}

theorem flatMap_set {f : α → List β} {i : Nat} {a' : α} {bs : List β} (ha : l[i]? = some a)
    (hf : f a' = f a ++ bs) (hlast : bs = [] ∨ i + 1 = l.length) : (l.set i a').flatMap f = l.flatMap f ++ bs := by
  induction l generalizing i with
  | nil => cases ha
  | cons b l ih =>
    cases i with
    | zero =>
      cases ha
      rw [List.set_cons_zero, List.flatMap_cons, List.flatMap_cons, hf]
      rcases hlast with rfl | hlen
      · simp only [List.append_nil]
      · obtain rfl : l = [] := List.length_eq_zero_iff.1 (by rw [List.length_cons] at hlen; omega)
        simp only [List.flatMap_nil, List.append_nil]
    | succ i =>
      rw [List.set_cons_succ, List.flatMap_cons, List.flatMap_cons, List.append_assoc, ih ha (hlast.imp_right ?_)]
      intro hlen
      rw [List.length_cons] at hlen
      omega

theorem eq_append_of_last {i : Nat} (ha : l[i]? = some a) (hi : i + 1 = l.length) :
    ∃ init, l = init ++ [a] ∧ init.length = i := by
  have hlast : l.getLast? = some a := by
    rw [List.getLast?_eq_getElem?, ← ha]
    congr 1
    omega
  obtain ⟨init, hinit⟩ := List.getLast?_eq_some_iff.1 hlast
  refine ⟨init, hinit, ?_⟩
  rw [hinit, List.length_append, List.length_singleton] at hi
  omega

variable {k : Nat} {f : α → Bool}

theorem filter_eraseIdx_of_neg (ha : l[k]? = some a) (hf : f a = false) : (l.eraseIdx k).filter f = l.filter f := by
  induction l generalizing k with
  | nil => rfl
  | cons b l ih =>
    cases k with
    | zero =>
      cases ha
      rw [List.eraseIdx_cons_zero, List.filter_cons_of_neg (by rw [hf]; exact Bool.false_ne_true)]
    | succ k => rw [List.eraseIdx_cons_succ, List.filter_cons, List.filter_cons, ih ha]

theorem length_filter_eraseIdx (ha : l[k]? = some a) (hf : f a = true) :
    ((l.eraseIdx k).filter f).length + 1 = (l.filter f).length := by
  induction l generalizing k with
  | nil => cases ha
  | cons b l ih =>
    cases k with
    | zero =>
      cases ha
      rw [List.eraseIdx_cons_zero, List.filter_cons_of_pos hf, List.length_cons]
    | succ k =>
      have hrest := ih ha
      rw [List.eraseIdx_cons_succ, List.filter_cons, List.filter_cons]
      split
      · rw [List.length_cons, List.length_cons, hrest]
      · exact hrest

end Lists

/-! ## The property -/

namespace Http11Protocol

variable {parse : Httparse} {p p' : Http11Protocol} {v : Monitor} {done : List Bytes} {last : Bytes}

/-- What is written are the whole responses `done`, to the first requests in
their order, and then `last`. -/
structure Sequence (p : Http11Protocol) (done : List Bytes) (last : Bytes) : Prop where
  wire : p.transport.wire = done.flatten ++ last
  answers : ∀ (i : Nat) (response : Bytes), done[i]? = some response →
    ∃ t, p.tasks[i]? = some t ∧ Whole t.start.method response
  /-- A request whose cycle has ended is answered, as long as the connection is
  open. -/
  ended : p.transport.closing = false → ∀ (i : Nat) (t : Cycle), p.tasks[i]? = some t →
    t.start.isWebsocket = false → t.live = false → i < done.length
  /-- The response to the next request is being written, or was when the
  transport was closed, or the engine has refused the next request. -/
  last : last = [] ∨
    (∃ t, p.tasks[done.length]? = some t ∧ Streams t.start.method last ∧
      (t.live = true ∨ p.transport.closing = true)) ∨
    Answer last ∧ p.transport.closing = true ∧ p.conn.state = .closed ∧ p.tasks.length = done.length

/-- Nothing more is written once the transport is closing. -/
theorem Sequence.keep (h : p.Sequence done last) (he : p.Extends p') (hwire : p'.transport.wire = p.transport.wire)
    (hclosing : p'.transport.closing = true) : p'.Sequence done last where
  wire := hwire.trans h.wire
  answers i response hi := by
    obtain ⟨t, ht, hwhole⟩ := h.answers i response hi
    obtain ⟨t', ht', hstart⟩ := he.starts i t ht
    exact ⟨t', ht', hstart ▸ hwhole⟩
  ended hopen := by
    rw [hclosing] at hopen
    cases hopen
  last := by
    rcases h.last with hnil | ⟨t, ht, hstreams, -⟩ | ⟨hanswer, hc, hgone, hlen⟩
    · exact .inl hnil
    · obtain ⟨t', ht', hstart⟩ := he.starts _ t ht
      exact .inr (.inl ⟨t', ht', hstart ▸ hstreams, .inr hclosing⟩)
    · obtain ⟨hgone', hlen'⟩ := he.gone hgone
      exact .inr (.inr ⟨hanswer, hclosing, hgone', hlen'.trans hlen⟩)

/-! ## What a call of the engine does -/

/-- Nothing is written, and the tasks are those that were there, or one more for
a request that begins. -/
inductive Begins (p : Http11Protocol) (ph : Phase) (evs : List Event) (q : Http11Protocol) : Prop
  | none (htasks : q.tasks = p.tasks) (hwire : q.transport.wire = p.transport.wire)
      (hclosing : q.transport.closing = p.transport.closing)
  | one (start : RequestStart) (hidle : ph = .idle) (hmem : .requestStart start ∈ evs)
      (htasks : q.tasks = p.tasks ++ [.new start]) (hwire : q.transport.wire = p.transport.wire)
      (hclosing : q.transport.closing = p.transport.closing)

/-- What is done about the events of a call, after which the phase is `ph'`. -/
inductive Told (p : Http11Protocol) (ph ph' : Phase) (evs : List Event) : Http11Protocol → Prop
  | open {q : Http11Protocol} (hq : Begins p ph evs q) : Told p ph ph' evs q
  | refused {q : Http11Protocol} (hq : Begins p ph evs q) (hgone : ph' = .gone) {status : Nat} {response : Bytes}
      (hmem : .error status response ∈ evs) :
      Told p ph ph' evs { q with transport := (q.transport.write response).close }.close

theorem Begins.after {e : Event} {evs : List Event} {q q' : Http11Protocol} {ph ph' : Phase}
    (hq : Begins p ph [e] q) (hph' : ph' ≠ .idle) (h : Begins q ph' evs q') : Begins p ph (e :: evs) q' := by
  cases h with
  | one start hidle => exact absurd hidle hph'
  | none htasks hwire hclosing =>
    cases hq with
    | none htasks' hwire' hclosing' => exact .none (htasks.trans htasks') (hwire.trans hwire') (hclosing.trans hclosing')
    | one start hidle hmem htasks' hwire' hclosing' =>
      refine .one start hidle ?_ (htasks.trans htasks') (hwire.trans hwire') (hclosing.trans hclosing')
      exact List.mem_singleton.1 hmem ▸ .head _

theorem Told.after {e : Event} {evs : List Event} {q : Http11Protocol} {ph ph₁ ph' : Phase} (hq : Begins p ph [e] q)
    (hph₁ : ph₁ ≠ .idle) (h : Told q ph₁ ph' evs p') : Told p ph ph' (e :: evs) p' := by
  cases h with
  | «open» h => exact .open (hq.after hph₁ h)
  | refused h hgone hmem => exact .refused (hq.after hph₁ h) hgone (.tail _ hmem)

theorem begins_body (p : Http11Protocol) (ph : Phase) (chunk : Bytes) (moreBody : Bool) :
    Begins p ph [.body chunk moreBody] (p.handleEvent (.body chunk moreBody)) := by
  unfold Http11Protocol.handleEvent
  dsimp only
  split
  · refine .none rfl ?_ ?_
    · dsimp only
      split
      · exact wire_pauseReading p.transport
      · rfl
    · dsimp only
      split
      · exact p.transport.closing_pauseReading
      · rfl
  · exact .none rfl rfl rfl

theorem told_handleEvents {ph ph' : Phase} {evs : List Event} (hstate : ph = .idle → p.state ≠ .servingApp)
    (hevs : ph.afterAll evs = some ph') : Told p ph ph' evs (p.handleEvents evs) := by
  induction evs generalizing p ph with
  | nil => exact .open (.none rfl rfl rfl)
  | cons e evs ih =>
    obtain ⟨ph₁, he, hrest⟩ := Option.bind_eq_some_iff.1 hevs
    have hserving : ph₁ = .serving → Told (p.handleEvent e) ph₁ ph' evs (p.handleEvents (e :: evs)) := by
      intro hph₁
      refine ih (p := p.handleEvent e) (fun hidle => ?_) hrest
      rw [hph₁] at hidle
      cases hidle
    cases e with
    | requestStart start =>
      cases ph with
      | idle =>
        cases he
        refine Told.after (.one start rfl (.head _) ?_ ?_ ?_) (by decide) (hserving rfl)
        all_goals
          unfold Http11Protocol.handleEvent
          dsimp only
          split
        · rfl
        · rw [if_neg (hstate rfl)]
          rfl
        · rfl
        · rw [if_neg (hstate rfl)]
          rfl
        · rfl
        · rw [if_neg (hstate rfl)]
          rfl
      | serving => cases he
      | gone => cases he
    | body chunk moreBody =>
      cases ph with
      | serving =>
        cases he
        exact Told.after (begins_body p .serving chunk moreBody) (by decide) (hserving rfl)
      | idle => cases he
      | gone => cases he
    | upgrade proto =>
      cases ph with
      | serving =>
        cases he
        exact Told.after (.none rfl rfl rfl) (by decide) (hserving rfl)
      | idle => cases he
      | gone => cases he
    | message opcode fin payload =>
      cases ph with
      | idle => cases he
      | serving => cases he
      | gone => cases he
    | error status response =>
      have hgone : ph₁ = .gone := by
        cases ph with
        | idle =>
          cases he
          rfl
        | serving =>
          cases he
          rfl
        | gone => cases he
      -- Nothing is told after an error.
      cases evs with
      | nil =>
        cases hrest
        exact .refused (q := p) (.none rfl rfl rfl) hgone (.head _)
      | cons e' evs =>
        obtain ⟨ph₂, he', -⟩ := Option.bind_eq_some_iff.1 hrest
        rw [hgone] at he'
        cases e' <;> cases he'

end Http11Protocol

/-! ## An open transport -/

namespace Draining

variable {parse : Httparse} {d d' : Draining} {p : Http11Protocol} {v : Monitor} {i : Nat} {t t' : Cycle}

/-- The calls of `send` that wait, and will change the state of the response of
task `i`. -/
def counting (d : Draining) (i : Nat) : List Sending := d.sending.filter fun s => decide (s.task = i) && s.counts

/-- The response of task `i` is complete, or will be once the calls that wait go
on. -/
def Completed (d : Draining) (i : Nat) (t : Cycle) : Prop :=
  t.response.respStatus = .complete ∨ ∃ s ∈ d.counting i, s.moreBody = false

/-- What holds while the transport is open. -/
structure Open (d : Draining) : Prop where
  wire : d.protocol.transport.wire = d.protocol.tasks.flatMap fun t => t.response.wire
  tracks : ∀ (i : Nat) (t : Cycle), d.protocol.tasks[i]? = some t → Tracks t.start.method t.response (d.counting i)
  unwritten : ∀ (i : Nat) (t : Cycle), d.protocol.tasks[i]? = some t →
    t.bytesWritten = false ∨ t.start.isWebsocket = true → t.response.wire = []
  calm : ∀ (i : Nat) (t : Cycle), d.protocol.tasks[i]? = some t → t.cancelled = false
  ended : ∀ (i : Nat) (t : Cycle), d.protocol.tasks[i]? = some t → t.start.isWebsocket = false → t.live = false →
    d.Completed i t
  known : ∀ s ∈ d.sending, s.task < d.protocol.tasks.length

theorem mem_counting {s : Sending} (hs : s ∈ d.sending) (hcounts : s.counts = true) : s ∈ d.counting s.task := by
  refine List.mem_filter.2 ⟨hs, ?_⟩
  rw [hcounts, decide_eq_true rfl]
  rfl

/-- No call waits for a task that is not there yet. -/
theorem Open.counting_new (h : d.Open) (hi : d.protocol.tasks.length ≤ i) : d.counting i = [] := by
  refine List.filter_eq_nil_iff.2 fun s hs hboth => ?_
  have hlt := h.known s hs
  have htask : s.task = i := of_decide_eq_true (Bool.and_eq_true_iff.1 hboth).1
  omega

theorem Open.same (h : d.Open) (htasks : p.tasks = d.protocol.tasks)
    (hwire : p.transport.wire = d.protocol.transport.wire) : Open { d with protocol := p } where
  wire := by
    show p.transport.wire = p.tasks.flatMap _
    rw [hwire, htasks]
    exact h.wire
  tracks i t ht := h.tracks i t (htasks ▸ ht)
  unwritten i t ht := h.unwritten i t (htasks ▸ ht)
  calm i t ht := h.calm i t (htasks ▸ ht)
  ended i t ht := h.ended i t (htasks ▸ ht)
  known s hs := by
    show s.task < p.tasks.length
    rw [htasks]
    exact h.known s hs

/-- A task is created. -/
theorem Open.created (h : d.Open) {start : RequestStart} (htasks : p.tasks = d.protocol.tasks ++ [.new start])
    (hwire : p.transport.wire = d.protocol.transport.wire) : Open { d with protocol := p } := by
  have hcases : ∀ (i : Nat) (t : Cycle), p.tasks[i]? = some t →
      d.protocol.tasks[i]? = some t ∨ i = d.protocol.tasks.length ∧ t = .new start := by
    intro i t ht
    rw [htasks] at ht
    rcases Nat.lt_or_ge i d.protocol.tasks.length with hlt | hge
    · rw [List.getElem?_append_left hlt] at ht
      exact .inl ht
    · obtain ⟨hi, -⟩ := List.getElem?_eq_some_iff.1 ht
      rw [List.length_append, List.length_singleton] at hi
      obtain rfl : i = d.protocol.tasks.length := by omega
      rw [List.getElem?_concat_length] at ht
      cases ht
      exact .inr ⟨rfl, rfl⟩
  constructor
  · show p.transport.wire = p.tasks.flatMap _
    rw [hwire, htasks, List.flatMap_append, h.wire]
    exact (List.append_nil _).symm
  · intro i t ht
    rcases hcases i t ht with ht | ⟨rfl, rfl⟩
    · exact h.tracks i t ht
    · show Tracks _ _ (d.counting _)
      rw [h.counting_new (Nat.le_refl _)]
      exact .unsent ⟨nofun, nofun⟩ rfl
  · intro i t ht hwritten
    rcases hcases i t ht with ht | ⟨rfl, rfl⟩
    · exact h.unwritten i t ht hwritten
    · rfl
  · intro i t ht
    rcases hcases i t ht with ht | ⟨rfl, rfl⟩
    · exact h.calm i t ht
    · rfl
  · intro i t ht hhttp hlive
    rcases hcases i t ht with ht | ⟨rfl, rfl⟩
    · exact h.ended i t ht hhttp hlive
    · cases hlive
  · intro s hs
    show s.task < p.tasks.length
    rw [htasks, List.length_append]
    exact Nat.lt_add_right _ (h.known s hs)

/-- A task goes on, and what it writes comes last. -/
theorem Open.set (h : d.Open) (ht : d.protocol.tasks[i]? = some t) (t' : Cycle)
    (htasks : d'.protocol.tasks = d.protocol.tasks.set i t') (bs : Bytes)
    (hwire : d'.protocol.transport.wire = d.protocol.transport.wire ++ bs)
    (hbs : t'.response.wire = t.response.wire ++ bs) (hlast : bs = [] ∨ i + 1 = d.protocol.tasks.length)
    (hother : ∀ j, j ≠ i → d'.counting j = d.counting j) (hknown : ∀ s ∈ d'.sending, s.task < d.protocol.tasks.length)
    (htracks : Tracks t'.start.method t'.response (d'.counting i))
    (hunwritten : t'.bytesWritten = false ∨ t'.start.isWebsocket = true → t'.response.wire = []) (hcalm : t'.cancelled = false)
    (hended : t'.start.isWebsocket = false → t'.live = false → d'.Completed i t') : d'.Open := by
  have hcases : ∀ (j : Nat) (u : Cycle), d'.protocol.tasks[j]? = some u →
      j = i ∧ u = t' ∨ j ≠ i ∧ d.protocol.tasks[j]? = some u := by
    intro j u hu
    rw [htasks] at hu
    by_cases hj : j = i
    · subst hj
      rw [List.getElem?_set_self (List.getElem?_eq_some_iff.1 ht).1] at hu
      exact .inl ⟨rfl, (Option.some.inj hu).symm⟩
    · rw [List.getElem?_set_ne (Ne.symm hj)] at hu
      exact .inr ⟨hj, hu⟩
  constructor
  · rw [hwire, htasks, flatMap_set ht hbs hlast, h.wire]
  · intro j u hu
    rcases hcases j u hu with ⟨rfl, rfl⟩ | ⟨hj, hu⟩
    · exact htracks
    · rw [hother j hj]
      exact h.tracks j u hu
  · intro j u hu
    rcases hcases j u hu with ⟨rfl, rfl⟩ | ⟨hj, hu⟩
    · exact hunwritten
    · exact h.unwritten j u hu
  · intro j u hu
    rcases hcases j u hu with ⟨rfl, rfl⟩ | ⟨hj, hu⟩
    · exact hcalm
    · exact h.calm j u hu
  · intro j u hu
    rcases hcases j u hu with ⟨rfl, rfl⟩ | ⟨hj, hu⟩
    · exact hended
    · unfold Completed
      rw [hother j hj]
      exact h.ended j u hu
  · intro s hs
    rw [htasks, List.length_set]
    exact hknown s hs

/-! ## The responses so far -/

/-- A task after which another one was created has responded. -/
theorem Open.whole_of_lt (h : d.Open) (halone : d.protocol.Alone v) (ht : d.protocol.tasks[i]? = some t)
    (hi : i + 1 < d.protocol.tasks.length) : Whole t.start.method t.response.wire := by
  have hnot : ¬ (t.live = true ∨ t.start.isWebsocket = true) := fun hl => by
    have := (halone i t ht hl).1
    omega
  rw [not_or] at hnot
  exact (h.tracks i t ht).whole (h.ended i t ht (eq_false_of_ne_true hnot.2) (eq_false_of_ne_true hnot.1))

/-- What each task has written. -/
def wires (ts : List Cycle) : List Bytes := ts.map fun t => t.response.wire

theorem flatten_wires (ts : List Cycle) : (wires ts).flatten = ts.flatMap fun t => t.response.wire := List.flatMap_def.symm

/-- The first tasks, if they have responded. -/
theorem answers_wires (rest : List Cycle) {ts : List Cycle}
    (h : ∀ (i : Nat) (t : Cycle), ts[i]? = some t → Whole t.start.method t.response.wire)
    (i : Nat) (response : Bytes) (hi : (wires ts)[i]? = some response) :
    ∃ t, (ts ++ rest)[i]? = some t ∧ Whole t.start.method response := by
  unfold wires at hi
  rw [List.getElem?_map] at hi
  obtain ⟨t, ht, rfl⟩ := Option.map_eq_some_iff.1 hi
  refine ⟨t, ?_, h i t ht⟩
  rw [List.getElem?_append_left (List.getElem?_eq_some_iff.1 ht).1, ht]

/-- All tasks have responded. -/
theorem Open.sequence_all (h : d.Open)
    (hall : ∀ (i : Nat) (t : Cycle), d.protocol.tasks[i]? = some t → Whole t.start.method t.response.wire) :
    d.protocol.Sequence (wires d.protocol.tasks) [] where
  wire := by rw [h.wire, flatten_wires, List.append_nil]
  answers i response hi := by
    obtain ⟨t, ht, hwhole⟩ := answers_wires [] hall i response hi
    rw [List.append_nil] at ht
    exact ⟨t, ht, hwhole⟩
  ended _ i t ht _ _ := by
    unfold wires
    rw [List.length_map]
    exact (List.getElem?_eq_some_iff.1 ht).1
  last := .inl rfl

/-- All tasks but the last one have responded. -/
theorem Open.sequence_init (h : d.Open) (halone : d.protocol.Alone v) {init : List Cycle}
    (htasks : d.protocol.tasks = init ++ [t]) (hdone : ¬ d.Completed init.length t) :
    d.protocol.Sequence (wires init) t.response.wire := by
  have hlast : d.protocol.tasks[init.length]? = some t := by rw [htasks, List.getElem?_concat_length]
  have hlen : d.protocol.tasks.length = init.length + 1 := by rw [htasks, List.length_append]; rfl
  have hwires : (wires init).length = init.length := List.length_map _
  refine ⟨?_, ?_, ?_, ?_⟩
  · rw [h.wire, flatten_wires, htasks, List.flatMap_append, List.flatMap_singleton]
  · rw [htasks]
    refine answers_wires [t] fun i u hu => ?_
    have hi := (List.getElem?_eq_some_iff.1 hu).1
    refine h.whole_of_lt halone (i := i) ?_ (by omega)
    rw [htasks, List.getElem?_append_left hi, hu]
  · intro _ i u hu hhttp hlive
    have hi := (List.getElem?_eq_some_iff.1 hu).1
    rw [hwires]
    by_contra hge
    obtain rfl : i = init.length := by omega
    rw [hlast] at hu
    cases hu
    exact hdone (h.ended _ t hlast hhttp hlive)
  · rcases (h.tracks _ t hlast).streams hdone with hnil | hstreams
    · exact .inl hnil
    by_cases hws : t.start.isWebsocket = true
    · exact .inl (h.unwritten _ t hlast (.inr hws))
    · refine .inr (.inl ⟨t, by rwa [hwires], hstreams, .inl ?_⟩)
      by_contra hlive
      exact hdone (h.ended _ t hlast (eq_false_of_ne_true hws) (eq_false_of_ne_true hlive))

theorem Open.sequence (h : d.Open) (halone : d.protocol.Alone v) : ∃ done last, d.protocol.Sequence done last := by
  rcases List.eq_nil_or_concat d.protocol.tasks with hnil | ⟨init, t, htasks⟩
  · refine ⟨_, _, h.sequence_all fun i t ht => ?_⟩
    rw [hnil] at ht
    cases ht
  rw [List.concat_eq_append] at htasks
  by_cases hdone : d.Completed init.length t
  · refine ⟨_, _, h.sequence_all fun i u hu => ?_⟩
    have hi := (List.getElem?_eq_some_iff.1 hu).1
    have hlen : d.protocol.tasks.length = init.length + 1 := by rw [htasks, List.length_append]; rfl
    rcases Nat.lt_or_ge (i + 1) d.protocol.tasks.length with hlt | hge
    · exact h.whole_of_lt halone hu hlt
    · obtain rfl : i = init.length := by omega
      rw [htasks, List.getElem?_concat_length] at hu
      cases hu
      exact (h.tracks _ t (by rw [htasks, List.getElem?_concat_length])).whole hdone
  · exact ⟨_, _, h.sequence_init halone htasks hdone⟩

end Draining

end Multiloop.Http
