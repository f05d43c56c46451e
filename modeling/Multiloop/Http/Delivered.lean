import Multiloop.Http.Delivery

/-!
# Every run delivers

A run of a connection, with the bytes that it received and the messages that
the calls of `receive` returned which each application made while its request
was served, one at a time. In every state these messages carry the beginning of
the body that the bytes of the request spell. An application that waits finds
the transport read, if no cycle before ended with the transport paused and left
to the next request, and no call that outlived its cycle took away the queue of
another request.
-/

namespace Multiloop.Http

namespace Reading

variable (r : Reading)

/-- The body, as far as its bytes were read. -/
def body : Bytes := carried r.parts

/-- The messages that the body is delivered by. -/
def messages : List Part := if r.start.hasBody then r.parts else [([], false)]

/-- Some messages are all that deliver the body. -/
def Delivers (messages : List Part) : Prop := r.Complete ∧ messages = r.messages

end Reading

namespace Http11Protocol

/-- A connection in a run: the bytes received so far, and what was given to each
application. -/
structure Delivery where
  protocol : Http11Protocol
  fed : Bytes
  got : Nat → List Part

namespace Delivery

def new : Delivery where
  protocol := .new
  fed := []
  got := fun _ => []

/-- `receive` is called by applications that run, by each one call at a time. -/
def step (parse : Httparse) (d : Delivery) : Action → Option Delivery
  | .dataReceived data => (d.protocol.step parse (.dataReceived data)).map fun p =>
    { d with protocol := p, fed := if d.protocol.upgraded then d.fed else d.fed ++ data }
  | .receive i => do
    let t ← d.protocol.tasks[i]?
    if t.status = .running ∧ ¬ t.start.isWebsocket ∧ ∀ c ∈ d.protocol.receiving, c.task ≠ i then
      let r := d.protocol.receive parse i t
      some { d with protocol := r.2, got := r.1.elim d.got (noted d.got i) }
    else none
  | .resume k => do
    let c ← d.protocol.receiving[k]?
    (d.protocol.resume parse k c).map fun r => { d with protocol := r.2, got := noted d.got c.task r.1 }
  | a => (d.protocol.step parse a).map fun p => { d with protocol := p }

/-- The runs of a connection. -/
def delivery (parse : Httparse) : System Delivery Action where
  init d := d = .new
  step := step parse

/-- The messages that the application of request `i` got. -/
structure Gets (r : Reading) (got : List Part) : Prop where
  /-- They carry the beginning of the body. -/
  body : carried got <+: r.body
  beginning : got <+: r.messages
  /-- `more_body` is false on the message that completes the body, and only on
  it. -/
  last : ∀ (n : Nat) (m : Part), got[n]? = some m → (m.2 = false ↔ r.Delivers (got.take (n + 1)))

/-- The bytes received are those of the requests that were started, in order,
and what the applications got are the bodies that these spell. -/
def Delivered (parse : Httparse) (d : Delivery) : Prop :=
  ∃ (rs : List Reading) (rest : Bytes), d.fed = rs.flatMap Reading.bytes ++ rest ∧
    d.protocol.tasks.map (·.start) = rs.map (·.start) ∧ (∀ r ∈ rs, r.Sound parse) ∧ (∀ r ∈ rs.dropLast, r.Complete) ∧
    ∀ (i : Nat) (r : Reading), rs[i]? = some r → r.start.isWebsocket = false → Gets r (d.got i)

/-- An application that waits in `receive`, at a queue that is empty or for the
end of the connection, finds the transport read, unless it is closed. -/
def Unpaused (d : Delivery) : Prop :=
  ∀ c ∈ d.protocol.receiving, ∀ t, d.protocol.tasks[c.task]? = some t → t.status = .running →
    t.start.isWebsocket = false → (∀ q, c.suspension = .get q → d.protocol.queues q = []) →
    d.protocol.transport.paused = true → d.protocol.transport.closing = true

/-- No cycle ends with the transport paused, and leaves it open to the next
request; and no call that was suspended takes the last part of a body, and with
it the queue in place, while that is the queue of another request. -/
def Resumed (d : Delivery) : Action → Prop
  | .finish i _ ending => ∀ t, d.protocol.tasks[i]? = some t → t.start.isWebsocket = false →
    d.protocol.ReadsOn t ending
  | .resume k => ∀ c, d.protocol.receiving[k]? = some c → ∀ q, c.suspension = .get q → d.protocol.TakesOwn q
  | _ => True

variable {parse : Httparse} {d d' : Delivery} {mv : Monitor} {v : Told}

/-! ## Messages -/

theorem carried_prefix {parts parts' : List Part} (h : parts <+: parts') : carried parts <+: carried parts' := by
  obtain ⟨rest, rfl⟩ := h
  rw [carried_append]
  exact List.prefix_append _ _

/-- The messages got are the first of those that deliver the body. -/
theorem gets_of_prefix {r : Reading} (hsound : r.Sound parse) {got : List Part} (hgot : got <+: r.messages) :
    Gets r got := by
  obtain ⟨later, hlater⟩ := hgot
  have htake : ∀ {n : Nat} {m : Part}, got[n]? = some m →
      r.messages = got.take n ++ m :: (got.drop (n + 1) ++ later) ∧ got.take (n + 1) = got.take n ++ [m] := by
    intro n m hm
    obtain ⟨hn, hget⟩ := List.getElem?_eq_some_iff.1 hm
    refine ⟨?_, ?_⟩
    · rw [← hlater, ← List.cons_append, ← List.append_assoc, ← hget, ← List.drop_eq_getElem_cons hn, List.take_append_drop]
    · rw [List.take_add_one, hm]
      rfl
  cases hbody : r.start.hasBody with
  | false =>
    have hmessages : r.messages = [([], false)] := by
      unfold Reading.messages
      rw [hbody]
      rfl
    have hcomplete : r.Complete := fun hb => absurd (hbody.symm.trans hb) Bool.false_ne_true
    refine ⟨?_, ⟨later, hlater⟩, fun n m hm => ?_⟩
    · have hcarried := carried_prefix (⟨later, hlater⟩ : got <+: r.messages)
      rw [hmessages] at hcarried
      have hnil : carried got = [] := List.prefix_nil.1 hcarried
      rw [hnil]
      exact List.nil_prefix
    · obtain ⟨hsplit, hnext⟩ := htake hm
      rw [hmessages] at hsplit
      obtain ⟨hbefore, hrest⟩ : got.take n = [] ∧ m :: (got.drop (n + 1) ++ later) = [([], false)] := by
        cases hfirst : got.take n with
        | nil =>
          rw [hfirst] at hsplit
          exact ⟨rfl, hsplit.symm⟩
        | cons x xs =>
          rw [hfirst] at hsplit
          have hlen := congrArg List.length hsplit
          simp only [List.length_cons, List.length_append, List.length_nil] at hlen
          omega
      have hm' : m = ([], false) := (List.cons.inj hrest).1
      constructor
      · intro _
        refine ⟨hcomplete, ?_⟩
        rw [hnext, hbefore, hm', hmessages]
        rfl
      · intro _
        rw [hm']
  | true =>
    have hmessages : r.messages = r.parts := by
      unfold Reading.messages
      rw [hbody]
      rfl
    refine ⟨?_, ⟨later, hlater⟩, fun n m hm => ?_⟩
    · have hcarried := carried_prefix (⟨later, hlater⟩ : got <+: r.messages)
      rw [hmessages] at hcarried
      exact hcarried
    · obtain ⟨hsplit, hnext⟩ := htake hm
      rw [hmessages] at hsplit
      obtain ⟨f, -, hspelled⟩ := hsound
      constructor
      · intro hend
        have hnone := hspelled.last hsplit hend
        rw [hnone] at hsplit
        refine ⟨fun _ => ⟨got.take n, m.1, ?_⟩, ?_⟩
        · rw [hsplit, ← hend]
        · rw [hnext, hmessages, hsplit]
      · rintro ⟨hcomplete, hall⟩
        obtain ⟨before, last, hparts⟩ := hcomplete hbody
        rw [hnext, hmessages, hparts] at hall
        have heq := List.singleton_inj.1 (List.append_inj' hall rfl).2
        rw [heq]

/-! ## Runs -/

/-- What holds between the steps of a run. -/
def Holds (parse : Httparse) (d : Delivery) (mv : Monitor) (v : Told) : Prop :=
  Delivers parse d.fed d.got d.protocol mv v

theorem Holds.delivered (h : d.Holds parse mv v) : d.Delivered parse := by
  obtain ⟨rs, rfl, hsound, hcomplete, rest, hfed⟩ := h.linked.spelled
  have hstarts : d.protocol.tasks.map (·.start) = rs.map (·.start) := by
    rw [h.feeds.starts, List.map_map]
    rfl
  refine ⟨rs, rest, hfed, hstarts, hsound, hcomplete, fun i r hr hhttp => ?_⟩
  have hsoundr := hsound r (List.mem_of_getElem? hr)
  apply gets_of_prefix hsoundr
  have htold : (rs.map Reading.told)[i]? = some (r.start, r.parts) := by
    rw [List.getElem?_map, hr]
    rfl
  cases hbody : r.start.hasBody with
  | true =>
    have hmessages : r.messages = r.parts := by
      unfold Reading.messages
      rw [hbody]
      rfl
    rw [hmessages]
    exact (h.feeds.parts i r.start r.parts htold hbody).first
  | false =>
    have hmessages : r.messages = [([], false)] := by
      unfold Reading.messages
      rw [hbody]
      rfl
    rw [hmessages]
    have htask : (d.protocol.tasks.map (·.start))[i]? = some r.start := by
      rw [hstarts, List.getElem?_map, hr]
      rfl
    rw [List.getElem?_map] at htask
    obtain ⟨t, ht, hstart⟩ := Option.map_eq_some_iff.1 htask
    exact (h.feeds.empty i t ht (hstart ▸ hbody)).1

/-- The queue in place is that of the application that is served, so a call that
waits there for a part waits on a transport that is read. -/
theorem Holds.unpaused (h : d.Holds parse mv v) (hreads : d.protocol.Reads mv) : d.Unpaused := by
  intro c hc t ht hstatus hhttp hempty hpaused
  rcases hreads hpaused with hclosing | ⟨-, q, hq, hmany⟩
  · exact hclosing
  exfalso
  obtain ⟨-, v₀, parts, rfl, hlen⟩ := Delivers.last h ht (Cycle.live_running hstatus)
  obtain ⟨⟨told, htold, -⟩, hlater⟩ := h.feeds.newest q hq
  have hlt := (List.getElem?_eq_some_iff.1 htold).1
  rw [List.length_append, List.length_singleton] at hlt
  obtain rfl : q = c.task := by
    by_contra hne
    have hws := (hlater v₀.length (t.start, parts) (by omega) List.getElem?_concat_length).1
    exact Bool.false_ne_true (hhttp.symm.trans hws)
  obtain ⟨start, -, hplaced⟩ := h.feeds.calling.placed c hc
  unfold Placed at hplaced
  split at hplaced
  · rename_i q' hget
    obtain ⟨rfl, -⟩ := hplaced
    rw [hempty _ hget] at hmany
    exact absurd hmany (Nat.not_lt_zero _)
  · exact hplaced hq

theorem holds_new (parse : Httparse) : new.Holds parse .fresh [] := by
  refine serves_new.delivers (FastHttpConnection.linked_new _ _ _) ?_ nofun
  refine ⟨rfl, nofun, fun i start parts hi => ?_, fun i t ht => ?_, fun _ _ => rfl, List.nodup_nil,
    fun c hc => absurd hc List.not_mem_nil⟩
  · rw [List.getElem?_nil] at hi
    cases hi
  · have hnone : Http11Protocol.new.tasks[i]? = none := List.getElem?_nil
    exact absurd (ht.symm.trans hnone) (Option.some_ne_none t)

/-- What a step keeps. -/
theorem Holds.step (hparse : InRange parse) (h : d.Holds parse mv v) {a : Action} (hst : d.step parse a = some d') :
    ∃ mv' v', d'.Holds parse mv' v' ∧ (d.Resumed a → d.protocol.Reads mv → d'.protocol.Reads mv') := by
  have hlaw : ∀ {p' : Http11Protocol}, d.protocol.step parse a = some p' → Stepped parse d.protocol a p' :=
    fun hp' => stepped_of_step hp'
  cases a with
  | dataReceived data =>
    obtain ⟨p', hp', rfl⟩ := Option.map_eq_some_iff.1 hst
    cases hlaw hp' with
    | dataReceived _ hopen hread hroom hfed =>
      obtain ⟨mv', v', hafter, hreads⟩ := Delivers.feed hparse h hroom hfed
      exact ⟨mv', v', hafter, fun _ => hreads⟩
  | eofReceived =>
    obtain ⟨p', hp', rfl⟩ := Option.map_eq_some_iff.1 hst
    cases hlaw hp' with
    | eofReceived hopen =>
      have hserves := h.serves.step hparse (hlaw hp')
      unfold Http11Protocol.eofReceived
      split
      · exact ⟨mv, v, h, fun _ => id⟩
      · exact ⟨mv, v, Delivers.same h (h.serves.same rfl rfl id rfl) rfl rfl rfl (fewer_of_eq rfl) rfl, fun _ _ _ => .inl rfl⟩
  | connectionLost =>
    cases hst
    have hclosing : Delivers parse d.fed d.got { d.protocol with transport := d.protocol.transport.close } mv v :=
      Delivers.same h (h.serves.same rfl rfl id rfl) rfl rfl rfl (fewer_of_eq rfl) rfl
    exact ⟨mv, v, hclosing.close, fun _ _ => Reads.close fun _ => .inl rfl⟩
  | begin i =>
    obtain ⟨p', hp', rfl⟩ := Option.map_eq_some_iff.1 hst
    cases hlaw hp' with
    | begin _ t ht hstatus =>
      exact ⟨mv, v, Delivers.begin h ht hstatus, fun _ hreads => hreads.begin i t⟩
  | receive i =>
    obtain ⟨t, ht, hst⟩ := Option.bind_eq_some_iff.1 hst
    split at hst
    · rename_i hlegal
      cases hst
      obtain ⟨mv', v', hafter, hreads⟩ := Delivers.receives hparse h ht (Cycle.live_running hlegal.1)
        (eq_false_of_ne_true hlegal.2.1) hlegal.2.2 (receives_receive parse d.protocol i t)
      exact ⟨mv', v', hafter, fun _ => hreads⟩
    · cases hst
  | resume k =>
    obtain ⟨c, hc, hst⟩ := Option.bind_eq_some_iff.1 hst
    obtain ⟨r, hr, rfl⟩ := Option.map_eq_some_iff.1 hst
    obtain ⟨mv', v', hafter, hreads⟩ := Delivers.resumes hparse h hc (resumes_of_resume hr)
    exact ⟨mv', v', hafter, fun hok => hreads (hok c hc)⟩
  | abandon k =>
    obtain ⟨p', hp', rfl⟩ := Option.map_eq_some_iff.1 hst
    cases hlaw hp' with
    | abandon _ hk => exact ⟨mv, v, Delivers.forget h k, fun _ => id⟩
  | send i date message =>
    obtain ⟨p', hp', rfl⟩ := Option.map_eq_some_iff.1 hst
    cases hlaw hp' with
    | send _ t _ _ ht hstatus hhttp =>
      obtain ⟨hafter, hreads⟩ := Delivers.send h ht date message
      exact ⟨mv, v, hafter, fun _ => hreads⟩
  | finish i date ending =>
    obtain ⟨p', hp', rfl⟩ := Option.map_eq_some_iff.1 hst
    cases hlaw hp' with
    | finish _ t _ _ ht hstatus hends =>
      obtain ⟨mv', v', hafter, hreads⟩ := Delivers.finishes hparse h ht hstatus hends
      exact ⟨mv', v', hafter, fun hok hr => hreads hr fun hhttp => hok t ht hhttp⟩

/-- The application of the second request runs, and its call of `receive` waits
so, while the transport is paused. -/
def Starves (d : Delivery) (suspension : Suspension) : Prop :=
  d.protocol.receiving = [⟨1, suspension⟩] ∧ d.protocol.transport.paused = true ∧ d.protocol.transport.closing = false ∧
    (d.protocol.tasks[1]?.any fun t => decide (t.status = .running ∧ t.start.isWebsocket = false)) = true

instance (d : Delivery) (suspension : Suspension) : Decidable (d.Starves suspension) :=
  inferInstanceAs (Decidable (_ ∧ _))

theorem Starves.not_unpaused {suspension : Suspension} (h : d.Starves suspension)
    (hempty : ∀ q, suspension = .get q → d.protocol.queues q = []) : ¬ d.Unpaused := by
  obtain ⟨hcall, hpaused, hopen, hany⟩ := h
  intro hunpaused
  obtain ⟨t, ht, hrunning⟩ := (Option.any_eq_true _ _).1 hany
  obtain ⟨hstatus, hhttp⟩ := of_decide_eq_true hrunning
  have hclosing := hunpaused ⟨1, suspension⟩ (hcall ▸ List.mem_singleton_self _) t ht hstatus hhttp hempty hpaused
  exact Bool.false_ne_true (hopen.symm.trans hclosing)

end Delivery

end Http11Protocol

end Multiloop.Http
