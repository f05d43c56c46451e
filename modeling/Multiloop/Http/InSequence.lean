import Multiloop.Http.Sequence

/-!
# The responses of a connection

The responses of a connection are in sequence in every run in which each
application responds as `Framed` says, with one call of `send` at a time, and
leaves a complete response where the connection goes on after it, and in which
the engine refuses no request that is answered already. Neither writes to a
transport that was closed before it has sent everything.
-/

namespace Multiloop.Http

/-! ## What the engine refuses -/

/-- The bytes ask for the head of a response only. -/
def asksHead (bs : Bytes) : Bool := (bytes "HEAD ").isPrefixOf (bs.dropWhile fun b => b = 13 ∨ b = 10)

/-- What the engine refuses is a request that waits for its response: one that
no task serves yet, or the one of the last task, if that has written nothing.
And the client does not ask for a head only. -/
def FastHttpConnection.Answerable (parse : Httparse) (tasks : List Cycle) (c : FastHttpConnection) : Prop :=
  c.Refuses parse →
    if c.state.phase = .idle then
      asksHead c.unread = false ∧
        ∀ start, .requestStart start ∈ (c.processEvents .release parse).events → start.method ≠ bytes "HEAD"
    else ∃ t, tasks.getLast? = some t ∧ t.live = true ∧ t.bytesWritten = false ∧ t.start.method ≠ bytes "HEAD"

namespace Draining

variable {parse : Httparse} {d d' : Draining} {p p' : Http11Protocol} {v : Monitor} {i : Nat} {t t' : Cycle}

/-- What holds between the steps. -/
structure Sound (d : Draining) : Prop where
  opened : d.protocol.transport.closing = false → d.Open
  closed : d.protocol.transport.closing = true → ∃ done last, d.protocol.Sequence done last

theorem Open.sound (h : d.Open) (hopen : d.protocol.transport.closing = false) : d.Sound where
  opened _ := h
  closed hc := by
    rw [hopen] at hc
    cases hc

theorem sound_of_sequence {done : List Bytes} {last : Bytes} (h : d.protocol.Sequence done last)
    (hclosing : d.protocol.transport.closing = true) : d.Sound where
  opened hopen := by
    rw [hclosing] at hopen
    cases hopen
  closed _ := ⟨done, last, h⟩

/-- The transport is closed, and nothing is written. -/
theorem Open.closes (h : d.Open) (halone : d.protocol.Alone v) (he : d.protocol.Extends p)
    (hwire : p.transport.wire = d.protocol.transport.wire) (hclosing : p.transport.closing = true) :
    Sound { d with protocol := p } := by
  obtain ⟨done, last, hseq⟩ := h.sequence halone
  exact sound_of_sequence (hseq.keep he hwire hclosing) hclosing

/-- The last request is answered by the server itself. -/
theorem sequence_answered {init : List Cycle} {response : Bytes} (htasks : p.tasks = init ++ [t])
    (hinit : ∀ (i : Nat) (u : Cycle), init[i]? = some u → Whole u.start.method u.response.wire)
    (hresponse : Whole t.start.method response) (hwire : p.transport.wire = (wires init).flatten ++ response)
    (hclosing : p.transport.closing = true) : p.Sequence (wires init ++ [response]) [] where
  wire := by rw [hwire, List.flatten_append, List.flatten_singleton, List.append_nil]
  answers i r hi := by
    have hwires : (wires init).length = init.length := List.length_map _
    rcases Nat.lt_or_ge i init.length with hlt | hge
    · rw [List.getElem?_append_left (by rwa [hwires])] at hi
      rw [htasks]
      exact answers_wires [t] hinit i r hi
    · obtain ⟨hi', -⟩ := List.getElem?_eq_some_iff.1 hi
      rw [List.length_append, hwires, List.length_singleton] at hi'
      obtain rfl : i = init.length := by omega
      rw [← hwires, List.getElem?_concat_length] at hi
      cases hi
      exact ⟨t, by rw [htasks, List.getElem?_concat_length], hresponse⟩
  ended hopen := by
    rw [hclosing] at hopen
    cases hopen
  last := .inl rfl

/-- While the engine waits for a head, all tasks have responded. -/
theorem Open.whole_of_idle (h : d.Open) (hr : d.protocol.Ready parse v) (hidle : d.protocol.conn.state.phase = .idle)
    (ht : d.protocol.tasks[i]? = some t) : Whole t.start.method t.response.wire := by
  have hstage : v.stage = .idle := by
    by_contra hbusy
    exact hr.busy hbusy hidle
  have hnot : ¬ (t.live = true ∨ t.start.isWebsocket = true) := fun hl => (hr.alone i t ht hl).2.2 hstage
  rw [not_or] at hnot
  exact (h.tracks i t ht).whole (h.ended i t ht (eq_false_of_ne_true hnot.2) (eq_false_of_ne_true hnot.1))

/-- Nothing follows what is written before the protocol is closed. -/
theorem sound_close {done : List Bytes} {last : Bytes} (h : p.Sequence done last)
    (hclosing : p.transport.closing = true) : Sound { d with protocol := p.close } := by
  have he := Http11Protocol.extends_close p
  exact sound_of_sequence (h.keep he Http11Protocol.wire_close (he.closing hclosing)) (he.closing hclosing)

/-- The engine refuses what is no head of a request. -/
theorem Open.refuses_head (h : d.Open) (hr : d.protocol.Ready parse v) (hidle : d.protocol.conn.state.phase = .idle)
    {response : Bytes} (hanswer : Answer response) (htasks : p.tasks = d.protocol.tasks)
    (hwire : p.transport.wire = d.protocol.transport.wire ++ response) (hclosing : p.transport.closing = true)
    (hgone : p.conn.state = .closed) : p.Sequence (wires d.protocol.tasks) response where
  wire := by rw [hwire, h.wire, flatten_wires]
  answers i r hi := by
    obtain ⟨t, ht, hwhole⟩ := answers_wires [] (fun i t ht => h.whole_of_idle hr hidle ht) i r hi
    rw [List.append_nil] at ht
    exact ⟨t, htasks ▸ ht, hwhole⟩
  ended hopen := by
    rw [hclosing] at hopen
    cases hopen
  last := by
    refine .inr (.inr ⟨hanswer, hclosing, hgone, ?_⟩)
    rw [htasks, wires, List.length_map]

/-- The engine refuses the body of a request whose head it has just read. -/
theorem Open.refuses_new (h : d.Open) (hr : d.protocol.Ready parse v) (hidle : d.protocol.conn.state.phase = .idle)
    {response : Bytes} (hresponse : Whole t.start.method response) (htasks : p.tasks = d.protocol.tasks ++ [t])
    (hwire : p.transport.wire = d.protocol.transport.wire ++ response) (hclosing : p.transport.closing = true) :
    p.Sequence (wires d.protocol.tasks ++ [response]) [] := by
  refine sequence_answered htasks (fun i u hu => h.whole_of_idle hr hidle hu) hresponse ?_ hclosing
  rw [hwire, h.wire, flatten_wires]

/-- The server answers the last request, to which nothing was written. -/
theorem Open.answers_last (h : d.Open) (halone : d.protocol.Alone v) {init : List Cycle} {response : Bytes}
    (hinit : d.protocol.tasks = init ++ [t]) (hunwritten : t.bytesWritten = false)
    (hresponse : Whole t'.start.method response) (htasks : p.tasks = init ++ [t'])
    (hwire : p.transport.wire = d.protocol.transport.wire ++ response) (hclosing : p.transport.closing = true) :
    p.Sequence (wires init ++ [response]) [] := by
  have ht : d.protocol.tasks[init.length]? = some t := by rw [hinit, List.getElem?_concat_length]
  have hlen : d.protocol.tasks.length = init.length + 1 := by rw [hinit, List.length_append]; rfl
  refine sequence_answered htasks (fun i u hu => ?_) hresponse ?_ hclosing
  · have hi := (List.getElem?_eq_some_iff.1 hu).1
    refine h.whole_of_lt halone (i := i) ?_ (by omega)
    rw [hinit, List.getElem?_append_left hi, hu]
  · rw [hwire, h.wire, hinit, List.flatMap_append, List.flatMap_singleton, h.unwritten _ t ht (.inl hunwritten),
      List.append_nil, flatten_wires]

theorem Open.called (hparse : InRange parse) (h : d.Open) (hr : d.protocol.Ready parse v)
    (hopen : d.protocol.transport.closing = false)
    (hok : d.protocol.conn.Answerable parse d.protocol.tasks)
    (hfault : (d.protocol.conn.processEvents .release parse).fault = none) :
    Sound { d with
      protocol := Http11Protocol.handleEvents
        { d.protocol with conn := (d.protocol.conn.processEvents .release parse).conn }
        (d.protocol.conn.processEvents .release parse).events } := by
  have ho := FastHttpConnection.ends_processEvents hparse hr.toSteady.ready
  have hanswers := FastHttpConnection.answers_processEvents hparse hr.bounded hr.mode hfault
  obtain ⟨ph', htold, htracks⟩ := ho.told hfault
  have hconn := Http11Protocol.conn_handleEvents
    (p := { d.protocol with conn := (d.protocol.conn.processEvents .release parse).conn })
    (d.protocol.conn.processEvents .release parse).events
  have hcall := Http11Protocol.told_handleEvents
    (p := { d.protocol with conn := (d.protocol.conn.processEvents .release parse).conn })
    (fun hidle hs => hr.serving hs hidle) htold
  generalize Http11Protocol.handleEvents { d.protocol with conn := (d.protocol.conn.processEvents .release parse).conn }
    (d.protocol.conn.processEvents .release parse).events = p' at hconn hcall ⊢
  cases hcall with
  | «open» hq =>
    cases hq with
    | none htasks hwire hclosing => exact (h.same htasks hwire).sound (hclosing.trans hopen)
    | one start hidle hmem htasks hwire hclosing => exact (h.created htasks hwire).sound (hclosing.trans hopen)
  | refused hq hgone hmem =>
    rename_i q status response
    have hanswer : Answer response := hanswers _ hmem response rfl
    have hallowed := hok ⟨hfault, status, response, hmem⟩
    have hwritten : q.transport.wire = d.protocol.transport.wire → q.transport.closing = d.protocol.transport.closing →
        (q.transport.write response).close.wire = d.protocol.transport.wire ++ response := by
      intro hwire hc
      exact (Http11Protocol.wire_write (hc.trans hopen) response).trans (hwire ▸ rfl)
    by_cases hidle : d.protocol.conn.state.phase = .idle
    · rw [if_pos hidle] at hallowed
      cases hq with
      | none htasks hwire hclosing =>
        have hsame := Http11Protocol.conn_close.symm.trans hconn
        have hclosed : q.conn.state = .closed := by
          rw [hgone] at htracks
          rw [show q.conn = (d.protocol.conn.processEvents .release parse).conn from hsame]
          exact HttpParserState.closed_of_tracks htracks
        exact sound_close (h.refuses_head hr hidle hanswer htasks (hwritten hwire hclosing) rfl hclosed) rfl
      | one start _ hstart htasks hwire hclosing =>
        have hwhole := hanswer _ (hallowed.2 start hstart)
        exact sound_close (h.refuses_new hr hidle hwhole htasks (hwritten hwire hclosing) rfl) rfl
    · rw [if_neg hidle] at hallowed
      obtain ⟨t, hlast, hlive, hunwritten, hmethod⟩ := hallowed
      cases hq with
      | one start hph => exact absurd hph hidle
      | none htasks hwire hclosing =>
        obtain ⟨init, hinit⟩ := List.getLast?_eq_some_iff.1 hlast
        have hwhole := hanswer _ hmethod
        exact sound_close (h.answers_last hr.alone hinit hunwritten hwhole (htasks.trans hinit)
          (hwritten hwire hclosing) rfl) rfl

theorem Open.pumped (hparse : InRange parse) (h : d.Open) (hr : d.protocol.Ready parse v)
    (hopen : d.protocol.transport.closing = false) (hok : d.protocol.conn.Answerable parse d.protocol.tasks)
    (hp : Http11Protocol.Pumped parse d.protocol p) : Sound { d with protocol := p } := by
  cases hp with
  | told hfault => exact h.called hparse hr hopen hok hfault
  | panicked hfault =>
    exact Open.sound (h.same (p := { d.protocol with conn := (d.protocol.conn.processEvents .release parse).conn })
      rfl rfl) hopen

theorem Open.takes (hparse : InRange parse) (h : d.Open) (hs : d.protocol.Serves parse v)
    (hopen : d.protocol.transport.closing = false) (hok : d.protocol.conn.Answerable parse d.protocol.tasks) {q : Nat}
    {r : Received} (hr : Http11Protocol.Takes parse d.protocol q r p) : Sound { d with protocol := p } := by
  cases hr with
  | last chunk queue hqueue => exact Open.sound (h.same rfl rfl) hopen
  | gone chunk queue hqueue hnone => exact Open.sound (h.same rfl rfl) hopen
  | more chunk queue current hqueue hcurrent hmany => exact Open.sound (h.same rfl rfl) hopen
  | pumped chunk queue current hqueue hcurrent hfew =>
    have hresumed : Open { d with
        protocol := { d.protocol.dequeue q queue with transport := d.protocol.transport.resumeReading } } :=
      h.same rfl (Http11Protocol.wire_resumeReading d.protocol.transport)
    have hready : Http11Protocol.Ready parse
        { d.protocol.dequeue q queue with transport := d.protocol.transport.resumeReading } v :=
      ⟨⟨hs.bounded, hs.mode, hs.pending, hs.serving⟩, hs.watched, hs.alone⟩
    have hpumped := hresumed.pumped hparse hready (d.protocol.transport.closing_resumeReading.trans hopen) hok
      (Http11Protocol.pumped_afterPump parse _)
    exact hpumped

/-- A task goes on, and writes nothing. -/
theorem Open.setTask (h : d.Open) (ht : d.protocol.tasks[i]? = some t) (hstart : t'.start = t.start)
    (hresponse : t'.response = t.response) (hwritten : t'.bytesWritten = t.bytesWritten)
    (hcancelled : t'.cancelled = t.cancelled)
    (hended : t'.start.isWebsocket = false → t'.live = false → t.live = false ∨ d.Completed i t) :
    Open { d with protocol := d.protocol.setTask i t' } := by
  refine h.set ht t' rfl [] (List.append_nil _).symm
    (hresponse ▸ (List.append_nil _).symm) (.inl rfl) (fun _ _ => rfl) h.known ?_ ?_
    (hcancelled.trans (h.calm i t ht)) fun hhttp hlive => ?_
  · rw [hstart, hresponse]
    exact h.tracks i t ht
  · rw [hstart, hresponse, hwritten]
    exact h.unwritten i t ht
  · unfold Completed
    rw [hresponse]
    exact (hended hhttp hlive).elim (h.ended i t ht (hstart ▸ hhttp)) id

theorem Open.receives (hparse : InRange parse) (h : d.Open) (hs : d.protocol.Serves parse v)
    (hopen : d.protocol.transport.closing = false) (hok : d.protocol.conn.Answerable parse d.protocol.tasks)
    (ht : d.protocol.tasks[i]? = some t) {r : Option Received} (hr : Http11Protocol.Receives parse d.protocol i t r p) :
    Sound { d with protocol := p } := by
  cases hr with
  | empty hbody hfirst => exact Open.sound (h.setTask ht rfl rfl rfl rfl fun _ => .inl) hopen
  | disconnect hset => exact h.sound hopen
  | takes q hbody hcurrent htakes => exact h.takes hparse hs hopen hok htakes
  | waits hnone => exact Open.sound (h.same rfl rfl) hopen
  | gets q hbody hcurrent hempty => exact Open.sound (h.same rfl rfl) hopen

theorem Open.resumes (hparse : InRange parse) (h : d.Open) (hs : d.protocol.Serves parse v)
    (hopen : d.protocol.transport.closing = false) (hok : d.protocol.conn.Answerable parse d.protocol.tasks) {k : Nat}
    {c : Receiving} {r : Received} (hr : Http11Protocol.Resumes parse d.protocol k c r p) :
    Sound { d with protocol := p } := by
  have hforgot : Open { d with protocol := d.protocol.forget k } := h.same rfl rfl
  cases hr with
  | disconnect hset => exact hforgot.sound hopen
  | takes q hget htakes =>
    have htaken := hforgot.takes hparse (hs.forget k) hopen hok htakes
    exact htaken

theorem Open.fed (hparse : InRange parse) (h : d.Open) (hs : d.protocol.Serves parse v)
    (hopen : d.protocol.transport.closing = false) {data : Bytes}
    (hroom : (d.protocol.conn.buffer ++ data).length < 2 ^ 63)
    (hok : d.protocol.upgraded = false → FastHttpConnection.Answerable parse d.protocol.tasks
      { d.protocol.conn with buffer := d.protocol.conn.buffer ++ data })
    (hfed : Http11Protocol.Fed parse d.protocol data p) : Sound { d with protocol := p } := by
  have hread : Open { d with
      protocol := { d.protocol with conn := { d.protocol.conn with buffer := d.protocol.conn.buffer ++ data } } } :=
    h.same rfl rfl
  have hready : Http11Protocol.Ready parse
      { d.protocol with conn := { d.protocol.conn with buffer := d.protocol.conn.buffer ++ data } } v :=
    ⟨⟨hs.bounded.append hroom, hs.mode, hs.pending, hs.serving⟩, hs.watched.append data, hs.alone⟩
  have he := hs.toSettled.extends_fed hparse hroom hfed
  cases hfed with
  | upgraded hup => exact h.sound hopen
  | told hplain hfault => exact hread.called hparse hready hopen (hok hplain) hfault
  | panicked hplain hfault => exact h.closes hs.alone he rfl rfl

/-! ## The end of a cycle -/

/-- What the end of an application leaves is a response, unless the connection
is closed after it. -/
def Leaves (parse : Httparse) (d : Draining) (i : Nat) (t : Cycle) (ending : Ending) : Prop :=
  if ending = .raised ∧ t.bytesWritten = false then t.start.method ≠ bytes "HEAD" ∧
    (d.protocol.transport.flushing = true → ¬ d.protocol.conn.resetForNextRequest.Refuses parse)
  else d.protocol.conn.Final ∨ d.Completed i t ∧
    d.protocol.conn.resetForNextRequest.Answerable parse (d.protocol.setTask i { t with status := .finished }).tasks

theorem Open.close (h : d.Open) (halone : d.protocol.Alone v) (hopen : d.protocol.transport.closing = false) :
    Sound { d with protocol := d.protocol.close } := by
  by_cases hstate : d.protocol.state = .closed
  · have hsame : d.protocol.close = d.protocol := if_pos hstate
    rw [hsame]
    exact h.sound hopen
  · refine h.closes halone (Http11Protocol.extends_close _) Http11Protocol.wire_close ?_
    unfold Http11Protocol.close
    rw [if_neg hstate]
    rfl

/-- The application raised before it responded. -/
theorem Open.raised (hparse : InRange parse) (h : d.Open) (hs : d.protocol.Serves parse v)
    (hopen : d.protocol.transport.closing = false) (ht : d.protocol.tasks[i]? = some t) (hlive : t.live = true)
    {date : Bytes} (hdate : hasCrlf date = false) (hunwritten : t.bytesWritten = false)
    (hmethod : t.start.method ≠ bytes "HEAD")
    (hquiet : d.protocol.transport.flushing = true → ¬ d.protocol.conn.resetForNextRequest.Refuses parse)
    {q : Http11Protocol}
    (hq : q = { d.protocol.setTask i { t with status := .finished } with
      transport := (d.protocol.transport.write (Http11Protocol.errResp date)).close }) :
    Sound { d with protocol := q.afterCycle parse } := by
  have hi := (hs.alone i t ht (.inl hlive)).1
  obtain ⟨init, hinit, rfl⟩ := eq_append_of_last ht hi
  have hsettled : q.Settled parse := by
    rw [hq]
    exact hs.toSettled.same rfl rfl id
  have hextends := hsettled.extends_afterCycle hparse
  have hclosing : q.transport.closing = true := by rw [hq]; rfl
  have htasks : q.tasks = init ++ [{ t with status := .finished }] := by
    rw [hq]
    show d.protocol.tasks.set init.length _ = _
    rw [hinit, List.set_append_right _ _ (Nat.le_refl _), Nat.sub_self]
    rfl
  have hwire : q.transport.wire = d.protocol.transport.wire ++ Http11Protocol.errResp date := by
    rw [hq]
    exact Http11Protocol.wire_write hopen _
  have hwhole : Whole ({ t with status := .finished } : Cycle).start.method (Http11Protocol.errResp date) :=
    answer_errResp hdate _ hmethod
  have hseq := h.answers_last hs.alone hinit hunwritten hwhole htasks hwire hclosing
  have hafter : (q.afterCycle parse).transport.wire = q.transport.wire := by
    refine Http11Protocol.wire_afterCycle hsettled.pending hclosing fun hf => ?_
    rw [hq] at hf ⊢
    exact hquiet ((Http11Protocol.flushing_write d.protocol.transport _).symm.trans hf)
  exact sound_of_sequence (hseq.keep hextends hafter (hextends.closing hclosing)) (hextends.closing hclosing)

/-- The application ended otherwise. -/
theorem Open.leaves (hparse : InRange parse) (h : d.Open) (hs : d.protocol.Serves parse v)
    (hopen : d.protocol.transport.closing = false) (ht : d.protocol.tasks[i]? = some t) (hstatus : t.status = .running)
    (hhttp : t.start.isWebsocket = false)
    (hok : d.protocol.conn.Final ∨ d.Completed i t ∧ d.protocol.conn.resetForNextRequest.Answerable parse
      (d.protocol.setTask i { t with status := .finished }).tasks) :
    Sound { d with protocol := (d.protocol.setTask i { t with status := .finished }).afterCycle parse } := by
  have hset : (d.protocol.setTask i { t with status := .finished }).Serves parse v := hs.setTask ht rfl nofun
  have hextends := (Http11Protocol.extends_setTask ht { t with status := .finished } rfl).trans
    (hset.toSettled.extends_afterCycle hparse)
  rw [Http11Protocol.afterCycle_eq hset.pending] at hextends ⊢
  by_cases hfinal : d.protocol.conn.Final
  · -- The engine is closed after this cycle, and the transport with it.
    have hclosed : (d.protocol.setTask i { t with status := .finished }).conn.resetForNextRequest.isClosed = true :=
      FastHttpConnection.isClosed_reset.2 hfinal
    have hreset : (d.protocol.setTask i { t with status := .finished }).reset =
        { (d.protocol.setTask i { t with status := .finished }).disconnect with
          conn := d.protocol.conn.resetForNextRequest
          transport := d.protocol.transport.close } := if_pos hclosed
    rw [if_pos hclosed, hreset] at hextends ⊢
    exact h.closes hs.alone hextends rfl rfl
  · obtain ⟨hdone, hanswerable⟩ := hok.resolve_left hfinal
    have hnot : ¬ (d.protocol.setTask i { t with status := .finished }).conn.resetForNextRequest.isClosed = true :=
      fun hc => hfinal (FastHttpConnection.isClosed_reset.1 hc)
    have hreset : (d.protocol.setTask i { t with status := .finished }).reset =
        { (d.protocol.setTask i { t with status := .finished }).disconnect with
          conn := d.protocol.conn.resetForNextRequest
          state := .keepAliveWait } := if_neg hnot
    have hready := Http11Protocol.ready_reset hset.toSettled hset.watched
      (hs.alone.finished ht (Http11Protocol.Cycle.live_running hstatus) hhttp v.afterReset) hnot
    have hended : Open { d with protocol := d.protocol.setTask i { t with status := .finished } } :=
      h.setTask ht rfl rfl rfl rfl fun _ _ => .inr hdone
    rw [if_neg hnot]
    rw [hreset] at hready ⊢
    have hopened : Open { d with
        protocol := { (d.protocol.setTask i { t with status := .finished }).disconnect with
          conn := d.protocol.conn.resetForNextRequest
          state := .keepAliveWait } } := hended.same rfl rfl
    have hpumped := hopened.pumped hparse hready hopen hanswerable (Http11Protocol.pumped_afterPump parse _)
    exact hpumped

theorem Open.finishes (hparse : InRange parse) (h : d.Open) (hs : d.protocol.Serves parse v)
    (hopen : d.protocol.transport.closing = false) (ht : d.protocol.tasks[i]? = some t) (hstatus : t.status = .running)
    {date : Bytes} (hdate : hasCrlf date = false) {ending : Ending}
    (hok : t.start.isWebsocket = false → d.Leaves parse i t ending)
    (hends : Http11Protocol.Finishes parse d.protocol i t date ending p) : Sound { d with protocol := p } := by
  have hset : (d.protocol.setTask i { t with status := .finished }).Serves parse v := hs.setTask ht rfl nofun
  cases hends with
  | websocket hws =>
    have hdone : Open { d with protocol := d.protocol.setTask i { t with status := .finished } } :=
      h.setTask ht rfl rfl rfl rfl fun hhttp => absurd (hws.symm.trans hhttp) (by decide)
    split
    · have hclosed := hdone.close hset.alone hopen
      exact hclosed
    · exact hdone.sound hopen
  | http hhttp hleft =>
    have hok := hok hhttp
    unfold Leaves at hok
    cases hleft with
    | raised hunsent hopen' =>
      rw [if_pos ⟨rfl, hunsent⟩] at hok
      exact h.raised hparse hs hopen ht (Http11Protocol.Cycle.live_running hstatus) hdate hunsent hok.1 hok.2 rfl
    | other hother =>
      rw [if_neg fun hraised => hother ⟨hraised.1, hraised.2, hopen⟩] at hok
      exact h.leaves hparse hs hopen ht hstatus hhttp hok

/-! ## `send` -/

/-- A response that is not complete is that of the last task. -/
theorem Open.last_of_not_completed (h : d.Open) (halone : d.protocol.Alone v) (ht : d.protocol.tasks[i]? = some t)
    (hhttp : t.start.isWebsocket = false) (hnot : ¬ d.Completed i t) : i + 1 = d.protocol.tasks.length := by
  refine (halone i t ht (.inl ?_)).1
  by_contra hlive
  exact hnot (h.ended i t ht hhttp (eq_false_of_ne_true hlive))

/-- The transport is closed after a step, or not. -/
theorem Open.mayClose (h : d.Open) (halone : d.protocol.Alone v) (hopen : d.protocol.transport.closing = false)
    (closed : Bool) :
    Sound { d with
      protocol := { d.protocol with
        transport := if closed then d.protocol.transport.close else d.protocol.transport } } := by
  cases closed with
  | true =>
    exact h.closes halone (p := { d.protocol with transport := d.protocol.transport.close })
      (.of_tasks (fun _ => rfl) rfl id rfl) rfl rfl
  | false => exact h.sound hopen

/-- What is asked of a part of the body of a response: the calls for the response
are made one at a time. -/
def Sends (d : Draining) (i : Nat) (date body : Bytes) (moreBody : Bool) : Prop :=
  hasCrlf date = false ∧ d.counting i = [] ∧
    ∀ t, d.protocol.tasks[i]? = some t → ∀ status headers, t.response.respStatus = .headersSent status headers →
      Framed t.start.method status headers body moreBody

theorem not_completed (hnone : d.counting i = []) (hstatus : t.response.respStatus ≠ .complete) : ¬ d.Completed i t := by
  rintro (hdone | ⟨s, hs, -⟩)
  · exact hstatus hdone
  · rw [hnone] at hs
    cases hs

/-- A call of `send` has written, and is not closing the transport yet. -/
theorem Open.sends (h : d.Open) (hopen : d.protocol.transport.closing = false) (ht : d.protocol.tasks[i]? = some t)
    (hhttp : t.start.isWebsocket = false) (response : Response) (bytesWritten : Bool) (sending : List Sending) (bs : Bytes)
    (hbs : response.wire = t.response.wire ++ bs) (hlast : bs = [] ∨ i + 1 = d.protocol.tasks.length)
    (hother : ∀ j, j ≠ i → counting { d with sending } j = d.counting j)
    (hknown : ∀ s ∈ sending, s.task < d.protocol.tasks.length)
    (htracks : Tracks t.start.method response (counting { d with sending } i))
    (hunwritten : bytesWritten = false → response.wire = [])
    (hended : t.live = false → response.respStatus = .complete ∨ ∃ s ∈ counting { d with sending } i, s.moreBody = false) :
    Open { d with
      protocol := { d.protocol.setTask i { t with response, bytesWritten } with
        transport := d.protocol.transport.write (response.wire.drop t.response.wire.length) }
      sending } := by
  refine h.set ht { t with response, bytesWritten } rfl bs ?_ hbs hlast hother hknown htracks ?_
    (h.calm i t ht) fun _ hlive => hended hlive
  · show (d.protocol.transport.write (response.wire.drop t.response.wire.length)).wire = _
    rw [Http11Protocol.wire_write hopen, hbs, List.drop_left]
  · rintro (hb | hws)
    · exact hunwritten hb
    · exact absurd (hhttp.symm.trans hws) Bool.false_ne_true

theorem Open.send (h : d.Open) (hs : d.protocol.Serves parse v) (hopen : d.protocol.transport.closing = false)
    (ht : d.protocol.tasks[i]? = some t) (hhttp : t.start.isWebsocket = false) {date : Bytes} {message : Message}
    (hok : ∀ body moreBody, message = .body body moreBody → d.Sends i date body moreBody) :
    Sound { d with protocol := d.protocol.send i t date message } := by
  have hpost : ∀ response bytesWritten, Open { d with
      protocol := { d.protocol.setTask i { t with response, bytesWritten } with
        transport := d.protocol.transport.write (response.wire.drop t.response.wire.length) } } →
      Sound { d with
        protocol := { d.protocol.setTask i { t with response, bytesWritten } with
          transport := if response.closed then
            (d.protocol.transport.write (response.wire.drop t.response.wire.length)).close
            else d.protocol.transport.write (response.wire.drop t.response.wire.length) } } := by
    intro response bytesWritten hq
    have halone : Http11Protocol.Alone { d.protocol.setTask i { t with response, bytesWritten } with
        transport := d.protocol.transport.write (response.wire.drop t.response.wire.length) } v :=
      hs.alone.setTask ht rfl id
    have hclosed := hq.mayClose halone ((d.protocol.transport.closing_write _).trans hopen) response.closed
    exact hclosed
  unfold Http11Protocol.send
  split
  · exact h.sound hopen
  rename_i response hsend
  refine hpost response _ ?_
  cases message with
  | start status headers =>
    obtain ⟨hr, rfl⟩ := Response.send_start hsend
    obtain ⟨hnil, htracks⟩ := (h.tracks i t ht).start hr status headers
    refine h.sends hopen ht hhttp _ _ d.sending [] (List.append_nil _).symm (.inl rfl) (fun _ _ => rfl) h.known htracks
      (fun _ => hnil) fun hlive => (h.ended i t ht hhttp hlive).elim (fun hdone => ?_) .inr
    rw [hr] at hdone
    cases hdone
  | body body moreBody =>
    obtain ⟨hdate, hnone, hframed⟩ := hok body moreBody rfl
    have htracks := h.tracks i t ht
    rw [hnone] at htracks
    obtain ⟨hstatus, ⟨bs, hbs⟩, htracks'⟩ := htracks.send hdate (hframed t ht) hsend
    have hnot := not_completed hnone hstatus
    refine h.sends hopen ht hhttp _ _ d.sending bs hbs (.inr (h.last_of_not_completed hs.alone ht hhttp hnot)) (fun _ _ => rfl) h.known
      ?_ (fun hb => ?_) fun hlive => absurd (h.ended i t ht hhttp hlive) hnot
    · show Tracks _ _ (d.counting i)
      rw [hnone]
      exact htracks'
    · rw [Bool.or_true] at hb
      cases hb
  | other msgType => cases hsend

/-- `send` that waits. -/
theorem Open.write (h : d.Open) (hs : d.protocol.Serves parse v) (hopen : d.protocol.transport.closing = false)
    (ht : d.protocol.tasks[i]? = some t) (hhttp : t.start.isWebsocket = false) {date body : Bytes} {moreBody : Bool}
    (hok : d.Sends i date body moreBody) : Sound (d.write i t date body moreBody) := by
  unfold Draining.write
  split
  · exact h.sound hopen
  rename_i response first hw
  obtain ⟨hdate, hnone, hframed⟩ := hok
  have htracks := h.tracks i t ht
  rw [hnone] at htracks
  obtain ⟨hstatus, ⟨bs, hbs⟩, htracks'⟩ := htracks.write hdate (hframed t ht) hw
  have hnot := not_completed hnone hstatus
  have hcounting : ∀ j, counting { d with sending := d.sending ++ [⟨i, first, moreBody, false⟩] } j =
      d.counting j ++ if decide (i = j) && Sending.counts ⟨i, first, moreBody, false⟩ then
        [⟨i, first, moreBody, false⟩] else [] := by
    intro j
    unfold counting
    rw [List.filter_append, List.filter_cons, List.filter_nil]
  have hq := h.sends hopen ht hhttp response true (d.sending ++ [⟨i, first, moreBody, false⟩]) bs hbs
    (.inr (h.last_of_not_completed hs.alone ht hhttp hnot)) (fun j hj => ?_) (fun s hs => ?_) ?_ nofun
    fun hlive => absurd (h.ended i t ht hhttp hlive) hnot
  · exact hq.sound ((d.protocol.transport.closing_write _).trans hopen)
  · rw [hcounting j, decide_eq_false (Ne.symm hj)]
    exact List.append_nil _
  · rcases List.mem_append.1 hs with hs | hs
    · exact h.known s hs
    · rw [List.mem_singleton.1 hs]
      exact (List.getElem?_eq_some_iff.1 ht).1
  · rw [hcounting i, hnone, decide_eq_true rfl, Bool.true_and, List.nil_append]
    exact htracks' ⟨i, first, moreBody, false⟩ rfl rfl

/-! ## Calls that wait -/

/-- A call of another task, or one that will change nothing, waits no more. -/
theorem counting_forget {k : Nat} {s : Sending} (hs : d.sending[k]? = some s) {j : Nat}
    (hnot : s.task ≠ j ∨ s.counts = false) : (d.forget k).counting j = d.counting j := by
  refine filter_eraseIdx_of_neg hs ?_
  rcases hnot with hj | hcounts
  · rw [decide_eq_false hj, Bool.false_and]
  · rw [hcounts, Bool.and_false]

/-- The one call that will change the state of a response. -/
theorem Open.counting_one (h : d.Open) {k : Nat} {s : Sending} (hs : d.sending[k]? = some s) (hcounts : s.counts = true)
    (ht : d.protocol.tasks[s.task]? = some t) : d.counting s.task = [s] ∧ (d.forget k).counting s.task = [] := by
  have hmem := mem_counting (List.mem_of_getElem? hs) hcounts
  have hone : d.counting s.task = [s] := by
    have htracks := h.tracks s.task t ht
    generalize d.counting s.task = ss at hmem htracks
    cases htracks with
    | unsent hstatus hwire => cases hmem
    | streaming hstatus hwire => cases hmem
    | complete hstatus hwire => cases hmem
    | begun s' hfirst hstatus hwire => rw [List.mem_singleton.1 hmem]
    | ended s' hfirst hlast hstatus hwire => rw [List.mem_singleton.1 hmem]
  have hlen := length_filter_eraseIdx (f := fun u : Sending => decide (u.task = s.task) && u.counts) hs (by
    rw [decide_eq_true rfl, hcounts, Bool.true_and])
  change ((d.forget k).counting s.task).length + 1 = (d.counting s.task).length at hlen
  rw [hone] at hlen
  exact ⟨hone, List.length_eq_zero_iff.1 (Nat.succ_injective hlen)⟩

/-- Other calls wait, and none that matters less. -/
theorem Open.sending (h : d.Open) (drainEvent : Bool) (sending : List Sending)
    (hcounting : ∀ j, counting { d with sending } j = d.counting j)
    (hknown : ∀ s ∈ sending, s.task < d.protocol.tasks.length) : Open { d with drainEvent, sending } where
  wire := h.wire
  tracks i t ht := (hcounting i).symm ▸ h.tracks i t ht
  unwritten := h.unwritten
  calm := h.calm
  ended i t ht hhttp hlive := by
    show _ ∨ ∃ s ∈ counting { d with sending } i, _
    rw [hcounting i]
    exact h.ended i t ht hhttp hlive
  known := hknown

theorem Open.forget (h : d.Open) {k : Nat} {s : Sending} (hs : d.sending[k]? = some s) (hcounts : s.counts = false) :
    (d.forget k).Open :=
  h.sending d.drainEvent _ (fun _ => counting_forget hs (.inr hcounts)) fun u hu =>
    h.known u (List.mem_of_mem_eraseIdx hu)

theorem Open.resumeWriting (h : d.Open) : d.resumeWriting.Open := by
  have hcounting : ∀ j, d.resumeWriting.counting j = (d.counting j).map fun s => { s with woken := true } := fun j =>
    List.filter_map
  refine ⟨h.wire, fun i t ht => ?_, h.unwritten, h.calm, fun i t ht hhttp hlive => ?_, fun s hs => ?_⟩
  · rw [hcounting i]
    exact (h.tracks i t ht).wake
  · rcases h.ended i t ht hhttp hlive with hdone | ⟨s, hs, hlast⟩
    · exact .inl hdone
    · refine .inr ⟨{ s with woken := true }, ?_, hlast⟩
      rw [hcounting i]
      exact List.mem_map_of_mem hs
  · obtain ⟨u, hu, rfl⟩ := List.mem_map.1 hs
    exact h.known u hu

/-- A call that waited goes on. -/
theorem Open.goOn (h : d.Open) (hs : d.protocol.Serves parse v) (hopen : d.protocol.transport.closing = false) {k : Nat}
    {s : Sending} (hk : d.sending[k]? = some s) (ht : d.protocol.tasks[s.task]? = some t) :
    Sound ((d.forget k).goOn s t) := by
  have htracks := h.tracks s.task t ht
  have hwire : (t.response.goOn s.first s.moreBody).wire = t.response.wire ++ [] := by
    rw [Response.wire_goOn, List.append_nil]
  have hgone : Tracks t.start.method (t.response.goOn s.first s.moreBody) ((d.forget k).counting s.task) ∧
      (d.Completed s.task t → (t.response.goOn s.first s.moreBody).respStatus = .complete ∨
        ∃ u ∈ (d.forget k).counting s.task, u.moreBody = false) := by
    cases hcounts : s.counts with
    | false =>
      rw [Response.goOn_of_not_counts hcounts, counting_forget hk (.inr hcounts)]
      exact ⟨htracks, id⟩
    | true =>
      obtain ⟨hone, hnone⟩ := h.counting_one hk hcounts ht
      rw [hone] at htracks
      rw [hnone]
      refine ⟨htracks.goOn, fun hdone => .inl ?_⟩
      have hlast : s.moreBody = false := by
        rcases hdone with hdone | ⟨u, hu, hlast⟩
        · cases htracks with
          | begun _ hfirst hstatus hwire =>
            obtain ⟨_, _, hstatus⟩ := hstatus
            rw [hdone] at hstatus
            cases hstatus
          | ended _ hfirst hlast hstatus hwire => exact hlast
        · rw [hone] at hu
          rwa [← List.mem_singleton.1 hu]
      rw [hlast]
      cases s.first <;> rfl
  have hset : Open { d.forget k with
      protocol := d.protocol.setTask s.task { t with response := t.response.goOn s.first s.moreBody } } := by
    refine h.set ht { t with response := t.response.goOn s.first s.moreBody } rfl [] (List.append_nil _).symm
      hwire (.inl rfl) (fun j hj => counting_forget hk (.inl (Ne.symm hj)))
      (fun u hu => h.known u (List.mem_of_mem_eraseIdx hu)) hgone.1 ?_ (h.calm _ t ht) fun hhttp hlive =>
        hgone.2 (h.ended _ t ht hhttp hlive)
    rw [Response.wire_goOn]
    exact h.unwritten _ t ht
  have halone : Http11Protocol.Alone
      (d.protocol.setTask s.task { t with response := t.response.goOn s.first s.moreBody }) v :=
    hs.alone.setTask ht rfl id
  have hclosed := hset.mayClose halone hopen (t.response.goOn s.first s.moreBody).closed
  exact hclosed

/-! ## Steps -/

/-- What is asked of an action while the transport is open: applications respond
as `Sends` and `Leaves` say, no call of `send` is cancelled that waits to record
what it wrote, and the engine refuses no request that is answered. -/
def Careful (parse : Httparse) (d : Draining) : Action → Prop
  | .callback (.dataReceived data) | .callback (.step (.dataReceived data)) => d.protocol.upgraded = false →
    FastHttpConnection.Answerable parse d.protocol.tasks
      { d.protocol.conn with buffer := d.protocol.conn.buffer ++ data }
  | .callback (.step (.receive _)) | .callback (.step (.resume _)) =>
    d.protocol.conn.Answerable parse d.protocol.tasks
  | .callback (.step (.send i date (.body body moreBody))) => d.Sends i date body moreBody
  | .callback (.step (.finish i date ending)) => hasCrlf date = false ∧
    ∀ t, d.protocol.tasks[i]? = some t → t.start.isWebsocket = false → d.Leaves parse i t ending
  | .abandon k => ∀ s, d.sending[k]? = some s → s.counts = false
  | _ => True

/-- What is asked of an action while the transport is closing and has not sent
what was written: nothing more is written. -/
def Quiet (parse : Httparse) (d : Draining) : Action → Prop
  | .callback a => d.protocol.Silent parse a
  | _ => True

/-- Once a transport that is closing has sent everything, nothing is asked. -/
structure Conforms (parse : Httparse) (d : Draining) (a : Action) : Prop where
  careful : d.protocol.transport.closing = false → d.Careful parse a
  quiet : d.protocol.transport.closing = true → d.protocol.transport.flushing = true → d.Quiet parse a

theorem conforms_of_open (hopen : d.protocol.transport.closing = false) {a : Action} (h : d.Careful parse a) :
    d.Conforms parse a where
  careful _ := h
  quiet hc := by
    rw [hopen] at hc
    cases hc

theorem serves_stepped (hparse : InRange parse) (h : d.protocol.Serves parse v) {a : Action}
    (hst : Stepped parse d a d') : ∃ v', d'.protocol.Serves parse v' := by
  cases hst with
  | callback a hst => exact h.callback hparse hst
  | write i t date body moreBody ht hstatus hhttp =>
    refine ⟨v, ?_⟩
    unfold Draining.write
    split
    · exact h
    · rename_i response first _
      have hset : (d.protocol.setTask i { t with response, bytesWritten := true }).Serves parse v := h.setTask ht rfl id
      exact hset.same rfl rfl id rfl
  | goOn k s t hs ht =>
    have hset : (d.protocol.setTask s.task { t with response := t.response.goOn s.first s.moreBody }).Serves parse v :=
      h.setTask ht rfl id
    exact ⟨v, hset.same rfl rfl id rfl⟩
  | abandon k hk => exact ⟨v, h⟩
  | fill hopen => exact ⟨v, h.same rfl rfl id rfl⟩
  | flush => exact ⟨v, h.same rfl rfl id rfl⟩
  | pauseWriting => exact ⟨v, h⟩
  | resumeWriting => exact ⟨v, h⟩

theorem extends_stepped (hparse : InRange parse) (h : d.protocol.Settled parse) {a : Action}
    (hst : Stepped parse d a d') : d.protocol.Extends d'.protocol := by
  cases hst with
  | callback a hst => exact h.extends_callback hparse hst
  | write i t date body moreBody ht hstatus hhttp =>
    unfold Draining.write
    split
    · exact .refl _
    · rename_i response first _
      refine (Http11Protocol.extends_setTask ht { t with response, bytesWritten := true } rfl).trans
        (.of_tasks (fun hc => (Transport.closing_write _ _).trans hc) ?_ id rfl)
      exact Http11Protocol.flushing_write d.protocol.transport _
  | goOn k s t hs ht =>
    refine (Http11Protocol.extends_setTask ht { t with response := t.response.goOn s.first s.moreBody } rfl).trans
      (.of_tasks (fun hc => ?_) ?_ id rfl)
    · show (if (t.response.goOn s.first s.moreBody).closed then d.protocol.transport.close
        else d.protocol.transport).closing = true
      split
      · rfl
      · exact hc
    · show (if (t.response.goOn s.first s.moreBody).closed then d.protocol.transport.close
        else d.protocol.transport).flushing = d.protocol.transport.flushing
      split
      · rfl
      · rfl
  | abandon k hk => exact .refl _
  | fill hopen => exact ⟨id, fun hc => absurd (hopen.symm.trans hc) Bool.false_ne_true, fun _ u hu => ⟨u, hu, rfl⟩,
      fun hg => ⟨hg, rfl⟩⟩
  | flush => exact ⟨id, fun _ _ => rfl, fun _ u hu => ⟨u, hu, rfl⟩, fun hg => ⟨hg, rfl⟩⟩
  | pauseWriting => exact .refl _
  | resumeWriting => exact .refl _

/-- Nothing is written to a transport that is closing and has sent everything,
and nothing in a step that is quiet. -/
theorem wire_stepped (hpending : d.protocol.pendingPipelineEvents = []) (hc : d.protocol.transport.closing = true)
    {a : Action} (hq : d.protocol.transport.flushing = true → d.Quiet parse a) (hst : Stepped parse d a d') :
    d'.protocol.transport.wire = d.protocol.transport.wire := by
  cases hst with
  | callback a hst => exact Http11Protocol.wire_callback hpending hc hq hst
  | write i t date body moreBody ht hstatus hhttp =>
    unfold Draining.write
    split
    · rfl
    · rename_i response first hw
      show (d.protocol.transport.write _).wire = d.protocol.transport.wire
      cases hf : d.protocol.transport.flushing with
      | false => rw [Http11Protocol.write_sent hc hf]
      | true =>
        unfold Response.write at hw
        rcases hq hf t ht with hr | hr
        · rw [hr] at hw
          cases hw
        · rw [hr] at hw
          cases hw
  | goOn k s t hs ht =>
    show (if (t.response.goOn s.first s.moreBody).closed then d.protocol.transport.close
      else d.protocol.transport).wire = d.protocol.transport.wire
    split
    · rfl
    · rfl
  | abandon k hk => rfl
  | fill hopen => rfl
  | flush => rfl
  | pauseWriting => rfl
  | resumeWriting => rfl

theorem Open.callback (hparse : InRange parse) (h : d.Open) (hs : d.protocol.Serves parse v)
    (hopen : d.protocol.transport.closing = false) {a : Http11Protocol.Callback}
    (hok : d.Careful parse (.callback a)) (hst : d.protocol.callback parse a = some p) :
    Sound { d with protocol := p } := by
  cases a with
  | dataReceived data =>
    dsimp only [Http11Protocol.callback] at hst
    split at hst
    · rename_i hroom
      cases hst
      exact h.fed hparse hs hopen hroom hok (Http11Protocol.fed_dataReceived parse d.protocol data)
    · cases hst
  | close =>
    cases hst
    exact h.close hs.alone hopen
  | step a =>
    have hstep := Http11Protocol.stepped_of_step (show d.protocol.step parse a = some p from hst)
    have he := hs.toSettled.extends_step hparse hstep
    cases hstep with
    | dataReceived data _ hread hroom hfed => exact h.fed hparse hs hopen hroom hok hfed
    | eofReceived _ =>
      unfold Http11Protocol.eofReceived at he ⊢
      split at he
      · rename_i hup
        rw [if_pos hup]
        exact h.sound hopen
      · rename_i hup
        rw [if_neg hup]
        exact h.closes hs.alone he rfl rfl
    | connectionLost =>
      exact h.closes hs.alone he Http11Protocol.wire_close ((Http11Protocol.extends_close _).closing rfl)
    | begin i t ht hstatus =>
      unfold Http11Protocol.begin
      rw [if_neg (by rw [h.calm i t ht]; exact Bool.false_ne_true)]
      have hset : Open { d with protocol := d.protocol.setTask i { t with status := .running } } :=
        h.setTask ht rfl rfl rfl rfl fun _ hlive => nomatch hlive
      exact Open.sound (hset.same rfl rfl) hopen
    | receive i t ht hstatus hhttp hr => exact h.receives hparse hs hopen hok ht hr
    | resume k c hc hr => exact h.resumes hparse hs hopen hok hr
    | abandon k hk => exact Open.sound (h.same rfl rfl) hopen
    | send i t date message ht hstatus hhttp =>
      refine h.send hs hopen ht hhttp fun body moreBody hm => ?_
      cases hm
      exact hok
    | finish i t date ending ht hstatus hends =>
      exact h.finishes hparse hs hopen ht hstatus hok.1 (hok.2 t ht) hends

theorem Sound.step (hparse : InRange parse) (h : d.Sound) (hs : d.protocol.Serves parse v) {a : Action}
    (hok : d.Conforms parse a) (hst : Stepped parse d a d') : d'.Sound := by
  cases hc : d.protocol.transport.closing with
  | true =>
    obtain ⟨done, last, hseq⟩ := h.closed hc
    have he := extends_stepped hparse hs.toSettled hst
    have hwire := wire_stepped hs.pending hc (hok.quiet hc) hst
    exact sound_of_sequence (hseq.keep he hwire (he.closing hc)) (he.closing hc)
  | false =>
    have hopened := h.opened hc
    have hcareful := hok.careful hc
    cases hst with
    | callback a hst => exact hopened.callback hparse hs hc hcareful hst
    | write i t date body moreBody ht hstatus hhttp => exact hopened.write hs hc ht hhttp hcareful
    | goOn k s t hk ht => exact hopened.goOn hs hc hk ht
    | abandon k hk =>
      have hs := List.getElem?_eq_getElem hk
      exact (hopened.forget hs (hcareful _ hs)).sound hc
    | fill hopen =>
      have hfilled : d.fill.Open := hopened.same rfl rfl
      exact hfilled.sound hc
    | flush =>
      have hflushed : d.flush.Open := hopened.same rfl rfl
      exact hflushed.sound hc
    | pauseWriting => exact (hopened.sending false _ (fun _ => rfl) hopened.known).sound hc
    | resumeWriting => exact hopened.resumeWriting.sound hc

/-! ## Every run -/

theorem open_new : new.Open where
  wire := rfl
  tracks i t ht := by
    have hnone : new.protocol.tasks[i]? = none := List.getElem?_nil
    rw [hnone] at ht
    cases ht
  unwritten i t ht := by
    have hnone : new.protocol.tasks[i]? = none := List.getElem?_nil
    rw [hnone] at ht
    cases ht
  calm i t ht := by
    have hnone : new.protocol.tasks[i]? = none := List.getElem?_nil
    rw [hnone] at ht
    cases ht
  ended i t ht := by
    have hnone : new.protocol.tasks[i]? = none := List.getElem?_nil
    rw [hnone] at ht
    cases ht
  known s hs := absurd hs List.not_mem_nil

theorem serves_of_reachable (hparse : InRange parse) (h : (draining parse).Reachable d) :
    ∃ v, d.protocol.Serves parse v := by
  refine h.inv (I := fun d => ∃ v, d.protocol.Serves parse v) ?_ ?_
  · rintro d rfl
    exact ⟨.fresh, Http11Protocol.serves_new⟩
  · rintro d a d' ⟨v, hs⟩ hst
    exact serves_stepped hparse hs (stepped_of_step hst)

theorem sound_of_reachable (hparse : InRange parse) (h : (draining parse).ReachableWhen (Conforms parse) d) :
    (∃ v, d.protocol.Serves parse v) ∧ d.Sound := by
  refine h.inv (I := fun d => (∃ v, d.protocol.Serves parse v) ∧ d.Sound) ?_ ?_
  · rintro d rfl
    exact ⟨⟨.fresh, Http11Protocol.serves_new⟩, open_new.sound rfl⟩
  · rintro d a d' ⟨⟨v, hs⟩, hd⟩ hok hst
    exact ⟨serves_stepped hparse hs (stepped_of_step hst), hd.step hparse hs hok (stepped_of_step hst)⟩

/-- A transport that is closing has sent everything. -/
def Sent (d : Draining) : Prop := d.protocol.transport.closing = true ∧ d.protocol.transport.flushing = false

/-- Nothing is written any more then, whatever happens. -/
theorem wire_of_sent (hparse : InRange parse) (hs : d.protocol.Serves parse v) (hsent : d.Sent)
    (h : ((draining parse).starting d).Reachable d') :
    d'.Sent ∧ d'.protocol.transport.wire = d.protocol.transport.wire := by
  have hinv : (∃ v, d'.protocol.Serves parse v) ∧ d'.Sent ∧ d'.protocol.transport.wire = d.protocol.transport.wire := by
    refine h.inv (I := fun d' => (∃ v, d'.protocol.Serves parse v) ∧ d'.Sent ∧
      d'.protocol.transport.wire = d.protocol.transport.wire) ?_ ?_
    · rintro d' rfl
      exact ⟨⟨v, hs⟩, hsent, rfl⟩
    · rintro d₁ a d₂ ⟨⟨v₁, hs₁⟩, ⟨hc, hf⟩, hwire⟩ hst
      have hst := stepped_of_step hst
      have he := extends_stepped hparse hs₁.toSettled hst
      have hsame := wire_stepped hs₁.pending hc (fun hflushing => absurd (hf.symm.trans hflushing) Bool.false_ne_true) hst
      exact ⟨serves_stepped hparse hs₁ hst, ⟨he.closing hc, he.sent hc hf⟩, hsame.trans hwire⟩
  exact hinv.2

/-- In every run at most one task serves a request, and nothing is written any
more once the transport is closing and has sent everything. And in every run in
which the applications and the engine are careful while the transport is open,
and quiet until it has sent everything, what is written are whole responses to
the requests in their order, and at most one more that is not complete. -/
theorem responses_in_sequence (hparse : InRange parse) :
    (∀ d, (draining parse).Reachable d → d.protocol.live ≤ 1 ∧ (d.Sent →
      ∀ q, ((draining parse).starting d).Reachable q →
        q.Sent ∧ q.protocol.transport.wire = d.protocol.transport.wire)) ∧
    ∀ d, (draining parse).ReachableWhen (Conforms parse) d → ∃ done last, d.protocol.Sequence done last := by
  constructor
  · intro d h
    obtain ⟨v, hs⟩ := serves_of_reachable hparse h
    exact ⟨hs.alone.live_le_one, fun hsent q hq => wire_of_sent hparse hs hsent hq⟩
  · intro d h
    obtain ⟨⟨v, hs⟩, hd⟩ := sound_of_reachable hparse h
    cases hc : d.protocol.transport.closing with
    | true => exact hd.closed hc
    | false => exact (hd.opened hc).sequence hs.alone

/-- A call that tells no error refuses nothing. -/
theorem answerable_of_silent {c : FastHttpConnection} {tasks : List Cycle}
    (h : (c.processEvents .release parse).events.all (fun e => e.response?.isNone) = true) : c.Answerable parse tasks := by
  rintro ⟨-, status, response, hmem⟩
  have hnone := List.all_eq_true.1 h _ hmem
  cases hnone

theorem framed_plain (body : Bytes) (moreBody : Bool) : Framed (bytes "POST") 200 [] body moreBody where
  final := ⟨by decide, by decide⟩
  coding _ := rfl
  length _ _ v hv := absurd hv List.not_mem_nil
  parts _ := ⟨by decide, rfl⟩

set_option maxRecDepth 4096 in
/-- Two requests in one read. The response to the first one is sent in two
parts, and the transport is full after the first part. -/
theorem responses_in_sequence_pipelined : ∃ d : Draining, d.protocol.tasks.map Cycle.status = [.finished, .finished] ∧
    d.protocol.transport.closing = false ∧ d.protocol.live ≤ 1 ∧ ∃ done last, d.protocol.Sequence done last := by
  have hleaves : ∀ (d : Draining) (i : Nat) (t : Cycle), t.response.respStatus = .complete →
      (d.protocol.conn.resetForNextRequest.processEvents .release parseChunkedHead).events.all
        (fun e => e.response?.isNone) = true → d.Leaves parseChunkedHead i t .returned := by
    intro d i t hstatus hsilent
    unfold Leaves
    rw [if_neg fun h => nomatch h.1]
    exact .inr ⟨.inl hstatus, answerable_of_silent hsilent⟩
  have h : (draining parseChunkedHead).ReachableWhen (Conforms parseChunkedHead) new := .init rfl
  have h := h.next (.callback (.step (.dataReceived
    (chunkedHead ++ bytes "0\r\n\r\n" ++ chunkedHead ++ bytes "0\r\n\r\n"))))
    (conforms_of_open rfl fun _ => answerable_of_silent (by decide +kernel)) rfl
  have h := h.next (.callback (.step (.begin 0))) (conforms_of_open rfl trivial) rfl
  have h := h.next (.callback (.step (.send 0 Http11Protocol.midnight (.start 200 [])))) (conforms_of_open rfl trivial) rfl
  have h := h.next .fill (conforms_of_open rfl trivial) rfl
  have h := h.next .pauseWriting (conforms_of_open rfl trivial) rfl
  have h := h.next (.callback (.step (.send 0 Http11Protocol.midnight (.body (bytes "he") true))))
    (conforms_of_open rfl ⟨by decide, rfl, fun t ht status headers hr => by cases ht; cases hr; exact framed_plain _ _⟩) rfl
  have h := h.next .flush (conforms_of_open rfl trivial) rfl
  have h := h.next .resumeWriting (conforms_of_open rfl trivial) rfl
  have h := h.next (.goOn 0) (conforms_of_open rfl trivial) rfl
  have h := h.next (.callback (.step (.send 0 Http11Protocol.midnight (.body (bytes "llo") false))))
    (conforms_of_open rfl ⟨by decide, rfl, fun t ht status headers hr => by cases ht; cases hr⟩) rfl
  have h := h.next (.callback (.step (.finish 0 Http11Protocol.midnight .returned)))
    (conforms_of_open rfl ⟨by decide, fun t ht _ => by cases ht; exact hleaves _ _ _ rfl (by decide +kernel)⟩) rfl
  have h := h.next (.callback (.step (.begin 1))) (conforms_of_open rfl trivial) rfl
  have h := h.next (.callback (.step (.send 1 Http11Protocol.midnight (.start 200 [])))) (conforms_of_open rfl trivial) rfl
  have h := h.next (.callback (.step (.send 1 Http11Protocol.midnight (.body (bytes "ok") false))))
    (conforms_of_open rfl ⟨by decide, rfl, fun t ht status headers hr => by cases ht; cases hr; exact framed_plain _ _⟩) rfl
  have h := h.next (.callback (.step (.finish 1 Http11Protocol.midnight .returned)))
    (conforms_of_open rfl ⟨by decide, fun t ht _ => by cases ht; exact hleaves _ _ _ rfl (by decide +kernel)⟩) rfl
  obtain ⟨hall, hsequence⟩ := responses_in_sequence parseChunkedHead_inRange
  exact ⟨_, rfl, rfl, (hall _ h.reachable).1, hsequence _ h⟩

/-- A client reads a response of the first one on, if it is one of several. -/
theorem client_of_sequence {p : Http11Protocol} {done : List Bytes} {last : Bytes} (h : p.Sequence done last)
    (hdone : 0 < done.length) (ht : p.tasks[0]? = some t) :
    (client t.start.method p.transport.wire).isSome = true := by
  obtain ⟨response, done, rfl⟩ := List.exists_cons_of_ne_nil (List.ne_nil_of_length_pos hdone)
  obtain ⟨u, hu, hwhole⟩ := h.answers 0 response rfl
  rw [ht] at hu
  cases hu
  obtain ⟨body, hends⟩ := hwhole.ends
  rw [h.wire, List.flatten_cons, List.append_assoc, hends]
  rfl

/-- The application raises when it has sent a part of its response. The cycle of
the next request begins on the same connection, and what it writes follows the
part. -/
theorem response_spoilt : ∃ d, (draining parseChunkedHead).Reachable d ∧ d.protocol.transport.closing = false ∧
    d.protocol.tasks.map Cycle.status = [.finished, .finished] ∧
    client (bytes "POST") d.protocol.transport.wire = none ∧ ¬ ∃ done last, d.protocol.Sequence done last := by
  obtain ⟨d, hd, hopen, hstatus, hmethod, hclient⟩ := System.exists_reachable_of_run (M := draining parseChunkedHead)
    (s := new) (p := fun d => d.protocol.transport.closing = false ∧
      d.protocol.tasks.map Cycle.status = [.finished, .finished] ∧
      d.protocol.tasks.map (fun t => (t.start.method, t.start.isWebsocket)) =
        [(bytes "POST", false), (bytes "POST", false)] ∧
      client (bytes "POST") d.protocol.transport.wire = none)
    [.callback (.step (.dataReceived (chunkedHead ++ bytes "0\r\n\r\n" ++ chunkedHead ++ bytes "0\r\n\r\n"))),
      .callback (.step (.begin 0)), .callback (.step (.send 0 Http11Protocol.midnight (.start 200 []))),
      .callback (.step (.send 0 Http11Protocol.midnight (.body (bytes "he") true))),
      .callback (.step (.finish 0 Http11Protocol.midnight .raised)), .callback (.step (.begin 1)),
      .callback (.step (.send 1 Http11Protocol.midnight (.start 200 []))),
      .callback (.step (.send 1 Http11Protocol.midnight (.body (bytes "ok") false))),
      .callback (.step (.finish 1 Http11Protocol.midnight .returned))] rfl (by decide +kernel)
  refine ⟨d, hd, hopen, hstatus, hclient, fun ⟨done, last, h⟩ => ?_⟩
  obtain ⟨t, ht, hfinished⟩ : ∃ t, d.protocol.tasks[0]? = some t ∧ t.status = .finished := by
    have hfirst := congrArg (fun l => l[0]?) hstatus
    rw [List.getElem?_map] at hfirst
    obtain ⟨t, ht, hs⟩ := Option.map_eq_some_iff.1 hfirst
    exact ⟨t, ht, hs⟩
  have hstart : (t.start.method, t.start.isWebsocket) = (bytes "POST", false) := by
    have hfirst := congrArg (fun l => l[0]?) hmethod
    rw [List.getElem?_map, ht] at hfirst
    exact Option.some.inj hfirst
  obtain ⟨hpost, hhttp⟩ := Prod.mk.inj hstart
  have hended := h.ended hopen 0 t ht hhttp (by rw [Cycle.live, hfinished]; rfl)
  have hsome := client_of_sequence h hended ht
  rw [hpost, hclient] at hsome
  cases hsome

end Draining

end Multiloop.Http
