import Multiloop.Http.Cycles
import Multiloop.Http.Serving
import Multiloop.Http.Wire

/-!
# What a response says about the connection

A response head tells the client in its `Connection` fields whether the
connection is closed after the response. What the server does is decided
elsewhere: `send` closes the transport after a response of one part, and the
engine closes after a request that does not keep the connection alive, or is
the last one. The two agree under a condition on the request, the fields that
the application gives, and how the response is sent.
-/

namespace Multiloop.Http

/-! ## The head -/

/-- A `Connection` value has the option `close`. -/
def hasCloseOption (value : Bytes) : Bool := (codingBytes value).any (eqIgnoreAsciiCase · (bytes "close"))

/-- The fields of the head that a response begins with. -/
def headFields (wire : Bytes) : Option (List Header) :=
  (readLine wire).bind fun p => (readFields (p.2.length + 1) p.2).map Prod.fst

/-- A `Connection` field of the head has the option `close`. -/
def saysClose (wire : Bytes) : Bool :=
  (headFields wire).any fun fields => (values "connection" fields).any hasCloseOption

/-- The application gives a `Connection` field with the option `close`, or none
in the response to a request that does not keep the connection alive. -/
def givesClose (headers : List Header) (keepAlive : Bool) : Bool :=
  (values "connection" (received headers)).any hasCloseOption || !hasField "connection" headers && !keepAlive

theorem headFields_eq (status : Nat) {hs : List Header} (hline : ∀ h ∈ hs, h.line ≠ [] ∧ 13 ∉ h.line) (rest : Bytes) :
    headFields (statusLine status ++ crlf ++ (headerLines hs ++ (crlf ++ rest))) = some (received hs) := by
  unfold headFields
  rw [readLine_append (statusLine_not_mem status), Option.bind_some]
  dsimp only
  rw [readFields_headerLines hline rest]
  rfl

theorem values_sent_connection (date : Bytes) (headers : List Header) (body : Bytes)
    (moreBody isNoBodyStatus keepAlive : Bool) :
    values "connection" (received (sentFields date headers body moreBody isNoBodyStatus keepAlive)) =
      values "connection" (received headers) ++
        if hasField "connection" headers then []
        else [if keepAlive && !asksClose headers then bytes "keep-alive" else bytes "close"] := by
  have hnil : values "connection" (received []) = [] := rfl
  have hserver : values "connection" (received [⟨bytes "server", bytes "multiloop"⟩]) = [] := by decide
  have hdate : values "connection" (received [⟨bytes "date", date⟩]) = [] :=
    values_received_other _ (by decide) (by decide)
  have hlength : values "connection" (received [⟨bytes "content-length", decimal body.length⟩]) = [] :=
    values_received_other _ (by decide) (by decide)
  have hcoding : values "connection" (received [⟨bytes "transfer-encoding", bytes "chunked"⟩]) = [] := by decide
  have hself : ∀ kept : Bool, values "connection" (received [⟨bytes "connection",
      if kept then bytes "keep-alive" else bytes "close"⟩]) = [if kept then bytes "keep-alive" else bytes "close"] := by
    decide
  unfold sentFields
  simp only [values_received_append, values_received_ite, hnil, hserver, hdate, hlength, hcoding, hself, ite_self,
    List.nil_append, List.append_nil]

theorem asksClose_of_not_hasField {headers : List Header} (h : hasField "connection" headers = false) :
    asksClose headers = false := by
  unfold hasField at h
  unfold asksClose
  rw [List.any_eq_false] at h ⊢
  intro x hx hboth
  exact h x hx (Bool.and_eq_true_iff.1 hboth).1

/-- What `format_response` accepts. -/
theorem legal_of_formatResponse {status : Nat} {serverHeader dateHeader : Bytes} {headers : List Header} {body : Bytes}
    {moreBody isNoBodyStatus keepAlive : Bool} {r : Bytes × Bool × Bool}
    (h : formatResponse status serverHeader dateHeader headers body moreBody isNoBodyStatus keepAlive = .ok r) :
    status < 2 ^ 16 ∧ ∀ h ∈ headers, hasCrlf h.name = false ∧ hasCrlf h.value = false := by
  unfold formatResponse at h
  split at h
  · cases h
  split at h
  · cases h
  rename_i hstatus hlegal
  refine ⟨by omega, fun x hx => ?_⟩
  have hnone := (List.any_eq_false.1 (eq_false_of_ne_true hlegal)) x hx
  rw [Bool.or_eq_true, not_or] at hnone
  exact ⟨eq_false_of_ne_true hnone.1, eq_false_of_ne_true hnone.2⟩

/-- What the first part of a response says, and makes of it. -/
theorem send_first {method date : Bytes} (hdate : hasCrlf date = false) {r r' : Response} {status : Nat}
    {headers : List Header} (hr : r.respStatus = .headersSent status headers) {body : Bytes} {moreBody : Bool}
    (hsend : r.send method date (.body body moreBody) = .ok r') :
    saysClose (r'.wire.drop r.wire.length) = givesClose headers r.keepAlive ∧
      r'.keepAlive = (r.keepAlive && !asksClose headers) ∧
      r'.closed = (r.closed || !moreBody && !r'.keepAlive) ∧
      r'.respStatus = if moreBody then .streaming else .complete := by
  unfold Response.send at hsend
  rw [hr] at hsend
  dsimp only at hsend
  cases hformat : formatResponse status serverHeader (dateHeader date) headers body moreBody (isNoBody method status)
      r.keepAlive with
  | error e =>
    rw [hformat] at hsend
    cases hsend
  | ok w =>
    obtain ⟨hstatus, hcrlf⟩ := legal_of_formatResponse hformat
    rw [formatResponse_eq hstatus hcrlf] at hformat
    cases hformat
    rw [formatResponse_eq hstatus hcrlf] at hsend
    cases hsend
    refine ⟨?_, rfl, rfl, rfl⟩
    dsimp only
    rw [List.drop_left, saysClose, headFields_eq status (line_sentFields hcrlf hdate body _ _ _), Option.any_some,
      values_sent_connection, List.any_append, givesClose]
    cases hfield : hasField "connection" headers with
    | true => rfl
    | false =>
      rw [asksClose_of_not_hasField hfield]
      cases r.keepAlive with
      | true => rfl
      | false => rfl

/-- A response that has begun is as it was before, but for what is written. -/
theorem send_begun {method date : Bytes} {r r' : Response} (hr : r.respStatus = .streaming ∨ r.respStatus = .complete)
    {message : Message} (hsend : r.send method date message = .ok r') :
    r'.keepAlive = r.keepAlive ∧ r'.closed = r.closed ∧ (r'.respStatus = .streaming ∨ r'.respStatus = .complete) := by
  unfold Response.send at hsend
  cases message with
  | start status headers =>
    rcases hr with hr | hr <;> rw [hr] at hsend <;> cases hsend
  | body body moreBody =>
    rcases hr with hr | hr
    · rw [hr] at hsend
      cases hsend
      refine ⟨rfl, rfl, ?_⟩
      cases moreBody with
      | true => exact .inl rfl
      | false => exact .inr rfl
    · rw [hr] at hsend
      cases hsend
  | other msgType => cases hsend

/-- Until its response begins, a connection is kept alive as the request
asks. -/
def Response.Unbegun (r : Response) (keepAlive : Bool) : Prop :=
  r.respStatus = .initial ∨ (∃ status headers, r.respStatus = .headersSent status headers) →
    r.keepAlive = keepAlive ∧ r.closed = false

theorem Response.Unbegun.send {r r' : Response} {keepAlive : Bool} (h : r.Unbegun keepAlive) {method date : Bytes}
    {message : Message} (hsend : r.send method date message = .ok r') : r'.Unbegun keepAlive := by
  have hbegun : ∀ {moreBody : Bool}, r'.respStatus = (if moreBody then .streaming else .complete) →
      r'.Unbegun keepAlive := by
    intro moreBody hs hr'
    rw [hs] at hr'
    cases moreBody with
    | true => rcases hr' with hr' | ⟨_, _, hr'⟩ <;> cases hr'
    | false => rcases hr' with hr' | ⟨_, _, hr'⟩ <;> cases hr'
  unfold Response.send at hsend
  cases message with
  | start status headers =>
    dsimp only at hsend
    split at hsend
    · rename_i hs
      cases hsend
      exact fun _ => h (.inl hs)
    · cases hsend
  | body body moreBody =>
    dsimp only at hsend
    split at hsend
    · rename_i status headers hs
      cases hformat : formatResponse status serverHeader (dateHeader date) headers body moreBody
          (isNoBody method status) r.keepAlive with
      | error e =>
        rw [hformat] at hsend
        cases hsend
      | ok w =>
        rw [hformat] at hsend
        cases hsend
        exact hbegun rfl
    · cases hsend
      exact hbegun rfl
    · cases hsend
  | other msgType => cases hsend

/-! ## The end of a cycle -/

namespace Http11Protocol

variable {parse : Httparse} {p p' : Http11Protocol} {i : Nat} {t : Cycle}

/-- The connection after a cycle, before the engine reads on. -/
def ended (p : Http11Protocol) (i : Nat) (t : Cycle) : Http11Protocol :=
  (p.setTask i { t with status := .finished }).reset

/-- From `p` the connection goes on to `q`: it is open and read, it waits for the
next request, and the engine reads what has arrived of it. -/
structure GoesOn (parse : Httparse) (p q : Http11Protocol) : Prop where
  opened : p.transport.closing = false
  read : p.transport.paused = false
  plain : p.upgraded = false
  waits : p.state = .keepAliveWait ∧ p.conn.state = .keepAliveWait
  pumped : q = p.afterPump parse

/-- The end of a cycle does what the response head says. -/
structure Truthful (parse : Httparse) (p : Http11Protocol) (i : Nat) (t : Cycle) (date : Bytes) (ending : Ending)
    (head : Bytes) : Prop where
  closes : (p.ended i t).transport.closing = true ↔ saysClose head = true
  stays : saysClose head = true → (p.finish parse i t date ending).transport.closing = true
  serves : saysClose head = false → GoesOn parse (p.ended i t) (p.finish parse i t date ending)

/-- The request asks for another one, which may follow: it is not the last one,
its body has arrived, and the connection is open and read. -/
structure Continues (p : Http11Protocol) (keepAlive : Bool) : Prop where
  asked : keepAlive = true
  counted : p.conn.requestCount < p.conn.maxKeepaliveRequests
  arrived : p.conn.state = .servingApp
  opened : p.transport.closing = false
  read : p.transport.paused = false

/-- What is done about the connection, at the end of a cycle, agrees with what
the application's fields and the request make of the response head. -/
def Agrees (p : Http11Protocol) (keepAlive : Bool) (headers : List Header) (streamed : Bool) : Prop :=
  if givesClose headers keepAlive then
    streamed = false ∧ (keepAlive = false ∨ asksClose headers = true) ∨ p.transport.closing = true ∨ p.conn.Final
  else p.Continues keepAlive ∧ (streamed = true ∨ asksClose headers = false)

theorem closing_ended : (p.ended i t).transport.closing = true ↔ p.transport.closing = true ∨ p.conn.Final := by
  unfold ended reset
  dsimp only
  split
  · rename_i hclosed
    exact ⟨fun _ => .inr (FastHttpConnection.isClosed_reset.1 hclosed), fun _ => rfl⟩
  · rename_i hopen
    refine ⟨.inl, fun h => h.resolve_right fun hfinal => hopen (FastHttpConnection.isClosed_reset.2 hfinal)⟩

theorem ended_open (h : ¬ p.conn.Final) : p.ended i t = { (p.setTask i { t with status := .finished }).disconnect with
    conn := p.conn.resetForNextRequest, state := .keepAliveWait } :=
  if_neg fun hclosed => h (FastHttpConnection.isClosed_reset.1 hclosed)

/-- The engine waits for another request after a cycle. -/
theorem state_reset {c : FastHttpConnection} (hbusy : c.state.phase ≠ .idle) :
    c.resetForNextRequest.state = .keepAliveWait ↔
      c.state = .servingApp ∧ c.keepAlive = true ∧ c.requestCount < c.maxKeepaliveRequests := by
  unfold FastHttpConnection.resetForNextRequest
  split
  · rename_i hs
    split
    · rename_i hlast
      refine ⟨nofun, fun h => ?_⟩
      rcases hlast with hlast | hlast
      · exact absurd h.2.1 hlast
      · exact absurd hlast (Nat.not_le.2 h.2.2)
    · rename_i hnext
      rw [not_or, not_not] at hnext
      exact ⟨fun _ => ⟨hs, hnext.1, Nat.lt_of_not_le hnext.2⟩, fun _ => rfl⟩
  · rename_i hs
    refine ⟨fun h => absurd ?_ hbusy, fun h => absurd h.1 hs⟩
    rw [h]
    rfl

/-- The end of a cycle that has responded. -/
theorem finish_eq (parse : Httparse) (i : Nat) (hpending : p.pendingPipelineEvents = [])
    (hhttp : t.start.isWebsocket = false) (hwritten : t.bytesWritten = true) (date : Bytes) (ending : Ending) :
    p.finish parse i t date ending =
      if p.conn.resetForNextRequest.isClosed then p.ended i t else (p.ended i t).afterPump parse := by
  have hends := finishes_finish parse p i t date ending
  generalize p.finish parse i t date ending = q at hends
  cases hends with
  | websocket hws => exact absurd (hhttp.symm.trans hws) Bool.false_ne_true
  | http _ hleft =>
    cases hleft with
    | raised hunsent hopen => exact absurd (hunsent.symm.trans hwritten) Bool.false_ne_true
    | other hother => exact afterCycle_eq (p := p.setTask i { t with status := .finished }) hpending

/-- After a cycle the connection goes on if and only if another request may
follow. -/
theorem goesOn_iff (parse : Httparse) (i : Nat) (hbusy : p.conn.state.phase ≠ .idle) (hplain : p.upgraded = false)
    (hpending : p.pendingPipelineEvents = []) (hhttp : t.start.isWebsocket = false) (hwritten : t.bytesWritten = true)
    (date : Bytes) (ending : Ending) :
    GoesOn parse (p.ended i t) (p.finish parse i t date ending) ↔ p.Continues p.conn.keepAlive := by
  have hfinish := finish_eq parse i hpending hhttp hwritten date ending
  constructor
  · intro h
    have hopen : ¬ (p.transport.closing = true ∨ p.conn.Final) := by
      rw [← closing_ended (i := i) (t := t), h.opened]
      exact Bool.false_ne_true
    rw [not_or] at hopen
    have hended := ended_open (i := i) (t := t) hopen.2
    have hread := h.read
    have hwaits := h.waits.2
    rw [hended] at hread hwaits
    obtain ⟨hs, hkeep, hcount⟩ := (state_reset hbusy).1 hwaits
    exact ⟨hkeep, hcount, hs, eq_false_of_ne_true hopen.1, hread⟩
  · intro h
    have hopen : ¬ p.conn.Final := by
      rintro (hs | ⟨-, hkeep | hcount⟩)
      · rw [h.arrived] at hs
        cases hs
      · exact absurd (hkeep.symm.trans h.asked) Bool.false_ne_true
      · exact absurd h.counted (Nat.not_lt.2 hcount)
    have hended := ended_open (i := i) (t := t) hopen
    rw [if_neg fun hclosed => hopen (FastHttpConnection.isClosed_reset.1 hclosed)] at hfinish
    have hwaits := (state_reset hbusy).2 ⟨h.arrived, h.asked, h.counted⟩
    refine ⟨?_, ?_, ?_, ⟨?_, ?_⟩, hfinish⟩
    · rw [hended]
      exact h.opened
    · rw [hended]
      exact h.read
    · rw [hended]
      exact hplain
    · rw [hended]
    · rw [hended]
      exact hwaits

/-- The end of a cycle is truthful if and only if what decides about the
connection agrees. -/
theorem truthful_iff {head : Bytes} {keepAlive streamed : Bool} {headers : List Header}
    (hsaid : saysClose head = givesClose headers keepAlive)
    (hsent : streamed = false → keepAlive = false ∨ asksClose headers = true → p.transport.closing = true)
    (hkeep : p.conn.state = .servingApp → p.conn.keepAlive = keepAlive)
    (hbusy : p.conn.state.phase ≠ .idle) (hplain : p.upgraded = false)
    (hpending : p.pendingPipelineEvents = []) (hhttp : t.start.isWebsocket = false) (hwritten : t.bytesWritten = true)
    (date : Bytes) (ending : Ending) :
    Truthful parse p i t date ending head ↔ p.Agrees keepAlive headers streamed := by
  have hon := goesOn_iff parse i hbusy hplain hpending hhttp hwritten date ending
  unfold Agrees
  constructor
  · intro h
    split
    · rename_i hgives
      exact .inr (closing_ended.1 (h.closes.2 (hsaid.trans hgives)))
    · rename_i hgives
      have hnext := hon.1 (h.serves (hsaid.trans (eq_false_of_ne_true hgives)))
      have hasked := (hkeep hnext.arrived).symm.trans hnext.asked
      refine ⟨⟨hasked, hnext.counted, hnext.arrived, hnext.opened, hnext.read⟩, ?_⟩
      by_contra hclose
      rw [not_or, Bool.not_eq_true, Bool.not_eq_false] at hclose
      exact absurd (hnext.opened.symm.trans (hsent hclose.1 (.inr hclose.2))) Bool.false_ne_true
  · intro h
    cases hgives : givesClose headers keepAlive with
    | true =>
      rw [hgives, if_pos rfl] at h
      have hclosing : (p.ended i t).transport.closing = true := by
        rw [closing_ended]
        rcases h with ⟨hone, hclose⟩ | hclose
        · exact .inl (hsent hone hclose)
        · exact hclose
      refine ⟨⟨fun _ => hsaid.trans hgives, fun _ => hclosing⟩, fun _ => ?_, fun hquiet => ?_⟩
      · rw [finish_eq parse i hpending hhttp hwritten]
        split
        · exact hclosing
        · exact (keeps_afterPump parse _).closing hclosing
      · exact absurd (hquiet.symm.trans (hsaid.trans hgives)) Bool.false_ne_true
    | false =>
      rw [hgives, if_neg Bool.false_ne_true] at h
      have hnext := h.1
      rw [← hkeep hnext.arrived] at hnext
      have hgoes := hon.2 hnext
      have hquiet := hsaid.trans hgives
      refine ⟨⟨fun hclosing => ?_, fun hsay => ?_⟩, fun hsay => ?_, fun _ => hgoes⟩
      · exact absurd (hgoes.opened.symm.trans hclosing) Bool.false_ne_true
      · exact absurd (hquiet.symm.trans hsay) Bool.false_ne_true
      · exact absurd (hquiet.symm.trans hsay) Bool.false_ne_true

/-! ## Every run -/

/-- Until a response begins, the connection is kept alive as its request
asks. -/
theorem unbegun_of_reachable (h : (http11 parse).Reachable p) :
    ∀ (i : Nat) (t : Cycle), p.tasks[i]? = some t → t.response.Unbegun t.start.keepAlive := by
  refine h.inv (I := fun p => ∀ (i : Nat) (t : Cycle), p.tasks[i]? = some t →
    t.response.Unbegun t.start.keepAlive) ?_ ?_
  · rintro p rfl i t ht
    have hnone : new.tasks[i]? = none := List.getElem?_nil
    rw [hnone] at ht
    cases ht
  · intro p a p' ih hst i t' ht'
    rcases step_keeps (stepped_of_step hst) with ⟨k, t, date, message, -, ht, rfl⟩ | hkeeps
    · obtain ⟨⟨u, hu, hstart, -, hresponse, -⟩, hother, -⟩ := tasks_send ht date message
      by_cases hik : i = k
      · subst hik
        rw [hu] at ht'
        cases ht'
        rw [hstart]
        rcases hresponse with hsame | hsend
        · rw [hsame]
          exact ih i t ht
        · exact (ih i t ht).send hsend
      · exact ih i t' ((hother i hik).symm.trans ht')
    · cases hold : p.tasks[i]? with
      | none =>
        obtain ⟨hresponse, -⟩ := hkeeps.fresh i t' ht' hold
        rw [hresponse]
        exact fun _ => ⟨rfl, rfl⟩
      | some t =>
        obtain ⟨u, hu, hstart, hresponse, -⟩ := hkeeps.task i t hold
        rw [ht'] at hu
        cases hu
        rw [hresponse, hstart]
        exact ih i t hold

/-- What a response that has begun keeps: what it decided about the connection,
and the transport closed if it was to be. -/
def Carries (p : Http11Protocol) (i : Nat) (start : RequestStart) (r : Response) : Prop :=
  (r.closed = true → p.transport.closing = true) ∧
    ∃ t, p.tasks[i]? = some t ∧ t.start = start ∧ t.bytesWritten = true ∧ t.response.closed = r.closed ∧
      (t.response.respStatus = .streaming ∨ t.response.respStatus = .complete)

theorem Carries.step {start : RequestStart} {r : Response} (h : p.Carries i start r) {a : Action}
    (hst : Stepped parse p a p') : p'.Carries i start r := by
  obtain ⟨hclosing, t, ht, hstart, hwritten, hclosed, hbegun⟩ := h
  rcases step_keeps hst with ⟨k, u, date, message, -, hu, rfl⟩ | hkeeps
  · refine ⟨fun hr => closing_send date message (hclosing hr), ?_⟩
    obtain ⟨⟨u', hu', hstart', -, hresponse, hwritten'⟩, hother, -⟩ := tasks_send hu date message
    by_cases hik : i = k
    · subst hik
      rw [ht] at hu
      cases hu
      rcases hresponse with hsame | hsend
      · exact ⟨u', hu', hstart'.trans hstart, hwritten' hwritten, hsame ▸ hclosed, hsame ▸ hbegun⟩
      · obtain ⟨-, hclosed', hbegun'⟩ := send_begun hbegun hsend
        exact ⟨u', hu', hstart'.trans hstart, hwritten' hwritten, hclosed'.trans hclosed, hbegun'⟩
    · exact ⟨t, (hother i hik).trans ht, hstart, hwritten, hclosed, hbegun⟩
  · refine ⟨fun hr => hkeeps.closing (hclosing hr), ?_⟩
    obtain ⟨t', ht', hstart', hresponse, hwritten'⟩ := hkeeps.task i t ht
    exact ⟨t', ht', hstart'.trans hstart, hwritten'.trans hwritten, hresponse ▸ hclosed, hresponse ▸ hbegun⟩

/-- Task `i` answers a request: it has given status and header fields, sends the
first part of the body, and the response is complete when it ends. `p₀` and `t₀`
are before that part is sent, `p` and `t` before the end. -/
structure Answers (parse : Httparse) (p₀ p : Http11Protocol) (i : Nat) (t₀ t : Cycle) (status : Nat)
    (headers : List Header) (date body : Bytes) (streamed : Bool) : Prop where
  reachable : (http11 parse).Reachable p₀
  task : p₀.tasks[i]? = some t₀
  running : t₀.status = .running
  http : t₀.start.isWebsocket = false
  opened : p₀.transport.closing = false
  given : t₀.response.respStatus = .headersSent status headers
  dated : hasCrlf date = false
  accepted : ∃ r, t₀.response.send t₀.start.method date (.body body streamed) = .ok r
  run : ((http11 parse).starting (p₀.send i t₀ date (.body body streamed))).Reachable p
  last : p.tasks[i]? = some t
  still : t.status = .running
  complete : t.response.respStatus = .complete

/-- The bytes that a `send` writes. -/
def writes (p : Http11Protocol) (i : Nat) (t : Cycle) (date : Bytes) (message : Message) : Bytes :=
  (p.send i t date message).transport.wire.drop p.transport.wire.length

/-- The first part of a response, sent on an open connection. -/
theorem carries_send {i : Nat} {t : Cycle} (ht : p.tasks[i]? = some t) (hopen : p.transport.closing = false)
    {status : Nat} {headers : List Header} (hgiven : t.response.respStatus = .headersSent status headers)
    (hunbegun : t.response.Unbegun t.start.keepAlive) {date : Bytes} (hdate : hasCrlf date = false) {body : Bytes}
    {streamed : Bool} {r : Response} (hr : t.response.send t.start.method date (.body body streamed) = .ok r) :
    saysClose (p.writes i t date (.body body streamed)) = givesClose headers t.start.keepAlive ∧
      r.closed = (!streamed && !(t.start.keepAlive && !asksClose headers)) ∧
      (p.send i t date (.body body streamed)).Carries i t.start r := by
  obtain ⟨hsaid, hkeep, hclosed, hstatus⟩ := send_first hdate hgiven hr
  obtain ⟨hka, hfresh⟩ := hunbegun (.inr ⟨status, headers, hgiven⟩)
  rw [hka] at hsaid hkeep
  rw [hfresh, hkeep, Bool.false_or] at hclosed
  refine ⟨?_, hclosed, ?_⟩
  · rw [← hsaid]
    unfold writes Http11Protocol.send
    rw [hr]
    have hwire : ∀ c : Bool, (if c then (p.transport.write (r.wire.drop t.response.wire.length)).close
        else p.transport.write (r.wire.drop t.response.wire.length)).wire =
        p.transport.wire ++ r.wire.drop t.response.wire.length := by
      intro c
      unfold Transport.write
      rw [hopen]
      cases c with
      | true => rfl
      | false => rfl
    dsimp only
    rw [hwire, List.drop_left]
  · unfold Http11Protocol.send
    rw [hr]
    refine ⟨fun hc => ?_, _, List.getElem?_set_self (List.getElem?_eq_some_iff.1 ht).1, rfl, Bool.or_true _, rfl, ?_⟩
    · dsimp only
      rw [if_pos hc]
      rfl
    · dsimp only
      rw [hstatus]
      cases streamed with
      | true => exact .inl rfl
      | false => exact .inr rfl

/-- A task that is not done serves no websocket that another one has opened. -/
theorem plain_of_live (h : (http11 parse).Reachable p) {v : Monitor} (halone : p.Alone v) {i : Nat} {t : Cycle}
    (ht : p.tasks[i]? = some t) (hlive : t.live = true) (hhttp : t.start.isWebsocket = false) : p.upgraded = false := by
  by_contra hup
  obtain ⟨u, hu, hws⟩ := websocket_of_upgraded h (eq_true_of_ne_false hup)
  obtain ⟨j, hj⟩ := List.getElem?_of_mem hu
  have hi := (halone i t ht (.inl hlive)).1
  have hlast := (halone j u hj (.inr hws)).1
  obtain rfl : i = j := by omega
  rw [ht] at hj
  cases hj
  exact Bool.false_ne_true (hhttp.symm.trans hws)

/-- After every response that was begun on an open connection and is complete,
whatever else happened to the connection: the end of the cycle does what the
response head says, and goes on to the next request if it says nothing, if and
only if what decides about the connection agrees. -/
theorem advertisement_truthful (hparse : InRange parse) {p₀ : Http11Protocol} {t₀ : Cycle} {status : Nat}
    {headers : List Header} {date body : Bytes} {streamed : Bool}
    (h : Answers parse p₀ p i t₀ t status headers date body streamed) (date' : Bytes) (ending : Ending) :
    Truthful parse p i t date' ending (p₀.writes i t₀ date (.body body streamed)) ↔
      p.Agrees t₀.start.keepAlive headers streamed := by
  obtain ⟨r, hr⟩ := h.accepted
  have hunbegun := unbegun_of_reachable h.reachable i t₀ h.task
  obtain ⟨hsaid, hclosed, hcarries⟩ := carries_send h.task h.opened h.given hunbegun h.dated hr
  have hsent : p₀.step parse (.send i date (.body body streamed)) = some (p₀.send i t₀ date (.body body streamed)) :=
    step_send h.task (by rw [h.running]; decide) h.http date _
  have hreach₁ : (http11 parse).Reachable (p₀.send i t₀ date (.body body streamed)) :=
    h.reachable.next (.send i date (.body body streamed)) trivial hsent
  have hreach : (http11 parse).Reachable p := hreach₁.append h.run
  obtain ⟨hclosing, t', ht', hstart, hwritten, -⟩ : p.Carries i t₀.start r := by
    refine h.run.inv (I := fun p => p.Carries i t₀.start r) ?_ fun p a p' hp hst => hp.step (stepped_of_step hst)
    rintro p rfl
    exact hcarries
  rw [h.last] at ht'
  cases ht'
  have hhttp : t.start.isWebsocket = false := hstart ▸ h.http
  have hlive := Cycle.live_running h.still
  obtain ⟨v, hserves⟩ := serves_of_reachable hparse (anytime_of_reachable hreach)
  obtain ⟨-, hkeep, hstage⟩ := hserves.alone i t h.last (.inl hlive)
  refine truthful_iff hsaid (fun hone hclose => hclosing ?_) (fun hs => ?_) (hserves.busy hstage)
    (plain_of_live hreach hserves.alone h.last hlive hhttp) hserves.pending hhttp hwritten date' ending
  · rw [hclosed, hone]
    rcases hclose with hclose | hclose
    · rw [hclose]
      rfl
    · rw [hclose]
      cases t₀.start.keepAlive <;> rfl
  · rw [hserves.keepAlive hs, ← hkeep, hstart]

section Runs

/-- A chunked request without a body is received, and its task gives these
header fields. -/
def responding (headers : List Header) : List Action :=
  [.dataReceived (chunkedHead ++ bytes "0\r\n\r\n"), .begin 0, .send 0 midnight (.start 200 headers)]

/-- The task is about to send the first part of its response. -/
def opens (headers : List Header) (streamed : Bool) (p : Http11Protocol) (t : Cycle) : Bool :=
  decide (t.status = .running ∧ t.start.isWebsocket = false ∧ p.transport.closing = false ∧
    t.response.respStatus = .headersSent 200 headers) &&
  (t.response.send t.start.method midnight (.body (bytes "hi") streamed)).isOk

/-- The connection after the first task has sent all of a response. -/
theorem exists_answers (headers : List Header) (streamed : Bool) (later : List Action)
    (check : Http11Protocol → Cycle → Http11Protocol → Prop) [∀ p₀ t₀ p, Decidable (check p₀ t₀ p)]
    (hrun : ((http11 parseChunkedHead).run new (responding headers)).any (fun p₀ => p₀.tasks[0]?.any fun t₀ =>
      opens headers streamed p₀ t₀ && (((http11 parseChunkedHead).starting
        (p₀.send 0 t₀ midnight (.body (bytes "hi") streamed))).run (p₀.send 0 t₀ midnight (.body (bytes "hi") streamed))
          later).any fun p => p.tasks[0]?.any fun t =>
            decide (t.status = .running ∧ t.response.respStatus = .complete ∧ check p₀ t₀ p)) = true) :
    ∃ p₀ p t₀ t, Answers parseChunkedHead p₀ p 0 t₀ t 200 headers midnight (bytes "hi") streamed ∧ check p₀ t₀ p := by
  obtain ⟨p₀, hp₀, hrun⟩ := (Option.any_eq_true _ _).1 hrun
  obtain ⟨t₀, ht₀, hrun⟩ := (Option.any_eq_true _ _).1 hrun
  obtain ⟨hopens, hrun⟩ := Bool.and_eq_true_iff.1 hrun
  obtain ⟨p, hp, hrun⟩ := (Option.any_eq_true _ _).1 hrun
  obtain ⟨t, ht, hdone⟩ := (Option.any_eq_true _ _).1 hrun
  obtain ⟨hstill, hcomplete, hcheck⟩ := of_decide_eq_true hdone
  obtain ⟨hopens, hok⟩ := Bool.and_eq_true_iff.1 hopens
  obtain ⟨hrunning, hhttp, hopened, hgiven⟩ := of_decide_eq_true hopens
  refine ⟨p₀, p, t₀, t, ⟨System.reachable_of_run rfl hp₀, ht₀, hrunning, hhttp, hopened, hgiven, by decide, ?_,
    System.reachable_of_run rfl hp, ht, hstill, hcomplete⟩, hcheck⟩
  cases hsend : t₀.response.send t₀.start.method midnight (.body (bytes "hi") streamed) with
  | error e =>
    rw [hsend] at hok
    cases hok
  | ok r => exact ⟨r, rfl⟩

end Runs

/-- A response that keeps the connection, in one part. -/
theorem advertisement_truthful_kept : ∃ p₀ p t₀ t,
    Answers parseChunkedHead p₀ p 0 t₀ t 200 [] midnight (bytes "hi") false ∧
      Truthful parseChunkedHead p 0 t midnight .returned (p₀.writes 0 t₀ midnight (.body (bytes "hi") false)) ∧
      saysClose (p₀.writes 0 t₀ midnight (.body (bytes "hi") false)) = false := by
  obtain ⟨p₀, p, t₀, t, h, hkeep, hcount, hs, hopened, hread, hsaid⟩ := exists_answers [] false []
    (fun p₀ t₀ p => t₀.start.keepAlive = true ∧ p.conn.requestCount < p.conn.maxKeepaliveRequests ∧
      p.conn.state = .servingApp ∧ p.transport.closing = false ∧ p.transport.paused = false ∧
      saysClose (p₀.writes 0 t₀ midnight (.body (bytes "hi") false)) = false) (by decide +kernel)
  refine ⟨p₀, p, t₀, t, h, (advertisement_truthful parseChunkedHead_inRange h midnight .returned).2 ?_, hsaid⟩
  have hgives : givesClose [] t₀.start.keepAlive = false := by
    rw [hkeep]
    decide
  unfold Agrees
  rw [hgives, if_neg Bool.false_ne_true]
  exact ⟨⟨hkeep, hcount, hs, hopened, hread⟩, .inr rfl⟩

/-- A response in two parts to which the application gives `Connection: close`
leaves the connection open. -/
theorem streamed_close_stays_open : ∃ p₀ p t₀ t,
    Answers parseChunkedHead p₀ p 0 t₀ t 200 [⟨bytes "connection", bytes "close"⟩] midnight (bytes "hi") true ∧
      ¬ Truthful parseChunkedHead p 0 t midnight .returned (p₀.writes 0 t₀ midnight (.body (bytes "hi") true)) := by
  obtain ⟨p₀, p, t₀, t, h, hsaid, hopened, hs, hkeep, hcount⟩ := exists_answers
    [⟨bytes "connection", bytes "close"⟩] true [.send 0 midnight (.body [] false)]
    (fun p₀ t₀ p => saysClose (p₀.writes 0 t₀ midnight (.body (bytes "hi") true)) = true ∧
      p.transport.closing = false ∧ p.conn.state = .servingApp ∧ p.conn.keepAlive = true ∧
      p.conn.requestCount < p.conn.maxKeepaliveRequests) (by decide +kernel)
  refine ⟨p₀, p, t₀, t, h, fun htruthful => ?_⟩
  rcases closing_ended.1 (htruthful.closes.2 hsaid) with hclosing | hclosed | ⟨-, hlast | hlast⟩
  · exact Bool.false_ne_true (hopened.symm.trans hclosing)
  · rw [hs] at hclosed
    cases hclosed
  · exact Bool.false_ne_true (hlast.symm.trans hkeep)
  · exact absurd hcount (Nat.not_lt.2 hlast)

end Http11Protocol

end Multiloop.Http
