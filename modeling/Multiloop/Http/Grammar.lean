import Multiloop.Http.Phases

/-!
# The grammar of the events

What an owner who only feeds, pumps and resets an engine in HTTP mode is told,
whatever the bytes. Each request is a start, and then, exactly if it has a
body, chunks up to a last one; the next one starts after a reset that follows
its end. There are no more requests than the limit on them allows for, and
none after one that is not kept alive. An error ends it all.

A monitor accepts the calls and their events one by one. That it accepts every
run is an invariant between it and the engine, and what it accepts is of this
form.
-/

namespace Multiloop.Http

/-! ## Sessions -/

/-- What the owner of an engine notes: an event it is told, or its own reset. -/
inductive Entry
  | told (event : Event)
  | reset
deriving DecidableEq

/-- An engine, and what its owner has noted so far. -/
structure Session where
  conn : FastHttpConnection
  log : List Entry
deriving DecidableEq

namespace Session

inductive Action
  | feedData (data : Bytes)
  | pumpEvents
  | resetForNextRequest

/-- A call that panics tells its owner nothing. -/
def call (s : Session) (o : Outcome) : Session where
  conn := o.conn
  log := if o.fault = none then s.log ++ o.events.map .told else s.log

def step (parse : Httparse) (s : Session) : Action → Option Session
  | .feedData data =>
    -- A `Vec` has at most `isize::MAX` bytes.
    if (s.conn.buffer ++ data).length < 2 ^ 63 then some (s.call (s.conn.feedData .release parse data)) else none
  | .pumpEvents => some (s.call (s.conn.pumpEvents .release parse))
  | .resetForNextRequest => some ⟨s.conn.resetForNextRequest, s.log ++ [.reset]⟩

end Session

def session (parse : Httparse) (maxBodySize maxHeaderSize maxKeepaliveRequests : Nat) : System Session Session.Action where
  init s := s = ⟨.new maxBodySize maxHeaderSize maxKeepaliveRequests, []⟩
  step := Session.step parse

def Entry.event : Entry → Option Event
  | .told event => some event
  | .reset => none

/-- The events among the entries. -/
def events (log : List Entry) : List Event := log.filterMap Entry.event

theorem events_append (l l' : List Entry) : events (l ++ l') = events l ++ events l' := List.filterMap_append

/-! ## Sequences of requests -/

def Event.isStart : Event → Bool
  | .requestStart _ => true
  | _ => false

/-- All events of one request. -/
inductive IsRequest : List Event → Prop
  | bodiless {start : RequestStart} (hbody : start.hasBody = false) (hws : start.isWebsocket = false) :
    IsRequest [.requestStart start]
  | upgrade {start : RequestStart} (hbody : start.hasBody = false) (hws : start.isWebsocket = true) :
    IsRequest [.requestStart start, .upgrade start.upgradeProto]
  | body {start : RequestStart} (hbody : start.hasBody = true) (hws : start.isWebsocket = false)
    (chunks : List Bytes) (last : Bytes) :
    IsRequest (.requestStart start :: chunks.map (.body · true) ++ [.body last false])

/-- All events of a request whose body has not ended. -/
def IsCut (evs : List Event) : Prop :=
  ∃ (start : RequestStart) (chunks : List Bytes), start.hasBody = true ∧ start.isWebsocket = false ∧
    evs = .requestStart start :: chunks.map (.body · true)

/-- Whole requests, one after the other. -/
inductive Requests : List Event → Prop
  | none : Requests []
  | next {evs req : List Event} (h : Requests evs) (hr : IsRequest req) : Requests (evs ++ req)

/-- Whole requests, then possibly one that is cut short, and then possibly an
error. -/
def Grammatical (evs : List Event) : Prop :=
  ∃ whole cut failure, evs = whole ++ cut ++ failure ∧ Requests whole ∧ (cut = [] ∨ IsCut cut) ∧
    (failure = [] ∨ ∃ status response, failure = [.error status response])

/-- No request has started, or a reset follows the end of the last one. -/
def MayStart (log : List Entry) : Prop :=
  events log = [] ∨ ∃ l l', log = l ++ .reset :: l' ∧ events l' = [] ∧ events l ≠ [] ∧ Requests (events l)

/-! ## The monitor -/

/-- Where a sequence of requests is. -/
inductive Stage
  | idle
  | upgrading (proto : Bytes)
  | inBody
  | ended
  | gone
deriving DecidableEq

/-- What the monitor knows of the requests so far. -/
structure Monitor where
  stage : Stage
  starts : Nat
  keepAlive : Bool

namespace Monitor

def fresh : Monitor := ⟨.idle, 0, true⟩

def afterStart (v : Monitor) (start : RequestStart) : Option Monitor :=
  let stage? : Option Stage := match start.isWebsocket, start.hasBody with
    | true, true => none
    | true, false => some (.upgrading start.upgradeProto)
    | false, true => some .inBody
    | false, false => some .ended
  if v.stage = .idle ∧ v.keepAlive then stage?.map fun stage => ⟨stage, v.starts + 1, start.keepAlive⟩
  else none

/-- After an event, if it may occur. -/
def after (v : Monitor) : Event → Option Monitor
  | .requestStart start => v.afterStart start
  | .body _ moreBody =>
    if v.stage = .inBody then some { v with stage := if moreBody then .inBody else .ended } else none
  | .upgrade proto => if v.stage = .upgrading proto then some { v with stage := .ended } else none
  | .error _ _ => if v.stage = .idle ∨ v.stage = .inBody then some { v with stage := .gone } else none
  | .message _ _ _ => none

/-- A reset after the end of a request makes way for the next one. -/
def afterReset (v : Monitor) : Monitor := if v.stage = .ended then { v with stage := .idle } else v

def afterEntry (v : Monitor) : Entry → Option Monitor
  | .told event => v.after event
  | .reset => some v.afterReset

def accepts (v : Monitor) (log : List Entry) : Option Monitor := log.foldlM afterEntry v

variable {v v' : Monitor}

theorem accepts_append (l l' : List Entry) : v.accepts (l ++ l') = (v.accepts l).bind fun v' => v'.accepts l' :=
  List.foldlM_append

theorem accepts_told (evs : List Event) : v.accepts (evs.map .told) = evs.foldlM after v := List.foldlM_map

/-! ## What the monitor accepts -/

/-- What the log is like in each stage. -/
def Describes (v : Monitor) (log : List Entry) : Prop :=
  match v.stage with
  | .idle => Requests (events log) ∧ MayStart log
  | .upgrading proto => ∃ whole start, Requests whole ∧ start.hasBody = false ∧ start.isWebsocket = true ∧
      start.upgradeProto = proto ∧ events log = whole ++ [.requestStart start]
  | .inBody => ∃ whole cut, Requests whole ∧ IsCut cut ∧ events log = whole ++ cut
  | .ended => Requests (events log) ∧ events log ≠ []
  | .gone => Grammatical (events log)

variable {log : List Entry}

theorem Describes.start (h : v.Describes log) {start : RequestStart} (hv : v.afterStart start = some v') :
    v'.Describes (log ++ [.told (.requestStart start)]) := by
  have hev : events (log ++ [.told (.requestStart start)]) = events log ++ [.requestStart start] := events_append _ _
  unfold afterStart at hv
  dsimp only at hv
  split at hv
  · rename_i hidle
    unfold Describes at h ⊢
    rw [hidle.1] at h
    cases hws : start.isWebsocket <;> cases hbody : start.hasBody <;> rw [hws, hbody] at hv <;> cases hv
    · refine ⟨?_, ?_⟩
      · rw [hev]
        exact h.1.next (.bodiless hbody hws)
      · rw [hev]
        exact List.append_ne_nil_of_right_ne_nil _ (List.cons_ne_nil _ _)
    · exact ⟨events log, [.requestStart start], h.1, ⟨start, [], hbody, hws, rfl⟩, hev⟩
    · exact ⟨events log, start, h.1, hbody, hws, rfl, hev⟩
  · cases hv

theorem Describes.body (h : v.Describes log) {chunk : Bytes} {more : Bool}
    (hv : v.after (.body chunk more) = some v') : v'.Describes (log ++ [.told (.body chunk more)]) := by
  have hev : events (log ++ [.told (.body chunk more)]) = events log ++ [.body chunk more] := events_append _ _
  unfold after at hv
  dsimp only at hv
  split at hv
  · rename_i hin
    unfold Describes at h ⊢
    rw [hin] at h
    obtain ⟨whole, cut, hwhole, ⟨start, chunks, hbody, hws, rfl⟩, hlog⟩ := h
    rw [hlog, List.append_assoc] at hev
    cases more with
    | true =>
      cases hv
      refine ⟨whole, _, hwhole, ⟨start, chunks ++ [chunk], hbody, hws, ?_⟩, hev⟩
      rw [List.map_append]
      rfl
    | false =>
      cases hv
      refine ⟨?_, ?_⟩
      · rw [hev]
        exact hwhole.next (.body hbody hws chunks chunk)
      · rw [hev]
        exact List.append_ne_nil_of_right_ne_nil _ (List.cons_ne_nil _ _)
  · cases hv

theorem Describes.upgrade (h : v.Describes log) {proto : Bytes} (hv : v.after (.upgrade proto) = some v') :
    v'.Describes (log ++ [.told (.upgrade proto)]) := by
  have hev : events (log ++ [.told (.upgrade proto)]) = events log ++ [.upgrade proto] := events_append _ _
  unfold after at hv
  dsimp only at hv
  split at hv
  · rename_i hup
    unfold Describes at h ⊢
    rw [hup] at h
    cases hv
    obtain ⟨whole, start, hwhole, hbody, hws, rfl, hlog⟩ := h
    rw [hlog, List.append_assoc] at hev
    refine ⟨?_, ?_⟩
    · rw [hev]
      exact hwhole.next (.upgrade hbody hws)
    · rw [hev]
      exact List.append_ne_nil_of_right_ne_nil _ (List.cons_ne_nil _ _)
  · cases hv

theorem Describes.failed (h : v.Describes log) {status : Nat} {response : Bytes}
    (hv : v.after (.error status response) = some v') : v'.Describes (log ++ [.told (.error status response)]) := by
  have hev : events (log ++ [.told (.error status response)]) = events log ++ [.error status response] :=
    events_append _ _
  unfold after at hv
  dsimp only at hv
  split at hv
  · rename_i hstage
    cases hv
    unfold Describes at h ⊢
    show Grammatical (events _)
    rw [hev]
    rcases hstage with hstage | hstage <;> rw [hstage] at h
    · exact ⟨events log, [], _, by rw [List.append_nil], h.1, .inl rfl, .inr ⟨status, response, rfl⟩⟩
    · obtain ⟨whole, cut, hwhole, hcut, hlog⟩ := h
      exact ⟨whole, cut, _, by rw [hlog], hwhole, .inr hcut, .inr ⟨status, response, rfl⟩⟩
  · cases hv

theorem Describes.reset (h : v.Describes log) : v.afterReset.Describes (log ++ [.reset]) := by
  have hev : events (log ++ [.reset]) = events log := (events_append _ _).trans (List.append_nil _)
  unfold afterReset
  split
  · rename_i hended
    unfold Describes at h
    rw [hended] at h
    refine ⟨?_, .inr ⟨log, [], rfl, rfl, h.2, h.1⟩⟩
    rw [hev]
    exact h.1
  · rename_i hended
    unfold Describes at h ⊢
    cases hstage : v.stage with
    | ended => exact absurd hstage hended
    | idle =>
      rw [hstage] at h
      refine ⟨?_, ?_⟩
      · rw [hev]
        exact h.1
      · rcases h.2 with hnil | ⟨l, l', rfl, hl', hl, hreqs⟩
        · exact .inl (hev.trans hnil)
        · refine .inr ⟨l, l' ++ [.reset], by simp, ?_, hl, hreqs⟩
          rw [events_append, hl']
          rfl
    | upgrading proto =>
      rw [hstage] at h
      dsimp only at h ⊢
      rw [hev]
      exact h
    | inBody =>
      rw [hstage] at h
      dsimp only at h ⊢
      rw [hev]
      exact h
    | gone =>
      rw [hstage] at h
      dsimp only at h ⊢
      rw [hev]
      exact h

theorem Describes.entry (h : v.Describes log) {e : Entry} (hv : v.afterEntry e = some v') :
    v'.Describes (log ++ [e]) := by
  cases e with
  | reset =>
    cases hv
    exact h.reset
  | told event =>
    cases event with
    | requestStart start => exact h.start hv
    | body chunk moreBody => exact h.body hv
    | upgrade proto => exact h.upgrade hv
    | error status response => exact h.failed hv
    | message opcode fin payload => cases hv

theorem describes_fresh : fresh.Describes [] := ⟨.none, .inl rfl⟩

theorem describes_of_accepts (h : fresh.accepts log = some v) : v.Describes log := by
  induction log using List.reverseRecOn generalizing v with
  | nil =>
    cases h
    exact describes_fresh
  | append_singleton log e ih =>
    rw [accepts_append] at h
    obtain ⟨v₁, hlog, he⟩ := Option.bind_eq_some_iff.1 h
    apply (ih hlog).entry
    rw [accepts, List.foldlM_cons] at he
    obtain ⟨v₂, hv₂, hv⟩ := Option.bind_eq_some_iff.1 he
    cases hv
    exact hv₂

theorem Describes.grammatical (h : v.Describes log) (hup : ∀ proto, v.stage ≠ .upgrading proto) :
    Grammatical (events log) := by
  unfold Describes at h
  cases hstage : v.stage with
  | idle =>
    rw [hstage] at h
    exact ⟨events log, [], [], by simp, h.1, .inl rfl, .inl rfl⟩
  | upgrading proto => exact absurd hstage (hup proto)
  | inBody =>
    rw [hstage] at h
    obtain ⟨whole, cut, hwhole, hcut, hlog⟩ := h
    exact ⟨whole, cut, [], by rw [hlog, List.append_nil], hwhole, .inr hcut, .inl rfl⟩
  | ended =>
    rw [hstage] at h
    exact ⟨events log, [], [], by simp, h.1, .inl rfl, .inl rfl⟩
  | gone =>
    rw [hstage] at h
    exact h

/-- A start finds the stage idle and the last request kept alive. -/
theorem idle_of_afterStart {start : RequestStart} (h : v.afterStart start = some v') :
    v.stage = .idle ∧ v.keepAlive = true ∧ v'.starts = v.starts + 1 ∧ v'.keepAlive = start.keepAlive := by
  unfold afterStart at h
  dsimp only at h
  split at h
  · rename_i hidle
    obtain ⟨stage, -, hv⟩ := Option.map_eq_some_iff.1 h
    cases hv
    exact ⟨hidle.1, hidle.2, rfl, rfl⟩
  · cases h

/-- Only starts change what the monitor counts. -/
theorem afterEntry_other {e : Entry} (h : v.afterEntry e = some v') (he : ∀ start, e ≠ .told (.requestStart start)) :
    v'.starts = v.starts ∧ v'.keepAlive = v.keepAlive := by
  cases e with
  | reset =>
    cases h
    unfold afterReset
    split
    · exact ⟨rfl, rfl⟩
    · exact ⟨rfl, rfl⟩
  | told event =>
    have hafter : v.after event = some v' := h
    unfold after at hafter
    cases event with
    | requestStart start => exact absurd rfl (he start)
    | body chunk moreBody =>
      dsimp only at hafter
      split at hafter <;> cases hafter
      exact ⟨rfl, rfl⟩
    | upgrade proto =>
      dsimp only at hafter
      split at hafter <;> cases hafter
      exact ⟨rfl, rfl⟩
    | error status response =>
      dsimp only at hafter
      split at hafter <;> cases hafter
      exact ⟨rfl, rfl⟩
    | message opcode fin payload => cases hafter

theorem accepts_cons {e : Entry} {l : List Entry} :
    v.accepts (e :: l) = some v' ↔ ∃ v₁, v.afterEntry e = some v₁ ∧ v₁.accepts l = some v' := by
  unfold accepts
  rw [List.foldlM_cons]
  exact Option.bind_eq_some_iff

/-- The monitor counts the starts. -/
theorem starts_of_accepts (h : v.accepts log = some v') : v'.starts = v.starts + (events log).countP Event.isStart := by
  induction log generalizing v with
  | nil =>
    cases h
    rfl
  | cons e log ih =>
    obtain ⟨v₁, he, hlog⟩ := accepts_cons.1 h
    have hrest := ih hlog
    by_cases hstart : ∃ start, e = .told (.requestStart start)
    · obtain ⟨start, rfl⟩ := hstart
      obtain ⟨-, -, hcount, -⟩ := idle_of_afterStart he
      show v'.starts = v.starts + (Event.requestStart start :: events log).countP Event.isStart
      rw [List.countP_cons_of_pos rfl]
      omega
    · have hcount := (afterEntry_other he fun start heq => hstart ⟨start, heq⟩).1
      cases e with
      | reset =>
        show v'.starts = v.starts + (events log).countP Event.isStart
        omega
      | told event =>
        have hno : ¬ event.isStart = true := by
          cases event with
          | requestStart start => exact absurd ⟨start, rfl⟩ hstart
          | body chunk moreBody => exact Bool.false_ne_true
          | upgrade proto => exact Bool.false_ne_true
          | error status response => exact Bool.false_ne_true
          | message opcode fin payload => exact Bool.false_ne_true
        show v'.starts = v.starts + (event :: events log).countP Event.isStart
        rw [List.countP_cons_of_neg hno]
        omega

/-- No start follows one that is not kept alive. -/
theorem no_start_of_accepts (hv : v.keepAlive = false) (h : v.accepts log = some v') (start : RequestStart) :
    .told (.requestStart start) ∉ log := by
  induction log generalizing v with
  | nil => exact List.not_mem_nil
  | cons e log ih =>
    obtain ⟨v₁, he, hlog⟩ := accepts_cons.1 h
    have hno : ∀ start, e ≠ .told (.requestStart start) := by
      rintro start rfl
      have hkept : v.keepAlive = true := (idle_of_afterStart he).2.1
      rw [hv] at hkept
      cases hkept
    have hrest := ih ((afterEntry_other he hno).2.trans hv) hlog
    rw [List.mem_cons, not_or]
    exact ⟨fun heq => hno start heq.symm, hrest⟩

/-- What the monitor accepts of a log with a start in it. -/
theorem accepts_start {l l' : List Entry} {start : RequestStart}
    (h : fresh.accepts (l ++ .told (.requestStart start) :: l') = some v) :
    MayStart l ∧ (start.keepAlive = false → ∀ start', .told (.requestStart start') ∉ l') := by
  rw [accepts_append] at h
  obtain ⟨v₁, hl, h⟩ := Option.bind_eq_some_iff.1 h
  obtain ⟨v₂, hstart, hl'⟩ := accepts_cons.1 h
  obtain ⟨hidle, -, -, hkept⟩ := idle_of_afterStart hstart
  have hdesc := describes_of_accepts hl
  unfold Describes at hdesc
  rw [hidle] at hdesc
  exact ⟨hdesc.2, fun hclose start' => no_start_of_accepts (hkept.trans hclose) hl' start'⟩

end Monitor

/-! ## The decoder under the monitor -/

namespace Decoder

variable {lim : Limits} {parse : Httparse} {d : Decoder} {cap : Nat} {v : Monitor}

/-- The monitor knows the state of the decoder: at most `cap` requests start,
and before the last of them the decoder waits for a head only if it is kept
alive. -/
structure Known (cap : Nat) (d : Decoder) (v : Monitor) : Prop where
  starts : v.starts ≤ cap
  waiting : d.state = .waitingHeader ∨ d.state = .keepAliveWait →
    v.stage = .idle ∧ v.keepAlive = true ∧ v.starts = d.requestCount ∧ d.requestCount < cap
  inBody : d.state.inBody = true → v.stage = .inBody ∧ v.starts = d.requestCount ∧ v.keepAlive = d.keepAlive
  serving : d.state = .servingApp → v.stage = .ended ∧ v.starts = d.requestCount ∧ v.keepAlive = d.keepAlive
  settled : ∀ proto, v.stage ≠ .upgrading proto

/-- The monitor knows a decoder that reads a body, whatever it is to do next. -/
structure Inside (cap : Nat) (d : Decoder) (v : Monitor) : Prop where
  stage : v.stage = .inBody
  starts : v.starts = d.requestCount
  keepAlive : v.keepAlive = d.keepAlive
  capped : v.starts ≤ cap

/-- A step keeps what the monitor knows. -/
def Told (cap : Nat) (v : Monitor) (s : Step) : Prop :=
  ∃ v', s.2.1.foldlM Monitor.after v = some v' ∧ s.1.Known cap v'

theorem known_closed (hs : d.state = .closed) (hcap : v.starts ≤ cap) (hset : ∀ proto, v.stage ≠ .upgrading proto) :
    d.Known cap v where
  starts := hcap
  waiting hw := by
    rw [hs] at hw
    rcases hw with hw | hw <;> cases hw
  inBody hin := by
    rw [hs] at hin
    cases hin
  serving hsv := by
    rw [hs] at hsv
    cases hsv
  settled := hset

theorem Inside.known (h : d.Inside cap v) (hs : d.state.inBody = true) : d.Known cap v where
  starts := h.capped
  waiting hw := by
    rcases hw with hw | hw <;> rw [hw] at hs <;> cases hs
  inBody _ := ⟨h.stage, h.starts, h.keepAlive⟩
  serving hsv := by
    rw [hsv] at hs
    cases hs
  settled proto := by
    rw [h.stage]
    exact nofun

theorem known_serving (hs : d.state = .servingApp) (hstage : v.stage = .ended) (hcount : v.starts = d.requestCount)
    (hkeep : v.keepAlive = d.keepAlive) (hcap : v.starts ≤ cap) : d.Known cap v where
  starts := hcap
  waiting hw := by
    rw [hs] at hw
    rcases hw with hw | hw <;> cases hw
  inBody hin := by
    rw [hs] at hin
    cases hin
  serving _ := ⟨hstage, hcount, hkeep⟩
  settled proto := by
    rw [hstage]
    exact nofun

theorem told_stop (h : d.Known cap v) : Told cap v (d, [], .stop) := ⟨v, rfl, h⟩

theorem told_fail (hcap : v.starts ≤ cap) (hstage : v.stage = .idle ∨ v.stage = .inBody) (status : Nat) (msg : String) :
    Told cap v (d.fail status msg) := by
  refine ⟨{ v with stage := .gone }, ?_, known_closed rfl hcap nofun⟩
  show (v.after (.error _ _)).bind _ = _
  unfold Monitor.after
  dsimp only
  rw [if_pos hstage]
  rfl

/-- A chunk is told. -/
theorem after_body (hstage : v.stage = .inBody) (chunk : Bytes) (more : Bool) :
    [Event.body chunk more].foldlM Monitor.after v = some { v with stage := if more then .inBody else .ended } := by
  show (v.after (.body chunk more)).bind _ = _
  unfold Monitor.after
  dsimp only
  rw [if_pos hstage]
  rfl

theorem after_upgrade {proto : Bytes} (hstage : v.stage = .upgrading proto) :
    [Event.upgrade proto].foldlM Monitor.after v = some { v with stage := .ended } := by
  show (v.after (.upgrade proto)).bind _ = _
  unfold Monitor.after
  dsimp only
  rw [if_pos hstage]
  rfl

theorem told_takeBody (h : d.Inside cap v) (remaining : Nat) : Told cap v (d.takeBody remaining) := by
  unfold takeBody
  split
  · have hin : ({ d with state := .receivingContentLength (remaining - d.unread.length), unread := [] } : Decoder).Inside
        cap { v with stage := .inBody } := ⟨rfl, h.starts, h.keepAlive, h.capped⟩
    exact ⟨_, after_body h.stage _ _, hin.known rfl⟩
  · exact ⟨_, after_body h.stage _ _, known_serving rfl rfl h.starts h.keepAlive h.capped⟩

theorem told_finish (h : d.Inside cap v) (n : Nat) : Told cap v (d.finish n) :=
  ⟨_, after_body h.stage _ _, known_serving rfl rfl h.starts h.keepAlive h.capped⟩

/-- A request starts, in a decoder that waits for one. -/
theorem after_requestStart (hidle : v.stage = .idle) (hkeep : v.keepAlive = true) (start : RequestStart)
    (hbody : start.isWebsocket = true → start.hasBody = false) :
    v.after (.requestStart start) = some
      ⟨if start.isWebsocket then .upgrading start.upgradeProto else if start.hasBody then .inBody else .ended,
        v.starts + 1, start.keepAlive⟩ := by
  show v.afterStart start = _
  unfold Monitor.afterStart
  dsimp only
  rw [if_pos ⟨hidle, hkeep⟩]
  cases hws : start.isWebsocket with
  | false => cases start.hasBody <;> rfl
  | true =>
    rw [hbody hws]
    rfl

theorem isWebsocket_requestStart (req : Request) (hasBody : Bool) :
    (requestStart req (foldHeaders req) hasBody).isWebsocket =
      decide ((foldHeaders req).isUpgrade ∧ (foldHeaders req).upgradeProto = bytes "websocket") := rfl

theorem told_beginBody {start : RequestStart} (h : d.Inside cap ⟨.inBody, v.starts + 1, start.keepAlive⟩)
    (hstart : v.after (.requestStart start) = some ⟨.inBody, v.starts + 1, start.keepAlive⟩) (cl : Nat) :
    Told cap v (d.beginBody cl (.requestStart start)) := by
  have hin : ({ d with state := .receivingContentLength cl } : Decoder).Inside cap
      ⟨.inBody, v.starts + 1, start.keepAlive⟩ := ⟨rfl, h.starts, h.keepAlive, h.capped⟩
  unfold beginBody
  dsimp only
  split
  · refine ⟨_, ?_, hin.known rfl⟩
    show (v.after _).bind _ = _
    rw [hstart]
    rfl
  · obtain ⟨v', htold, hknown⟩ := told_takeBody hin cl
    refine ⟨v', ?_, hknown⟩
    show (v.after _).bind _ = _
    rw [hstart]
    exact htold

theorem told_acceptHead (hk : v.stage = .idle ∧ v.keepAlive = true ∧ v.starts = d.requestCount ∧ d.requestCount < cap)
    (offset : Nat) (req : Request) : Told cap v (d.acceptHead lim offset req) := by
  obtain ⟨hidle, hkeep, hcount, hcap⟩ := hk
  have hstarts : v.starts ≤ cap := by omega
  have hone : v.starts + 1 = d.requestCount + 1 := by omega
  have hless : v.starts + 1 ≤ cap := by omega
  unfold acceptHead
  dsimp only
  split
  · exact told_fail hstarts (.inl hidle) _ _
  split
  · rename_i hws
    have hstart := after_requestStart hidle hkeep (requestStart req (foldHeaders req) false) fun _ => rfl
    rw [isWebsocket_requestStart, if_pos (decide_eq_true hws)] at hstart
    refine ⟨⟨.ended, v.starts + 1, (foldHeaders req).keepAlive⟩, ?_, known_serving rfl rfl hone rfl hless⟩
    show (v.after _).bind _ = _
    rw [hstart]
    exact after_upgrade rfl
  rename_i hws
  have hstart : ∀ hasBody, v.after (.requestStart (requestStart req (foldHeaders req) hasBody)) = some
      ⟨if hasBody then .inBody else .ended, v.starts + 1, (foldHeaders req).keepAlive⟩ := by
    intro hasBody
    have hno : (requestStart req (foldHeaders req) hasBody).isWebsocket = false := by
      rw [isWebsocket_requestStart]
      exact decide_eq_false hws
    rw [after_requestStart hidle hkeep _ fun h => absurd h (by rw [hno]; decide), hno]
    rfl
  split
  · have hin : ({ d with
        unread := d.unread.drop offset
        requestCount := d.requestCount + 1
        keepAlive := (foldHeaders req).keepAlive
        state := .receivingChunked .readingSize } : Decoder).Inside cap
        ⟨.inBody, v.starts + 1, (foldHeaders req).keepAlive⟩ := ⟨rfl, hone, rfl, hless⟩
    refine ⟨_, ?_, hin.known rfl⟩
    show (v.after _).bind _ = _
    rw [hstart true]
    rfl
  split
  · split
    · exact told_fail hstarts (.inl hidle) _ _
    · exact told_beginBody ⟨rfl, hone, rfl, hless⟩ (hstart true) _
  · refine ⟨⟨.ended, v.starts + 1, (foldHeaders req).keepAlive⟩, ?_, known_serving rfl rfl hone rfl hless⟩
    show (v.after _).bind _ = _
    rw [hstart false]
    rfl

theorem told_header (h : d.Known cap v) (hs : d.state = .waitingHeader ∨ d.state = .keepAliveWait) :
    Told cap v (d.header lim parse) := by
  have hk := h.waiting hs
  unfold header
  split
  · exact told_stop h
  split
  · exact told_fail h.starts (.inl hk.1) _ _
  split
  · exact told_acceptHead hk _ _
  · exact told_stop h
  · exact told_fail h.starts (.inl hk.1) _ _

theorem Known.inside (h : d.Known cap v) (hs : d.state.inBody = true) : d.Inside cap v :=
  ⟨(h.inBody hs).1, (h.inBody hs).2.1, (h.inBody hs).2.2, h.starts⟩

/-- A decoder that neither is closed nor waits for its owner reads a head or a
body. -/
theorem Known.busy (h : d.Known cap v) (hbusy : ¬ (d.state = .closed ∨ d.state = .servingApp)) :
    v.stage = .idle ∨ v.stage = .inBody := by
  cases hs : d.state with
  | closed => exact absurd (.inl hs) hbusy
  | servingApp => exact absurd (.inr hs) hbusy
  | waitingHeader => exact .inl (h.waiting (.inl hs)).1
  | keepAliveWait => exact .inl (h.waiting (.inr hs)).1
  | receivingContentLength remaining => exact .inr (h.inBody (by rw [hs]; rfl)).1
  | receivingChunked stage => exact .inr (h.inBody (by rw [hs]; rfl)).1

theorem told_size (h : d.Known cap v) (hs : d.state.inBody = true) : Told cap v (d.size lim) := by
  have hin := h.inside hs
  unfold size
  split
  · exact told_stop h
  split
  · exact told_fail h.starts (.inr hin.stage) _ _
  split
  · exact told_fail h.starts (.inr hin.stage) _ _
  · unfold acceptSize
    dsimp only
    split
    · exact ⟨v, rfl, Inside.known ⟨hin.stage, hin.starts, hin.keepAlive, hin.capped⟩ rfl⟩
    split
    · exact told_fail h.starts (.inr hin.stage) _ _
    · exact ⟨v, rfl, Inside.known ⟨hin.stage, hin.starts, hin.keepAlive, hin.capped⟩ rfl⟩

theorem told_data (h : d.Known cap v) (hs : d.state.inBody = true) (chunkLen : Nat) : Told cap v (d.data chunkLen) := by
  have hin := h.inside hs
  unfold data
  split
  · exact told_stop h
  split
  · exact told_fail h.starts (.inr hin.stage) _ _
  · exact ⟨_, after_body hin.stage _ _, Inside.known ⟨rfl, hin.starts, hin.keepAlive, hin.capped⟩ rfl⟩

theorem told_trailers (h : d.Known cap v) (hs : d.state.inBody = true) : Told cap v d.trailers := by
  unfold trailers
  split
  · exact told_finish (h.inside hs) 2
  split
  · exact told_stop h
  · rename_i pos _
    exact told_finish (h.inside hs) (pos + 4)

theorem told_contentLength (h : d.Known cap v) (hs : d.state.inBody = true) (remaining : Nat) :
    Told cap v (d.contentLength remaining) := by
  unfold contentLength
  split
  · exact told_stop h
  · exact told_takeBody (h.inside hs) remaining

theorem told_step (lim : Limits) (parse : Httparse) (h : d.Known cap v) : Told cap v (d.step lim parse) := by
  unfold step
  cases hs : d.state with
  | closed => exact told_stop h
  | servingApp => exact told_stop h
  | waitingHeader => exact told_header h (.inl hs)
  | keepAliveWait => exact told_header h (.inr hs)
  | receivingContentLength remaining => exact told_contentLength h (by rw [hs]; rfl) remaining
  | receivingChunked stage =>
    have hin : d.state.inBody = true := by rw [hs]; rfl
    cases stage with
    | readingSize => exact told_size h hin
    | readingData chunkLen => exact told_data h hin chunkLen
    | readingTrailers => exact told_trailers h hin

end Decoder

/-! ## Every session -/

namespace Session

variable {parse : Httparse} {cap : Nat} {v : Monitor} {s : Session}

/-- The monitor knows the engine, or has seen no end of the request whose chunk
wraps around. -/
def Watched (cap : Nat) (c : FastHttpConnection) (v : Monitor) : Prop :=
  max 1 c.maxKeepaliveRequests = cap ∧
    (c.view.Known cap v ∨ c.state.Wraps ∧ v.starts ≤ cap ∧ (v.stage = .idle ∨ v.stage = .inBody))

theorem kept_watched (hparse : InRange parse) : FastHttpConnection.Kept Monitor.after (Watched cap) parse := by
  apply FastHttpConnection.kept_of_step hparse
  · rintro c v hw ⟨hcap, hwatch⟩
    have hopen : v.starts ≤ cap ∧ (v.stage = .idle ∨ v.stage = .inBody) := by
      rcases hwatch with hknown | ⟨-, hopen⟩
      · obtain ⟨n, hn, -⟩ := hw
        have hin : c.view.state.inBody = true := by
          show c.state.inBody = true
          rw [hn]
          rfl
        exact ⟨hknown.starts, .inr (hknown.inBody hin).1⟩
      · exact hopen
    refine ⟨{ v with stage := .gone }, ?_, hcap, .inl (Decoder.known_closed rfl hopen.1 nofun)⟩
    unfold Monitor.after
    dsimp only
    rw [if_pos hopen.2]
  · rintro c v - hw ⟨hcap, hwatch⟩
    have hknown := hwatch.resolve_right fun h => hw h.1
    obtain ⟨v', htold, hv⟩ := Decoder.told_step c.limits parse hknown
    exact ⟨v', htold, hcap, .inl ⟨hv.starts, hv.waiting, hv.inBody, hv.serving, hv.settled⟩⟩

/-- What holds in every session. -/
structure Sound (cap : Nat) (s : Session) : Prop where
  bounded : s.conn.Bounded
  mode : s.conn.mode = .http11
  watched : ∃ v, Monitor.fresh.accepts s.log = some v ∧ Watched cap s.conn v

theorem Watched.compact {c : FastHttpConnection} (h : Watched cap c v) : Watched cap c.compactBuffer v := by
  obtain ⟨hv, -⟩ := FastHttpConnection.view_compact (c := c)
  obtain ⟨hcap, hwatch⟩ := h
  refine ⟨?_, ?_⟩
  · rw [← hcap]
    unfold FastHttpConnection.compactBuffer
    split
    · rfl
    split
    · rfl
    · rfl
  · rw [hv, show c.compactBuffer.state = c.state from congrArg Decoder.state hv]
    exact hwatch

theorem Watched.append {c : FastHttpConnection} (h : Watched cap c v) (data : Bytes) :
    Watched cap { c with buffer := c.buffer ++ data } v := by
  refine ⟨h.1, ?_⟩
  rcases h.2 with hk | hwrap
  · exact .inl ⟨hk.starts, hk.waiting, hk.inBody, hk.serving, hk.settled⟩
  · exact .inr hwrap

theorem Watched.reset {c : FastHttpConnection} (h : Watched cap c v) : Watched cap c.resetForNextRequest v.afterReset := by
  obtain ⟨hcap, hwatch⟩ := h
  have hstarts : v.afterReset.starts = v.starts := by
    unfold Monitor.afterReset
    split
    · rfl
    · rfl
  have hkept : v.stage ≠ .ended → v.afterReset = v := fun hne => if_neg hne
  unfold FastHttpConnection.resetForNextRequest
  split
  · rename_i hserving
    have hknown : c.view.Known cap v := by
      rcases hwatch with hknown | ⟨⟨n, hn, -⟩, -⟩
      · exact hknown
      · rw [hserving] at hn
        cases hn
    obtain ⟨hended, hcount, hkeep⟩ := hknown.serving hserving
    have hidle : v.afterReset = { v with stage := .idle } := if_pos hended
    rw [hidle]
    split
    · exact ⟨hcap, .inl (Decoder.known_closed rfl hknown.starts nofun)⟩
    · rename_i hopen
      obtain ⟨halive, hless⟩ := not_or.1 hopen
      have hless : c.requestCount < cap := by omega
      refine ⟨hcap, .inl ⟨hknown.starts, fun _ => ⟨rfl, ?_, hcount, hless⟩, nofun, nofun, nofun⟩⟩
      exact hkeep.trans (Decidable.not_not.1 halive)
  · rename_i hserving
    refine ⟨hcap, ?_⟩
    rcases hwatch with hknown | ⟨hw, hle, hstage⟩
    · by_cases hended : v.stage = .ended
      · have hclosed : c.state = .closed := by
          by_contra hbusy
          rcases hknown.busy (not_or.2 ⟨hbusy, hserving⟩) with h | h
          · rw [hended] at h
            cases h
          · rw [hended] at h
            cases h
        have hidle : v.afterReset = { v with stage := .idle } := if_pos hended
        rw [hidle]
        exact .inl (Decoder.known_closed hclosed hknown.starts nofun)
      · rw [hkept hended]
        exact .inl hknown
    · rw [hkept (by rcases hstage with h | h <;> rw [h] <;> exact nofun)]
      exact .inr ⟨hw, hle, hstage⟩

/-- What a call that panics leaves, the owner being told nothing. -/
theorem Watched.panicked (hparse : InRange parse) {c : FastHttpConnection} (hb : c.Bounded) (hm : c.mode = .http11)
    (h : Watched cap c v) {o : Outcome} (ho : c.processEvents .release parse = o)
    (hobs : FastHttpConnection.Observed Monitor.after (Watched cap) parse o v) (hfault : o.fault ≠ none) :
    Watched cap o.conn v := by
  obtain ⟨hw, v', hcap, -⟩ := hobs.panicked hfault
  have hbusy : ¬ (c.state = .closed ∨ c.state = .servingApp) := by
    intro hidle
    rcases FastHttpConnection.processEvents_rests hparse hb hm (FastHttpConnection.rests_of_idle hidle) with hcall | hcall
    · rw [← ho, hcall] at hfault
      exact hfault rfl
    · obtain ⟨n, hn, -⟩ := hcall.1
      rcases hidle with hs | hs <;> rw [hs] at hn <;> cases hn
  refine ⟨hcap, .inr ⟨hw, ?_⟩⟩
  rcases h.2 with hknown | ⟨-, hopen⟩
  · exact ⟨hknown.starts, hknown.busy hbusy⟩
  · exact hopen

theorem Sound.call (hparse : InRange parse) {c : FastHttpConnection} (hb : c.Bounded) (hm : c.mode = .http11)
    (hacc : Monitor.fresh.accepts s.log = some v) (hw : Watched cap c v) :
    Sound cap (s.call (c.processEvents .release parse)) := by
  have hobs := FastHttpConnection.observed_processEvents hparse (kept_watched hparse) hb hm hw.compact
  refine ⟨hobs.bounded, hobs.mode, ?_⟩
  unfold Session.call
  dsimp only
  split
  · rename_i hnone
    obtain ⟨-, v', htold, hw'⟩ := hobs.told hnone
    refine ⟨v', ?_, hw'⟩
    rw [Monitor.accepts_append, hacc]
    show v.accepts _ = some v'
    rw [Monitor.accepts_told]
    exact htold
  · rename_i hfault
    exact ⟨v, hacc, hw.panicked hparse hb hm rfl hobs hfault⟩

theorem Sound.step (hparse : InRange parse) (h : Sound cap s) {a : Action} {s' : Session}
    (hst : s.step parse a = some s') : Sound cap s' := by
  obtain ⟨hb, hm, v, hacc, hw⟩ := h
  cases a with
  | feedData data =>
    dsimp only [Session.step] at hst
    split at hst
    · rename_i hroom
      cases hst
      exact Sound.call (c := { s.conn with buffer := s.conn.buffer ++ data }) hparse (hb.append hroom) hm hacc
        (hw.append data)
    · cases hst
  | pumpEvents =>
    cases hst
    exact Sound.call hparse hb hm hacc hw
  | resetForNextRequest =>
    cases hst
    have hmode : s.conn.resetForNextRequest.mode = s.conn.mode := by
      unfold FastHttpConnection.resetForNextRequest
      split
      · split
        · rfl
        · rfl
      · rfl
    refine ⟨hb.reset, hmode.trans hm, v.afterReset, ?_, hw.reset⟩
    rw [Monitor.accepts_append, hacc]
    rfl

theorem sound_of_reachable (hparse : InRange parse) {maxBodySize maxHeaderSize maxKeepaliveRequests : Nat}
    (hk : maxKeepaliveRequests < usizeEnd)
    (h : (session parse maxBodySize maxHeaderSize maxKeepaliveRequests).Reachable s) :
    Sound (max 1 maxKeepaliveRequests) s := by
  refine h.inv ?_ fun s a s' hs hst => hs.step hparse hst
  rintro s rfl
  refine ⟨FastHttpConnection.bounded_new _ _ _ hk, rfl, .fresh, rfl, rfl, .inl ?_⟩
  refine ⟨Nat.zero_le _, fun _ => ⟨rfl, rfl, rfl, ?_⟩, nofun, nofun, nofun⟩
  show 0 < max 1 maxKeepaliveRequests
  omega

end Session

/-- In every session of an engine in HTTP mode, whatever the bytes, the calls
and the resets: the events are those of whole requests, then possibly of one
that is cut short, and then possibly an error. A request starts first of all
or after a reset that follows the end of the request before it, none starts
after one that is not kept alive. No more start than the limit says, or one. -/
theorem event_grammar {parse : Httparse} (hparse : InRange parse)
    {maxBodySize maxHeaderSize maxKeepaliveRequests : Nat} (hk : maxKeepaliveRequests < usizeEnd) {s : Session}
    (h : (session parse maxBodySize maxHeaderSize maxKeepaliveRequests).Reachable s) :
    Grammatical (events s.log) ∧
      (events s.log).countP Event.isStart ≤ max 1 maxKeepaliveRequests ∧
      ∀ l start l', s.log = l ++ .told (.requestStart start) :: l' →
        MayStart l ∧ (start.keepAlive = false → ∀ start', .told (.requestStart start') ∉ l') := by
  obtain ⟨-, -, v, hacc, hcap, hwatch⟩ := Session.sound_of_reachable hparse hk h
  have hsettled : v.starts ≤ max 1 maxKeepaliveRequests ∧ ∀ proto, v.stage ≠ .upgrading proto := by
    rcases hwatch with hknown | ⟨-, hle, hstage⟩
    · exact ⟨hknown.starts, hknown.settled⟩
    · refine ⟨hle, fun proto hup => ?_⟩
      rcases hstage with hidle | hin
      · rw [hidle] at hup
        cases hup
      · rw [hin] at hup
        cases hup
  refine ⟨(Monitor.describes_of_accepts hacc).grammatical hsettled.2, ?_, ?_⟩
  · have hcount : v.starts = 0 + (events s.log).countP Event.isStart := Monitor.starts_of_accepts hacc
    omega
  · intro l start l' hlog
    rw [hlog] at hacc
    exact Monitor.accepts_start hacc

/-- Two chunked requests, the second one cut short. -/
theorem event_grammar_two : ∃ s : Session, (events s.log).countP Event.isStart = 2 ∧ Grammatical (events s.log) ∧
    (events s.log).countP Event.isStart ≤ max 1 2 ∧
    ∀ l start l', s.log = l ++ .told (.requestStart start) :: l' →
      MayStart l ∧ (start.keepAlive = false → ∀ start', .told (.requestStart start') ∉ l') := by
  obtain ⟨s, hs, hcount⟩ : ∃ s, (session parseChunkedHead 1000 1000 2).Reachable s ∧
      (events s.log).countP Event.isStart = 2 :=
    System.exists_reachable_of_run
      [.feedData (chunkedHead ++ bytes "2\r\nab\r\n0\r\n\r\n"), .resetForNextRequest,
        .feedData (chunkedHead ++ bytes "3\r\na"), .pumpEvents]
      (s := Session.mk (.new 1000 1000 2) []) rfl (by decide +kernel)
  exact ⟨s, hcount, event_grammar parseChunkedHead_inRange (by decide) hs⟩

end Multiloop.Http
