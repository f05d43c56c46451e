import Multiloop.Http.Frames
import Multiloop.Http.Phases

/-!
# A closed connection

Once a connection is closed, in HTTP mode every call leaves it so and returns
no events: the phases that its events tell end with an error. In websocket mode
nothing is asked about the state: bytes that begin with a whole frame, or with
one that is not masked, are answered again. As long as none arrive, at most one
error is ever told.
-/

namespace Multiloop.Http

def Event.isError : Event → Bool
  | .error _ _ => true
  | _ => false

/-- The errors among some events. -/
def errors (evs : List Event) : Nat := evs.countP Event.isError

/-- A connection, and the events that its calls have returned. -/
structure Life where
  conn : FastHttpConnection
  told : List Event
deriving DecidableEq

namespace Life

inductive Action
  | feedData (data : Bytes)
  | pumpEvents
  | resetForNextRequest
  | switchToWebsocket
  | close

/-- A call that panics returns no events. -/
def call (l : Life) (o : Outcome) : Life where
  conn := o.conn
  told := if o.fault = none then l.told ++ o.events else l.told

def step (parse : Httparse) (l : Life) : Action → Option Life
  | .feedData data =>
    -- A `Vec` has at most `isize::MAX` bytes.
    if (l.conn.buffer ++ data).length < 2 ^ 63 then some (l.call (l.conn.feedData .release parse data)) else none
  | .pumpEvents => some (l.call (l.conn.pumpEvents .release parse))
  | .resetForNextRequest => some { l with conn := l.conn.resetForNextRequest }
  | .switchToWebsocket => some { l with conn := l.conn.switchToWebsocket }
  | .close => some { l with conn := l.conn.close }

end Life

/-- The runs of a connection with any limits. -/
def life (parse : Httparse) : System Life Life.Action where
  init l := ∃ maxBodySize maxHeaderSize maxKeepaliveRequests, maxKeepaliveRequests < usizeEnd ∧
    l = ⟨.new maxBodySize maxHeaderSize maxKeepaliveRequests, []⟩
  step := Life.step parse

/-! ## Errors -/

theorem errors_append (evs evs' : List Event) : errors (evs ++ evs') = errors evs + errors evs' := List.countP_append

/-- An error leads to the last phase, from which no event leads on. -/
theorem Phase.errors_le {ph ph' : Phase} {evs : List Event} (h : ph.afterAll evs = some ph') :
    errors evs ≤ 1 ∧ (0 < errors evs → ph' = .gone) := by
  induction evs generalizing ph with
  | nil => exact ⟨Nat.zero_le 1, fun hpos => absurd hpos (Nat.lt_irrefl 0)⟩
  | cons e evs ih =>
    obtain ⟨ph₁, he, hrest⟩ := Option.bind_eq_some_iff.1 h
    have hcons : errors (e :: evs) = errors evs + if e.isError = true then 1 else 0 := List.countP_cons
    rw [hcons]
    obtain ⟨hle, hgone⟩ := ih hrest
    cases herr : e.isError with
    | false => exact ⟨hle, hgone⟩
    | true =>
      have hlast : ph₁ = .gone := by
        cases e with
        | error status response => cases ph <;> cases he <;> rfl
        | requestStart start => cases herr
        | body chunk moreBody => cases herr
        | upgrade proto => cases herr
        | message opcode fin payload => cases herr
      have hnil : evs = [] := by
        cases evs with
        | nil => rfl
        | cons e' evs =>
          obtain ⟨ph₂, he', -⟩ := Option.bind_eq_some_iff.1 hrest
          rw [hlast] at he'
          cases e' <;> cases he'
      rw [hnil] at hrest ⊢
      cases hrest
      exact ⟨Nat.le_refl 1, fun _ => hlast⟩

namespace FastHttpConnection

variable {parse : Httparse} {c c' : FastHttpConnection}

/-- A call that returns tells at most one error, and closes the connection if it
tells one. -/
def Reports (o : Outcome) : Prop := o.fault = none → errors o.events ≤ 1 ∧ (0 < errors o.events → o.conn.state = .closed)

/-- A call in HTTP mode. -/
theorem reports_http (hparse : InRange parse) (hb : c.Bounded) (hm : c.mode = .http11) :
    (c.processEvents .release parse).conn.Bounded ∧ (c.processEvents .release parse).conn.mode = .http11 ∧
      Reports (c.processEvents .release parse) := by
  have hready : c.Ready c.state.phase := ⟨hb, hm, .inl rfl⟩
  have hends := ends_processEvents hparse hready
  refine ⟨hends.bounded, hends.mode, fun hfault => ?_⟩
  obtain ⟨ph', htold, htracks⟩ := hends.told hfault
  obtain ⟨hle, hgone⟩ := Phase.errors_le htold
  refine ⟨hle, fun hpos => HttpParserState.closed_of_tracks ?_⟩
  rw [← hgone hpos]
  exact htracks

/-- What is done with a frame closes the connection with an error, or goes on
without one. -/
theorem acceptFrame_flow (c : FastHttpConnection) (opcode : UInt8) (fin : Bool) (payload : Bytes) :
    (∃ c' code, c.acceptFrame opcode fin payload = closeFrame c' code ∧ c'.mode = c.mode) ∨
      (∃ c' evs, c.acceptFrame opcode fin payload = (c', evs, .again) ∧ errors evs = 0 ∧ c'.state = c.state ∧
        c'.mode = c.mode) := by
  unfold acceptFrame
  dsimp only
  split
  · split
    · exact .inl ⟨_, _, rfl, rfl⟩
    · exact .inr ⟨_, _, rfl, rfl, rfl, rfl⟩
  split
  · split
    · exact .inl ⟨_, _, rfl, rfl⟩
    split
    · split
      · exact .inl ⟨_, _, rfl, rfl⟩
      · exact .inr ⟨_, _, rfl, rfl, rfl, rfl⟩
    · exact .inr ⟨_, _, rfl, rfl, rfl, rfl⟩
  split
  · split
    · exact .inl ⟨_, _, rfl, rfl⟩
    split
    · split
      · exact .inl ⟨_, _, rfl, rfl⟩
      · exact .inr ⟨_, _, rfl, rfl, rfl, rfl⟩
    · exact .inr ⟨_, _, rfl, rfl, rfl, rfl⟩
  · exact .inr ⟨_, _, rfl, rfl, rfl, rfl⟩

theorem reports_rounds (hparse : InRange parse) {fuel : Nat} (hb : c.Bounded) (hm : c.mode = .webSocket) :
    (rounds .release parse fuel c).conn.Bounded ∧ (rounds .release parse fuel c).conn.mode = .webSocket ∧
      Reports (rounds .release parse fuel c) := by
  induction fuel generalizing c with
  | zero => exact ⟨hb, hm, fun hfault => absurd hfault (Option.some_ne_none _)⟩
  | succ fuel ih =>
    have hround : c.round .release parse = c.webSocketRound .release := by
      unfold round
      rw [hm]
    have hcases := webSocketRound_cases hb.fits
    have hbounded : ∀ r, c.webSocketRound .release = .ok r → r.1.Bounded :=
      fun r hr => hb.round hparse (hround.trans hr)
    have hclose : ∀ (c' : FastHttpConnection) (code : Nat), Reports ⟨(closeFrame c' code).1, (closeFrame c' code).2.1, none⟩ :=
      fun c' code _ => ⟨Nat.le_refl 1, fun _ => rfl⟩
    unfold rounds
    rw [hround]
    generalize hr : c.webSocketRound .release = r at hcases
    cases hcases with
    | short hfirst => exact ⟨hb, hm, fun _ => ⟨Nat.zero_le 1, fun hpos => absurd hpos (Nat.lt_irrefl 0)⟩⟩
    | wraps hfirst hsize hwraps e => exact ⟨hb, hm, fun hfault => absurd hfault (Option.some_ne_none e)⟩
    | unmasked hfirst => exact ⟨hbounded _ hr, hm, hclose _ _⟩
    | @frame opcode fin payload size hfirst =>
      rcases acceptFrame_flow { c with cursor := c.cursor + size } opcode fin payload with
        ⟨c', code, hflow, hmode⟩ | ⟨c', evs, hflow, hnone, -, hmode⟩
      · rw [hflow] at hr ⊢
        exact ⟨hbounded _ hr, hmode.trans hm, hclose _ _⟩
      · rw [hflow] at hr ⊢
        obtain ⟨hbounded', hmode', hreports⟩ := ih (hbounded _ hr) (hmode.trans hm)
        refine ⟨hbounded', hmode', fun hfault => ?_⟩
        show errors (evs ++ _) ≤ 1 ∧ (0 < errors (evs ++ _) → _)
        rw [errors_append, hnone, Nat.zero_add]
        exact hreports hfault

theorem reports_processEvents (hparse : InRange parse) (hb : c.Bounded) :
    (c.processEvents .release parse).conn.Bounded ∧ (c.processEvents .release parse).conn.mode = c.mode ∧
      Reports (c.processEvents .release parse) := by
  cases hm : c.mode with
  | http11 => exact reports_http hparse hb hm
  | webSocket =>
    obtain ⟨-, hmode, -⟩ := view_compact (c := c)
    exact reports_rounds hparse hb.compact (hmode.trans hm)

/-- A call of a closed connection, in websocket mode one that has no frame. -/
theorem silent_processEvents (hparse : InRange parse) (hb : c.Bounded) (hclosed : c.state = .closed)
    (hmute : c.mode = .webSocket → firstFrame c.unread = .short) :
    (c.processEvents .release parse).conn.state = .closed ∧
      ((c.processEvents .release parse).fault = none → (c.processEvents .release parse).events = []) := by
  obtain ⟨hv, hmode, -⟩ := view_compact (c := c)
  have hstate : c.compactBuffer.state = .closed := (congrArg Decoder.state hv).trans hclosed
  cases hm : c.mode with
  | http11 =>
    have hnotwraps : ¬ c.state.Wraps := by
      rintro ⟨n, hn, -⟩
      rw [hclosed] at hn
      cases hn
    have hcall := (processEvents_rests hparse hb hm (rests_of_idle (.inl hclosed))).resolve_right fun h => hnotwraps h.1
    rw [hcall]
    exact ⟨hstate, fun _ => rfl⟩
  | webSocket =>
    have hunread : c.compactBuffer.unread = c.unread := congrArg Decoder.unread hv
    have hfirst : firstFrame c.compactBuffer.unread = .short := by
      rw [hunread]
      exact hmute hm
    have hround : c.compactBuffer.round .release parse = c.compactBuffer.webSocketRound .release := by
      unfold round
      rw [hmode, hm]
    have hcases := webSocketRound_cases hb.compact.fits
    unfold processEvents
    rw [show c.enough = c.buffer.length + 2 + 1 from rfl]
    unfold rounds
    rw [hround]
    generalize c.compactBuffer.webSocketRound .release = r at hcases
    cases hcases with
    | short _ => exact ⟨hstate, fun _ => rfl⟩
    | wraps _ _ _ e => exact ⟨hstate, fun hfault => absurd hfault (Option.some_ne_none e)⟩
    | unmasked hunmasked =>
      rw [hfirst] at hunmasked
      cases hunmasked
    | frame hframe =>
      rw [hfirst] at hframe
      cases hframe

end FastHttpConnection

/-! ## Every run -/

namespace Life

variable {parse : Httparse} {l l' : Life}

/-- No frame, and no bytes that are no masked frame, reach a closed connection in
websocket mode. -/
def Mute (l : Life) : Action → Prop
  | .feedData data => l.conn.state = .closed → l.conn.mode = .webSocket → firstFrame (l.conn.unread ++ data) = .short
  | .pumpEvents => l.conn.state = .closed → l.conn.mode = .webSocket → firstFrame l.conn.unread = .short
  | _ => True

/-- What holds in every run without such frames. -/
structure Sound (l : Life) : Prop where
  bounded : l.conn.Bounded
  once : errors l.told ≤ 1
  last : 0 < errors l.told → l.conn.state = .closed

/-- What a step does to a closed connection. -/
def Stays (l l' : Life) : Prop := l.conn.state = .closed → l'.conn.state = .closed ∧ l'.told = l.told

theorem Sound.call (hparse : InRange parse) (h : l.Sound) {c : FastHttpConnection} (hb : c.Bounded)
    (hstate : c.state = l.conn.state)
    (hmute : l.conn.state = .closed → c.mode = .webSocket → firstFrame c.unread = .short) :
    (l.call (c.processEvents .release parse)).Sound ∧ l.Stays (l.call (c.processEvents .release parse)) := by
  obtain ⟨hbounded, -, hreports⟩ := FastHttpConnection.reports_processEvents hparse hb
  by_cases hclosed : l.conn.state = .closed
  · obtain ⟨hstill, hsilent⟩ :=
      FastHttpConnection.silent_processEvents hparse hb (hstate.trans hclosed) (hmute hclosed)
    have hsame : (l.call (c.processEvents .release parse)).told = l.told := by
      show (if _ then _ else _) = l.told
      split
      · rename_i hfault
        rw [hsilent hfault, List.append_nil]
      · rfl
    exact ⟨⟨hbounded, hsame ▸ h.once, fun _ => hstill⟩, fun _ => ⟨hstill, hsame⟩⟩
  · have hzero : errors l.told = 0 := by
      by_contra hne
      exact hclosed (h.last (Nat.pos_of_ne_zero hne))
    refine ⟨?_, fun hc => absurd hc hclosed⟩
    by_cases hfault : (c.processEvents .release parse).fault = none
    · obtain ⟨hle, hlast⟩ := hreports hfault
      have htold : (l.call (c.processEvents .release parse)).told = l.told ++ (c.processEvents .release parse).events :=
        if_pos hfault
      refine ⟨hbounded, ?_, ?_⟩
      · rw [htold, errors_append, hzero, Nat.zero_add]
        exact hle
      · rw [htold, errors_append, hzero, Nat.zero_add]
        exact hlast
    · have htold : (l.call (c.processEvents .release parse)).told = l.told := if_neg hfault
      refine ⟨hbounded, htold ▸ h.once, fun hpos => ?_⟩
      rw [htold, hzero] at hpos
      exact absurd hpos (Nat.lt_irrefl 0)

theorem closed_reset {c : FastHttpConnection} (h : c.state = .closed) : c.resetForNextRequest = c :=
  if_neg (by rw [h]; exact nofun)

theorem Sound.step (hparse : InRange parse) (h : l.Sound) {a : Action} (hok : l.Mute a)
    (hst : (life parse).step l a = some l') : l'.Sound ∧ l.Stays l' := by
  cases a with
  | feedData data =>
    change (if _ then _ else _) = some l' at hst
    split at hst
    · rename_i hroom
      cases hst
      have hunread : ({ l.conn with buffer := l.conn.buffer ++ data } : FastHttpConnection).unread = l.conn.unread ++ data :=
        List.drop_append_of_le_length h.bounded.fits.cursor
      refine h.call hparse (h.bounded.append hroom) rfl fun hclosed hm => ?_
      rw [hunread]
      exact hok hclosed hm
    · cases hst
  | pumpEvents =>
    cases hst
    exact h.call hparse h.bounded rfl hok
  | resetForNextRequest =>
    cases hst
    refine ⟨⟨h.bounded.reset, h.once, fun hpos => ?_⟩, fun hclosed => ?_⟩
    · have hclosed := h.last hpos
      show l.conn.resetForNextRequest.state = .closed
      rw [closed_reset hclosed]
      exact hclosed
    · rw [closed_reset hclosed]
      exact ⟨hclosed, rfl⟩
  | switchToWebsocket =>
    cases hst
    exact ⟨⟨⟨⟨h.bounded.fits.cursor, h.bounded.fits.length⟩, h.bounded.count, h.bounded.keepalive, h.bounded.data⟩,
      h.once, h.last⟩, fun hclosed => ⟨hclosed, rfl⟩⟩
  | close =>
    cases hst
    exact ⟨⟨h.bounded.closed, h.once, fun _ => rfl⟩, fun _ => ⟨rfl, rfl⟩⟩

theorem sound_of_reachable (hparse : InRange parse) (h : (life parse).ReachableWhen Mute l) : l.Sound := by
  apply h.inv
  · rintro l ⟨maxBodySize, maxHeaderSize, maxKeepaliveRequests, hk, rfl⟩
    exact ⟨FastHttpConnection.bounded_new _ _ _ hk, Nat.zero_le 1, fun hpos => absurd hpos (Nat.lt_irrefl 0)⟩
  · intro l a l' hl hok hst
    exact (hl.step hparse hok hst).1

/-- In every run in which no frame reaches a closed connection in websocket
mode, at most one error is told, and once the connection is closed no call tells
anything, and it stays closed. -/
theorem closed_absorbs (hparse : InRange parse) (h : (life parse).ReachableWhen Mute l) :
    errors l.told ≤ 1 ∧ (l.conn.state = .closed →
      ∀ l', ((life parse).starting l).ReachableWhen Mute l' → l'.conn.state = .closed ∧ l'.told = l.told) := by
  have hl := sound_of_reachable hparse h
  refine ⟨hl.once, fun hclosed l' h' => ?_⟩
  suffices hinv : l'.Sound ∧ l'.conn.state = .closed ∧ l'.told = l.told from hinv.2
  refine h'.inv (I := fun l' => l'.Sound ∧ l'.conn.state = .closed ∧ l'.told = l.told) ?_ ?_
  · rintro l' rfl
    exact ⟨hl, hclosed, rfl⟩
  · rintro l₁ a l₂ ⟨hsound, hc, htold⟩ hok hst
    obtain ⟨hsound', hstays⟩ := hsound.step hparse hok hst
    obtain ⟨hc', htold'⟩ := hstays hc
    exact ⟨hsound', hc', htold'.trans htold⟩

/-- A connection that an error has closed is fed again. -/
theorem closed_absorbs_malformed : ∃ l l' : Life, errors l.told = 1 ∧ l.conn.state = .closed ∧
    l'.conn.unread.length = 4 ∧ l'.conn.state = .closed ∧ l'.told = l.told := by
  have h : (life parseChunkedHead).ReachableWhen Mute ⟨.new 1000 1000 1000, []⟩ :=
    .init ⟨_, _, _, by decide, rfl⟩
  have h := h.next (.feedData (bytes "??")) (fun _ hm => nomatch hm) rfl
  have hquiet := (closed_absorbs parseChunkedHead_inRange h).2 rfl _
    (.step (a := .feedData (bytes "??")) (.init rfl) (fun _ hm => nomatch hm) rfl)
  exact ⟨_, _, rfl, rfl, rfl, hquiet⟩

/-- A frame that is not masked is refused by every call. -/
theorem second_error : ∃ l, (life parseChunkedHead).Reachable l ∧ errors l.told = 2 :=
  System.exists_reachable_of_run [.switchToWebsocket, .feedData [0x81, 0x00], .pumpEvents]
    ⟨1000, 1000, 1000, by decide, rfl⟩ (by decide +kernel)

end Life

end Multiloop.Http
