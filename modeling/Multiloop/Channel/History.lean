import Multiloop.Channel.Consistent

/-!
# Histories of a `RawAsyncChannel`

A finite sequence of the ten operations on a fresh channel, in any order and
with any arguments (a future may be registered twice, or unregistered without
having been registered). `History` keeps what the calls did: the items
accepted, the items handed out (returned, or attached to a receiver's wake),
and the waiters registered, woken and unregistered, each in order.

One call is `exec_spec`; the whole sequence is `execAll_spec`, by induction.
-/

namespace Multiloop.Channel

variable {Loop Fut Tok Item : Type}

/-- A call of one of the methods that change the state. -/
inductive Op (Loop Fut Tok Item : Type)
  | trySend (item : Item)
  | tryRecv
  | registerGetter (loopObj : Loop) (fut : Fut)
  | unregisterGetter (fut : Fut)
  | registerPutter (loopObj : Loop) (fut : Fut)
  | unregisterPutter (fut : Fut)
  | registerSelectWatcher (loopObj : Loop) (arbiterFut : Fut) (channelToken : Tok)
  | unregisterSelectWatcher (fut : Fut)
  | forwardSelectWakeup
  | close

/-- What calls did, each list in the order of the calls. -/
structure History (Loop Fut Tok Item : Type) where
  sent : List Item := []
  handedOut : List Item := []
  registered : List (ChannelWaiter Loop Fut Tok) := []
  woken : List (ChannelWaiter Loop Fut Tok) := []
  unregistered : List (ChannelWaiter Loop Fut Tok) := []

def History.append (h h' : History Loop Fut Tok Item) : History Loop Fut Tok Item where
  sent := h.sent ++ h'.sent
  handedOut := h.handedOut ++ h'.handedOut
  registered := h.registered ++ h'.registered
  woken := h.woken ++ h'.woken
  unregistered := h.unregistered ++ h'.unregistered

namespace ChannelState

variable [DecidableEq Fut]

/-- One call: what it did and the state it leaves. -/
def exec (s : ChannelState Loop Fut Tok Item) :
    Op Loop Fut Tok Item → History Loop Fut Tok Item × ChannelState Loop Fut Tok Item
  | .trySend x =>
    let o := s.trySend x
    ({ sent := accepted x o.reply, handedOut := o.handed, woken := o.woken },
      o.state)
  | .tryRecv =>
    let o := s.tryRecv
    ({ handedOut := returned o.reply ++ o.handed, woken := o.woken }, o.state)
  | .registerGetter l f =>
    let o := s.registerGetter l f
    let queued : Bool := match o.reply with
      | .ok (false, _) => true
      | _ => false
    ({ handedOut := returned o.reply ++ o.handed, woken := o.woken,
       registered := if queued then [⟨l, f, none⟩] else [] }, o.state)
  | .unregisterGetter f =>
    let o := s.unregisterGetter f
    ({ handedOut := o.handed, woken := o.woken, unregistered := dropped f s.getters }, o.state)
  | .registerPutter l f =>
    let o := s.registerPutter l f
    ({ registered := if o.reply = .ok false then [⟨l, f, none⟩] else [] }, o.state)
  | .unregisterPutter f =>
    let o := s.unregisterPutter f
    ({ handedOut := o.handed, woken := o.woken, unregistered := dropped f s.putters }, o.state)
  | .registerSelectWatcher l f t =>
    let o := s.registerSelectWatcher l f t
    ({ registered := if o.reply then [⟨l, f, some t⟩] else [] }, o.state)
  | .unregisterSelectWatcher f =>
    ({ unregistered := dropped f s.selectWatchers }, (s.unregisterSelectWatcher f).state)
  | .forwardSelectWakeup =>
    let o := s.forwardSelectWakeup
    ({ handedOut := o.handed, woken := o.woken }, o.state)
  | .close =>
    let o := s.close
    ({ handedOut := o.handed, woken := o.woken }, o.state)

/-- A sequence of calls. -/
def execAll (s : ChannelState Loop Fut Tok Item) :
    List (Op Loop Fut Tok Item) → History Loop Fut Tok Item × ChannelState Loop Fut Tok Item
  | [] => ({}, s)
  | op :: ops =>
    let (h, s₁) := s.exec op
    let (h', s₂) := execAll s₁ ops
    (h.append h', s₂)

/-! ## One call -/

/-- How calls that did `h` changed the state `s` to `s'`. -/
structure Spec (s : ChannelState Loop Fut Tok Item) (h : History Loop Fut Tok Item)
    (s' : ChannelState Loop Fut Tok Item) : Prop where
  consistent : s'.Consistent
  closed : s.isClosed = true → s'.isClosed = true
  items : h.handedOut ++ s'.buffer = s.buffer ++ h.sent
  waiters : (h.woken ++ h.unregistered ++ s'.queued).Perm (s.queued ++ h.registered)

variable {s : ChannelState Loop Fut Tok Item}

omit [DecidableEq Fut] in
theorem Spec.refl (hc : s.Consistent) : Spec s {} s :=
  ⟨hc, id, by simp, by simp⟩

omit [DecidableEq Fut] in
theorem Spec.append {s₁ s₂ : ChannelState Loop Fut Tok Item} {h h' : History Loop Fut Tok Item}
    (a : Spec s h s₁) (b : Spec s₁ h' s₂) : Spec s (h.append h') s₂ where
  consistent := b.consistent
  closed hc := b.closed (a.closed hc)
  items := by
    simp only [History.append, List.append_assoc]
    rw [b.items, ← List.append_assoc, a.items, List.append_assoc]
  waiters := by
    classical
    refine List.perm_iff_count.2 fun w => ?_
    have ha := a.waiters.count_eq w
    have hb := b.waiters.count_eq w
    simp only [History.append, List.count_append] at ha hb ⊢
    omega

theorem trySend_spec (hc : s.Consistent) (x : Item) :
    Spec s (s.exec (.trySend x)).1 (s.exec (.trySend x)).2 := by
  refine ⟨trySend_consistent hc x, ?_, trySend_items hc x, by simpa [exec] using trySend_waiters hc x⟩
  intro hcl
  rcases trySend_cases hc x with ⟨-, h⟩ | ⟨ho, -⟩ | ⟨ho, -⟩ | ⟨ho, -⟩ | ⟨ho, -⟩
  · simpa [exec, h] using hcl
  all_goals simp [ho] at hcl

theorem tryRecv_spec (hc : s.Consistent) :
    Spec s (s.exec .tryRecv).1 (s.exec .tryRecv).2 := by
  refine ⟨tryRecv_consistent hc, ?_, ?_, by simpa [exec] using tryRecv_waiters (s := s)⟩
  · rcases tryRecv_cases (s := s) with ⟨x, xs, -, h⟩ | ⟨-, -, h⟩ | ⟨-, -, h⟩ <;> simp [exec, h]
  · simpa [exec, tryRecv_items.2] using tryRecv_items.1

theorem registerGetter_spec (hc : s.Consistent) (l : Loop) (f : Fut) :
    Spec s (s.exec (.registerGetter l f)).1 (s.exec (.registerGetter l f)).2 := by
  rcases registerGetter_cases (s := s) l f with ⟨-, hb, h⟩ | ⟨-, h⟩ | ⟨-, -, h⟩
  · rcases tryRecv_cases (s := s) with ⟨x, xs, -, hx⟩ | ⟨he, -⟩ | ⟨he, -⟩
    · simpa [exec, h, hx] using tryRecv_spec hc
    · exact absurd he hb
    · exact absurd he hb
  · simpa [exec, h, Outcome.handed, Outcome.woken] using Spec.refl hc
  · refine ⟨registerGetter_consistent hc l f, ?_, ?_, ?_⟩
    · simp [exec, h]
    · simp [exec, h, Outcome.handed]
    · simpa [exec, h, Outcome.woken, queued] using perm_snoc s.getters (s.putters ++ s.selectWatchers) _

theorem unregisterGetter_spec (hc : s.Consistent) (f : Fut) :
    Spec s (s.exec (.unregisterGetter f)).1 (s.exec (.unregisterGetter f)).2 := by
  refine ⟨unregisterGetter_consistent hc f, ?_, ?_, by simpa [exec] using unregisterGetter_waiters hc f⟩
  · rcases unregisterGetter_cases hc f with ⟨r, h⟩ | ⟨w, ws, -, -, -, h⟩ <;> simp [exec, h]
  · simp [exec, unregisterGetter_items hc]

theorem registerPutter_spec (hc : s.Consistent) (l : Loop) (f : Fut) :
    Spec s (s.exec (.registerPutter l f)).1 (s.exec (.registerPutter l f)).2 := by
  rcases registerPutter_cases (s := s) l f with ⟨-, h⟩ | ⟨-, -, -, h⟩ | ⟨-, -, h⟩
  · simpa [exec, h] using Spec.refl hc
  · simpa [exec, h] using Spec.refl hc
  · refine ⟨registerPutter_consistent hc l f, by simp [exec, h], by simp [exec, h], ?_⟩
    simpa [exec, h, queued] using perm_snoc (s.getters ++ s.putters) s.selectWatchers _

theorem unregisterPutter_spec (hc : s.Consistent) (f : Fut) :
    Spec s (s.exec (.unregisterPutter f)).1 (s.exec (.unregisterPutter f)).2 := by
  refine ⟨unregisterPutter_consistent hc f, ?_, ?_, by simpa [exec] using unregisterPutter_waiters f⟩
  · rcases unregisterPutter_cases (s := s) f with ⟨r, h, -⟩ | ⟨p, ps, -, -, -, h⟩ <;> simp [exec, h]
  · simp [exec, unregisterPutter_items]

theorem registerSelectWatcher_spec (hc : s.Consistent) (l : Loop) (f : Fut) (t : Tok) :
    Spec s (s.exec (.registerSelectWatcher l f t)).1 (s.exec (.registerSelectWatcher l f t)).2 := by
  rcases registerSelectWatcher_cases (s := s) l f t with ⟨-, h⟩ | ⟨-, -, h⟩
  · simpa [exec, h] using Spec.refl hc
  · refine ⟨registerSelectWatcher_consistent hc l f t, by simp [exec, h], by simp [exec, h], ?_⟩
    simp [exec, h, queued]

theorem unregisterSelectWatcher_spec (hc : s.Consistent) (f : Fut) :
    Spec s (s.exec (.unregisterSelectWatcher f)).1 (s.exec (.unregisterSelectWatcher f)).2 := by
  refine ⟨unregisterSelectWatcher_consistent hc f, id, by simp [exec, unregisterSelectWatcher], ?_⟩
  simp only [exec, unregisterSelectWatcher, queued, List.append_nil, List.nil_append]
  exact (List.perm_append_comm_assoc _ _ _).trans ((dropped_append_retain f _).append_left _)

theorem forwardSelectWakeup_spec (hc : s.Consistent) :
    Spec s (s.exec .forwardSelectWakeup).1 (s.exec .forwardSelectWakeup).2 := by
  have hk := forwardSelectWakeup_consistent hc
  rcases forwardSelectWakeup_cases (s := s) with ⟨-, h⟩ | ⟨-, hg, w, ws, hw, h⟩
  · simpa [exec, h, Outcome.handed, Outcome.woken] using Spec.refl hc
  · refine ⟨hk, by simp [exec, h], by simp [exec, h, Outcome.handed], ?_⟩
    simp only [exec, h, Outcome.woken, queued, hg, hw, List.map_cons, List.map_nil,
      target_selectWake, List.nil_append, List.append_nil, List.cons_append]
    exact List.perm_middle.symm

theorem close_spec (hc : s.Consistent) : Spec s (s.exec .close).1 (s.exec .close).2 := by
  refine ⟨close_consistent hc, fun _ => close_isClosed, ?_, by simpa [exec] using close_waiters (s := s)⟩
  simp [exec, close_items]

/-- One call of any method. -/
theorem exec_spec (hc : s.Consistent) (op : Op Loop Fut Tok Item) :
    Spec s (s.exec op).1 (s.exec op).2 := by
  cases op with
  | trySend x => exact trySend_spec hc x
  | tryRecv => exact tryRecv_spec hc
  | registerGetter l f => exact registerGetter_spec hc l f
  | unregisterGetter f => exact unregisterGetter_spec hc f
  | registerPutter l f => exact registerPutter_spec hc l f
  | unregisterPutter f => exact unregisterPutter_spec hc f
  | registerSelectWatcher l f t => exact registerSelectWatcher_spec hc l f t
  | unregisterSelectWatcher f => exact unregisterSelectWatcher_spec hc f
  | forwardSelectWakeup => exact forwardSelectWakeup_spec hc
  | close => exact close_spec hc

/-! ## Sequences of calls -/

theorem execAll_spec (hc : s.Consistent) (ops : List (Op Loop Fut Tok Item)) :
    Spec s (s.execAll ops).1 (s.execAll ops).2 := by
  induction ops generalizing s with
  | nil => exact .refl hc
  | cons op ops ih =>
    have h := exec_spec hc op
    exact h.append (ih h.consistent)

/-- Over every sequence of operations on a fresh channel: the items handed
out followed by the buffer are the items sent, in order; receivers wait only
on an empty buffer; a closed channel has no waiters, now and after any further
operations; and every registration is still queued, or has left by exactly one
wake or by its unregistration. -/
theorem fifo_and_waiters [DecidableEq Loop] [DecidableEq Tok] (maxsize : Nat) (ops : List (Op Loop Fut Tok Item)) :
    let r := (Channel.new maxsize).execAll ops
    r.1.handedOut ++ r.2.buffer = r.1.sent ∧
    (r.2.getters ≠ [] → r.2.buffer = []) ∧
    (r.2.isClosed = true → ∀ ops', (r.2.execAll ops').2.queued = []) ∧
    ∀ w, r.2.queued.count w + r.1.woken.count w + r.1.unregistered.count w = r.1.registered.count w := by
  intro r
  have h : Spec (Channel.new maxsize) r.1 r.2 := execAll_spec (consistent_new maxsize) ops
  refine ⟨by simpa [Channel.new] using h.items, h.consistent.buffer_of_getters, fun hcl ops' => ?_,
    fun w => ?_⟩
  · have h' := execAll_spec h.consistent ops'
    obtain ⟨hg, hp, hw⟩ := h'.consistent.of_closed (h'.closed hcl)
    simp [queued, hg, hp, hw]
  · have hw := h.waiters.count_eq w
    simp only [Channel.new, queued, List.count_append, List.count_nil] at hw ⊢
    omega

end ChannelState

end Multiloop.Channel
