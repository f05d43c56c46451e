import Multiloop.Channel.Consistent
import Multiloop.Channel.Tasks

/-!
# What a step of a task can do

`Move` lists the steps of tasks over a consistent channel, one constructor for
each way a call can go, with what the branch it took says of the channel; the
calls that leave the channel as it was leave it out of their next state.
`move_of_step` is the one place that takes the steps of `Tasks.lean` apart;
every invariant of the runs is a case analysis of `Move`.
-/

namespace Multiloop.Channel

open ChannelState

variable {Loop Task α : Type} [DecidableEq Task]

namespace Sys

/-- The state after task `t` created its next future and awaits it, at `p`. -/
def awaitNew (s : Sys Loop Task α) (t : Task) (ch : Bool) (p : Fut Task → Pc Task α) : Sys Loop Task α :=
  (s.createFuture t ch).2.await t (s.createFuture t ch).1 (p (s.createFuture t ch).1)

/-- The `i`-th scheduled wake is taken off the schedule. -/
abbrev unscheduled (s : Sys Loop Task α) (i : Nat) : Sys Loop Task α :=
  { s with scheduled := s.scheduled.eraseIdx i }

/-- Future `f` is completed or cancelled. -/
abbrev withFut (s : Sys Loop Task α) (f : Fut Task) (st : FutState (Option (Parcel Task α))) :
    Sys Loop Task α :=
  { s with futs := Function.update s.futs f st }

inductive Move (home : Task → Loop) (s : Sys Loop Task α) : Action Task α → Sys Loop Task α → Prop
  | send {t : Task} {a : α} (hpc : s.pc t = .idle) :
    Move home s (.send t a) ((s.call t a).2.goto t (.sendTry (s.call t a).1 none))
  | trySend {t : Task} {a : α} (hpc : s.pc t = .idle)
    (hr : (s.chan.trySend (s.call t a).1).reply = .ok true) :
    Move home s (.trySend t a)
      (((s.call t a).2.dispatch (s.chan.trySend (s.call t a).1)).accept (s.call t a).1)
  | trySendFail {t : Task} {a : α} : Move home s (.trySend t a) (s.call t a).2
  | recv {t : Task} (hpc : s.pc t = .idle) : Move home s (.recv t) (s.goto t .recvTry)
  | tryRecv {t : Task} {x : Parcel Task α} (hpc : s.pc t = .idle)
    (hr : s.chan.tryRecv.reply = .ok (true, some x)) :
    Move home s (.tryRecv t) ((s.dispatch s.chan.tryRecv).receive t x)
  | tryRecvFail {t : Task} : Move home s (.tryRecv t) s
  | close : Move home s .close (s.dispatch s.chan.close)
  /-- `send`: the first or the second `try_send` accepts the item. -/
  | sendOk {t : Task} {x : Parcel Task α} (hpc : (∃ o, s.pc t = .sendTry x o) ∨ ∃ f, s.pc t = .sendRetry x f)
    (hr : (s.chan.trySend x).reply = .ok true) :
    Move home s (.advance t) (((s.dispatch (s.chan.trySend x)).accept x).goto t .idle)
  | sendFull {t : Task} {x : Parcel Task α} {o : Option (Fut Task)} (hpc : s.pc t = .sendTry x o)
    (hfull : s.chan.maxsize ≤ s.chan.buffer.length) :
    Move home s (.advance t) (s.goto t (.sendRegister x))
  | sendRetryFull {t : Task} {x : Parcel Task α} {f : Fut Task} (hpc : s.pc t = .sendRetry x f)
    (hr : (s.chan.trySend x).reply = .ok false) :
    Move home s (.advance t) (s.await t f (.sendAwait x f))
  /-- A call raises `ChannelClosedError`. -/
  | closed {t : Task} (hpc : (∃ x o, s.pc t = .sendTry x o) ∨ (∃ x f, s.pc t = .sendRetry x f) ∨ s.pc t = .recvTry)
    (hcl : s.chan.isClosed = true) : Move home s (.advance t) (s.goto t .idle)
  | registerClosed {t : Task} {ch : Bool}
    (hpc : (∃ x, s.pc t = .sendRegister x) ∨ s.pc t = .recvRegister) (hcl : s.chan.isClosed = true) :
    Move home s (.advance t) ((s.createFuture t ch).2.goto t .idle)
  /-- `register_putter` finds room, and registers nothing. -/
  | registerRoom {t : Task} {x : Parcel Task α} (hpc : s.pc t = .sendRegister x) :
    Move home s (.advance t)
      ((s.createFuture t false).2.goto t (.sendRetry x (s.createFuture t false).1))
  | registerPutter {t : Task} {x : Parcel Task α} (hpc : s.pc t = .sendRegister x)
    (ho : s.chan.isClosed = false)
    (hfull : s.chan.putters = [] → 0 < s.chan.maxsize ∧ s.chan.maxsize ≤ s.chan.buffer.length) :
    Move home s (.advance t) (((s.awaitNew t false (.sendAwait x)).enlist (s.createFuture t false).1).dispatch
      ⟨(), { s.chan with putters := s.chan.putters ++ [⟨home t, (s.createFuture t false).1, none⟩] }, []⟩)
  | unregisterPutter {t : Task} {f : Fut Task} (hpc : s.pc t = .sendUnregister f) :
    Move home s (.advance t) ((s.dispatch (s.chan.unregisterPutter f)).goto t .idle)
  /-- `recv`: the `try_recv` or the `register_getter` finds an item. -/
  | recvOk {t : Task} {x : Parcel Task α} {s₁ : Sys Loop Task α}
    (hpc : s.pc t = .recvTry ∧ s₁ = s ∨ s.pc t = .recvRegister ∧ s₁ = (s.createFuture t true).2)
    (hr : s.chan.tryRecv.reply = .ok (true, some x)) :
    Move home s (.advance t) (((s₁.dispatch s.chan.tryRecv).receive t x).goto t .idle)
  | recvEmpty {t : Task} (hpc : s.pc t = .recvTry) : Move home s (.advance t) (s.goto t .recvRegister)
  | registerGetter {t : Task} (hpc : s.pc t = .recvRegister) (ho : s.chan.isClosed = false)
    (hb : s.chan.buffer = []) :
    Move home s (.advance t) ((s.awaitNew t true .recvAwait).dispatch
      ⟨(), { s.chan with getters := s.chan.getters ++ [⟨home t, (s.createFuture t true).1, none⟩] }, []⟩)
  | unregisterGetter {t : Task} {f : Fut Task} (hpc : s.pc t = .recvUnregister f) :
    Move home s (.advance t) ((s.dispatch (s.chan.unregisterGetter f)).goto t .idle)
  | resumeSend {t : Task} {x : Parcel Task α} {f : Fut Task} {v : Option (Parcel Task α)}
    (hpc : s.pc t = .sendAwait x f) (hf : s.futs f = .result v) :
    Move home s (.resume t) (s.goto t (.sendTry x (some f)))
  | raiseSend {t : Task} {x : Parcel Task α} {f : Fut Task} (hpc : s.pc t = .sendAwait x f)
    (hf : s.futs f ≠ .pending) : Move home s (.resume t) (s.raise t (.sendUnregister f))
  | resumeRecv {t : Task} {x : Parcel Task α} {f : Fut Task} (hpc : s.pc t = .recvAwait f)
    (hf : s.futs f = .result (some x)) (hm : s.mustCancel t = false) :
    Move home s (.resume t) ((s.receive t x).goto t .idle)
  | resumeNone {t : Task} {f : Fut Task} (hpc : s.pc t = .recvAwait f)
    (hf : s.futs f = .result none) : Move home s (.resume t) (s.goto t .idle)
  | raiseRecv {t : Task} {f : Fut Task} (hpc : s.pc t = .recvAwait f) (hf : s.futs f ≠ .pending)
    (hv : ∀ x, s.futs f = .result (some x) → s.mustCancel t = true) :
    Move home s (.resume t) (s.raise t (.recvUnregister f))
  | cancelFut {t : Task} {f : Fut Task} (hf : s.awaited t = some f) (hp : s.futs f = .pending) :
    Move home s (.cancel t) (s.withFut f .cancelled)
  | cancelTask {t : Task} (ha : ∀ f, s.awaited t = some f → s.futs f ≠ .pending) :
    Move home s (.cancel t) { s with mustCancel := Function.update s.mustCancel t true }
  | wake {i : Nat} {c : WakeCall Task α} {st : FutState (Option (Parcel Task α))}
    (hi : s.scheduled[i]? = some c) (hp : s.futs c.fut = .pending)
    (hst : st = .exception ∧ c.isExc = true ∨ st = .result (resultOf c.val) ∧ c.isExc = false) :
    Move home s (.wake i) ((s.unscheduled i).withFut c.fut st)
  | requeue {i : Nat} {c : WakeCall Task α} {x : Parcel Task α} (hi : s.scheduled[i]? = some c)
    (hp : s.futs c.fut ≠ .pending) (hx : c.val = some (.item x)) :
    Move home s (.wake i) ((s.unscheduled i).dispatch (s.chan.trySend x))
  /-- A wake whose future is done, and whose item, if any, is dropped. -/
  | drop {i : Nat} {c : WakeCall Task α} (hi : s.scheduled[i]? = some c) (hp : s.futs c.fut ≠ .pending)
    (hx : ∀ x, c.val = some (.item x) → c.isExc = true ∨ c.fut.ch = false ∨ s.chan.isClosed = true) :
    Move home s (.wake i) (s.unscheduled i)

variable {s s' : Sys Loop Task α} {home : Task → Loop}

omit [DecidableEq Task] in
/-- A call that wakes and registers nobody leaves the state. -/
theorem dispatch_nil {β : Type} (r : β) : s.dispatch ⟨r, s.chan, []⟩ = s := by
  simp [Sys.dispatch]

theorem dispatch_createFuture_nil {β : Type} {t : Task} {ch : Bool} (r : β) :
    (s.createFuture t ch).2.dispatch ⟨r, s.chan, []⟩ = (s.createFuture t ch).2 :=
  dispatch_nil (s := (s.createFuture t ch).2) r

omit [DecidableEq Task] in
theorem trySend_closed (hc : s.chan.Consistent) {x : Parcel Task α} {e : ChannelError}
    (hr : (s.chan.trySend x).reply = .error e) :
    s.chan.isClosed = true ∧ s.dispatch (s.chan.trySend x) = s := by
  rcases trySend_cases hc x with ⟨hcl, h⟩ | ⟨-, g, gs, -, -, h⟩ | ⟨-, -, w, ws, -, h⟩ |
    ⟨-, -, -, -, -, h⟩ | ⟨-, -, -, -, h⟩ <;> rw [h] at hr ⊢
  · exact ⟨hcl, dispatch_nil _⟩
  all_goals cases hr

omit [DecidableEq Task] in
theorem trySend_full (hc : s.chan.Consistent) {x : Parcel Task α}
    (hr : (s.chan.trySend x).reply = .ok false) :
    s.chan.maxsize ≤ s.chan.buffer.length ∧ s.dispatch (s.chan.trySend x) = s := by
  rcases trySend_cases hc x with ⟨-, h⟩ | ⟨-, g, gs, -, -, h⟩ | ⟨-, -, w, ws, -, h⟩ |
    ⟨-, -, -, -, hf, h⟩ | ⟨-, -, -, -, h⟩ <;> rw [h] at hr ⊢
  · cases hr
  · cases hr
  · cases hr
  · exact ⟨hf, dispatch_nil _⟩
  · cases hr

omit [DecidableEq Task] in
/-- A `try_recv` that returns no item leaves the channel. -/
theorem tryRecv_fail (hr : ∀ x, s.chan.tryRecv.reply ≠ .ok (true, some x)) :
    s.dispatch s.chan.tryRecv = s ∧ (∀ e, s.chan.tryRecv.reply = .error e → s.chan.isClosed = true) := by
  rcases tryRecv_cases (s := s.chan) with ⟨x, xs, -, h⟩ | ⟨-, hcl, h⟩ | ⟨-, -, h⟩ <;> rw [h] at hr ⊢
  · exact absurd rfl (hr x)
  · exact ⟨dispatch_nil _, fun _ _ => hcl⟩
  · exact ⟨dispatch_nil _, fun _ he => by cases he⟩

theorem move_of_advance (hc : s.chan.Consistent) {t : Task} (hs : s.advance home t = some s') :
    Move home s (.advance t) s' := by
  unfold Sys.advance at hs
  split at hs
  · rename_i x o hpc
    dsimp only at hs
    split at hs <;> rename_i hr <;> cases hs
    · exact .sendOk (.inl ⟨o, hpc⟩) hr
    · rw [(trySend_full hc hr).2]
      exact .sendFull hpc (trySend_full hc hr).1
    · rw [(trySend_closed hc hr).2]
      exact .closed (.inl ⟨x, o, hpc⟩) (trySend_closed hc hr).1
  · rename_i x hpc
    dsimp only at hs
    rcases registerPutter_cases (s := s.chan) (home t) (s.createFuture t false).1 with
      ⟨hcl, e⟩ | ⟨-, -, -, e⟩ | ⟨ho, hfull, e⟩
    · rw [show (s.createFuture t false).2.chan = s.chan from rfl, e] at hs
      cases hs
      rw [dispatch_createFuture_nil]
      exact .registerClosed (.inl ⟨x, hpc⟩) hcl
    · rw [show (s.createFuture t false).2.chan = s.chan from rfl, e] at hs
      cases hs
      rw [dispatch_createFuture_nil]
      exact .registerRoom hpc
    · rw [show (s.createFuture t false).2.chan = s.chan from rfl, e] at hs
      cases hs
      exact .registerPutter hpc ho hfull
  · rename_i x f hpc
    dsimp only at hs
    split at hs <;> rename_i hr <;> cases hs
    · exact .sendOk (.inr ⟨f, hpc⟩) hr
    · rw [(trySend_full hc hr).2]
      exact .sendRetryFull hpc hr
    · rw [(trySend_closed hc hr).2]
      exact .closed (.inr (.inl ⟨x, f, hpc⟩)) (trySend_closed hc hr).1
  · rename_i f hpc
    cases hs
    exact .unregisterPutter hpc
  · rename_i hpc
    dsimp only at hs
    split at hs
    · rename_i x hr
      cases hs
      exact .recvOk (.inl ⟨hpc, rfl⟩) hr
    · rename_i hne hr
      cases hs
      rw [(tryRecv_fail fun x hx => hne x (by rw [hr] at hx; cases hx; rfl)).1]
      exact .recvEmpty hpc
    · rename_i e hr
      cases hs
      have hf := tryRecv_fail (s := s) fun x hx => by rw [hr] at hx; cases hx
      rw [hf.1]
      exact .closed (.inr (.inr hpc)) (hf.2 e hr)
  · rename_i hpc
    dsimp only at hs
    rcases registerGetter_cases (s := s.chan) (home t) (s.createFuture t true).1 with
      ⟨-, hb, e⟩ | ⟨hcl, e⟩ | ⟨hor, ho, e⟩
    · rw [show (s.createFuture t true).2.chan = s.chan from rfl, e] at hs
      rcases tryRecv_cases (s := s.chan) with ⟨y, ys, -, hy⟩ | ⟨he, -⟩ | ⟨he, -⟩
      · have hr : s.chan.tryRecv.reply = .ok (true, some y) := by rw [hy]
        simp only [hr] at hs
        cases hs
        exact .recvOk (.inr ⟨hpc, rfl⟩) hr
      · exact absurd he hb
      · exact absurd he hb
    · rw [show (s.createFuture t true).2.chan = s.chan from rfl, e] at hs
      cases hs
      rw [dispatch_createFuture_nil]
      exact .registerClosed (.inr hpc) hcl
    · rw [show (s.createFuture t true).2.chan = s.chan from rfl, e] at hs
      cases hs
      exact .registerGetter hpc ho (hor.elim hc.buffer_of_getters id)
  · rename_i f hpc
    cases hs
    exact .unregisterGetter hpc
  all_goals cases hs

theorem move_of_resume {t : Task} (hs : s.resume t = some s') : Move home s (.resume t) s' := by
  unfold Sys.resume at hs
  split at hs
  · rename_i x f hpc
    split at hs
    · cases hs
    · rename_i v hf
      split at hs <;> cases hs
      · exact .raiseSend hpc (by simp [hf])
      · exact .resumeSend hpc hf
    all_goals
      rename_i hf
      cases hs
      exact .raiseSend hpc (by simp [hf])
  · rename_i f hpc
    split at hs
    · cases hs
    · rename_i y hf
      split at hs <;> rename_i hm <;> cases hs
      · exact .raiseRecv hpc (by simp [hf]) fun _ _ => hm
      · exact .resumeRecv hpc hf (by simpa using hm)
    · rename_i hf
      split at hs <;> cases hs
      · exact .raiseRecv hpc (by simp [hf]) (by simp [hf])
      · exact .resumeNone hpc hf
    all_goals
      rename_i hf
      cases hs
      exact .raiseRecv hpc (by simp [hf]) (by simp [hf])
  · cases hs

theorem move_of_wake {i : Nat} {c : WakeCall Task α} (hi : s.scheduled[i]? = some c) :
    Move home s (.wake i) ((s.unscheduled i).wakeFut c) := by
  unfold Sys.wakeFut
  split
  · rename_i hp
    refine .wake hi hp ?_
    cases he : c.isExc <;> simp
  · rename_i hp
    split
    · rename_i x hval he
      split
      · exact .requeue hi hp hval
      · rename_i hcon
        refine .drop hi hp fun y hy => ?_
        by_cases hch : c.fut.ch = true
        · exact .inr (.inr (by simpa [hch] using hcon))
        · exact .inr (.inl (by simpa using hch))
    · rename_i hne
      refine .drop hi hp fun y hy => .inl ?_
      by_contra he
      exact hne y hy (by simpa using he)

/-- Every step is a `Move`. -/
theorem move_of_step (hc : s.chan.Consistent) {a : Action Task α} (hs : s.step home a = some s') :
    Move home s a s' := by
  cases a with
  | send t payload =>
    simp only [Sys.step] at hs
    split at hs <;> cases hs
    rename_i hpc
    exact .send hpc
  | trySend t payload =>
    simp only [Sys.step] at hs
    split at hs
    · rename_i hpc
      rw [show (s.call t payload).2.chan = s.chan from rfl] at hs
      split at hs <;> rename_i hr <;> cases hs
      · exact .trySend hpc hr
      · suffices h : (s.call t payload).2.dispatch (s.chan.trySend (s.call t payload).1) =
            (s.call t payload).2 by
          rw [h]
          exact .trySendFail
        rcases hrep : (s.chan.trySend (s.call t payload).1).reply with e | _ | _
        · exact (trySend_closed (s := (s.call t payload).2) hc hrep).2
        · exact (trySend_full (s := (s.call t payload).2) hc hrep).2
        · exact absurd hrep hr
    · cases hs
  | recv t =>
    simp only [Sys.step] at hs
    split at hs <;> cases hs
    rename_i hpc
    exact .recv hpc
  | tryRecv t =>
    simp only [Sys.step] at hs
    split at hs
    · rename_i hpc
      split at hs
      · rename_i x hr
        cases hs
        exact .tryRecv hpc hr
      · rename_i hr
        cases hs
        rw [(tryRecv_fail fun x hx => hr x hx).1]
        exact .tryRecvFail
    · cases hs
  | close =>
    cases hs
    exact .close
  | advance t => exact move_of_advance hc hs
  | resume t => exact move_of_resume hs
  | cancel t =>
    cases hs
    unfold Sys.cancel
    split
    · rename_i f hf
      split
      · rename_i hp
        exact .cancelFut hf hp
      · rename_i hp
        refine .cancelTask fun g hg => ?_
        rw [hf] at hg
        cases hg
        exact hp
    · rename_i hn
      exact .cancelTask fun g hg => by simp [hn] at hg
  | wake i =>
    simp only [Sys.step] at hs
    split at hs <;> cases hs
    rename_i c hi
    exact move_of_wake hi

end Sys

end Multiloop.Channel
