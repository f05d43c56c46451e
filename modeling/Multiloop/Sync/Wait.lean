import Multiloop.Sync.Condition
import Multiloop.Sync.Frames

/-!
# `Condition.wait` ends with the lock

A task in `wait` holds the lock until it releases it, and holds it again when
`wait` ends, however often it is cancelled while it acquires the lock again
(`Sound`, which holds in every state of every run over a condition).
-/

namespace Multiloop.Sync.Condition

variable {Loop Task : Type}

/-- The task is in `wait`. -/
def Pc.inWait : Pc Task → Bool
  | .outside | .evaluating => false
  | _ => true

/-- The task that takes the step, if one does. -/
def Action.task? : Action Loop Task → Option Task
  | .lock a => a.task?
  | .wait t | .waitFor t | .predicate t _ | .predicateRaises t | .release t | .resume t | .discard t | .forward t
  | .acquire t | .resumeAcquire t | .discardAcquire t => some t
  | .cancel _ _ | .notify _ | .deliver _ => none

namespace Sys

variable [DecidableEq Task] {home : Task → Loop} {s s' s'' : Sys Loop Task} {t u : Task}

/-! ## What a step can do -/

section Steps

variable [DecidableEq Loop]

/-- The steps of the condition, one by one. -/
inductive Steps (home : Task → Loop) (s : Sys Loop Task) : Action Loop Task → Sys Loop Task → Prop
  | lock (b : Lock.Action Loop Task) (lock : Lock.Sys Loop Task) (hallow : s.allows b = true)
      (hlock : s.lock.step home b = some lock) : Steps home s (.lock b) { s with lock }
  | waits (t : Task) (hlive : s.lock.live home t = true) (hout : s.lock.pc t = .outside) (hpc : s.pc t = .outside) :
      Steps home s (.wait t) (s.wait home t)
  | loops (t : Task) (hlive : s.lock.live home t = true) (hout : s.lock.pc t = .outside) (hpc : s.pc t = .outside)
      (howner : s.lock.lock.owner = some t) :
      Steps home s (.waitFor t) ({ s with looping := Function.update s.looping t true }.goto t .evaluating)
  | holds (t : Task) (hpc : s.pc t = .evaluating) :
      Steps home s (.predicate t true) ({ s with looping := Function.update s.looping t false }.goto t .outside)
  | fails (t : Task) (hlive : s.lock.live home t = true) (hout : s.lock.pc t = .outside)
      (hpc : s.pc t = .evaluating) : Steps home s (.predicate t false) (s.wait home t)
  | predicateRaises (t : Task) (hpc : s.pc t = .evaluating) :
      Steps home s (.predicateRaises t) ({ s with looping := Function.update s.looping t false }.goto t .outside)
  | releases (t : Task) (e : Fut Task) (lock : Lock.Sys Loop Task) (hpc : s.pc t = .releasing e)
      (howner : s.lock.lock.owner = some t) (hlock : s.lock.step home (.release t) = some lock) :
      Steps home s (.release t) ({ s with lock }.goto t (.waiting e))
  | refused (t : Task) (e : Fut Task) (hpc : s.pc t = .releasing e) (hno : s.lock.lock.owner ≠ some t) :
      Steps home s (.release t) ((s.discardWaiter e).leave t .error)
  | returns (t : Task) (e : Fut Task) (hpc : s.pc t = .waiting e) (hlive : s.lock.live home t = true)
      (hr : s.lock.host.resumption t e = some .returns) :
      Steps home s (.resume t) (s.goto t (.reacquiring .notified false))
  | raises (t : Task) (e : Fut Task) (hpc : s.pc t = .waiting e) (hlive : s.lock.live home t = true) :
      Steps home s (.resume t) ((s.onHost fun h => h.setMustCancel t false).goto t (.discarding e))
  | discards (t : Task) (e : Fut Task) (hpc : s.pc t = .discarding e) (hlive : s.lock.live home t = true)
      (hqueued : e ∈ s.waiters.map Prod.fst) :
      Steps home s (.discard t) ((s.discardWaiter e).goto t (.reacquiring .handler false))
  | wasPopped (t : Task) (e : Fut Task) (hpc : s.pc t = .discarding e) (hlive : s.lock.live home t = true)
      (hpopped : e ∉ s.waiters.map Prod.fst) : Steps home s (.discard t) (s.goto t .forwarding)
  | forwards (t : Task) (hpc : s.pc t = .forwarding) (hlive : s.lock.live home t = true) :
      Steps home s (.forward t) ((s.forwardNotify t).goto t (.reacquiring .handler false))
  | passesOn (t : Task) (o : Outcome) (hpc : s.pc t = .passingOn o) :
      Steps home s (.forward t) ((s.forwardNotify t).leave t o)
  | reenters (t : Task) (branch : Branch) (cancelled : Bool) (hpc : s.pc t = .reacquiring branch cancelled)
      (howner : s.lock.lock.owner = some t) (hout : s.lock.pc t = .outside) :
      Steps home s (.acquire t) (s.reentrant t branch)
  | acquires (t : Task) (branch : Branch) (cancelled : Bool) (lock : Lock.Sys Loop Task)
      (hpc : s.pc t = .reacquiring branch cancelled) (hlock : s.lock.step home (.acquire t) = some lock) :
      Steps home s (.acquire t) ({ s with lock }.settle t branch cancelled)
  | acquired (t : Task) (branch : Branch) (cancelled : Bool) (lock : Lock.Sys Loop Task)
      (hpc : s.pc t = .reacquiring branch cancelled) (hlock : s.lock.step home (.resume t) = some lock) :
      Steps home s (.resumeAcquire t) ({ s with lock }.settle t branch cancelled)
  | interrupted (t : Task) (branch : Branch) (cancelled : Bool) (lock : Lock.Sys Loop Task)
      (hpc : s.pc t = .reacquiring branch cancelled) (hlock : s.lock.step home (.discard t) = some lock) :
      Steps home s (.discardAcquire t) ({ s with lock }.goto t (.reacquiring branch true))
  | cancels (t : Task) (other : Option (Fut Task)) (lock : Lock.Sys Loop Task) (hpc : (s.pc t).inWait = false)
      (hlock : s.lock.step home (.cancel t other) = some lock) : Steps home s (.cancel t other) { s with lock }
  | cancelsWait (t : Task) (other : Option (Fut Task)) (lock : Lock.Sys Loop Task)
      (hlock : s.lock.step home (.cancel t (s.pc t).event?) = some lock) :
      Steps home s (.cancel t other)
        { s with lock, asked := Function.update s.asked t (s.asked t || { s with lock }.suspended t) }
  | notify (n : Int) : Steps home s (.notify n) (s.notify n)
  | deliver (i : Nat) (c : Call Loop Task) (w : Waiter Loop Task) (popped : List (Waiter Loop Task))
      (hc : s.calls[i]? = some c) (hpop : c.popped = w :: popped) : Steps home s (.deliver i) (s.deliver i c w popped)

/-- What is done after a step of the lock. -/
theorem onLock_eq {b : Lock.Action Loop Task} {f : Sys Loop Task → Sys Loop Task} (hst : s.onLock home b f = some s') :
    ∃ lock, s.lock.step home b = some lock ∧ s' = f { s with lock } := by
  simp only [onLock, Option.map_eq_some_iff] at hst
  obtain ⟨lock, hlock, rfl⟩ := hst
  exact ⟨lock, hlock, rfl⟩

theorem steps_of_step {a : Action Loop Task} (hst : s.step home a = some s') : s.Steps home a s' := by
  cases a with
  | lock b =>
    obtain ⟨hallow, hon⟩ := Option.ite_none_right_eq_some.1 hst
    obtain ⟨lock, hlock, rfl⟩ := onLock_eq hon
    exact .lock b lock hallow hlock
  | wait t =>
    obtain ⟨⟨hlive, hout, hpc⟩, heq⟩ := Option.ite_none_right_eq_some.1 hst
    cases heq
    exact .waits t hlive hout hpc
  | waitFor t =>
    obtain ⟨⟨hlive, hout, hpc, howner⟩, heq⟩ := Option.ite_none_right_eq_some.1 hst
    cases heq
    exact .loops t hlive hout hpc howner
  | predicate t b =>
    obtain ⟨⟨hlive, hout, hpc⟩, heq⟩ := Option.ite_none_right_eq_some.1 hst
    cases b with
    | true =>
      cases heq
      exact .holds t hpc
    | false =>
      cases heq
      exact .fails t hlive hout hpc
  | predicateRaises t =>
    obtain ⟨⟨hlive, hout, hpc⟩, heq⟩ := Option.ite_none_right_eq_some.1 hst
    cases heq
    exact .predicateRaises t hpc
  | release t =>
    simp only [step] at hst
    split at hst
    · rename_i e hpc
      split at hst
      · rename_i howner
        obtain ⟨lock, hlock, rfl⟩ := onLock_eq hst
        exact .releases t e lock hpc howner hlock
      · rename_i hno
        obtain ⟨-, heq⟩ := Option.ite_none_right_eq_some.1 hst
        cases heq
        exact .refused t e hpc hno
    · cases hst
  | resume t =>
    simp only [step] at hst
    split at hst
    · rename_i e hpc
      obtain ⟨hlive, heq⟩ := Option.ite_none_right_eq_some.1 hst
      split at heq
      · rename_i hr
        cases heq
        exact .returns t e hpc hlive hr
      · cases heq
        exact .raises t e hpc hlive
      · cases heq
    · cases hst
  | discard t =>
    simp only [step] at hst
    split at hst
    · rename_i e hpc
      obtain ⟨hlive, heq⟩ := Option.ite_none_right_eq_some.1 hst
      split at heq
      · rename_i hqueued
        cases heq
        exact .discards t e hpc hlive hqueued
      · rename_i hpopped
        cases heq
        exact .wasPopped t e hpc hlive hpopped
    · cases hst
  | forward t =>
    simp only [step] at hst
    split at hst
    · rename_i hpc
      obtain ⟨hlive, heq⟩ := Option.ite_none_right_eq_some.1 hst
      cases heq
      exact .forwards t hpc hlive
    · rename_i o hpc
      obtain ⟨-, heq⟩ := Option.ite_none_right_eq_some.1 hst
      cases heq
      exact .passesOn t o hpc
    · cases hst
  | acquire t =>
    simp only [step] at hst
    split at hst
    · rename_i branch cancelled hpc
      split at hst
      · rename_i hu
        cases hst
        exact .reenters t branch cancelled hpc hu.1 hu.2.2
      · obtain ⟨lock, hlock, rfl⟩ := onLock_eq hst
        exact .acquires t branch cancelled lock hpc hlock
    · cases hst
  | resumeAcquire t =>
    simp only [step] at hst
    split at hst
    · rename_i branch cancelled hpc
      obtain ⟨lock, hlock, rfl⟩ := onLock_eq hst
      exact .acquired t branch cancelled lock hpc hlock
    · cases hst
  | discardAcquire t =>
    simp only [step] at hst
    split at hst
    · rename_i branch cancelled hpc
      obtain ⟨lock, hlock, rfl⟩ := onLock_eq hst
      exact .interrupted t branch cancelled lock hpc hlock
    · cases hst
  | cancel t other =>
    simp only [step] at hst
    split at hst
    · rename_i hpc
      obtain ⟨lock, hlock, rfl⟩ := onLock_eq hst
      exact .cancels t other lock (by rw [hpc]; rfl) hlock
    · rename_i hpc
      obtain ⟨lock, hlock, rfl⟩ := onLock_eq hst
      exact .cancels t other lock (by rw [hpc]; rfl) hlock
    · obtain ⟨lock, hlock, rfl⟩ := onLock_eq hst
      exact .cancelsWait t other lock hlock
  | notify n =>
    cases hst
    exact .notify n
  | deliver i =>
    simp only [step] at hst
    split at hst
    · rename_i c hc
      split at hst
      · rename_i w popped hpop
        cases hst
        exact .deliver i c w popped hc hpop
      · cases hst
    · cases hst

end Steps

/-! ## What a task's step leaves alone -/

/-- From `s` to `s'` nothing has changed for the tasks other than `t`. -/
structure Frame (t : Task) (s s' : Sys Loop Task) : Prop where
  pc : ∀ u, u ≠ t → s'.pc u = s.pc u
  asked : ∀ u, u ≠ t → s'.asked u = s.asked u
  lock : ∀ u, u ≠ t → s.lock.SameFor u s'.lock

omit [DecidableEq Task] in
theorem Frame.trans (h : Frame t s s') (h' : Frame t s' s'') : Frame t s s'' where
  pc u hu := (h'.pc u hu).trans (h.pc u hu)
  asked u hu := (h'.asked u hu).trans (h.asked u hu)
  lock u hu := (h.lock u hu).trans (h'.lock u hu)

omit [DecidableEq Task] in
/-- A change of neither the tasks nor the lock. -/
theorem frame_of (hp : s'.pc = s.pc) (ha : s'.asked = s.asked) (hl : s'.lock = s.lock) : Frame t s s' := by
  refine ⟨fun u _ => congrFun hp u, fun u _ => congrFun ha u, ?_⟩
  intro _ _
  rw [hl]
  exact .refl

theorem frame_goto (p : Pc Task) : Frame t s (s.goto t p) :=
  ⟨fun _ hu => Function.update_of_ne hu .., fun _ _ => rfl, fun _ _ => .refl⟩

theorem frame_leave (o : Outcome) : Frame t s (s.leave t o) := by
  have houtcome : Frame t s { s with outcome := Function.update s.outcome t (some o) } := frame_of rfl rfl rfl
  dsimp only [leave]
  split
  · exact houtcome.trans (frame_goto _)
  · refine houtcome.trans (Frame.trans ?_ (frame_goto _))
    exact frame_of rfl rfl rfl

omit [DecidableEq Task] in
theorem frame_onHost {f : Host Loop Task → Host Loop Task}
    (h : ∀ u e, u ≠ t → e.owner = u → s.lock.host.mustRaise u e → (f s.lock.host).mustRaise u e) :
    Frame t s (s.onHost f) :=
  ⟨fun _ _ => rfl, fun _ _ => rfl, fun u hu => Lock.Sys.sameFor_host fun e he hm => h u e hu he hm⟩

theorem frame_wait : Frame t s (s.wait home t) := by
  unfold wait
  split
  · refine ⟨fun u hu => Function.update_of_ne hu .., fun u hu => Function.update_of_ne hu .., fun u hu => ?_⟩
    exact Lock.Sys.sameFor_host fun e he hm => hm.wait he hu
  · exact frame_leave _

theorem frame_forwardNotify : Frame t s (s.forwardNotify t) := by
  dsimp only [forwardNotify]
  split
  · refine Frame.trans ?_ (frame_onHost fun _ _ _ _ hm => hm)
    exact frame_of rfl rfl rfl
  · exact frame_of rfl rfl rfl

theorem frame_settle (branch : Branch) (cancelled : Bool) : Frame t s (s.settle t branch cancelled) := by
  unfold settle
  split
  · unfold reacquired
    split
    · exact frame_leave _
    · exact frame_goto _
    · refine Frame.trans ?_ (frame_leave _)
      exact frame_of rfl rfl rfl
  · exact frame_of rfl rfl rfl

variable [DecidableEq Loop]

/-- A step of the lock by the task. -/
theorem frame_lock {b : Lock.Action Loop Task} {lock : Lock.Sys Loop Task} (hlock : s.lock.step home b = some lock)
    (hb : b.task? = some t) : Frame t s { s with lock } := by
  refine ⟨fun _ _ => rfl, fun _ _ => rfl, fun u hu => Lock.Sys.step_other hlock fun h => ?_⟩
  rw [hb] at h
  exact hu (Option.some.inj h).symm

omit [DecidableEq Loop] in
theorem frame_looping (b : Bool) (p : Pc Task) :
    Frame t s ({ s with looping := Function.update s.looping t b }.goto t p) := by
  refine Frame.trans ?_ (frame_goto p)
  exact frame_of rfl rfl rfl

omit [DecidableEq Loop] in
theorem frame_reentrant (branch : Branch) : Frame t s (s.reentrant t branch) := by
  cases branch with
  | handler => exact frame_leave _
  | notified => exact frame_goto _

/-- A task's step changes nothing for the others. -/
theorem step_frame {a : Action Loop Task} (hst : s.step home a = some s') (ha : a.task? = some t) : Frame t s s' := by
  cases steps_of_step hst with
  | lock b lock _ hlock => exact frame_lock hlock ha
  | waits v | fails v =>
    cases ha
    exact frame_wait
  | loops v | holds v | predicateRaises v =>
    cases ha
    exact frame_looping _ _
  | releases v e lock _ _ hlock =>
    cases ha
    exact (frame_lock hlock rfl).trans (frame_goto _)
  | refused v e =>
    cases ha
    refine Frame.trans ?_ (frame_leave _)
    exact frame_of rfl rfl rfl
  | returns v e =>
    cases ha
    exact frame_goto _
  | raises v e =>
    cases ha
    refine Frame.trans ?_ (frame_goto _)
    exact frame_onHost fun u e hu _ hm => hm.setMustCancel hu false
  | discards v e =>
    cases ha
    refine Frame.trans ?_ (frame_goto _)
    exact frame_of rfl rfl rfl
  | wasPopped v e =>
    cases ha
    exact frame_goto _
  | forwards v =>
    cases ha
    exact frame_forwardNotify.trans (frame_goto _)
  | passesOn v o =>
    cases ha
    exact frame_forwardNotify.trans (frame_leave _)
  | reenters v branch =>
    cases ha
    exact frame_reentrant branch
  | acquires v branch cancelled lock _ hlock =>
    cases ha
    exact (frame_lock hlock rfl).trans (frame_settle _ _)
  | acquired v branch cancelled lock _ hlock =>
    cases ha
    exact (frame_lock hlock rfl).trans (frame_settle _ _)
  | interrupted v branch cancelled lock _ hlock =>
    cases ha
    exact (frame_lock hlock rfl).trans (frame_goto _)
  | cancels v other => cases ha
  | cancelsWait v other => cases ha
  | notify n => cases ha
  | deliver i => cases ha

/-! ## Where the lock stands -/

omit [DecidableEq Task] [DecidableEq Loop] in
/-- What the lock says of a task in `wait`. -/
def Here (s : Sys Loop Task) (t : Task) : Pc Task → Prop
  | .outside => True
  | .evaluating | .releasing _ | .passingOn .cancelled => s.lock.holding t = true ∧ s.lock.pc t = .outside
  | .waiting _ | .discarding _ | .forwarding => s.lock.holding t = false ∧ s.lock.pc t = .outside
  | .reacquiring _ _ => s.lock.holding t = false
  | .passingOn _ => False

omit [DecidableEq Task] [DecidableEq Loop] in
/-- The task's `acquire` is bound to raise. -/
def Hit (s : Sys Loop Task) (t : Task) : Lock.Pc Task → Prop
  | .outside => False
  | .acquiring e => s.lock.host.mustRaise t e
  | .discarding _ => True

omit [DecidableEq Task] [DecidableEq Loop] in
/-- A cancelled task is bound to raise. -/
def Doomed (s : Sys Loop Task) (t : Task) : Pc Task → Prop
  | .releasing _ => False
  | .waiting e => s.lock.host.mustRaise t e
  | .reacquiring .notified false => s.Hit t (s.lock.pc t)
  | _ => True

/-- A task is in order in its place. -/
structure Seat (s : Sys Loop Task) (t : Task) : Prop where
  alive : s.pc t ≠ .outside → s.lock.done t = false
  own : ∀ e, s.waits t = some e → e.owner = t
  here : s.Here t (s.pc t)
  doomed : s.asked t = true → s.Doomed t (s.pc t)

/-- The events the condition has yet to set. -/
def Handled (s : Sys Loop Task) (e : Fut Task) : Prop :=
  e ∈ s.waiters.map Prod.fst ∨ ∃ c ∈ s.calls, e ∈ c.popped.map Prod.fst

/-- The lock is one in a run of its own, and every task is in order. -/
structure Sound (home : Task → Loop) (s : Sys Loop Task) : Prop where
  lock : (Lock.tasks home).Reachable s.lock
  seats : ∀ t, s.Seat t
  foreign : ∀ e, s.Handled e → s.lock.Foreign e

theorem sound_new : (new : Sys Loop Task).Sound home where
  lock := .init rfl
  seats t := ⟨fun h => absurd rfl h, fun _ he => absurd he (Option.some_ne_none _).symm, trivial,
    fun h => absurd h Bool.false_ne_true⟩
  foreign e he := by
    rcases he with he | ⟨c, hc, -⟩
    · cases he
    · cases hc

theorem Sound.guarded (h : s.Sound home) : s.lock.Guarded home := Lock.Sys.guarded_of_reachable h.lock

/-! ## One step of the lock, or none -/

section Lock

omit [DecidableEq Loop]

@[simp] theorem leave_lock (o : Outcome) : (s.leave t o).lock = s.lock := by
  dsimp only [leave]
  split <;> rfl

@[simp] theorem settle_lock (branch : Branch) (cancelled : Bool) : (s.settle t branch cancelled).lock = s.lock := by
  unfold settle
  split
  · unfold reacquired
    split
    · exact leave_lock _
    · rfl
    · exact leave_lock _
  · rfl

end Lock

/-- An event that the condition sets is not the lock's. -/
theorem Sound.wakes (h : s.Sound home) {e : Fut Task} (he : s.Handled e) :
    s.lock.step home (.wakeElsewhere e) = some { s.lock with host := s.lock.host.callSoon [e] } := if_pos (h.foreign e he)

omit [DecidableEq Loop] in
theorem wait_lock (s : Sys Loop Task) (t : Task) : (s.wait home t).lock = s.lock ∨
    (s.wait home t).lock = { s.lock with host := (s.lock.host.wait t).2 } := by
  unfold wait
  split
  · exact .inr rfl
  · exact .inl (leave_lock _)

omit [DecidableEq Loop] in
/-- `_forward_notify` sets the event of a waiter, or none. -/
theorem forwardNotify_lock (s : Sys Loop Task) (t : Task) : (s.forwardNotify t).lock = s.lock ∨
    ∃ e, s.Handled e ∧ (s.forwardNotify t).lock = { s.lock with host := s.lock.host.callSoon [e] } := by
  obtain ⟨popped, hq, hwoken⟩ := handOff_wakeNext s.isOpen s.waiters
  dsimp only [forwardNotify]
  split
  · rename_i event waiters hnext
    refine .inr ⟨event, .inl ?_, rfl⟩
    have hnext' : wakeNext s.isOpen s.waiters = (some event, waiters) := hnext
    rw [hnext'] at hq hwoken
    have hmem : event ∈ (popped.filter fun w => s.isOpen w.2).map Prod.fst := by
      rw [← hwoken]
      simp
    rw [hq, List.map_append]
    obtain ⟨w, hw, rfl⟩ := List.mem_map.1 hmem
    exact List.mem_append_left _ (List.mem_map.2 ⟨w, (List.mem_filter.1 hw).1, rfl⟩)
  · exact .inl rfl

omit [DecidableEq Loop] in
theorem forwardNotify_same (s : Sys Loop Task) (t : Task) :
    (s.forwardNotify t).lock.done = s.lock.done ∧ (s.forwardNotify t).lock.holding = s.lock.holding := by
  rcases forwardNotify_lock s t with h | ⟨e, -, h⟩
  · rw [h]
    exact ⟨rfl, rfl⟩
  · rw [h]
    exact ⟨rfl, rfl⟩

/-- Every step of the condition is one step of its lock, or leaves it alone. -/
theorem Sound.step_lock (h : s.Sound home) {a : Action Loop Task} (hst : s.step home a = some s') :
    s'.lock = s.lock ∨ ∃ b, s.lock.step home b = some s'.lock := by
  have hwait : ∀ u, s.lock.live home u = true → s.lock.pc u = .outside →
      (s.wait home u).lock = s.lock ∨ ∃ b, s.lock.step home b = some (s.wait home u).lock := by
    intro u hlive hout
    refine (wait_lock s u).imp_right fun heq => ⟨.waitElsewhere u, ?_⟩
    rw [heq]
    exact if_pos ⟨hlive, hout⟩
  have hforward : ∀ u, (s.forwardNotify u).lock = s.lock ∨
      ∃ b, s.lock.step home b = some (s.forwardNotify u).lock := by
    intro u
    refine (forwardNotify_lock s u).imp_right fun ⟨e, he, heq⟩ => ⟨.wakeElsewhere e, ?_⟩
    rw [heq]
    exact h.wakes he
  cases steps_of_step hst with
  | lock b lock _ hlock => exact .inr ⟨b, hlock⟩
  | waits u hlive hout | fails u hlive hout => exact hwait u hlive hout
  | loops u | holds u | predicateRaises u | returns u e | discards u e | wasPopped u e => exact .inl rfl
  | releases u e lock _ _ hlock => exact .inr ⟨_, hlock⟩
  | refused u e => exact .inl (leave_lock _)
  | raises u e hpc =>
    have hhere := (h.seats u).here
    rw [hpc] at hhere
    exact .inr ⟨.elsewhere u false, if_pos hhere.2⟩
  | forwards u => exact hforward u
  | passesOn u o =>
    rw [leave_lock]
    exact hforward u
  | reenters u branch =>
    cases branch with
    | handler => exact .inl (leave_lock _)
    | notified => exact .inl rfl
  | acquires u branch cancelled lock _ hlock =>
    rw [settle_lock]
    exact .inr ⟨_, hlock⟩
  | acquired u branch cancelled lock _ hlock =>
    rw [settle_lock]
    exact .inr ⟨_, hlock⟩
  | interrupted u branch cancelled lock _ hlock => exact .inr ⟨_, hlock⟩
  | cancels u other lock _ hlock => exact .inr ⟨_, hlock⟩
  | cancelsWait u other lock hlock => exact .inr ⟨_, hlock⟩
  | notify n =>
    unfold notify
    split
    · exact .inl rfl
    · exact .inl rfl
  | deliver i c w popped hc hpop =>
    unfold deliver
    split
    · refine .inr ⟨.wakeElsewhere w.1, h.wakes (.inr ⟨c, List.mem_of_getElem? hc, ?_⟩)⟩
      rw [hpop]
      simp
    · exact .inl rfl

/-! ## One step for a task -/

section Seats

omit [DecidableEq Loop]

omit [DecidableEq Task] in
theorem waits_of_pc {p : Pc Task} (h : s.pc t = p) : s.waits t = p.event? := by
  rw [← h]
  rfl

/-- Nothing has changed for the task. -/
theorem Seat.same (h : s.Seat t) (hg : s.lock.Guarded home) (hp : s'.pc t = s.pc t)
    (ha : s'.asked t = true → s.asked t = true) (hl : s.lock.SameFor t s'.lock) : s'.Seat t := by
  refine ⟨?_, ?_, ?_, ?_⟩
  · rw [hp, hl.done]
    exact h.alive
  · unfold waits
    rw [hp]
    exact h.own
  · rw [hp]
    have hhere := h.here
    revert hhere
    unfold Here
    rw [hl.holding, hl.pc]
    exact id
  · rw [hp]
    intro hasked
    have hdoomed := h.doomed (ha hasked)
    revert hdoomed
    cases hpc : s.pc t with
    | waiting e => exact hl.raise e (h.own e (waits_of_pc hpc))
    | reacquiring branch cancelled =>
      have hhit : s.Hit t (s.lock.pc t) → s'.Hit t (s'.lock.pc t) := by
        rw [hl.pc]
        cases hlpc : s.lock.pc t with
        | acquiring e => exact hl.raise e (hg.linked.wired.owner t e (Lock.Sys.waits_of_pc hlpc)).1
        | _ => exact id
      cases branch with
      | handler => exact id
      | notified =>
        cases cancelled with
        | true => exact id
        | false => exact hhit
    | _ => exact id

omit [DecidableEq Task] in
theorem seat_outside (hp : s.pc t = .outside) : s.Seat t := by
  refine ⟨fun h => absurd hp h, ?_, ?_, ?_⟩
  · unfold waits
    rw [hp]
    exact fun _ he => absurd he (Option.some_ne_none _).symm
  · rw [hp]
    trivial
  · rw [hp]
    exact fun _ => trivial

/-- Where a task is once it has left `wait`. -/
theorem leave_pc (o : Outcome) :
    (s.leave t o).pc t = .outside ∨ o = .returned ∧ (s.leave t o).pc t = .evaluating := by
  dsimp only [leave]
  split
  · rename_i h
    exact .inr ⟨h.2, Function.update_self ..⟩
  · exact .inl (Function.update_self ..)

theorem leave_outcome (o : Outcome) : (s.leave t o).outcome t = some o := by
  dsimp only [leave]
  split <;> exact Function.update_self ..

/-- A task leaves `wait` that holds the lock, or does not return. -/
theorem seat_leave {o : Outcome} (h : o = .returned → s.lock.holding t = true ∧ s.lock.pc t = .outside ∧
    s.lock.done t = false) : (s.leave t o).Seat t := by
  rcases leave_pc (s := s) (t := t) o with hp | ⟨ho, hp⟩
  · exact seat_outside hp
  · obtain ⟨hhold, hpc, hdone⟩ := h ho
    refine ⟨fun _ => by rw [leave_lock]; exact hdone, ?_, ?_, ?_⟩
    · unfold waits
      rw [hp]
      exact fun _ he => absurd he (Option.some_ne_none _).symm
    · rw [hp]
      unfold Here
      rw [leave_lock]
      exact ⟨hhold, hpc⟩
    · rw [hp]
      exact fun _ => trivial

/-- The lock's owner is not in `acquire` of its own. -/
theorem holds_of_owner (hg : s.lock.Guarded home) (ho : s.lock.lock.owner = some t) (hpc : s.lock.pc t = .outside) :
    s.lock.holding t = true := by
  rcases hg.owned.owner t ho with hh | hf
  · exact hh
  · rw [Lock.Sys.not_inFlight (Lock.Sys.waits_of_pc hpc)] at hf
    cases hf

theorem seat_wait (hg : s.lock.Guarded home) (hlive : s.lock.live home t = true) (hpc : s.lock.pc t = .outside) :
    (s.wait home t).Seat t := by
  unfold wait
  split
  · rename_i ho
    have hhold := holds_of_owner hg ho hpc
    have hp : ∀ p, Function.update s.pc t p t = p := fun p => Function.update_self ..
    refine ⟨fun _ => Lock.Sys.live_done hlive, ?_, ?_, ?_⟩
    · intro e he
      have hev : some (s.lock.host.wait t).1 = some e := by
        rw [← he]
        show _ = (Function.update s.pc t _ t).event?
        rw [hp]
        rfl
      rw [← Option.some.inj hev]
      rfl
    · show Here _ t (Function.update s.pc t _ t)
      rw [hp]
      exact ⟨hhold, hpc⟩
    · intro hasked
      have hno : Function.update s.asked t false t = true := hasked
      rw [Function.update_self] at hno
      cases hno
  · exact seat_leave fun h => by cases h

/-- A task goes on in `wait`. -/
theorem seat_goto {p : Pc Task} (hdone : s.lock.done t = false) (hown : ∀ e, p.event? = some e → e.owner = t)
    (hhere : s.Here t p) (hdoomed : s.asked t = true → s.Doomed t p) : (s.goto t p).Seat t := by
  have hp : (s.goto t p).pc t = p := Function.update_self ..
  refine ⟨fun _ => hdone, ?_, ?_, ?_⟩
  · unfold waits
    rw [hp]
    exact hown
  · rw [hp]
    exact hhere
  · rw [hp]
    exact hdoomed

/-- The task has acquired the lock again, or waits for it. -/
theorem seat_settle {branch : Branch} {cancelled : Bool} (hpc : s.pc t = .reacquiring branch cancelled)
    (hdone : s.lock.done t = false) (hheld : s.lock.holding t = true → s.lock.pc t = .outside)
    (hdoomed : s.lock.holding t = false → s.asked t = true → s.Doomed t (.reacquiring branch cancelled)) :
    (s.settle t branch cancelled).Seat t := by
  have hnone : ∀ o : Outcome, (Pc.passingOn o : Pc Task).event? = none := fun _ => rfl
  unfold settle
  split
  · rename_i hhold
    unfold reacquired
    split
    · exact seat_leave fun h => by cases h
    · refine seat_goto hdone (fun e he => ?_) ⟨hhold, hheld hhold⟩ fun _ => trivial
      rw [hnone] at he
      cases he
    · exact seat_leave fun _ => ⟨hhold, hheld hhold, hdone⟩
  · rename_i hhold
    have hfalse : s.lock.holding t = false := by simpa using hhold
    refine ⟨fun _ => hdone, ?_, ?_, ?_⟩
    · unfold waits
      rw [hpc]
      exact fun _ he => absurd he (Option.some_ne_none _).symm
    · rw [hpc]
      exact hfalse
    · rw [hpc]
      exact hdoomed hfalse

end Seats

omit [DecidableEq Loop] in
/-- A task that is in `wait` takes no steps of another kind. -/
theorem allows_cases {b : Lock.Action Loop Task} (hallow : s.allows b = true) (hb : b.task? = some t) :
    s.pc t = .outside ∨ s.pc t = .evaluating ∧ (b = .waitElsewhere t ∨ ∃ c, b = .elsewhere t c) := by
  cases b with
  | acquire u => exact .inl (Option.some.inj hb ▸ of_decide_eq_true hallow)
  | resume u => exact .inl (Option.some.inj hb ▸ of_decide_eq_true hallow)
  | discard u => exact .inl (Option.some.inj hb ▸ of_decide_eq_true hallow)
  | release u => exact .inl (Option.some.inj hb ▸ of_decide_eq_true hallow)
  | finish u => exact .inl (Option.some.inj hb ▸ of_decide_eq_true hallow)
  | waitElsewhere u =>
    obtain rfl : u = t := Option.some.inj hb
    have hor : s.pc u = .outside ∨ s.pc u = .evaluating := by simpa [allows] using hallow
    exact hor.imp_right fun hp => ⟨hp, .inl rfl⟩
  | elsewhere u c =>
    obtain rfl : u = t := Option.some.inj hb
    have hor : s.pc u = .outside ∨ s.pc u = .evaluating := by simpa [allows] using hallow
    exact hor.imp_right fun hp => ⟨hp, .inr ⟨c, rfl⟩⟩
  | cancel u other => cases hb
  | runCallback i => cases hb
  | closeLoop l => cases hb
  | wakeElsewhere e => cases hb

/-- A task that acquires the lock again does not own it. -/
theorem Sound.not_owner (h : s.Sound home) {branch : Branch} {cancelled : Bool}
    (hpc : s.pc t = .reacquiring branch cancelled) (hout : s.lock.pc t = .outside) : s.lock.lock.owner ≠ some t := by
  intro howner
  have hhere := (h.seats t).here
  rw [hpc] at hhere
  cases (holds_of_owner h.guarded howner hout).symm.trans hhere

/-- A step of the user of the lock, or of a predicate. -/
theorem Sound.seat_lock (h : s.Sound home) {b : Lock.Action Loop Task} {lock : Lock.Sys Loop Task}
    (hallow : s.allows b = true) (hlock : s.lock.step home b = some lock) (hb : b.task? = some t) :
    Seat { s with lock } t := by
  have hseat := h.seats t
  rcases allows_cases hallow hb with hp | ⟨hp, hb⟩
  · exact seat_outside hp
  · obtain ⟨hdone, hhold, hout⟩ := Lock.Sys.step_elsewhere hlock hb
    have hhere := hseat.here
    rw [hp] at hhere
    refine ⟨fun _ => ?_, hseat.own, ?_, ?_⟩
    · show lock.done t = false
      rw [hdone]
      exact hseat.alive (by rw [hp]; exact nofun)
    · show Here _ t (s.pc t)
      rw [hp]
      show lock.holding t = true ∧ lock.pc t = .outside
      rw [hhold, hout]
      exact hhere
    · show _ → Doomed _ t (s.pc t)
      rw [hp]
      exact fun _ => trivial

theorem Sound.seat_release (h : s.Sound home) {e : Fut Task} {lock : Lock.Sys Loop Task} (hpc : s.pc t = .releasing e)
    (howner : s.lock.lock.owner = some t) (hlock : s.lock.step home (.release t) = some lock) :
    ({ s with lock }.goto t (.waiting e)).Seat t := by
  have hhere := (h.seats t).here
  have hdoomed := (h.seats t).doomed
  rw [hpc] at hhere hdoomed
  obtain ⟨hlive, hdone, hhold, hout⟩ := Lock.Sys.step_release hlock howner
  refine seat_goto ?_ (fun f hf => (h.seats t).own f ?_) ⟨hhold, hout.trans hhere.2⟩ fun hasked => (hdoomed hasked).elim
  · show lock.done t = false
    rw [hdone]
    exact Lock.Sys.live_done hlive
  · rw [waits_of_pc hpc]
    exact hf

/-- The event loop resumes a task in `wait`. -/
theorem Sound.seat_resume (h : s.Sound home) {e : Fut Task} (hpc : s.pc t = .waiting e)
    (hlive : s.lock.live home t = true) :
    (s.lock.host.resumption t e = some .returns → (s.goto t (.reacquiring .notified false)).Seat t) ∧
      ((s.onHost fun h => h.setMustCancel t false).goto t (.discarding e)).Seat t := by
  have hhere := (h.seats t).here
  have hdoomed := (h.seats t).doomed
  rw [hpc] at hhere hdoomed
  refine ⟨fun hr => seat_goto (Lock.Sys.live_done hlive) nofun hhere.1 fun hasked => ?_,
    seat_goto (Lock.Sys.live_done hlive) (fun f hf => (h.seats t).own f ?_) hhere fun _ => trivial⟩
  · exact absurd hr (hdoomed hasked).not_returns
  · rw [waits_of_pc hpc]
    exact hf

theorem Sound.seat_forward (h : s.Sound home) (hpc : s.pc t = .forwarding) (hlive : s.lock.live home t = true) :
    ((s.forwardNotify t).goto t (.reacquiring .handler false)).Seat t := by
  have hhere := (h.seats t).here
  rw [hpc] at hhere
  obtain ⟨hdone, hhold⟩ := forwardNotify_same s t
  refine seat_goto ?_ nofun ?_ fun _ => trivial
  · rw [hdone]
    exact Lock.Sys.live_done hlive
  · show (s.forwardNotify t).lock.holding t = false
    rw [hhold]
    exact hhere.1

/-- `_reacquire_lock`, after a step of its `acquire`. -/
theorem Sound.seat_reacquire (h : s.Sound home) {lock : Lock.Sys Loop Task} {branch : Branch} {cancelled : Bool}
    (hpc : s.pc t = .reacquiring branch cancelled) (hdone : lock.done = s.lock.done)
    (hgot : lock.holding t = true ∧ lock.pc t = .outside ∨ lock.holding t = s.lock.holding t)
    (hdoomed : lock.holding t = false → s.asked t = true → branch = .notified → cancelled = false →
      Hit { s with lock } t (lock.pc t)) : (Sys.settle { s with lock } t branch cancelled).Seat t := by
  have hhere := (h.seats t).here
  rw [hpc] at hhere
  refine seat_settle hpc ?_ (fun hhold => ?_) fun hhold hasked => ?_
  · show lock.done t = false
    rw [hdone]
    exact (h.seats t).alive (by rw [hpc]; exact nofun)
  · rcases hgot with ⟨-, hout⟩ | hsame
    · exact hout
    · cases hhere.symm.trans (hsame.symm.trans hhold)
  · cases branch with
    | handler => trivial
    | notified =>
      cases cancelled with
      | true => trivial
      | false => exact hdoomed hhold hasked rfl rfl

theorem Sound.seat_acquire (h : s.Sound home) {lock : Lock.Sys Loop Task} {branch : Branch} {cancelled : Bool}
    (hpc : s.pc t = .reacquiring branch cancelled) (hlock : s.lock.step home (.acquire t) = some lock) :
    (Sys.settle { s with lock } t branch cancelled).Seat t := by
  have hdoomed := (h.seats t).doomed
  rw [hpc] at hdoomed
  have hout := (Lock.Sys.acquire_enabled hlock).2
  obtain ⟨hdone, hgot⟩ := Lock.Sys.step_acquire hlock (h.not_owner hpc hout)
  refine h.seat_reacquire hpc hdone (hgot.imp_right And.left) ?_
  -- The flag is set already: nobody could cancel the task between two waits.
  rintro - hasked rfl rfl
  have hhit : s.Hit t (s.lock.pc t) := hdoomed hasked
  rw [hout] at hhit
  exact hhit.elim

/-- The event loop resumes a task in that `acquire`. -/
theorem Sound.seat_acquired (h : s.Sound home) {lock : Lock.Sys Loop Task} {branch : Branch} {cancelled : Bool}
    (hpc : s.pc t = .reacquiring branch cancelled) (hlock : s.lock.step home (.resume t) = some lock) :
    (Sys.settle { s with lock } t branch cancelled).Seat t := by
  obtain ⟨-, hdone, e, -, hgot⟩ := Lock.Sys.step_resume hlock
  refine h.seat_reacquire hpc hdone (hgot.imp And.right And.left) fun hhold _ _ _ => ?_
  rcases hgot with ⟨-, htrue, -⟩ | ⟨-, hout⟩
  · cases htrue.symm.trans hhold
  · rw [hout]
    trivial

theorem Sound.seat_interrupted (h : s.Sound home) {lock : Lock.Sys Loop Task} {branch : Branch} {cancelled : Bool}
    (hpc : s.pc t = .reacquiring branch cancelled) (hlock : s.lock.step home (.discard t) = some lock) :
    ({ s with lock }.goto t (.reacquiring branch true)).Seat t := by
  have hhere := (h.seats t).here
  rw [hpc] at hhere
  obtain ⟨hlive, hdone, hsame, -⟩ := Lock.Sys.step_discard hlock
  refine seat_goto ?_ nofun ?_ fun _ => ?_
  · show lock.done t = false
    rw [hdone]
    exact Lock.Sys.live_done hlive
  · show lock.holding t = false
    rw [hsame]
    exact hhere
  · cases branch with
    | handler => trivial
    | notified => trivial

/-- The task that takes a step is in order afterwards. -/
theorem Sound.seat_acting (h : s.Sound home) {a : Action Loop Task} (hst : s.step home a = some s')
    (ha : a.task? = some t) : s'.Seat t := by
  have hhere : ∀ {p : Pc Task}, s.pc t = p → s.Here t p := fun hpc => hpc ▸ (h.seats t).here
  cases steps_of_step hst with
  | lock b lock hallow hlock => exact h.seat_lock hallow hlock ha
  | waits u hlive hout | fails u hlive hout =>
    cases ha
    exact seat_wait h.guarded hlive hout
  | loops u hlive hout _ howner =>
    cases ha
    exact seat_goto (Lock.Sys.live_done hlive) nofun ⟨holds_of_owner h.guarded howner hout, hout⟩ fun _ => trivial
  | holds u | predicateRaises u =>
    cases ha
    exact seat_outside (Function.update_self ..)
  | releases u e lock hpc howner hlock =>
    cases ha
    exact h.seat_release hpc howner hlock
  | refused u e =>
    cases ha
    exact seat_leave nofun
  | returns u e hpc hlive hr =>
    cases ha
    exact (h.seat_resume hpc hlive).1 hr
  | raises u e hpc hlive =>
    cases ha
    exact (h.seat_resume hpc hlive).2
  | discards u e hpc hlive =>
    cases ha
    exact seat_goto (Lock.Sys.live_done hlive) nofun (hhere hpc).1 fun _ => trivial
  | wasPopped u e hpc hlive =>
    cases ha
    have hleft := hhere hpc
    exact seat_goto (Lock.Sys.live_done hlive) nofun hleft fun _ => trivial
  | forwards u hpc hlive =>
    cases ha
    exact h.seat_forward hpc hlive
  | passesOn u o hpc =>
    cases ha
    refine seat_leave fun ho => ?_
    subst ho
    exact (hhere hpc).elim
  | reenters u branch cancelled hpc howner hout =>
    cases ha
    exact absurd howner (h.not_owner hpc hout)
  | acquires u branch cancelled lock hpc hlock =>
    cases ha
    exact h.seat_acquire hpc hlock
  | acquired u branch cancelled lock hpc hlock =>
    cases ha
    exact h.seat_acquired hpc hlock
  | interrupted u branch cancelled lock hpc hlock =>
    cases ha
    exact h.seat_interrupted hpc hlock
  | cancels u other => cases ha
  | cancelsWait u other => cases ha
  | notify n => cases ha
  | deliver i => cases ha

/-- A suspended task that is cancelled is bound to raise. -/
theorem Sound.doomed_cancel (h : s.Sound home) {lock : Lock.Sys Loop Task}
    (hlock : s.lock.step home (.cancel t (s.pc t).event?) = some lock) (hsus : s.suspended t = true) :
    Doomed { s with lock } t (s.pc t) := by
  have hhere := (h.seats t).here
  unfold suspended at hsus
  split at hsus
  · rename_i e hpc
    rw [hpc] at hlock hhere ⊢
    have hout : s.lock.pc t = .outside := hhere.2
    have hown : e.owner = t := (h.seats t).own e (waits_of_pc hpc)
    have hall : (Pc.waiting e).event?.all (fun f => decide (f.owner = t)) = true := by simp [Pc.event?, hown]
    simp only [Lock.Sys.step, hout] at hlock
    rw [if_pos hall] at hlock
    cases hlock
    exact Host.mustRaise_cancel t e
  · rename_i branch cancelled hpc
    rw [hpc]
    split at hsus
    · rename_i e hlpc
      simp only [Lock.Sys.step, hlpc] at hlock
      cases hlock
      cases branch with
      | handler => trivial
      | notified =>
        cases cancelled with
        | true => trivial
        | false =>
          show Hit _ t (s.lock.pc t)
          rw [hlpc]
          exact Host.mustRaise_cancel t e
    · cases hsus
  · cases hsus

/-- A task is cancelled in `wait`, or another one is. -/
theorem Sound.seat_cancelled (h : s.Sound home) {lock : Lock.Sys Loop Task}
    (hlock : s.lock.step home (.cancel u (s.pc u).event?) = some lock) :
    Seat { s with lock, asked := Function.update s.asked u (s.asked u || suspended { s with lock } u) } t := by
  have hsame : Seat { s with lock } t :=
    (h.seats t).same h.guarded rfl id (Lock.Sys.step_other hlock (by exact nofun))
  refine ⟨hsame.alive, hsame.own, hsame.here, ?_⟩
  show Function.update s.asked u _ t = true → Doomed { s with lock } t (s.pc t)
  by_cases htu : t = u
  · subst htu
    rw [Function.update_self]
    intro hor
    rcases Bool.or_eq_true _ _ ▸ hor with hasked | hsus
    · exact hsame.doomed hasked
    · apply h.doomed_cancel hlock
      have hlpc := (Lock.Sys.step_other (t := t) hlock (by exact nofun)).pc
      unfold suspended at hsus ⊢
      rw [← hlpc]
      exact hsus
  · rw [Function.update_of_ne htu]
    exact hsame.doomed

/-- A task that does not take the step stays in order. -/
theorem Sound.seat_other (h : s.Sound home) {a : Action Loop Task} (hst : s.step home a = some s')
    (ha : a.task? ≠ some t) : s'.Seat t := by
  have hseat := h.seats t
  cases htask : a.task? with
  | some u =>
    have hut : t ≠ u := by
      rintro rfl
      exact ha htask
    have hframe := step_frame hst htask
    exact hseat.same h.guarded (hframe.pc t hut) (fun hb => hframe.asked t hut ▸ hb) (hframe.lock t hut)
  | none =>
    cases steps_of_step hst with
    | lock b lock _ hlock => exact hseat.same h.guarded rfl id (Lock.Sys.step_other hlock ha)
    | cancels u other lock _ hlock => exact hseat.same h.guarded rfl id (Lock.Sys.step_other hlock (by exact nofun))
    | cancelsWait u other lock hlock => exact h.seat_cancelled hlock
    | notify n =>
      unfold notify
      split
      · exact hseat
      · exact hseat.same h.guarded rfl id .refl
    | deliver i c w popped =>
      unfold deliver
      split
      · exact hseat.same h.guarded rfl id (Lock.Sys.sameFor_host fun _ _ hm => hm)
      · exact hseat.same h.guarded rfl id .refl
    | _ => cases htask

/-! ## Every run -/

section Handled

omit [DecidableEq Loop]

@[simp] theorem leave_waiters (o : Outcome) : (s.leave t o).waiters = s.waiters := by
  dsimp only [leave]
  split <;> rfl

@[simp] theorem leave_calls (o : Outcome) : (s.leave t o).calls = s.calls := by
  dsimp only [leave]
  split <;> rfl

@[simp] theorem settle_waiters (branch : Branch) (cancelled : Bool) :
    (s.settle t branch cancelled).waiters = s.waiters := by
  unfold settle reacquired
  split
  · split
    · exact leave_waiters _
    · rfl
    · exact leave_waiters _
  · rfl

@[simp] theorem settle_calls (branch : Branch) (cancelled : Bool) :
    (s.settle t branch cancelled).calls = s.calls := by
  unfold settle reacquired
  split
  · split
    · exact leave_calls _
    · rfl
    · exact leave_calls _
  · rfl

omit [DecidableEq Task] in
theorem handled_of {e : Fut Task} (h : s'.Handled e) (hw : ∀ w ∈ s'.waiters, w ∈ s.waiters)
    (hc : s'.calls = s.calls) :
    s.Handled e := by
  refine h.imp (fun he => ?_) fun he => hc ▸ he
  obtain ⟨w, hm, rfl⟩ := List.mem_map.1 he
  exact List.mem_map.2 ⟨w, hw w hm, rfl⟩

theorem forwardNotify_handled {e : Fut Task} (h : (s.forwardNotify t).Handled e) : s.Handled e := by
  have hsub : ∀ w ∈ (wakeNext s.isOpen s.waiters).2, w ∈ s.waiters := by
    obtain ⟨popped, hq, -⟩ := handOff_wakeNext s.isOpen s.waiters
    intro w hw
    rw [hq]
    exact List.mem_append_right _ hw
  dsimp only [forwardNotify] at h
  split at h
  · rename_i event waiters hnext
    have hnext' : wakeNext s.isOpen s.waiters = (some event, waiters) := hnext
    rw [hnext'] at hsub
    exact handled_of h hsub rfl
  · rename_i waiters hnext
    have hnext' : wakeNext s.isOpen s.waiters = (none, waiters) := hnext
    rw [hnext'] at hsub
    exact handled_of h hsub rfl

theorem wait_handled {e : Fut Task} (hpc : s.lock.pc t = .outside) (h : (s.wait home t).Handled e) :
    s.Handled e ∨ (s.wait home t).lock.Foreign e := by
  unfold wait at h ⊢
  split at h
  · rename_i ho
    rw [if_pos ho]
    rcases h with he | he
    · have happ : e ∈ s.waiters.map Prod.fst ++ [(s.lock.host.wait t).1] := by
        rw [← List.map_singleton (f := Prod.fst) (a := ((s.lock.host.wait t).1, home t)), ← List.map_append]
        exact he
      rcases List.mem_append.1 happ with he | he
      · exact .inl (.inl he)
      · rw [List.mem_singleton.1 he]
        refine .inr ⟨?_, ?_⟩
        · show s.lock.waits t ≠ _
          rw [Lock.Sys.waits_of_pc hpc]
          exact (Option.some_ne_none _).symm
        · show s.lock.host.created t < Function.update s.lock.host.created t (s.lock.host.created t + 1) t
          rw [Function.update_self]
          exact Nat.lt_succ_self _
    · exact .inl (.inr he)
  · exact .inl (handled_of h (fun w hw => leave_waiters (s := s) .error ▸ hw) (leave_calls _))

theorem notify_handled {e : Fut Task} {n : Int} (h : (s.notify n).Handled e) : s.Handled e := by
  unfold notify at h
  split at h
  · exact h
  · rcases h with he | ⟨c, hc, he⟩
    · refine .inl ?_
      obtain ⟨w, hw, rfl⟩ := List.mem_map.1 he
      exact List.mem_map.2 ⟨w, List.mem_of_mem_drop hw, rfl⟩
    · rcases List.mem_append.1 hc with hc | hc
      · exact .inr ⟨c, hc, he⟩
      · rw [List.mem_singleton.1 hc] at he
        refine .inl ?_
        obtain ⟨w, hw, rfl⟩ := List.mem_map.1 he
        exact List.mem_map.2 ⟨w, List.mem_of_mem_take hw, rfl⟩

omit [DecidableEq Task] in
theorem deliver_handled {e : Fut Task} {i : Nat} {c : Call Loop Task} {w : Waiter Loop Task}
    {popped : List (Waiter Loop Task)} (hc : s.calls[i]? = some c) (hpop : c.popped = w :: popped)
    (h : (s.deliver i c w popped).Handled e) : s.Handled e := by
  have hset : ∀ d : Call Loop Task, d.popped = popped →
      (∃ c' ∈ s.calls.set i d, e ∈ c'.popped.map Prod.fst) → ∃ c' ∈ s.calls, e ∈ c'.popped.map Prod.fst := by
    rintro d hd ⟨c', hc', he⟩
    rcases List.mem_or_eq_of_mem_set hc' with hm | rfl
    · exact ⟨c', hm, he⟩
    · refine ⟨c, List.mem_of_getElem? hc, ?_⟩
      rw [hpop, List.map_cons]
      rw [hd] at he
      exact List.mem_cons_of_mem _ he
  unfold deliver at h
  split at h
  · exact h.imp_right (hset _ rfl)
  · exact h.imp_right (hset _ rfl)

end Handled

/-- The condition takes up no event but new ones of its waiters. -/
theorem step_handled {a : Action Loop Task} (hst : s.step home a = some s') {e : Fut Task} (he : s'.Handled e) :
    s.Handled e ∨ s'.lock.Foreign e := by
  have hleft : ∀ {r : Sys Loop Task} {u : Task} {o : Outcome}, (r.leave u o).Handled e → r.Handled e := fun he =>
    handled_of he (fun w hw => by rwa [leave_waiters] at hw) (leave_calls _)
  have hsettled : ∀ {r : Sys Loop Task} {u : Task} {branch : Branch} {cancelled : Bool},
      (r.settle u branch cancelled).Handled e → r.Handled e := fun he =>
    handled_of he (fun w hw => by rwa [settle_waiters] at hw) (settle_calls _ _)
  have hdiscarded : ∀ {f : Fut Task}, (s.discardWaiter f).Handled e → s.Handled e := fun he =>
    handled_of he (fun w hw => (List.mem_filter.1 hw).1) rfl
  cases steps_of_step hst with
  | waits u _ hout | fails u _ hout => exact wait_handled hout he
  | refused u f => exact .inl (hdiscarded (hleft he))
  | discards u f => exact .inl (hdiscarded (f := f) he)
  | forwards u => exact .inl (forwardNotify_handled he)
  | passesOn u o => exact .inl (forwardNotify_handled (hleft he))
  | reenters u branch =>
    cases branch with
    | handler => exact .inl (hleft he)
    | notified => exact .inl he
  | acquires u branch cancelled lock | acquired u branch cancelled lock => exact .inl (hsettled (r := { s with lock }) he)
  | notify n => exact .inl (notify_handled he)
  | deliver i c w popped hc hpop => exact .inl (deliver_handled hc hpop he)
  | _ => exact .inl he

theorem Sound.step (h : s.Sound home) {a : Action Loop Task} (hst : s.step home a = some s') : s'.Sound home := by
  refine ⟨?_, fun t => ?_, fun e he => ?_⟩
  · rcases h.step_lock hst with hlock | ⟨b, hlock⟩
    · rw [hlock]
      exact h.lock
    · exact h.lock.next b trivial hlock
  · by_cases ha : a.task? = some t
    · exact h.seat_acting hst ha
    · exact h.seat_other hst ha
  · rcases step_handled hst he with hold | hnew
    · rcases h.step_lock hst with hlock | ⟨b, hlock⟩
      · rw [hlock]
        exact h.foreign e hold
      · exact h.guarded.linked.step_foreign hlock (h.foreign e hold)
    · exact hnew

theorem sound_of_reachable (h : (tasks home).Reachable s) : s.Sound home := by
  apply h.inv
  · intro s hs
    obtain rfl : s = new := hs
    exact sound_new
  · intro s a s' hs hst
    exact hs.step hst

/-! ## How `wait` ends -/

/-- A task that is on its way out of `wait` holds the lock. -/
theorem Sound.owner_of_holding (h : s.Sound home) (hhold : s.lock.holding t = true) (hdone : s.lock.done t = false) :
    s.lock.lock.owner = some t := h.guarded.owned.holder t hhold hdone

omit [DecidableEq Loop] in
/-- `_reacquire_lock` ends `wait` only if the task holds the lock; the task
does not return if it was cancelled. -/
theorem ends_settle {branch : Branch} {cancelled : Bool} (hpc : s.pc t = .reacquiring branch cancelled)
    (hend : ((s.settle t branch cancelled).pc t).inWait = false) :
    s.lock.holding t = true ∧ ((s.settle t branch cancelled).outcome t = some .cancelled ∨
      (s.settle t branch cancelled).outcome t = some .returned ∧ branch = .notified ∧ cancelled = false) := by
  unfold settle at hend ⊢
  split at hend
  · rename_i hhold
    rw [if_pos hhold]
    refine ⟨hhold, ?_⟩
    unfold reacquired at hend ⊢
    split at hend
    · exact .inl (leave_outcome _)
    · have hp : (s.goto t (.passingOn .cancelled)).pc t = .passingOn .cancelled := Function.update_self ..
      rw [hp] at hend
      cases hend
    · exact .inr ⟨leave_outcome _, rfl, rfl⟩
  · rw [hpc] at hend
    cases hend

/-- A task goes on by its own steps only. -/
theorem step_pc {a : Action Loop Task} (hst : s.step home a = some s') (ha : a.task? ≠ some t) : s'.pc t = s.pc t := by
  cases htask : a.task? with
  | some u =>
    have hut : t ≠ u := by
      rintro rfl
      exact ha htask
    exact (step_frame hst htask).pc t hut
  | none =>
    cases steps_of_step hst with
    | lock b | cancels u other | cancelsWait u other => rfl
    | notify n =>
      unfold notify
      split <;> rfl
    | deliver i c w popped =>
      unfold deliver
      split <;> rfl
    | _ => cases htask

/-- How the lock and the outcome stand when a task's `wait` has ended. -/
def Ended (s s' : Sys Loop Task) (t : Task) : Prop :=
  s'.lock.lock.owner = some t ∧ (s'.outcome t = some .cancelled ∨ s'.outcome t = some .returned ∧ s.asked t = false)

/-- A task that was cancelled while it waited has its lock back, and passes the notification on. -/
theorem Sound.ends_passing (h : s.Sound home) {o : Outcome} (h' : ((s.forwardNotify t).leave t o).Sound home)
    (hpc : s.pc t = .passingOn o) : s.Ended ((s.forwardNotify t).leave t o) t := by
  have hhere := (h.seats t).here
  rw [hpc] at hhere
  obtain ⟨hdone, hhold⟩ := forwardNotify_same s t
  cases o with
  | returned => exact hhere.elim
  | error => exact hhere.elim
  | cancelled =>
    refine ⟨h'.owner_of_holding ?_ ?_, .inl (leave_outcome _)⟩
    · rw [leave_lock, hhold]
      exact hhere.1
    · rw [leave_lock, hdone]
      exact (h.seats t).alive (by rw [hpc]; exact nofun)

/-- `_reacquire_lock` ends `wait`, after a step of its `acquire`. -/
theorem Sound.ends_reacquiring (h : s.Sound home) {lock : Lock.Sys Loop Task} {branch : Branch} {cancelled : Bool}
    (h' : (Sys.settle { s with lock } t branch cancelled).Sound home) (hpc : s.pc t = .reacquiring branch cancelled)
    (hdone : lock.done = s.lock.done)
    (hend : ((Sys.settle { s with lock } t branch cancelled).pc t).inWait = false)
    (hhit : lock.holding t = true → ¬ s.Hit t (s.lock.pc t)) :
    s.Ended (Sys.settle { s with lock } t branch cancelled) t := by
  have hdoomed := (h.seats t).doomed
  rw [hpc] at hdoomed
  obtain ⟨hhold, hended⟩ := ends_settle (s := { s with lock }) hpc hend
  refine ⟨h'.owner_of_holding ?_ ?_, hended.imp_right fun hr => ⟨hr.1, ?_⟩⟩
  · rw [settle_lock]
    exact hhold
  · rw [settle_lock]
    show lock.done t = false
    rw [hdone]
    exact (h.seats t).alive (by rw [hpc]; exact nofun)
  · obtain ⟨-, rfl, rfl⟩ := hr
    by_contra hasked
    exact hhit hhold (hdoomed (by simpa using hasked))

/-- When a task's `wait` ends, the task owns the lock; and `wait` raises
`CancelledError` if the task was cancelled. -/
theorem Sound.wait_ends (h : s.Sound home) {a : Action Loop Task} (hst : s.step home a = some s')
    (hin : (s.pc t).inWait = true) (hend : (s'.pc t).inWait = false) :
    s'.lock.lock.owner = some t ∧
      (s'.outcome t = some .cancelled ∨ s'.outcome t = some .returned ∧ s.asked t = false) := by
  have h' := h.step hst
  have hacting : a.task? = some t := by
    by_contra ha
    rw [step_pc hst ha, hin] at hend
    cases hend
  -- It was not in `wait` before, or it is so still.
  have hnot : ∀ {p : Pc Task}, s.pc t = p → p.inWait = false → s.Ended s' t := fun hp hfalse => by
    rw [hp, hfalse] at hin
    cases hin
  have hstays : ∀ {r : Sys Loop Task} {p : Pc Task}, s' = r.goto t p → p.inWait = true → s.Ended s' t := by
    intro r p hs' hp
    have hpc : s'.pc t = p := by
      rw [hs']
      exact Function.update_self ..
    rw [hpc, hp] at hend
    cases hend
  cases steps_of_step hst with
  | lock b lock hallow =>
    rcases allows_cases hallow hacting with hp | ⟨hp, -⟩
    · exact hnot hp rfl
    · exact hnot hp rfl
  | waits u _ _ hpc | loops u _ _ hpc | holds u hpc | fails u _ _ hpc | predicateRaises u hpc =>
    cases hacting
    exact hnot hpc rfl
  | releases u e | returns u e | raises u e | discards u e | wasPopped u e | forwards u | interrupted u branch =>
    cases hacting
    exact hstays rfl rfl
  | refused u e hpc hno =>
    cases hacting
    have hhere := (h.seats t).here
    rw [hpc] at hhere
    exact absurd (h.owner_of_holding hhere.1 ((h.seats t).alive (by rw [hpc]; exact nofun))) hno
  | passesOn u o hpc =>
    cases hacting
    exact h.ends_passing h' hpc
  | reenters u branch cancelled hpc howner hout =>
    cases hacting
    exact absurd howner (h.not_owner hpc hout)
  | acquires u branch cancelled lock hpc hlock =>
    cases hacting
    have hout := (Lock.Sys.acquire_enabled hlock).2
    refine h.ends_reacquiring h' hpc (Lock.Sys.step_acquire hlock (h.not_owner hpc hout)).1 hend fun _ hhit => ?_
    rw [hout] at hhit
    exact hhit
  | acquired u branch cancelled lock hpc hlock =>
    cases hacting
    have hhere := (h.seats t).here
    rw [hpc] at hhere
    obtain ⟨-, hdone, e, hlpc, hgot⟩ := Lock.Sys.step_resume hlock
    refine h.ends_reacquiring h' hpc hdone hend fun hhold hhit => ?_
    rw [hlpc] at hhit
    rcases hgot with ⟨hreturns, -, -⟩ | ⟨hsame, -⟩
    · exact hhit.not_returns hreturns
    · cases hhere.symm.trans (hsame.symm.trans hhold)
  | cancels u other => cases hacting
  | cancelsWait u other => cases hacting
  | notify n => cases hacting
  | deliver i => cases hacting

/-- When a task's `wait_for` ends by its predicate, the task owns the lock. -/
theorem Sound.waitFor_ends (h : s.Sound home) {a : Action Loop Task} (hst : s.step home a = some s')
    (hin : s.pc t = .evaluating) (hend : s'.pc t = .outside) : s'.lock.lock.owner = some t := by
  have hhere := (h.seats t).here
  rw [hin] at hhere
  have howner : s.lock.lock.owner = some t :=
    h.owner_of_holding hhere.1 ((h.seats t).alive (by rw [hin]; exact nofun))
  have hacting : a.task? = some t := by
    by_contra ha
    rw [step_pc hst ha, hin] at hend
    cases hend
  have hother : ∀ {p : Pc Task}, s.pc t = p → p ≠ .evaluating → s'.lock.lock.owner = some t :=
    fun hp hne => absurd (hp.symm.trans hin) hne
  cases steps_of_step hst with
  | lock b lock => exact absurd (hin.symm.trans hend) nofun
  | holds u | predicateRaises u =>
    cases hacting
    exact howner
  | fails u =>
    cases hacting
    unfold wait at hend
    rw [if_pos howner] at hend
    have hp : Function.update s.pc t (.releasing (s.lock.host.wait t).1) t = .outside := hend
    rw [Function.update_self] at hp
    cases hp
  | waits u _ _ hpc | loops u _ _ hpc | releases u e lock hpc | refused u e hpc | returns u e hpc | raises u e hpc
  | discards u e hpc | wasPopped u e hpc | forwards u hpc | passesOn u o hpc | reenters u branch cancelled hpc
  | acquires u branch cancelled lock hpc | acquired u branch cancelled lock hpc
  | interrupted u branch cancelled lock hpc =>
    cases hacting
    exact hother hpc nofun
  | cancels u other => cases hacting
  | cancelsWait u other => cases hacting
  | notify n => cases hacting
  | deliver i => cases hacting

end Sys

variable [DecidableEq Task] [DecidableEq Loop] {home : Task → Loop} {s : Sys Loop Task}

/-- In every run of tasks over a condition, however often they are cancelled:
when a task's `wait` ends, the task owns the lock, and `wait` raises
`CancelledError` unless the task was not cancelled while it was suspended
there; when a task's `wait_for` ends by its predicate, the task owns the lock. -/
theorem wait_ends_with_lock (h : (tasks home).Reachable s) :
    (∀ a s' t, s.step home a = some s' → (s.pc t).inWait = true → (s'.pc t).inWait = false →
      s'.lock.lock.owner = some t ∧
        (s'.outcome t = some .cancelled ∨ s'.outcome t = some .returned ∧ s.asked t = false)) ∧
    ∀ a s' t, s.step home a = some s' → s.pc t = .evaluating → s'.pc t = .outside → s'.lock.lock.owner = some t := by
  have hsound := Sys.sound_of_reachable h
  refine ⟨fun a s' t hst hin hend => hsound.wait_ends hst hin hend, ?_⟩
  intro a s' t hst hin hend
  exact hsound.waitFor_ends hst hin hend

/-- A task is cancelled in `wait`, and again while it acquires the lock. -/
theorem wait_ends_with_lock_cancelled : ∃ s s' : Sys Unit Nat,
    s.step (fun _ => ()) (.resumeAcquire 0) = some s' ∧ s'.lock.lock.owner = some 0 ∧
      (s'.outcome 0 = some .cancelled ∨ s'.outcome 0 = some .returned ∧ s.asked 0 = false) := by
  have hrun : (tasks fun _ => ()).run Sys.new
      [.lock (.acquire 0), .wait 0, .release 0, .lock (.acquire 1), .cancel 0 none, .resume 0, .discard 0, .acquire 0,
        .cancel 0 none, .resumeAcquire 0, .discardAcquire 0, .acquire 0, .lock (.release 1),
        .lock (.runCallback 0)] = some _ := rfl
  exact ⟨_, _, rfl, (wait_ends_with_lock (System.reachable_of_run rfl hrun)).1 (.resumeAcquire 0) _ 0 rfl rfl rfl⟩

end Multiloop.Sync.Condition
