import Multiloop.Sync.Ownership

/-!
# What a step of the lock leaves alone

A task's own state changes only in its own steps (`step_other`), and an event
that is not the lock's stays so and is not woken (`step_apart`).
-/

namespace Multiloop.Sync.Lock

variable {Loop Task : Type}

/-- The task that takes the step, if one does. -/
def Action.task? : Action Loop Task → Option Task
  | .acquire t | .resume t | .discard t | .release t | .finish t | .waitElsewhere t | .elsewhere t _ => some t
  | .cancel _ _ | .runCallback _ | .closeLoop _ | .wakeElsewhere _ => none

namespace Sys

variable [DecidableEq Task] {home : Task → Loop} {s s' s'' : Sys Loop Task} {t u : Task}

/-- From `s` to `s'` nothing has changed for task `t`, but that it may have
been cancelled. -/
structure SameFor (t : Task) (s s' : Sys Loop Task) : Prop where
  pc : s'.pc t = s.pc t
  holding : s'.holding t = s.holding t
  done : s'.done t = s.done t
  raise : ∀ e, e.owner = t → s.host.mustRaise t e → s'.host.mustRaise t e

omit [DecidableEq Task] in
theorem SameFor.refl : SameFor t s s := ⟨rfl, rfl, rfl, fun _ _ hm => hm⟩

omit [DecidableEq Task] in
theorem SameFor.trans (h : SameFor t s s') (h' : SameFor t s' s'') : SameFor t s s'' where
  pc := h'.pc.trans h.pc
  holding := h'.holding.trans h.holding
  done := h'.done.trans h.done
  raise e he hm := h'.raise e he (h.raise e he hm)

omit [DecidableEq Task] in
theorem sameFor_releaseLocked : SameFor t s (s.releaseLocked home) := ⟨rfl, rfl, rfl, fun _ _ hm => hm⟩

theorem sameFor_goto (hne : t ≠ u) (p : Pc Task) : SameFor t s (s.goto u p) :=
  ⟨Function.update_of_ne hne .., rfl, rfl, fun _ _ hm => hm⟩

theorem sameFor_hold (hne : t ≠ u) (b : Bool) : SameFor t s (s.hold u b) :=
  ⟨rfl, Function.update_of_ne hne .., rfl, fun _ _ hm => hm⟩

omit [DecidableEq Task] in
/-- A change of the host alone. -/
theorem sameFor_host {host : Host Loop Task} (h : ∀ e, e.owner = t → s.host.mustRaise t e → host.mustRaise t e) :
    SameFor t s { s with host } := ⟨rfl, rfl, rfl, h⟩

theorem sameFor_enter (hne : t ≠ u) : SameFor t s (s.enter u) := by
  unfold enter
  split
  · exact ⟨rfl, Function.update_of_ne hne .., rfl, fun _ _ hm => hm⟩
  · exact ⟨Function.update_of_ne hne .., rfl, rfl, fun e he hm => hm.wait he hne⟩

theorem sameFor_acquire (hne : t ≠ u) : SameFor t s (s.acquire home u) := by
  unfold acquire
  split
  · exact .refl
  · split
    · exact sameFor_releaseLocked.trans (sameFor_enter hne)
    · exact sameFor_enter hne

theorem sameFor_resume (hne : t ≠ u) {e : Fut Task} (hr : s.resume u e = some s') : SameFor t s s' := by
  unfold resume at hr
  split at hr
  · cases hr
    exact (sameFor_hold hne true).trans (sameFor_goto hne _)
  · cases hr
    exact (sameFor_host fun f _ hm => hm.setMustCancel hne false).trans (sameFor_goto hne _)
  · cases hr

theorem sameFor_discard (hne : t ≠ u) (e : Fut Task) : SameFor t s (s.discard home u e) := by
  have hleft : SameFor t s (s.discardWaiter e) := ⟨rfl, rfl, rfl, fun _ _ hm => hm⟩
  dsimp only [discard]
  split
  · exact (hleft.trans sameFor_releaseLocked).trans (sameFor_goto hne _)
  · exact hleft.trans (sameFor_goto hne _)

theorem sameFor_release (hne : t ≠ u) : SameFor t s (s.release home u) := by
  unfold release
  split
  · exact sameFor_releaseLocked.trans (sameFor_hold hne false)
  · exact .refl

variable [DecidableEq Loop]

/-- A step that task `t` does not take changes nothing for it. -/
theorem step_other {a : Action Loop Task} (hst : s.step home a = some s') (hne : a.task? ≠ some t) : SameFor t s s' := by
  have hother : ∀ u, some u ≠ some t → t ≠ u := fun u h htu => h (congrArg some htu.symm)
  cases a with
  | acquire u =>
    simp only [step] at hst
    split at hst
    · cases hst
      exact sameFor_acquire (hother u hne)
    · cases hst
  | resume u =>
    simp only [step] at hst
    split at hst
    · split at hst
      · exact sameFor_resume (hother u hne) hst
      · cases hst
    · cases hst
  | discard u =>
    simp only [step] at hst
    split at hst
    · split at hst
      · cases hst
        exact sameFor_discard (hother u hne) _
      · cases hst
    · cases hst
  | release u =>
    simp only [step] at hst
    split at hst
    · cases hst
      exact sameFor_release (hother u hne)
    · cases hst
  | finish u =>
    simp only [step] at hst
    split at hst
    · cases hst
      exact ⟨rfl, rfl, Function.update_of_ne (hother u hne) .., fun _ _ hm => hm⟩
    · cases hst
  | cancel u other =>
    simp only [step] at hst
    split at hst
    · cases hst
      exact sameFor_host fun e _ hm => hm.cancel u _
    · cases hst
      exact sameFor_host fun e _ hm => hm.cancel u _
    · split at hst
      · cases hst
        exact sameFor_host fun e _ hm => hm.cancel u _
      · cases hst
  | runCallback i =>
    simp only [step, Option.map_eq_some_iff] at hst
    obtain ⟨host, hr, rfl⟩ := hst
    exact sameFor_host fun e _ hm => hm.runCallback hr
  | closeLoop l =>
    simp only [step, Option.some.injEq] at hst
    rw [← hst]
    exact sameFor_host fun e _ hm => hm
  | waitElsewhere u =>
    simp only [step] at hst
    split at hst
    · cases hst
      exact sameFor_host fun e he hm => hm.wait he (hother u hne)
    · cases hst
  | wakeElsewhere e =>
    simp only [step] at hst
    split at hst
    · cases hst
      exact sameFor_host fun e _ hm => hm
    · cases hst
  | elsewhere u b =>
    simp only [step] at hst
    split at hst
    · cases hst
      exact sameFor_host fun e _ hm => hm.setMustCancel (hother u hne) b
    · cases hst

/-! ## A task's own steps -/

theorem acquire_enabled (hst : s.step home (.acquire t) = some s') : s.live home t = true ∧ s.pc t = .outside := by
  simp only [step] at hst
  split at hst
  · rename_i h
    exact h
  · cases hst

theorem step_acquire (hst : s.step home (.acquire t) = some s') (hne : s.lock.owner ≠ some t) :
    s'.done = s.done ∧
      (s'.holding t = true ∧ s'.pc t = .outside ∨ s'.holding t = s.holding t ∧ ∃ e, s'.pc t = .acquiring e) := by
  have henter : ∀ r : Sys Loop Task, r.pc t = .outside → (r.enter t).done = r.done ∧
      ((r.enter t).holding t = true ∧ (r.enter t).pc t = .outside ∨
        (r.enter t).holding t = r.holding t ∧ ∃ e, (r.enter t).pc t = .acquiring e) := by
    intro r hr
    unfold enter
    split
    · exact ⟨rfl, .inl ⟨Function.update_self .., hr⟩⟩
    · exact ⟨rfl, .inr ⟨rfl, _, Function.update_self ..⟩⟩
  simp only [step] at hst
  split at hst
  · rename_i h
    cases hst
    unfold acquire
    rw [if_neg hne]
    split
    · exact henter (s.releaseLocked home) h.2
    · exact henter s h.2
  · cases hst

theorem step_resume (hst : s.step home (.resume t) = some s') :
    s.live home t = true ∧ s'.done = s.done ∧ ∃ e, s.pc t = .acquiring e ∧
      (s.host.resumption t e = some .returns ∧ s'.holding t = true ∧ s'.pc t = .outside ∨
        s'.holding t = s.holding t ∧ s'.pc t = .discarding e) := by
  simp only [step] at hst
  split at hst
  · rename_i e hpc
    split at hst
    · rename_i hlive
      unfold resume at hst
      split at hst
      · rename_i hr
        cases hst
        exact ⟨hlive, rfl, e, hpc, .inl ⟨hr, Function.update_self .., Function.update_self ..⟩⟩
      · cases hst
        exact ⟨hlive, rfl, e, hpc, .inr ⟨rfl, Function.update_self ..⟩⟩
      · cases hst
    · cases hst
  · cases hst

theorem step_discard (hst : s.step home (.discard t) = some s') :
    s.live home t = true ∧ s'.done = s.done ∧ s'.holding t = s.holding t ∧ s'.pc t = .outside := by
  simp only [step] at hst
  split at hst
  · split at hst
    · rename_i hlive
      cases hst
      dsimp only [discard]
      split
      · exact ⟨hlive, rfl, rfl, Function.update_self ..⟩
      · exact ⟨hlive, rfl, rfl, Function.update_self ..⟩
    · cases hst
  · cases hst

theorem step_release (hst : s.step home (.release t) = some s') (ho : s.lock.owner = some t) :
    s.live home t = true ∧ s'.done = s.done ∧ s'.holding t = false ∧ s'.pc t = s.pc t := by
  simp only [step] at hst
  split at hst
  · rename_i h
    cases hst
    unfold release
    rw [if_pos ho]
    exact ⟨h.1, rfl, Function.update_self .., rfl⟩
  · cases hst

/-- A task's own code outside of `acquire` and `release` leaves the lock alone. -/
theorem step_elsewhere {a : Action Loop Task} (hst : s.step home a = some s')
    (ha : a = .waitElsewhere t ∨ ∃ b, a = .elsewhere t b) :
    s'.done = s.done ∧ s'.holding = s.holding ∧ s'.pc = s.pc := by
  rcases ha with rfl | ⟨b, rfl⟩
  · simp only [step] at hst
    split at hst
    · cases hst
      exact ⟨rfl, rfl, rfl⟩
    · cases hst
  · simp only [step] at hst
    split at hst
    · cases hst
      exact ⟨rfl, rfl, rfl⟩
    · cases hst

/-! ## Events of other kinds -/

/-- An event that was created and is not the lock's. -/
def Foreign (s : Sys Loop Task) (e : Fut Task) : Prop :=
  s.waits e.owner ≠ some e ∧ e.serial < s.host.created e.owner

/-- From `s` to `s'` no loop was closed, and nothing has changed for the events
of other kinds. -/
structure Apart (s s' : Sys Loop Task) : Prop where
  closed : s'.host.closed = s.host.closed
  foreign : ∀ e, s.Foreign e → s'.Foreign e
  woken : ∀ e, s.Foreign e → s'.host.woken e = s.host.woken e

omit [DecidableEq Loop] in
theorem Apart.trans (h : Apart s s') (h' : Apart s' s'') : Apart s s'' where
  closed := h'.closed.trans h.closed
  foreign e he := h'.foreign e (h.foreign e he)
  woken e he := (h'.woken e (h.foreign e he)).trans (h.woken e he)

omit [DecidableEq Loop] in
/-- A change that touches neither who waits nor what is woken. -/
theorem apart_of (hc : s'.host.closed = s.host.closed) (hcr : s'.host.created = s.host.created)
    (hw : s'.waits = s.waits) (hk : ∀ e, s'.host.woken e = s.host.woken e) : Apart s s' := by
  refine ⟨hc, fun e he => ?_, fun e _ => hk e⟩
  unfold Foreign
  rw [hw, hcr]
  exact he

omit [DecidableEq Loop] in
/-- A task stops waiting for the lock. -/
theorem apart_gotoOutside : Apart s (s.goto u .outside) := by
  refine ⟨rfl, fun e he => ⟨?_, he.2⟩, fun _ _ => rfl⟩
  by_cases hu : e.owner = u
  · rw [hu, waits_outside]
    simp
  · rw [waits_other hu]
    exact he.1

omit [DecidableEq Loop] in
theorem Linked.apart_releaseLocked (hl : s.Linked home) : Apart s (s.releaseLocked home) := by
  obtain ⟨popped, hhost, hq, -, -⟩ := hl.released
  have hwaits : (s.releaseLocked home).waits = s.waits := rfl
  refine ⟨by rw [hhost, callSoon_closed], fun e he => ?_, fun e he => ?_⟩
  · unfold Foreign
    rw [hhost, hwaits, callSoon_created]
    exact he
  · -- Only waiters of the lock are woken.
    have hnot : e ∉ (popped.map Prod.fst).filter fun e => ! s.host.closed (home e.owner) := by
      intro hm
      apply he.1
      apply hl.wired.waited
      rw [hq, List.map_append]
      exact List.mem_append_left _ (List.mem_filter.1 hm).1
    rw [hhost, callSoon_woken, decide_eq_false hnot, Bool.false_or]

omit [DecidableEq Loop] in
theorem apart_enter : Apart s (s.enter u) := by
  unfold enter
  split
  · exact apart_of rfl rfl rfl fun _ => rfl
  · refine ⟨rfl, fun e he => ⟨?_, ?_⟩, fun _ _ => rfl⟩
    · rw [waits_goto]
      by_cases hu : e.owner = u
      · rw [hu, Function.update_self]
        intro heq
        have hser : s.host.created u = e.serial := congrArg Fut.serial (Option.some.inj heq)
        have hlt := he.2
        rw [hu] at hlt
        omega
      · rw [Function.update_of_ne hu]
        exact he.1
    · show e.serial < Function.update s.host.created u (s.host.created u + 1) e.owner
      have hlt := he.2
      by_cases hu : e.owner = u
      · rw [hu] at hlt ⊢
        rw [Function.update_self]
        omega
      · rw [Function.update_of_ne hu]
        exact hlt

omit [DecidableEq Loop] in
theorem Linked.apart_discard (hl : s.Linked home) (e : Fut Task) (hwaits : s.waits u = some e) :
    Apart s (s.discard home u e) := by
  have hdiscard : Apart s (s.discardWaiter e) := apart_of rfl rfl rfl fun _ => rfl
  have hleft : Apart s ((s.discardWaiter e).goto u .outside) := hdiscard.trans apart_gotoOutside
  dsimp only [discard]
  split
  · exact hleft.trans (hl.leaveAcquire hwaits).apart_releaseLocked
  · exact hleft

/-- A step of the lock changes nothing for the events of other kinds, unless it
closes a loop or wakes such an event. -/
theorem Linked.step_apart (hl : s.Linked home) {a : Action Loop Task} (hst : s.step home a = some s')
    (hclose : ∀ l, a ≠ .closeLoop l) (hwake : ∀ e, a ≠ .wakeElsewhere e) : Apart s s' := by
  cases a with
  | acquire u =>
    simp only [step] at hst
    split at hst
    · cases hst
      unfold acquire
      split
      · exact apart_of rfl rfl rfl fun _ => rfl
      · split
        · exact hl.apart_releaseLocked.trans apart_enter
        · exact apart_enter
    · cases hst
  | resume u =>
    simp only [step] at hst
    split at hst
    · rename_i e hpc
      split at hst
      · unfold resume at hst
        split at hst
        · cases hst
          have hhold : Apart s (s.hold u true) := apart_of rfl rfl rfl fun _ => rfl
          exact hhold.trans apart_gotoOutside
        · cases hst
          refine apart_of rfl rfl ?_ fun _ => rfl
          rw [waits_goto]
          exact Function.update_eq_self_iff.2 (waits_of_pc hpc).symm
        · cases hst
      · cases hst
    · cases hst
  | discard u =>
    simp only [step] at hst
    split at hst
    · rename_i e hpc
      split at hst
      · cases hst
        exact hl.apart_discard e (waits_of_pc hpc)
      · cases hst
    · cases hst
  | release u =>
    simp only [step] at hst
    split at hst
    · cases hst
      unfold release
      split
      · exact hl.apart_releaseLocked.trans (apart_of rfl rfl rfl fun _ => rfl)
      · exact apart_of rfl rfl rfl fun _ => rfl
    · cases hst
  | finish u =>
    simp only [step] at hst
    split at hst
    · cases hst
      exact apart_of rfl rfl rfl fun _ => rfl
    · cases hst
  | cancel u other =>
    have hcancel : ∀ e?, Apart s { s with host := s.host.cancel u e? } := fun e? =>
      apart_of (cancel_closed _ _ _) (cancel_created _ _ _) rfl fun e => cancel_woken _ _ _ _
    simp only [step] at hst
    split at hst
    · cases hst
      exact hcancel _
    · cases hst
      exact hcancel _
    · split at hst
      · cases hst
        exact hcancel _
      · cases hst
  | runCallback i =>
    simp only [step, Option.map_eq_some_iff] at hst
    obtain ⟨host, hr, rfl⟩ := hst
    exact apart_of (runCallback_closed _ hr) (runCallback_created _ hr) rfl fun e => runCallback_woken _ e hr
  | closeLoop l => exact absurd rfl (hclose l)
  | waitElsewhere u =>
    simp only [step] at hst
    split at hst
    · cases hst
      refine ⟨rfl, fun e he => ⟨he.1, Nat.lt_of_lt_of_le he.2 ?_⟩, fun _ _ => rfl⟩
      show s.host.created e.owner ≤ Function.update s.host.created u (s.host.created u + 1) e.owner
      by_cases hu : e.owner = u
      · rw [hu, Function.update_self]
        omega
      · rw [Function.update_of_ne hu]
    · cases hst
  | wakeElsewhere e => exact absurd rfl (hwake e)
  | elsewhere u b =>
    simp only [step] at hst
    split at hst
    · cases hst
      exact apart_of rfl rfl rfl fun _ => rfl
    · cases hst

/-- What is an event of another kind stays one. -/
theorem Linked.step_foreign (hl : s.Linked home) {a : Action Loop Task} (hst : s.step home a = some s') {e : Fut Task}
    (he : s.Foreign e) : s'.Foreign e := by
  by_cases hclose : ∃ l, a = .closeLoop l
  · obtain ⟨l, rfl⟩ := hclose
    cases hst
    exact he
  · by_cases hwake : ∃ f, a = .wakeElsewhere f
    · obtain ⟨f, rfl⟩ := hwake
      simp only [step] at hst
      split at hst
      · cases hst
        exact he
      · cases hst
    · exact (hl.step_apart hst (fun l h => hclose ⟨l, h⟩) fun f h => hwake ⟨f, h⟩).foreign e he

end Sys

end Multiloop.Sync.Lock
