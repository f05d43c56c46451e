import Multiloop.Context.CancelScope

/-!
# What a timeout scope absorbs

A scope of `move_on_after`, `move_on_at`, `fail_after` or `fail_at` that is
cancelled absorbs every `CancelledError` that leaves its block. That the error
is not that of a `task.cancel()` made in the block holds exactly when none is
outstanding there as the block is left. It is so where the two kinds of
cancellation keep apart: no `task.cancel()` finds the task in the block of a
timeout scope that is cancelled, none is pending where such a scope is entered,
and none is outstanding in a block whose timeout scope becomes cancelled.
-/

namespace Multiloop

namespace CancelScope

/-- A scope of `move_on_after` and its like, or of `fail_after` and its like. -/
def Timeout (c : CancelScope) : Prop := c.convertToTimeout = true ∨ c.cancelledCaught = true

theorem aexit_absorbs_iff (c : CancelScope) (task injected : Bool) (n : Nat) :
    (c.aexit .cancelledError task injected n).1 ≠ .returns ↔ c.Timeout ∧ c.cancelCalled = true := by
  unfold aexit Timeout
  by_cases hcalled : c.cancelCalled = true
  · by_cases hconvert : c.convertToTimeout = true
    · simp [hcalled, hconvert]
    · by_cases hcaught : c.cancelledCaught = true
      · simp [hcalled, hconvert, hcaught]
      · simp [hconvert, hcaught]
  · simp [hcalled]

end CancelScope

/-- What says whether the scope absorbs. -/
def CancelScope.flags (c : CancelScope) : Bool × Bool × Bool :=
  (c.convertToTimeout, c.cancelledCaught, c.cancelCalled)

theorem CancelScope.timeout_of_flags {c c' : CancelScope} (h : c.flags = c'.flags) : c.Timeout ↔ c'.Timeout := by
  unfold Timeout
  rw [show c.convertToTimeout = c'.convertToTimeout from congrArg Prod.fst h,
    show c.cancelledCaught = c'.cancelledCaught from congrArg (·.2.1) h]

theorem CancelScope.called_of_flags {c c' : CancelScope} (h : c.flags = c'.flags) :
    c.cancelCalled = c'.cancelCalled := congrArg (·.2.2) h

namespace HostTask

open Block (due)

/-- A timeout scope that is cancelled is left by `CancelledError` while a
`task.cancel()` that reached the task in its block is outstanding. -/
def BothPending (s : HostTask) : Prop :=
  ∃ b bs task injected, s.phase = .exiting .cancelledError task injected ∧ s.blocks = b :: bs ∧
    (s.scopes b.scope).Timeout ∧ (s.scopes b.scope).cancelCalled = true ∧ 0 < b.outstanding

def OwnOnly (s : HostTask) (a : ScopeAction) : Prop := a = .exited → ¬ s.BothPending

variable {s s' : HostTask}

theorem exited_outstanding {b : Block} {bs : List Block} {exc : Exc} {task injected : Bool}
    (hphase : s.phase = .exiting exc task injected) (hblocks : s.blocks = b :: bs) (hown : ¬ s.BothPending)
    (habsorbs : exc = .cancelledError ∧
      ((s.scopes b.scope).aexit exc task injected (s.restoredCount b.scope task)).1 ≠ .returns) :
    b.outstanding = 0 := by
  obtain ⟨rfl, hresult⟩ := habsorbs
  obtain ⟨htimeout, hcalled⟩ := (CancelScope.aexit_absorbs_iff _ _ _ _).1 hresult
  by_contra hne
  exact hown ⟨b, bs, task, injected, hphase, hblocks, htimeout, hcalled, Nat.pos_of_ne_zero hne⟩

/-! ## Where the two kinds of cancellation keep apart -/

/-- If `sc` is a timeout scope, nothing is outstanding in its blocks. -/
def Quiet (s : HostTask) (sc : Nat) : Prop := (s.scopes sc).Timeout → ∀ n, (sc, n) ∈ s.blocks.map due → n = 0

/-- No `task.cancel()` finds the task in the block of a timeout scope that is
cancelled, or is pending where one is entered, and no timeout scope becomes
cancelled with one outstanding. -/
def Apart (s : HostTask) : ScopeAction → Prop
  | .enter sc => (s.scopes sc).Timeout → (s.scopes sc).cancelCalled = true → s.pending = 0
  | .taskCancel => ∀ b ∈ s.blocks, (s.scopes b.scope).Timeout → (s.scopes b.scope).cancelCalled = false
  | .cancel sc _ => s.Quiet sc
  | .entered true => ∀ b bs, s.blocks = b :: bs → s.Quiet b.scope
  | _ => True

def Calm (s : HostTask) : Prop := ∀ sc, (s.scopes sc).cancelCalled = true → s.Quiet sc

/-- No scope becomes cancelled, and no block has more outstanding. -/
structure Milder (s s' : HostTask) : Prop where
  flags : ∀ sc, (s'.scopes sc).flags = (s.scopes sc).flags
  due : ∀ x ∈ s'.blocks.map due, x ∈ s.blocks.map due

theorem Milder.refl : Milder s s := ⟨fun _ => rfl, fun _ => id⟩

theorem Milder.trans {s₁ s₂ s₃ : HostTask} (h : Milder s₁ s₂) (h' : Milder s₂ s₃) : Milder s₁ s₃ where
  flags sc := (h'.flags sc).trans (h.flags sc)
  due x hx := h.due x (h'.due x hx)

theorem Quiet.milder {sc : Nat} (h : s.Quiet sc) (hm : Milder s s') : s'.Quiet sc := fun htimeout n hn =>
  h ((CancelScope.timeout_of_flags (hm.flags sc)).1 htimeout) n (hm.due _ hn)

theorem Calm.milder (h : s.Calm) (hm : Milder s s') : s'.Calm :=
  fun sc hcalled => (h sc ((CancelScope.called_of_flags (hm.flags sc)).symm.trans hcalled)).milder hm

theorem flags_update {sc : Nat} {c : CancelScope} (hc : c.flags = (s.scopes sc).flags) (u : Nat) :
    (Function.update s.scopes sc c u).flags = (s.scopes u).flags := by
  rcases eq_or_ne u sc with rfl | hne
  · rw [Function.update_self, hc]
  · rw [Function.update_of_ne hne]

theorem milder_inject (sc : Nat) : Milder s (s.inject sc) where
  flags := flags_update rfl
  due x hx := by rwa [inject, Block.slipFrom_due, Block.moveInside_due] at hx

theorem milder_applyShield (sc : Nat) (value : Bool) : Milder s (s.applyShield sc value) := by
  cases value with
  | true =>
    refine ⟨flags_update rfl, fun x hx => ?_⟩
    rwa [applyShield, if_pos rfl, Block.moveInside_due] at hx
  | false =>
    refine ⟨flags_update rfl, fun x hx => ?_⟩
    rwa [applyShield, if_neg Bool.false_ne_true, Block.moveInside_due] at hx

theorem milder_deliver (callback : ScopeCallback) : Milder s (s.deliver callback) := by
  cases callback with
  | deliver sc =>
    show Milder s (if _ then s.inject sc else s)
    split
    · exact milder_inject sc
    · exact .refl
  | applyShield sc value =>
    show Milder s (if _ then s.applyShield sc value else s)
    split
    · exact milder_applyShield sc value
    · exact .refl

theorem milder_dispatch (callback : ScopeCallback) (remote entered : Bool) :
    Milder s (s.dispatch callback remote entered) := by
  unfold dispatch
  split
  · exact .refl
  · split
    · exact ⟨fun _ => rfl, fun _ => id⟩
    · exact milder_deliver callback

theorem milder_setShield (sc : Nat) (value remote : Bool) : Milder s (s.setShield sc value remote) := by
  unfold setShield
  split
  · exact .refl
  · have hset : Milder s (s.setScope sc { s.scopes sc with shield := value }) :=
      ⟨flags_update rfl, fun _ => id⟩
    exact hset.trans (milder_dispatch _ _ _)

/-- A scope is entered in which nothing is pending, if it is cancelled. -/
theorem Calm.enter {sc : Nat} (h : s.Calm)
    (hpending : (s.scopes sc).Timeout → (s.scopes sc).cancelCalled = true → s.pending = 0) : (s.enter sc).Calm := by
  have hflags : ∀ u, ((s.enter sc).scopes u).flags = (s.scopes u).flags := by
    intro u
    have hset : ∀ c : CancelScope, c.flags = (s.scopes sc).flags → ((s.setScope sc c).scopes u).flags = (s.scopes u).flags :=
      fun c hc => flags_update hc u
    simp only [HostTask.enter]
    split
    · exact hset _ rfl
    · exact hset _ rfl
  have hdue : (s.enter sc).blocks.map due = (sc, s.pending) :: s.blocks.map due := by
    simp only [HostTask.enter]
    split
    · rfl
    · exact Block.map_slip_due _ _
  intro u hcalled htimeout n hn
  have hcalled : (s.scopes u).cancelCalled = true := (CancelScope.called_of_flags (hflags u)).symm.trans hcalled
  have htimeout : (s.scopes u).Timeout := (CancelScope.timeout_of_flags (hflags u)).1 htimeout
  rw [hdue] at hn
  rcases List.mem_cons.1 hn with heq | hn
  · cases heq
    exact hpending htimeout hcalled
  · exact h u hcalled htimeout n hn

theorem restore_flags (c : CancelScope) : c.restore.flags = c.flags := by
  unfold CancelScope.restore
  split <;> rfl

theorem milder_refuse (sc : Nat) (raised : Refusal) : Milder s (s.refuse sc raised) where
  flags := flags_update (restore_flags (s.scopes sc))
  due x hx := by
    rw [refuse, Block.map_slip_due] at hx
    exact List.map_subset due (fun _ hb => List.mem_of_mem_tail hb) hx

theorem milder_clear : Milder s s.clear where
  flags _ := rfl
  due x hx := by rwa [clear, Block.map_slip_due] at hx

theorem milder_proceed (sc : Nat) : Milder s (s.proceed sc) := by
  unfold proceed
  split
  · split
    · exact milder_refuse sc _
    · split
      · exact (milder_inject sc).trans ⟨fun _ => rfl, fun _ => id⟩
      · split
        · exact milder_refuse sc _
        · exact milder_clear.trans (milder_refuse sc _)
  · exact ⟨fun _ => rfl, fun _ => id⟩

theorem milder_exited {b : Block} {bs : List Block} (exc : Exc) (task injected : Bool) (hblocks : s.blocks = b :: bs) :
    Milder s (s.exited b bs exc task injected) where
  flags := flags_update (restore_flags (s.scopes b.scope))
  due x hx := by
    rw [exited, Block.map_slip_due] at hx
    rw [hblocks]
    exact List.mem_cons_of_mem _ hx

theorem milder_checkpoint : Milder s s.checkpoint := by
  unfold checkpoint
  split
  · exact .refl
  · split
    · exact ⟨fun _ => rfl, fun _ => id⟩
    · exact .refl

/-- A scope is marked as cancelled while its blocks are quiet. -/
theorem Calm.mark {sc : Nat} (h : s.Calm) (hquiet : s.Quiet sc) :
    (s.setScope sc { s.scopes sc with cancelCalled := true }).Calm := by
  intro u hcalled
  rcases eq_or_ne u sc with rfl | hne
  · intro htimeout
    rw [setScope_self] at htimeout
    exact hquiet htimeout
  · rw [setScope_of_ne _ _ hne] at hcalled
    intro htimeout
    rw [setScope_of_ne _ _ hne] at htimeout
    exact h u hcalled htimeout

theorem Calm.cancel {sc : Nat} (h : s.Calm) (hquiet : s.Quiet sc) (remote : Bool) : (s.cancel sc remote).Calm := by
  unfold HostTask.cancel
  split
  · exact h
  · exact (h.mark hquiet).milder (milder_dispatch _ _ _)

theorem Calm.expire {sc : Nat} (h : s.Calm) (hquiet : s.Quiet sc) : (s.expire sc).Calm := by
  have hmark := h.mark hquiet
  simp only [HostTask.expire]
  split
  · exact hmark.milder (milder_refuse sc _)
  · split
    · exact hmark.milder ((milder_inject sc).trans ⟨fun _ => rfl, fun _ => id⟩)
    · exact hmark.milder (milder_refuse sc _)

theorem calm_taskCancel
    (hnone : ∀ b ∈ s.blocks, (s.scopes b.scope).Timeout → (s.scopes b.scope).cancelCalled = false) :
    ({ s with
      cancelling := s.cancelling + 1, pending := s.pending + 1, blocks := s.blocks.map Block.cancelled } :
        HostTask).Calm := by
  intro sc hcalled htimeout n hn
  obtain ⟨b', hb', heq⟩ := List.mem_map.1 hn
  obtain ⟨b, hb, rfl⟩ := List.mem_map.1 hb'
  obtain rfl : b.scope = sc := congrArg Prod.fst heq
  exact absurd hcalled (ne_true_of_eq_false (hnone b hb htimeout))

theorem Calm.taskUncancel (h : s.Calm) :
    ({ s with
      cancelling := s.cancelling - 1, pending := s.pending - 1, blocks := s.blocks.map Block.uncancelled } :
        HostTask).Calm := by
  intro sc hcalled htimeout n hn
  obtain ⟨b', hb', heq⟩ := List.mem_map.1 hn
  obtain ⟨b, hb, rfl⟩ := List.mem_map.1 hb'
  obtain rfl : b.scope = sc := congrArg Prod.fst heq
  have hb0 : b.outstanding = 0 := h b.scope hcalled htimeout _ (List.mem_map_of_mem hb)
  have hn' : b.outstanding - 1 = n := congrArg Prod.snd heq
  omega

theorem Calm.step {a : ScopeAction} (h : s.Calm) (hapart : s.Apart a) (hst : s.step a = some s') : s'.Calm := by
  cases stepped hst with
  | enter sc => exact h.enter hapart
  | expired b bs _ hblocks => exact h.expire (hapart b bs hblocks)
  | unexpired b => exact h.milder (milder_proceed b.scope)
  | exit b => exact h.milder ⟨flags_update rfl, fun _ => id⟩
  | exited b bs exc task injected _ hblocks => exact h.milder (milder_exited exc task injected hblocks)
  | cancel sc remote => exact h.cancel hapart remote
  | setShield sc value remote => exact h.milder (milder_setShield sc value remote)
  | callback i callback => exact h.milder ((milder_deliver callback).trans ⟨fun _ => rfl, fun _ => id⟩)
  | taskCancel => exact calm_taskCancel hapart
  | taskUncancel => exact h.taskUncancel
  | nothing => exact h
  | thrown => exact h.milder ⟨fun _ => rfl, fun _ => id⟩
  | checkpoint => exact h.milder milder_checkpoint

theorem Calm.not_bothPending (h : s.Calm) : ¬ s.BothPending := by
  rintro ⟨b, bs, task, injected, -, hblocks, htimeout, hcalled, hpos⟩
  have hmem : b.due ∈ s.blocks.map due := by
    rw [hblocks]
    exact List.mem_cons_self
  exact absurd (h b.scope hcalled htimeout _ hmem) (Nat.ne_of_gt hpos)

/-- Where the two kinds of cancellation keep apart, no block is left with both
pending. -/
theorem ownOnly_of_apart (h : system.ReachableWhen Apart s) : system.ReachableWhen OwnOnly s := by
  suffices hboth : s.Calm ∧ system.ReachableWhen OwnOnly s from hboth.2
  induction h with
  | init hinit =>
    refine ⟨?_, .init hinit⟩
    obtain ⟨-, hblocks, -⟩ := hinit
    intro sc _ _ n hn
    rw [hblocks] at hn
    cases hn
  | step _ hapart hst ih =>
    obtain ⟨hcalm, hrun⟩ := ih
    exact ⟨hcalm.step hapart hst, hrun.step (fun _ => hcalm.not_bothPending) hst⟩

/-- A block that is left absorbs no `CancelledError` of an outstanding
`task.cancel()`. -/
theorem absorbs_own (h : system.ReachableWhen OwnOnly s) : ∀ r ∈ s.exits, r.Absorbs → r.block.outstanding = 0 := by
  refine h.inv (I := fun s => ∀ r ∈ s.exits, r.Absorbs → r.block.outstanding = 0) ?_ ?_
  · rintro s ⟨-, -, -, -, -, hexits⟩ r hr
    rw [hexits] at hr
    cases hr
  · intro s a s' hinv hown hst r hr habsorbs
    rcases (stepped hst).exits with hexits | ⟨b, bs, exc, task, injected, rfl, hphase, hblocks, rfl⟩
    · exact hinv r (hexits ▸ hr) habsorbs
    · rcases List.mem_append.1 hr with hr | hr
      · exact hinv r hr habsorbs
      · rw [List.mem_singleton.1 hr] at habsorbs ⊢
        have hnone : b.outstanding = 0 := exited_outstanding hphase hblocks (hown rfl) habsorbs
        exact hnone

/-- A block that is left in a run whose steps all meet `OwnOnly` has absorbed no
`task.cancel()`, nor has one in a run in which the two kinds of cancellation keep
apart; one that is left otherwise has. -/
theorem absorbs_own_iff (s : HostTask) :
    (system.ReachableWhen OwnOnly s ∨ system.ReachableWhen Apart s →
      ∀ r ∈ s.exits, r.Absorbs → r.block.outstanding = 0) ∧
    (∀ s' : HostTask, s.BothPending → s.step .exited = some s' →
      ∃ r ∈ s'.exits, r.Absorbs ∧ 0 < r.block.outstanding) := by
  refine ⟨fun h => absorbs_own (h.elim id ownOnly_of_apart), ?_⟩
  rintro s' ⟨b, bs, task, injected, hphase, hblocks, htimeout, hcalled, hpos⟩ hst
  have hst : some (s.exited b bs .cancelledError task injected) = some s' := by
    rw [← hst, step, hphase, hblocks]
  cases hst
  refine ⟨_, List.mem_append_right _ (List.mem_singleton.2 rfl), ⟨rfl, ?_⟩, hpos⟩
  exact (CancelScope.aexit_absorbs_iff _ _ _ _).2 ⟨htimeout, hcalled⟩

/-- A task with a scope of `move_on_after`. -/
def movingOn : HostTask where
  cancelling := 0
  pending := 0
  scopes _ := { cancelCalled := false, shield := false, cancelledCaught := true, convertToTimeout := false }
  blocks := []
  inherited := []
  phase := .running
  callbacks := []
  refused := []
  exits := []

theorem movingOn_starts : movingOn.Starts := ⟨fun _ => ⟨rfl, rfl⟩, rfl, rfl, rfl, rfl, rfl⟩

/-- The deadline passes, and the block absorbs the error of its scope. -/
theorem absorbs_own_deadline :
    ∃ s : HostTask, s.exits.map (·.result) = [.swallows] ∧ ∀ r ∈ s.exits, r.Absorbs → r.block.outstanding = 0 := by
  have h : system.ReachableWhen OwnOnly movingOn := .init movingOn_starts
  have h := ((h.next (.enter 0) (fun hexit => by cases hexit) rfl).next (.entered false)
    (fun hexit => by cases hexit) rfl).next (.cancel 0 false) (fun hexit => by cases hexit) rfl
  have h := (h.next (.exit .cancelledError) (fun hexit => by cases hexit) rfl).next .exited
    (fun _ ⟨b, bs, task, injected, _, hblocks, _, _, hpos⟩ => by
      cases hblocks
      exact absurd hpos (by decide)) rfl
  exact ⟨_, rfl, (absorbs_own_iff _).1 (.inl h)⟩

/-- The task is cancelled in the block, and then the deadline passes. -/
theorem external_cancel_absorbed :
    ∃ s, system.Reachable s ∧ ∃ r ∈ s.exits, r.Absorbs ∧ r.block.external = 1 ∧ r.block.outstanding = 1 := by
  obtain ⟨s, hs, hexits⟩ := System.exists_reachable_of_run (M := system)
    [.enter 0, .entered false, .taskCancel, .cancel 0 false, .exit .cancelledError, .exited]
    (p := fun s => s.exits.any fun r => r.Absorbs ∧ r.block.external = 1 ∧ r.block.outstanding = 1)
    movingOn_starts (by decide)
  obtain ⟨r, hr, hbad⟩ := List.any_eq_true.1 hexits
  exact ⟨s, hs, r, hr, of_decide_eq_true hbad⟩

end HostTask

end Multiloop
