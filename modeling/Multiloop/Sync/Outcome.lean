import Multiloop.Sync.AsyncOnce

/-!
# What the calls of `AsyncOnce.do` return

`Sound` is the invariant: there is one leader, which calls `fn` once; what is
stored is how `fn` ended; and a call that waits is registered until it is done,
and from then on to be woken. It holds of every run. That a call returns only
what `fn` returned holds as long as no call reads an exception that is false
(`if self._exc`).
-/

namespace Multiloop

variable {Loop Call β : Type}

/-- What `_result` is then. -/
def FnOutcome.result : FnOutcome β → Option β
  | .value v => some v
  | .raised _ | .cancelled => none

/-- What `_exc` is then. -/
def FnOutcome.error : FnOutcome β → Option OnceError
  | .value _ => none
  | .raised e => some (.exception e)
  | .cancelled => some .executionCancelled

/-- The leader has not been through the lock of `finally`. -/
def OncePhase.Leading (p : OncePhase β) : Prop := p = .leads ∨ p = .awaits ∨ p = .finishes

namespace AsyncOnce

variable {o : AsyncOnce Call β}

theorem publish_stores (hresult : o.result = none) (hexc : o.exc = none) (ends : FnOutcome β) :
    (o.publish ends).result = ends.result ∧ (o.publish ends).exc = ends.error := by
  cases ends with
  | value v => exact ⟨rfl, hexc⟩
  | raised e => exact ⟨hresult, rfl⟩
  | cancelled => exact ⟨hresult, rfl⟩

theorem publish_rest (o : AsyncOnce Call β) (ends : FnOutcome β) :
    (o.publish ends).done = o.done ∧ (o.publish ends).executing = o.executing ∧
      (o.publish ends).waiters = o.waiters := by
  cases ends <;> exact ⟨rfl, rfl, rfl⟩

theorem outcome_returned {r : Option β} (h : o.outcome = .returned r) :
    r = o.result ∧ ∀ e, o.exc = some e → e.truth = false := by
  unfold outcome at h
  split at h
  · rename_i e hexc
    split_ifs at h with htruth
    cases h
    refine ⟨rfl, fun e' he' => ?_⟩
    rw [hexc] at he'
    cases he'
    exact eq_false_of_ne_true htruth
  · rename_i hexc
    cases h
    refine ⟨rfl, fun e' he' => ?_⟩
    rw [hexc] at he'
    cases he'

/-- A call that reads the outcome returns or raises. -/
theorem outcome_ends (o : AsyncOnce Call β) : (∃ r, o.outcome = .returned r) ∨ ∃ e, o.outcome = .raised e := by
  unfold outcome
  split
  · split_ifs
    · exact .inr ⟨_, rfl⟩
    · exact .inl ⟨_, rfl⟩
  · exact .inl ⟨_, rfl⟩

end AsyncOnce

namespace OnceRun

open AsyncOnce

variable (home : Call → Loop)

/-- What the phase `p` of call `i` says of the rest. -/
structure Placed (s : OnceRun Loop Call β) (i : Call) (p : OncePhase β) : Prop where
  leading : p.Leading → s.leader = some i ∧ s.once.done = false
  unended : p = .leads ∨ p = .awaits → s.outcome = none
  unstarted : p = .leads → s.started = []
  woken : p = .woken → s.once.done = true
  waits : p = .waits → s.fut i = .pending →
    i ∈ s.once.waiters ∨ s.once.done = true ∧ (s.closed (home i) = false → i ∈ s.scheduled)

/-- The object says how `fn` ended, and each call is where it may be. -/
structure Sound (s : OnceRun Loop Call β) : Prop where
  executing : s.once.executing = s.leader.isSome
  done : s.once.done = true → s.outcome.isSome = true ∧ s.once.waiters = []
  leaderless : s.leader = none → s.outcome = none ∧ s.started = []
  started : s.started.length ≤ 1
  stored : s.once.result = s.outcome.bind FnOutcome.result ∧ s.once.exc = s.outcome.bind FnOutcome.error
  woken : ∀ i, i ∈ s.scheduled ∨ s.fut i ≠ .pending ∧ s.fut i ≠ .cancelled → s.once.done = true
  placed : ∀ i, s.Placed home i (s.phase i)

variable {home} {s s' : OnceRun Loop Call β} {i : Call}

/-- A phase that says nothing of the rest. -/
theorem placed_quiet {p : OncePhase β} (hleading : ¬ p.Leading) (hwoken : p ≠ .woken) (hwaits : p ≠ .waits) :
    s.Placed home i p where
  leading hp := absurd hp hleading
  unended hp := absurd (hp.imp_right .inl) hleading
  unstarted hp := absurd (.inl hp) hleading
  woken hp := absurd hp hwoken
  waits hp := absurd hp hwaits

theorem placed_cancelled : s.Placed home i .cancelled := by
  refine placed_quiet ?_ (fun hp => by cases hp) (fun hp => by cases hp)
  rintro (hp | hp | hp) <;> cases hp

theorem placed_failed : s.Placed home i .failed := by
  refine placed_quiet ?_ (fun hp => by cases hp) (fun hp => by cases hp)
  rintro (hp | hp | hp) <;> cases hp

theorem placed_returned (r : Option β) : s.Placed home i (.returned r) := by
  refine placed_quiet ?_ (fun hp => by cases hp) (fun hp => by cases hp)
  rintro (hp | hp | hp) <;> cases hp

theorem placed_raised (e : OnceError) : s.Placed home i (.raised e) := by
  refine placed_quiet ?_ (fun hp => by cases hp) (fun hp => by cases hp)
  rintro (hp | hp | hp) <;> cases hp

theorem placed_outcome (o : AsyncOnce Call β) : s.Placed home i o.outcome := by
  rcases o.outcome_ends with ⟨r, hr⟩ | ⟨e, he⟩
  · rw [hr]
    exact placed_returned r
  · rw [he]
    exact placed_raised e

theorem Starts.sound (h : s.Starts) : s.Sound home := by
  obtain ⟨honce, hphase, hfut, -, hscheduled, hleader, hstarted, houtcome⟩ := h
  refine ⟨?_, ?_, fun _ => ⟨houtcome, hstarted⟩, ?_, ?_, ?_, fun i => ?_⟩
  · rw [honce, hleader]
    rfl
  · intro hdone
    rw [honce] at hdone
    cases hdone
  · rw [hstarted]
    exact Nat.zero_le 1
  · rw [honce, houtcome]
    exact ⟨rfl, rfl⟩
  · rintro i (hi | ⟨hi, -⟩)
    · rw [hscheduled] at hi
      cases hi
    · exact absurd (hfut i) hi
  · rw [hphase i]
    refine placed_quiet ?_ (fun hp => by cases hp) (fun hp => by cases hp)
    rintro (hp | hp | hp) <;> cases hp

/-- Until `fn` has ended, nothing is stored. -/
theorem Sound.unstored (h : s.Sound home) (houtcome : s.outcome = none) :
    s.once.result = none ∧ s.once.exc = none := by
  obtain ⟨hresult, hexc⟩ := h.stored
  rw [houtcome] at hresult hexc
  exact ⟨hresult, hexc⟩

/-- No call but the leader leads. -/
theorem Sound.others (h : s.Sound home) {j : Call} (hi : (s.phase i).Leading) (hji : j ≠ i) :
    ¬ (s.phase j).Leading := by
  intro hj
  have hleader := ((h.placed i).leading hi).1
  rw [((h.placed j).leading hj).1] at hleader
  exact hji (Option.some.inj hleader)

variable [DecidableEq Call]

theorem placed_update {q : Call → OncePhase β} {p : OncePhase β} (hi : s.Placed home i p)
    (h : ∀ j, j ≠ i → s.Placed home j (q j)) (j : Call) : s.Placed home j (Function.update q i p j) := by
  by_cases hji : j = i
  · subst hji
    rw [Function.update_self]
    exact hi
  · rw [Function.update_of_ne hji]
    exact h j hji

/-- A call goes on, and the rest stays. -/
theorem Sound.moves (h : s.Sound home) {p : OncePhase β} (hp : s.Placed home i p) :
    (s.setPhase i p).Sound home where
  executing := h.executing
  done := h.done
  leaderless := h.leaderless
  started := h.started
  stored := h.stored
  woken := h.woken
  placed j := by
    obtain ⟨h1, h2, h3, h4, h5⟩ := placed_update hp (fun j _ => h.placed j) j
    exact ⟨h1, h2, h3, h4, h5⟩

theorem Sound.enter (h : s.Sound home) : (s.enter i).Sound home := by
  unfold OnceRun.enter
  split_ifs with hdone hexecuting
  · exact h.moves (placed_outcome _)
  · -- The call leads: none did before.
    have hleader : s.leader = none := by
      rw [h.executing] at hexecuting
      exact Option.not_isSome_iff_eq_none.1 (by rw [hexecuting]; decide)
    obtain ⟨houtcome, hstarted⟩ := h.leaderless hleader
    refine ⟨rfl, h.done, fun _ => ⟨houtcome, hstarted⟩, h.started, h.stored, h.woken, placed_update ?_ ?_⟩
    · exact ⟨fun _ => ⟨rfl, eq_false_of_ne_true hdone⟩, fun _ => houtcome, fun _ => hstarted,
        fun hp => (by cases hp), fun hp => (by cases hp)⟩
    · intro j hji
      obtain ⟨hleading, hunended, hunstarted, hwoken, hwaits⟩ := h.placed j
      refine ⟨fun hp => ?_, hunended, hunstarted, hwoken, hwaits⟩
      rw [hleader] at hleading
      cases (hleading hp).1
  · -- The call registers with a leader that is not done.
    refine ⟨h.executing, fun hd => absurd hd hdone, h.leaderless, h.started, h.stored, h.woken,
      placed_update ?_ ?_⟩
    · refine ⟨?_, ?_, fun hp => (by cases hp), fun hp => (by cases hp), fun _ _ => ?_⟩
      · rintro (hp | hp | hp) <;> cases hp
      · rintro (hp | hp) <;> cases hp
      · exact .inl (List.mem_append_right _ List.mem_cons_self)
    · intro j _
      obtain ⟨hleading, hunended, hunstarted, hwoken, hwaits⟩ := h.placed j
      exact ⟨hleading, hunended, hunstarted, hwoken, fun hp hfut => (hwaits hp hfut).imp_left (List.mem_append_left _)⟩

/-- `fn` is called. -/
theorem Sound.calls (h : s.Sound home) (hi : s.phase i = .leads) :
    ({ s with started := i :: s.started }.setPhase i .awaits : OnceRun Loop Call β).Sound home := by
  have hplaced := h.placed i
  rw [hi] at hplaced
  obtain ⟨hleader, hdone⟩ := hplaced.leading (.inl rfl)
  refine ⟨h.executing, h.done, fun hno => ?_, ?_, h.stored, h.woken, placed_update ?_ ?_⟩
  · rw [show s.leader = none from hno] at hleader
    cases hleader
  · show s.started.length + 1 ≤ 1
    rw [hplaced.unstarted rfl]
    exact Nat.le_refl 1
  · exact ⟨fun _ => ⟨hleader, hdone⟩, fun _ => hplaced.unended (.inl rfl), fun hp => (by cases hp),
      fun hp => (by cases hp), fun hp => (by cases hp)⟩
  · intro j hji
    obtain ⟨hleading, hunended, hunstarted, hwoken, hwaits⟩ := h.placed j
    exact ⟨hleading, hunended, fun hp => absurd (.inl hp) (h.others (hi ▸ .inl rfl) hji), hwoken, hwaits⟩

/-- `fn` has ended. -/
theorem Sound.store (h : s.Sound home) (hi : s.phase i = .awaits) (ends : FnOutcome β) :
    (s.store i ends).Sound home := by
  have hplaced := h.placed i
  rw [hi] at hplaced
  obtain ⟨hleader, hdone⟩ := hplaced.leading (.inr (.inl rfl))
  obtain ⟨hresult, hexc⟩ := h.unstored (hplaced.unended (.inr rfl))
  obtain ⟨hsameDone, hsameExecuting, hsameWaiters⟩ := publish_rest s.once ends
  refine ⟨hsameExecuting.trans h.executing, fun hd => ?_, fun hno => ?_, h.started,
    publish_stores hresult hexc ends, fun j hj => hsameDone.trans (h.woken j hj), placed_update ?_ ?_⟩
  · rw [show (s.store i ends).once.done = s.once.done from hsameDone, hdone] at hd
    cases hd
  · rw [show s.leader = none from hno] at hleader
    cases hleader
  · refine ⟨fun _ => ⟨hleader, hsameDone.trans hdone⟩, ?_, fun hp => (by cases hp), fun hp => (by cases hp),
      fun hp => (by cases hp)⟩
    rintro (hp | hp) <;> cases hp
  · intro j hji
    have hother := h.others (hi ▸ .inr (.inl rfl)) hji
    obtain ⟨-, -, -, hwoken, hwaits⟩ := h.placed j
    refine ⟨fun hp => absurd hp hother, fun hp => absurd (hp.imp_right .inl) hother,
      fun hp => absurd (.inl hp) hother, fun hp => hsameDone.trans (hwoken hp), fun hp hfut => ?_⟩
    show j ∈ (s.once.publish ends).waiters ∨ (s.once.publish ends).done = true ∧ _
    rw [hsameWaiters, hsameDone]
    exact hwaits hp hfut

/-- The lock of `finally`. -/
theorem Sound.complete (h : s.Sound home) (hi : s.phase i = .finishes) {ends : FnOutcome β}
    (hends : s.outcome = some ends) : (s.complete home i ends).Sound home := by
  have hplaced := h.placed i
  rw [hi] at hplaced
  obtain ⟨hleader, hdone⟩ := hplaced.leading (.inr (.inr rfl))
  refine ⟨h.executing, fun _ => ⟨?_, rfl⟩, h.leaderless, h.started, h.stored, fun _ _ => rfl, placed_update ?_ ?_⟩
  · rw [show (s.complete home i ends).outcome = some ends from hends]
    rfl
  · cases ends with
    | value v => exact placed_returned _
    | raised e | cancelled => exact placed_failed
  · intro j hji
    have hother := h.others (hi ▸ .inr (.inr rfl)) hji
    refine ⟨fun hp => absurd hp hother, fun hp => absurd (hp.imp_right .inl) hother,
      fun hp => absurd (.inl hp) hother, fun _ => rfl, fun hp hfut => .inr ⟨rfl, fun hopen => ?_⟩⟩
    rcases (h.placed j).waits hp hfut with hmem | ⟨hd, -⟩
    · exact List.mem_append_right _ (mem_wakeAll.2 ⟨hmem, decide_eq_false (not_not.2 hfut), hopen⟩)
    · rw [hdone] at hd
      cases hd

theorem Sound.wake (h : s.Sound home) (hi : i ∈ s.scheduled) : (s.wake i).Sound home := by
  have hdone := h.woken i (.inl hi)
  refine ⟨h.executing, h.done, h.leaderless, h.started, h.stored, fun _ _ => hdone, fun j => ?_⟩
  obtain ⟨hleading, hunended, hunstarted, hwoken, hwaits⟩ := h.placed j
  refine ⟨hleading, hunended, hunstarted, hwoken, fun hp hfut => ?_⟩
  have hfut : (if s.fut i = .pending then Function.update s.fut i (.result ()) else s.fut) j = .pending := hfut
  have hji : j ≠ i := by
    rintro rfl
    split_ifs at hfut with hpending
    · rw [Function.update_self] at hfut
      cases hfut
    · exact hpending hfut
  have hpending : s.fut j = .pending := by
    split_ifs at hfut
    · rwa [Function.update_of_ne hji] at hfut
    · exact hfut
  refine (hwaits hp hpending).imp_right fun hboth => ⟨hboth.1, fun hopen => ?_⟩
  exact (List.mem_erase_of_ne hji).2 (hboth.2 hopen)

theorem Sound.cancel (h : s.Sound home) : (s.cancel i).Sound home := by
  unfold OnceRun.cancel
  split_ifs with hpending
  · have hfut (j : Call) : Function.update s.fut i .cancelled j = .cancelled ∨
        Function.update s.fut i .cancelled j = s.fut j := by
      by_cases hji : j = i
      · subst hji
        exact .inl (Function.update_self ..)
      · exact .inr (Function.update_of_ne hji ..)
    refine ⟨h.executing, h.done, h.leaderless, h.started, h.stored, ?_, fun j => ?_⟩
    · rintro j (hj | ⟨hj, hj'⟩)
      · exact h.woken j (.inl hj)
      · rcases hfut j with hcancelled | hsame
        · exact absurd hcancelled hj'
        · exact h.woken j (.inr ⟨hsame ▸ hj, hsame ▸ hj'⟩)
    · obtain ⟨hleading, hunended, hunstarted, hwoken, hwaits⟩ := h.placed j
      refine ⟨hleading, hunended, hunstarted, hwoken, fun hp hpending => ?_⟩
      rcases hfut j with hcancelled | hsame
      · rw [show Function.update s.fut i .cancelled j = .pending from hpending] at hcancelled
        cases hcancelled
      · exact hwaits hp (hsame ▸ hpending)
  · refine ⟨h.executing, h.done, h.leaderless, h.started, h.stored, h.woken, fun j => ?_⟩
    obtain ⟨hleading, hunended, hunstarted, hwoken, hwaits⟩ := h.placed j
    exact ⟨hleading, hunended, hunstarted, hwoken, hwaits⟩

theorem Sound.resume (h : s.Sound home) (hfut : s.fut i ≠ .pending) : (s.resume i).Sound home := by
  refine ⟨h.executing, fun hd => ?_, h.leaderless, h.started, h.stored, h.woken, placed_update ?_ ?_⟩
  · obtain ⟨houtcome, hempty⟩ := h.done hd
    refine ⟨houtcome, ?_⟩
    show s.once.waiters.erase i = []
    rw [hempty]
    rfl
  · split_ifs with hcancelled
    · exact placed_cancelled
    · refine ⟨?_, ?_, fun hp => (by cases hp), fun _ => ?_, fun hp => (by cases hp)⟩
      · rintro (hp | hp | hp) <;> cases hp
      · rintro (hp | hp) <;> cases hp
      · exact h.woken i (.inr ⟨hfut, fun hc => hcancelled (.inl hc)⟩)
  · intro j hji
    obtain ⟨hleading, hunended, hunstarted, hwoken, hwaits⟩ := h.placed j
    refine ⟨hleading, hunended, hunstarted, hwoken, fun hp hpending => ?_⟩
    exact (hwaits hp hpending).imp_left (List.mem_erase_of_ne hji).2

omit [DecidableEq Call] in
theorem Sound.closeLoop [DecidableEq Loop] (h : s.Sound home) (l : Loop) :
    ({ s with closed := Function.update s.closed l true } : OnceRun Loop Call β).Sound home := by
  refine ⟨h.executing, h.done, h.leaderless, h.started, h.stored, h.woken, fun j => ?_⟩
  obtain ⟨hleading, hunended, hunstarted, hwoken, hwaits⟩ := h.placed j
  refine ⟨hleading, hunended, hunstarted, hwoken, fun hp hpending => ?_⟩
  refine (hwaits hp hpending).imp_right fun hboth => ⟨hboth.1, fun hopen => hboth.2 ?_⟩
  have hopen : Function.update s.closed l true (home j) = false := hopen
  by_cases hl : home j = l
  · rw [hl, Function.update_self] at hopen
    cases hopen
  · rwa [Function.update_of_ne hl] at hopen

/-! ## Runs -/

variable [DecidableEq Loop] [DecidableEq β] {a : OnceAction Loop Call β}

omit [DecidableEq β] in
theorem Stepped.sound (h : s.Sound home) (hst : s.Stepped home a s') : s'.Sound home := by
  cases hst with
  | enter hphase => exact h.enter
  | @start i ends hphase =>
    cases ends with
    | none => exact h.calls hphase
    | some ends =>
      have hcalled := (h.calls hphase).store (i := i) (Function.update_self ..) ends
      unfold OnceRun.store OnceRun.setPhase at hcalled
      rw [Function.update_idem] at hcalled
      exact hcalled
  | settle hphase => exact h.store hphase _
  | complete hphase hends => exact h.complete hphase hends
  | wake hmem => exact h.wake hmem
  | cancel hphase => exact h.cancel
  | resume hphase hfut => exact h.resume hfut
  | read hphase => exact h.moves (placed_outcome _)
  | closeLoop => exact h.closeLoop _

theorem sound (h : (system home).Reachable s) : s.Sound home :=
  System.Reachable.inv (M := system home) (fun _ hi => Starts.sound hi)
    (fun _ _ _ hi hst => Stepped.sound hi (stepped hst)) h

/-- A call that returns returns what `fn` returned. -/
def Faithful (s : OnceRun Loop Call β) : Prop :=
  ∀ i r, s.phase i = .returned r → ∃ v, s.outcome = some (.value v) ∧ r = some v

/-- No call reads a false exception. -/
def Telling (s : OnceRun Loop Call β) : OnceAction Loop Call β → Prop
  | .enter _ => s.once.done = true → ∀ e, s.once.exc = some e → e.truth = true
  | .read _ => ∀ e, s.once.exc = some e → e.truth = true
  | _ => True

omit [DecidableEq Loop] [DecidableEq β] in
theorem Faithful.moves (hf : s.Faithful) {p : OncePhase β} (hphase : s'.phase = Function.update s.phase i p)
    (houtcome : s'.outcome = s.outcome)
    (hp : ∀ r, p = .returned r → ∃ v, s.outcome = some (.value v) ∧ r = some v) : s'.Faithful := by
  intro j r hj
  rw [houtcome]
  rw [hphase] at hj
  by_cases hji : j = i
  · rw [hji, Function.update_self] at hj
    exact hp r hj
  · rw [Function.update_of_ne hji] at hj
    exact hf j r hj

omit [DecidableEq Loop] [DecidableEq β] in
/-- A call reads the outcome. -/
theorem Faithful.reads_iff (h : s.Sound home) (hf : s.Faithful) (hdone : s.once.done = true) :
    (s.setPhase i s.once.outcome).Faithful ↔ ∀ e, s.once.exc = some e → e.truth = true := by
  obtain ⟨hresult, hexc⟩ := h.stored
  constructor
  · intro hf' e he
    by_contra hfalse
    have hreturned : s.once.outcome = .returned s.once.result := by
      unfold AsyncOnce.outcome
      rw [he]
      exact if_neg hfalse
    obtain ⟨v, houtcome, -⟩ := hf' i s.once.result (by rw [← hreturned]; exact Function.update_self ..)
    rw [show s.outcome = some (.value v) from houtcome, he] at hexc
    cases hexc
  · intro htrue
    refine hf.moves rfl rfl fun r hr => ?_
    obtain ⟨rfl, hfalse⟩ := outcome_returned hr
    have hnone : s.once.exc = none := Option.eq_none_iff_forall_ne_some.2 fun e he => by
      have htruth := htrue e he
      rw [hfalse e he] at htruth
      cases htruth
    obtain ⟨ends, hends⟩ := Option.isSome_iff_exists.1 (h.done hdone).1
    rw [hends] at hresult hexc
    rw [hnone] at hexc
    cases ends with
    | value v => exact ⟨v, hends, hresult⟩
    | raised e | cancelled => cases hexc

omit [DecidableEq Loop] [DecidableEq β] [DecidableEq Call] in
/-- Until `fn` has ended no call has returned. -/
theorem Faithful.of_unended (hf : s.Faithful) (houtcome : s.outcome = none) (j : Call) (r : Option β) :
    s.phase j ≠ .returned r := by
  intro hj
  obtain ⟨v, hv, -⟩ := hf j r hj
  rw [houtcome] at hv
  cases hv

omit [DecidableEq Loop] [DecidableEq β] in
/-- The leader stores how `fn` ended. -/
theorem Faithful.stores (hf : s.Faithful) (houtcome : s.outcome = none)
    (hphase : s'.phase = Function.update s.phase i .finishes) : s'.Faithful := by
  intro j r hj
  rw [hphase] at hj
  by_cases hji : j = i
  · rw [hji, Function.update_self] at hj
    cases hj
  · rw [Function.update_of_ne hji] at hj
    exact absurd hj (hf.of_unended houtcome j r)

omit [DecidableEq β] in
theorem Stepped.faithful_iff (h : s.Sound home) (hf : s.Faithful) (hst : s.Stepped home a s') :
    s'.Faithful ↔ s.Telling a := by
  cases hst with
  | @enter i hphase =>
    by_cases hdone : s.once.done = true
    · unfold OnceRun.enter
      rw [if_pos hdone, Faithful.reads_iff h hf hdone]
      exact ⟨fun htrue _ => htrue, fun htrue => htrue hdone⟩
    · refine iff_of_true ?_ fun hd => absurd hd hdone
      unfold OnceRun.enter
      rw [if_neg hdone]
      split_ifs
      · exact hf.moves rfl rfl fun r hr => by cases hr
      · exact hf.moves rfl rfl fun r hr => by cases hr
  | @start i ends hphase =>
    have hplaced := h.placed i
    rw [hphase] at hplaced
    refine iff_of_true ?_ trivial
    cases ends with
    | none => exact hf.moves rfl rfl fun r hr => by cases hr
    | some ends => exact hf.stores (hplaced.unended (.inl rfl)) rfl
  | @settle i ends hphase =>
    have hplaced := h.placed i
    rw [hphase] at hplaced
    exact iff_of_true (hf.stores (hplaced.unended (.inr rfl)) rfl) trivial
  | @complete i ends hphase hends =>
    refine iff_of_true (hf.moves rfl rfl fun r hr => ?_) trivial
    cases ends with
    | value v =>
      cases hr
      have hresult := h.stored.1
      rw [hends] at hresult
      exact ⟨v, hends, hresult⟩
    | raised e | cancelled => cases hr
  | wake hmem => exact iff_of_true hf trivial
  | cancel hphase =>
    refine iff_of_true ?_ trivial
    unfold OnceRun.cancel
    split_ifs
    · exact hf
    · exact hf
  | resume hphase hfut =>
    refine iff_of_true (hf.moves rfl rfl fun r hr => ?_) trivial
    split_ifs at hr
  | @read i hphase =>
    have hplaced := h.placed i
    rw [hphase] at hplaced
    exact Faithful.reads_iff h hf (hplaced.woken rfl)
  | closeLoop => exact iff_of_true hf trivial

variable (home s)

/-- The calls return what `fn` returned, in every run in which none reads a
false exception, and only in those; and in every run `fn` is called at most
once, and a call that waits when the leader is done has its wake scheduled,
or its loop is closed. -/
theorem do_once_iff :
    ((system home).ReachableWhen Telling s → s.Faithful) ∧
    (∀ a s', (system home).Reachable s → s.Faithful → s.step home a = some s' → (s'.Faithful ↔ s.Telling a)) ∧
    ((system home).Reachable s → s.started.length ≤ 1 ∧ (s.once.done = true → s.once.waiters = [] ∧
      ∀ i, s.phase i = .waits → s.fut i = .pending → s.closed (home i) = false → i ∈ s.scheduled)) := by
  refine ⟨fun h => ?_, fun a s' h hf hst => (stepped hst).faithful_iff (sound h) hf, fun h => ?_⟩
  · have hall : s.Sound home ∧ s.Faithful := by
      refine h.inv (I := fun s => s.Sound home ∧ s.Faithful) ?_ ?_
      · intro s hi
        refine ⟨Starts.sound hi, fun i r hr => ?_⟩
        obtain ⟨-, hphase, -⟩ := hi
        rw [hphase i] at hr
        cases hr
      · intro s a s' hi hok hst
        exact ⟨(stepped hst).sound hi.1, ((stepped hst).faithful_iff hi.1 hi.2).2 hok⟩
    exact hall.2
  · have hsound := sound h
    refine ⟨hsound.started, fun hdone => ⟨(hsound.done hdone).2, fun i hi hfut hopen => ?_⟩⟩
    rcases (hsound.placed i).waits hi hfut with hmem | ⟨-, hscheduled⟩
    · rw [(hsound.done hdone).2] at hmem
      cases hmem
    · exact hscheduled hopen

/-- Two calls on one loop, before either. -/
def twoCalls : OnceRun Unit Bool Nat where
  once := .new
  phase _ := .idle
  fut _ := .pending
  mustCancel _ := false
  scheduled := []
  closed _ := false
  leader := none
  started := []
  outcome := none

theorem twoCalls_starts : twoCalls.Starts :=
  ⟨rfl, fun _ => rfl, fun _ => rfl, fun _ => rfl, rfl, rfl, rfl, rfl⟩

/-- The second call waits for the first, and returns the same. -/
theorem do_once_seven : ∃ s : OnceRun Unit Bool Nat,
    s.phase false = .returned (some 7) ∧ s.phase true = .returned (some 7) ∧ s.started = [false] ∧ s.Faithful := by
  have h : (system fun _ : Bool => ()).ReachableWhen Telling twoCalls := .init twoCalls_starts
  have h := ((h.next (.enter false) (fun hdone => by cases hdone) rfl).next (.start false none) trivial rfl).next
    (.enter true) (fun hdone => by cases hdone) rfl
  have h := ((h.next (.settle false (.value 7)) trivial rfl).next (.complete false) trivial rfl).next
    (.wake true) trivial rfl
  have h := (h.next (.resume true) trivial rfl).next (.read true) (fun e he => by cases he) rfl
  exact ⟨_, rfl, rfl, rfl, (do_once_iff _ _).1 h⟩

/-- `fn` raises an exception that is false, and the second call returns
`None`. -/
theorem false_exception_returned : ∃ s : OnceRun Unit Bool Nat, (system fun _ => ()).Reachable s ∧
    s.outcome = some (.raised { id := 0, truth := false }) ∧ s.phase true = .returned none ∧ ¬ s.Faithful := by
  obtain ⟨s, hs, houtcome, hphase⟩ := System.exists_reachable_of_run (M := @system Unit Bool Nat _ _ _ fun _ => ())
    [.enter false, .start false (some (.raised { id := 0, truth := false })), .complete false, .enter true]
    (p := fun s : OnceRun Unit Bool Nat => s.outcome = some (.raised { id := 0, truth := false }) ∧
      s.phase true = .returned none)
    twoCalls_starts (by decide)
  refine ⟨s, hs, houtcome, hphase, fun hf => ?_⟩
  obtain ⟨v, -, hv⟩ := hf true none hphase
  cases hv

end OnceRun

end Multiloop
