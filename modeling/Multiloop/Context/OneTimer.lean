import Mathlib.Data.Nat.Basic
import Multiloop.Context.Armed

/-!
# The timer of an entered scope

Every step of a run in which no thread gets between two steps that belong
together keeps the scope and its timers in order. So once all calls are through,
an entered scope has one timer for a deadline to come, and a scope that was left,
or has no deadline, has none.
-/

namespace Multiloop.DeadlineTimer

variable {Thread Task Time : Type} [LinearOrder Time] [DecidableEq Thread]

namespace Sys

variable {home : Task → Thread} {s s' : Sys Thread Task Time} {th : Thread} {host : Task}

/-- `__aenter__` does not return, and takes its timer back. -/
theorem Sound.rollback (h : s.Sound home) (hinside : s.Inside home th host)
    (hdoing : s.threads th = .checking host ∨ s.threads th = .late host) :
    (s.goto th (.rollback .look host)).Sound home := by
  have hholds : (s.threads th).holds = none := by
    rcases hdoing with hdoing | hdoing
    · rw [hdoing]
      rfl
    · rw [hdoing]
      rfl
  have henters : ∀ k, (s.threads th).enters = some k → host = k := by
    intro k hk
    rcases hdoing with hdoing | hdoing
    · rw [hdoing] at hk
      exact Option.some.inj hk
    · rw [hdoing] at hk
      exact Option.some.inj hk
  refine h.goto ⟨⟨hinside, nofun, nofun⟩, rfl, fun t _ => ?_, fun hleaves => ?_,
    fun k hk => congrArg some (henters k hk), fun k t hk _ _ _ _ => .inl ?_⟩
  · rw [hholds]
    exact nofun
  · rw [h.leaves_eq_false hinside.1.1] at hleaves
    cases hleaves
  · exact Option.some.inj (hinside.1.1.symm.trans hk)

/-- `__aenter__` finds the scope cancelled. -/
theorem Sound.refuse (h : s.Sound home) (hinside : s.Inside home th host)
    (hdoing : s.threads th = .checking host ∨ s.threads th = .late host) : (s.refuse th host).Sound home := by
  have hrollback := h.rollback hinside hdoing
  have hentered : (s.entered th host).Sound home := by
    refine h.entered hinside ?_ fun t k => ?_
    · rcases hdoing with hdoing | hdoing
      · rw [hdoing]
        rfl
      · rw [hdoing]
        rfl
    · rcases hdoing with hdoing | hdoing
      · rw [hdoing]
        exact id
      · rw [hdoing]
        exact id
  unfold Sys.refuse
  split
  · exact hrollback
  · split
    · exact hentered
    · exact hrollback

omit [DecidableEq Thread] in
/-- `_rollback_aenter` or `__aexit__` forgets the handle. -/
theorem Sound.forget (h : s.Sound home) (hstale : s.Stale)
    (hdoing : (∃ host, s.threads th = .rollback .clear host) ∨ s.threads th = .leaving .clear) :
    ({ s with handle := none }).Sound home := by
  refine h.clearHandle hstale fun th' host hth' => ?_
  have hinside := h.placed.fits th'
  rw [hth'] at hinside
  have hfits := h.placed.fits th
  rcases hdoing with ⟨host', hdoing⟩ | hdoing
  · rw [hdoing] at hfits
    have hth : th' = th := hfits.1.1.unique hinside.1.1
    rw [hth, hdoing] at hth'
    cases hth'
  · rw [hdoing] at hfits
    cases hfits.1.symm.trans hinside.1.1.1

/-- A thread that holds no timer turns from `d₀` to `d`. -/
theorem Sound.turn (h : s.Sound home) {d₀ : Doing Task Time} (hdoing : s.threads th = d₀) (d : Doing Task Time)
    (hfits : s.Fits home th d) (hfollows : d₀.Follows d)
    (hcoming : ∀ k t, s.task = some k → s.cancelCalled = false → s.deadline = some t → s.now < t →
      d₀.Brings t k → d.Brings t k ∨ (t, k) ∈ s.queue) : (s.goto th d).Sound home := by
  subst hdoing
  obtain ⟨hholds₀, hholds, hleaves, henters⟩ := hfollows
  refine h.goto ⟨hfits, hholds, fun t _ => ?_, fun hl => .inl (hleaves hl), henters, hcoming⟩
  rw [hholds₀]
  exact nofun

/-- `__aexit__` is through with the handle. -/
theorem Sound.left (h : s.Sound home) {stage : Stage} (hdoing : s.threads th = .leaving stage)
    (hhandle : s.handle = none) : (s.goto th .idle).Sound home := by
  refine h.goto ⟨trivial, rfl, fun t _ => ?_, fun _ => .inr hhandle, fun k hk => ?_, fun k t _ _ _ _ hb => ?_⟩
  · rw [hdoing]
    exact nofun
  · rw [hdoing] at hk
    cases hk
  · rw [hdoing] at hb
    exact hb.elim

/-- The setter goes on once the timer that it has taken out is cancelled. -/
theorem Sound.dismissed (h : s.Sound home) {value : Option Time} {task : Option Task} {old : Option Nat}
    {d : Doing Task Time} (hdoing : s.threads th = .assigned value task old) (hheld : ∀ t ∈ s.armed, old ≠ some t.id)
    (hfits : s.Fits home th d) (hholds : d.holds = none)
    (hcoming : ∀ k t, value = some t → task = some k → d.Brings t k) : (s.goto th d).Sound home := by
  refine h.goto ⟨hfits, hholds, ?_, ?_, ?_, fun k t _ _ _ _ hb => .inl ?_⟩
  · rw [hdoing]
    exact hheld
  · rw [hdoing]
    exact nofun
  · rw [hdoing]
    exact nofun
  · rw [hdoing] at hb
    exact hcoming k t hb.1 hb.2

/-- The setter, after its lock. -/
theorem Sound.dismiss (h : s.Sound home) {value : Option Time} {task : Option Task} {old : Option Nat}
    (hdoing : s.threads th = .assigned value task old) (flag : Bool) [DecidableEq Task] :
    (s.advance home th flag (.assigned value task old)).Sound home := by
  cases old with
  | none =>
    have hheld : ∀ t ∈ s.armed, (none : Option Nat) ≠ some t.id := fun t _ => (Option.some_ne_none t.id).symm
    cases task with
    | none =>
      exact h.dismissed (d := .idle) hdoing hheld trivial rfl fun _ _ _ hk => absurd hk.symm (Option.some_ne_none _)
    | some task =>
      cases value with
      | none =>
        exact h.dismissed (d := .idle) hdoing hheld trivial rfl fun _ _ ht => absurd ht.symm (Option.some_ne_none _)
      | some value =>
        exact h.dismissed (d := .posting value task) hdoing hheld trivial rfl
          fun _ _ ht hk => ⟨Option.some.inj ht, Option.some.inj hk⟩
  | some timer =>
    have h₁ : (s.cancelTimer timer).Sound home := by
      refine h.cancelTimer fun k d _ _ _ _ hhandle => ?_
      have htaken := h.timers.taken th timer (by rw [hdoing]; rfl)
      exact absurd hhandle htaken.2
    have hheld : ∀ t ∈ (s.cancelTimer timer).armed, some timer ≠ some t.id := by
      intro t ht heq
      have hne : t.id ≠ timer := by simpa using (List.mem_filter.1 ht).2
      exact hne (Option.some.inj heq).symm
    cases task with
    | none =>
      exact h₁.dismissed (d := .idle) hdoing hheld trivial rfl fun _ _ _ hk => absurd hk.symm (Option.some_ne_none _)
    | some task =>
      cases value with
      | none =>
        exact h₁.dismissed (d := .idle) hdoing hheld trivial rfl fun _ _ ht => absurd ht.symm (Option.some_ne_none _)
      | some value =>
        exact h₁.dismissed (d := .posting value task) hdoing hheld trivial rfl
          fun _ _ ht hk => ⟨Option.some.inj ht, Option.some.inj hk⟩

variable [DecidableEq Task]

omit [LinearOrder Time] [DecidableEq Thread] [DecidableEq Task] in
/-- What is wanted of `_schedule` is still wanted. -/
theorem wanted_of {value t : Time} {task k : Task} (hk : s.task = some k) (hcancel : s.cancelCalled = false)
    (ht : s.deadline = some t) (heq : value = t ∧ task = k) : s.Wanted value task :=
  ⟨heq.2 ▸ hk, heq.1 ▸ ht, hcancel⟩

omit [DecidableEq Task] in
/-- `_rollback_aenter` goes on. -/
theorem Sound.dropRollback (h : s.Sound home) {stage : Stage} (hdoing : s.threads th = .rollback stage host) :
    (s.drop th (.rollback · host) (.unset host) stage).Sound home := by
  have hfits := h.placed.fits th
  rw [hdoing] at hfits
  obtain ⟨hinside, hsome, hstale⟩ := hfits
  have hfollows (stage' : Stage) : (Doing.rollback stage host : Doing Task Time).Follows (.rollback stage' host) :=
    ⟨rfl, rfl, nofun, fun _ => id⟩
  have hlast : (Doing.rollback stage host : Doing Task Time).Follows (.unset host) := ⟨rfl, rfl, nofun, fun _ => id⟩
  unfold Sys.drop
  cases stage with
  | look =>
    dsimp only
    split
    · rename_i hhandle
      refine h.turn hdoing (.rollback .cancel host) ⟨hinside, fun _ hnone => ?_, nofun⟩ (hfollows _)
        fun _ _ _ _ _ _ => .inl
      rw [hnone] at hhandle
      cases hhandle
    · rename_i hhandle
      exact h.turn hdoing (.unset host) ⟨hinside, by simpa using hhandle⟩ hlast fun _ _ _ _ _ _ => .inl
  | cancel =>
    dsimp only
    split
    · rename_i timer hhandle
      have h₁ : (s.cancelTimer timer).Sound home := h.cancelTimer fun k d hk _ _ _ _ =>
        ⟨th, by rw [hdoing]; exact Option.some.inj (hinside.1.1.symm.trans hk)⟩
      refine h₁.turn hdoing (.rollback .clear host) ⟨hinside, nofun, fun _ t ht heq => ?_⟩ (hfollows _)
        fun _ _ _ _ _ _ => .inl
      have hne : t.id ≠ timer := by simpa using (List.mem_filter.1 ht).2
      exact hne (Option.some.inj (heq.symm.trans hhandle))
    · rename_i hnone
      exact absurd hnone (hsome rfl)
  | clear =>
    exact (h.forget (hstale rfl) (.inl ⟨host, hdoing⟩)).turn hdoing (.unset host) ⟨hinside, rfl⟩ hlast
      fun _ _ _ _ _ _ => .inl

omit [DecidableEq Task] in
/-- `__aexit__` goes on. -/
theorem Sound.dropLeaving (h : s.Sound home) {stage : Stage} (hdoing : s.threads th = .leaving stage) :
    (s.drop th .leaving .idle stage).Sound home := by
  have hfits := h.placed.fits th
  rw [hdoing] at hfits
  obtain ⟨hnone, hempty, hstale⟩ := hfits
  have hfollows (stage' : Stage) : (Doing.leaving stage : Doing Task Time).Follows (.leaving stage') :=
    ⟨rfl, rfl, fun _ => rfl, nofun⟩
  unfold Sys.drop
  cases stage with
  | look =>
    dsimp only
    split
    · exact h.turn hdoing (.leaving .cancel) ⟨hnone, hempty, nofun⟩ (hfollows _) fun _ _ _ _ _ _ => .inl
    · rename_i hhandle
      exact h.left hdoing (by simpa using hhandle)
  | cancel =>
    dsimp only
    split
    · rename_i timer hhandle
      have h₁ : (s.cancelTimer timer).Sound home := h.cancelTimer fun k d hk _ _ _ _ => by cases hnone.symm.trans hk
      refine h₁.turn hdoing (.leaving .clear) ⟨hnone, hempty, fun _ t ht heq => ?_⟩ (hfollows _)
        fun _ _ _ _ _ _ => .inl
      have hne : t.id ≠ timer := by simpa using (List.mem_filter.1 ht).2
      exact hne (Option.some.inj (heq.symm.trans hhandle))
    · rename_i hhandle
      exact h.left hdoing hhandle
  | clear => exact (h.forget (hstale rfl) (.inr hdoing)).left hdoing rfl

omit [DecidableEq Thread] [DecidableEq Task] in
theorem Sound.enqueue (h : s.Sound home) (entry : Time × Task) :
    ({ s with queue := s.queue ++ [entry] }).Sound home where
  placed := ⟨fun th => (h.placed.fits th).same rfl rfl rfl fun _ ht => ht, h.placed.blocks, h.placed.task,
    h.placed.free⟩
  timers := ⟨h.timers.fresh, h.timers.nodup, h.timers.known, h.timers.inForce, h.timers.held, h.timers.loop,
    h.timers.taken⟩
  coming k d htask hcancel hd hnow := by
    rcases h.coming k d htask hcancel hd hnow with harmed | hqueue | hbrings
    · exact .inl harmed
    · exact .inr (.inl (List.mem_append_left _ hqueue))
    · exact .inr (.inr hbrings)

/-- A thread goes on. -/
theorem Sound.advance (h : s.Sound home) {flag : Bool} (hmeets : s.Meets home (.advance th flag)) :
    (s.advance home th flag (s.threads th)).Sound home := by
  have hfits := h.placed.fits th
  unfold Sys.Meets at hmeets
  dsimp only at hmeets
  cases hdoing : s.threads th with
  | idle => exact h
  | assigned value task old => exact h.dismiss hdoing flag
  | rollback stage host => exact h.dropRollback hdoing
  | leaving stage => exact h.dropLeaving hdoing
  | unset host => exact h.unset hdoing
  | posting value task =>
    rw [hdoing] at hmeets
    unfold Sys.advance
    dsimp only at hmeets ⊢
    split
    · rename_i hth
      exact h.turn hdoing (.schedule value task) hth.symm ⟨rfl, rfl, nofun, nofun⟩ fun _ _ _ _ _ _ => .inl
    · rename_i hth
      split
      · rename_i hflag
        refine h.turn hdoing .idle trivial ⟨rfl, rfl, nofun, nofun⟩ fun k t hk hcancel ht _ hb => ?_
        have hunwanted := (hmeets.resolve_left hth).resolve_left (by simp [hflag])
        exact absurd (wanted_of hk hcancel ht hb) hunwanted
      · refine (h.enqueue (value, task)).turn hdoing .idle trivial ⟨rfl, rfl, nofun, nofun⟩
          fun k t _ _ _ _ hb => .inr ?_
        rw [← hb.1, ← hb.2]
        exact List.mem_append_right _ (List.mem_singleton_self _)
  | schedule value task =>
    rw [hdoing] at hfits
    unfold Sys.advance
    dsimp only
    split
    · rename_i hwanted
      exact h.turn hdoing (.checked value task) ⟨hwanted.1, hfits⟩ ⟨rfl, rfl, nofun, nofun⟩ fun _ _ _ _ _ _ => .inl
    · rename_i hunwanted
      exact h.turn hdoing .idle trivial ⟨rfl, rfl, nofun, nofun⟩ fun k t hk hcancel ht _ hb =>
        absurd (wanted_of hk hcancel ht hb) hunwanted
  | checked value task =>
    rw [hdoing] at hfits
    unfold Sys.advance
    dsimp only
    split
    · rename_i hle
      refine h.turn hdoing .cancelling trivial ⟨rfl, rfl, nofun, nofun⟩ fun k t _ _ _ hnow hb => ?_
      exact absurd (hb.1 ▸ hle) (not_le_of_gt hnow)
    · exact h.turn hdoing (.arming value task) hfits ⟨rfl, rfl, nofun, nofun⟩ fun _ _ _ _ _ _ => .inl
  | arming value task =>
    rw [hdoing] at hfits hmeets
    unfold Sys.advance
    dsimp only at hmeets ⊢
    split
    · rename_i hwanted
      exact h.arm hfits (hmeets hwanted) hwanted.2.1 (by rw [hdoing]; rfl) trivial rfl (by rw [hdoing]; rfl)
    · rename_i hunwanted
      exact h.turn hdoing .idle trivial ⟨rfl, rfl, nofun, nofun⟩ fun k t hk hcancel ht _ hb =>
        absurd (wanted_of hk hcancel ht hb) hunwanted
  | firing timer =>
    rw [hdoing] at hfits
    obtain ⟨⟨k, howned⟩, hhandle, hgone⟩ := hfits
    have hstale : s.Stale := fun t ht heq => by
      rcases hhandle with hnone | hsome
      · cases hnone.symm.trans heq
      · exact hgone t ht (Option.some.inj (heq.symm.trans hsome))
    have h₁ := h.clearHandle hstale fun th' host hth' => by
      have hinside := h.placed.fits th'
      rw [hth'] at hinside
      have hth := howned.unique hinside.1.1
      rw [hth, hdoing] at hth'
      cases hth'
    exact h₁.turn hdoing .cancelling trivial ⟨rfl, rfl, nofun, nofun⟩ fun _ _ _ _ _ _ hb => hb.elim
  | cancelling =>
    exact h.cancel.turn hdoing .idle trivial ⟨rfl, rfl, nofun, nofun⟩ fun _ _ _ _ _ _ hb => hb.elim
  | entering host =>
    rw [hdoing] at hfits
    unfold Sys.advance
    dsimp only
    split
    · exact h.turn hdoing (.reading host) hfits ⟨rfl, rfl, nofun, fun _ => id⟩ fun _ _ _ _ _ _ => .inl
    · rename_i hnone
      refine h.turn hdoing (.checking host) hfits.1 ⟨rfl, rfl, nofun, fun _ => id⟩ fun k t _ _ ht _ _ => ?_
      rw [ht] at hnone
      exact absurd rfl hnone
  | reading host =>
    rw [hdoing] at hfits
    unfold Sys.advance
    dsimp only
    split
    · rename_i hdue
      obtain ⟨d, hd, hle⟩ := Option.any_eq_true _ _ |>.1 hdue
      have hle : d ≤ s.now := of_decide_eq_true hle
      refine h.turn hdoing (.late host) hfits.1 ⟨rfl, rfl, nofun, fun _ => id⟩
        fun k t _ _ ht hnow _ => ?_
      rw [Option.some.inj (hd.symm.trans ht)] at hle
      exact absurd hle (not_le_of_gt hnow)
    · exact h.turn hdoing (.early s.deadline host) hfits ⟨rfl, rfl, nofun, fun _ => id⟩
        fun k t _ _ ht _ hb => .inl ⟨ht, hb⟩
  | early value host =>
    rw [hdoing] at hfits hmeets
    dsimp only at hmeets
    obtain ⟨hsome, heq⟩ := hmeets
    obtain ⟨d, rfl⟩ := Option.ne_none_iff_exists'.1 hsome
    exact h.arm hfits.1.1 hfits.2 heq (by rw [hdoing]; rfl) hfits.1 rfl (by rw [hdoing]; rfl)
  | late host =>
    rw [hdoing] at hfits
    exact h.cancel.refuse hfits (.inr hdoing)
  | checking host =>
    rw [hdoing] at hfits
    unfold Sys.advance
    dsimp only
    split
    · exact h.refuse hfits (.inl hdoing)
    · refine h.entered hfits (by rw [hdoing]; rfl) fun t k => ?_
      rw [hdoing]
      exact id

/-- A callback is run, and taken from the queue. -/
theorem Sound.run (h : s.Sound home) (hidle : s.threads th = .idle) {value : Time} {task : Task}
    (hhome : home task = th) :
    ({ s with queue := s.queue.erase (value, task) }.goto th (.schedule value task)).Sound home := by
  have h₁ : (s.goto th (.schedule value task)).Sound home :=
    h.turn hidle (.schedule value task) hhome ⟨rfl, rfl, nofun, nofun⟩ fun _ _ _ _ _ _ hb => hb.elim
  refine ⟨⟨h₁.placed.fits, h₁.placed.blocks, h₁.placed.task, h₁.placed.free⟩,
    ⟨h₁.timers.fresh, h₁.timers.nodup, h₁.timers.known, h₁.timers.inForce, h₁.timers.held, h₁.timers.loop,
      h₁.timers.taken⟩, fun k d hk hcancel hd hnow => ?_⟩
  rcases h₁.coming k d hk hcancel hd hnow with harmed | hqueue | hbrings
  · exact .inl harmed
  · by_cases heq : (d, k) = (value, task)
    · cases heq
      exact .inr (.inr ⟨th, by rw [goto_self]; exact ⟨rfl, rfl⟩⟩)
    · exact .inr (.inl ((List.mem_erase_of_ne heq).2 hqueue))
  · exact .inr (.inr hbrings)

omit [DecidableEq Task] in
/-- A timer fires. -/
theorem Sound.fire (h : s.Sound home) (hidle : s.threads th = .idle) {timer : Nat}
    (hfree : ∀ th, (s.threads th).holds ≠ some timer)
    (hdue : ∃ t ∈ s.armed, t.id = timer ∧ t.loop = th ∧ ∃ d, t.time = some d ∧ d ≤ s.now) :
    ((s.cancelTimer timer).goto th (.firing timer)).Sound home := by
  obtain ⟨t, ht, rfl, rfl, d, hd, hle⟩ := hdue
  have hhandle : s.handle = some t.id := (h.timers.held t ht).resolve_right fun ⟨th, hholds⟩ => hfree th hholds
  have hdeadline : s.deadline = some d := (h.timers.inForce t ht hhandle).1.symm.trans hd
  have howned : ∃ k, s.Owned home t.loop k := (h.timers.loop t ht hhandle).resolve_right (by rw [hidle]; exact nofun)
  have h₁ : (s.cancelTimer t.id).Sound home := h.cancelTimer fun k d' _ _ hd' hnow _ => by
    rw [Option.some.inj (hdeadline.symm.trans hd')] at hle
    exact absurd hle (not_le_of_gt hnow)
  refine h₁.turn hidle (.firing t.id) ⟨howned, .inr hhandle, fun u hu => ?_⟩ ⟨rfl, rfl, nofun, nofun⟩
    fun _ _ _ _ _ _ hb => hb.elim
  simpa using (List.mem_filter.1 hu).2

theorem Sound.step (h : s.Sound home) {a : Action Thread Task Time} (hmeets : s.Meets home a)
    (hst : s.step home a = some s') : s'.Sound home := by
  cases a with
  | tick time =>
    simp only [Sys.step] at hst
    split at hst
    · rename_i hle
      cases hst
      exact h.tick hle
    · cases hst
  | cancel =>
    cases hst
    exact h.cancel
  | assign th value =>
    simp only [Sys.step] at hst
    split at hst
    · rename_i hidle
      cases hst
      exact h.assign hidle hmeets
    · cases hst
  | run th value task =>
    simp only [Sys.step] at hst
    split at hst
    · rename_i hrun
      cases hst
      exact h.run hrun.1 hrun.2.1
    · cases hst
  | fire th timer =>
    simp only [Sys.step] at hst
    split at hst
    · rename_i hfire
      cases hst
      refine h.fire hfire.1 hmeets ?_
      simpa [Option.any_eq_true] using hfire.2
    · cases hst
  | enter th host =>
    simp only [Sys.step] at hst
    split at hst
    · rename_i henter
      split at hst
      · rename_i htask
        cases hst
        exact h.enter henter.1 henter.2 htask hmeets.1 hmeets.2
      · cases hst
        exact h
    · cases hst
  | exit th host =>
    simp only [Sys.step] at hst
    split at hst
    · rename_i hexit
      cases hst
      exact h.exit hexit.1 hexit.2.1 hexit.2.2
    · cases hst
  | advance th flag =>
    simp only [Sys.step] at hst
    split at hst
    · cases hst
    · cases hst
      exact h.advance hmeets

omit [DecidableEq Thread] [DecidableEq Task] in
theorem sound_fresh (h : s.Fresh) : s.Sound home := by
  obtain ⟨-, htask, hhandle, harmed, -, hblocks, hidle⟩ := h
  have hnone : ∀ t ∈ s.armed, False := by
    rw [harmed]
    exact nofun
  refine ⟨⟨fun th => ?_, .inl hblocks, fun k hk => ?_, fun _ => .inl hhandle⟩,
    ⟨fun t ht => (hnone t ht).elim, ?_, fun timer ht => ?_, fun t ht => (hnone t ht).elim,
      fun t ht => (hnone t ht).elim, fun t ht => (hnone t ht).elim, fun th timer ht => ?_⟩, fun k d hk => ?_⟩
  · rw [hidle]
    trivial
  · cases htask.symm.trans hk
  · rw [harmed]
    exact List.nodup_nil
  · cases hhandle.symm.trans ht
  · rw [hidle] at ht
    cases ht
  · cases htask.symm.trans hk

end Sys

variable [DecidableEq Task] {home : Task → Thread} {s s' : Sys Thread Task Time} {a : Action Thread Task Time}

theorem sound (h : (system home).ReachableWhen (Sys.Meets home) s) : s.Sound home :=
  h.inv (fun _ h0 => Sys.sound_fresh h0) fun _ _ _ hs hok hst => hs.step hok hst

/-- No call is in progress, and no call of `_schedule` is pending. -/
def Sys.Quiet (s : Sys Thread Task Time) : Prop := s.queue = [] ∧ ∀ th, s.threads th = .idle

namespace Sys

omit [DecidableEq Thread] [DecidableEq Task] in
theorem Sound.handle_of_quiet (h : s.Sound home) (hquiet : s.Quiet) {t : Timer Thread Time} (ht : t ∈ s.armed) :
    s.handle = some t.id :=
  (h.timers.held t ht).resolve_right fun ⟨th, hholds⟩ => by
    rw [hquiet.2] at hholds
    cases hholds

omit [DecidableEq Thread] [DecidableEq Task] in
/-- A timer is armed only in the block, and for a deadline. -/
theorem Sound.armed_of_quiet (h : s.Sound home) (hquiet : s.Quiet) {t : Timer Thread Time} (ht : t ∈ s.armed) :
    s.blocks ≠ [] ∧ s.deadline ≠ none := by
  have hhandle := h.handle_of_quiet hquiet ht
  refine ⟨fun hempty => ?_, (h.timers.inForce t ht hhandle).2⟩
  obtain ⟨k, hk, -⟩ := (h.timers.loop t ht hhandle).resolve_right (by rw [hquiet.2]; exact nofun)
  rcases h.placed.task k hk with hblocks | henters
  · cases hempty.symm.trans hblocks
  · rw [hquiet.2] at henters
    cases henters

omit [DecidableEq Thread] [DecidableEq Task] in
/-- The armed timers have different names. -/
theorem Sound.armed_eq (h : s.Sound home) (hquiet : s.Quiet) {t : Timer Thread Time} (ht : t ∈ s.armed) :
    s.armed = [t] := by
  have hname : ∀ u ∈ s.armed, u.id = t.id := fun u hu =>
    Option.some.inj ((h.handle_of_quiet hquiet hu).symm.trans (h.handle_of_quiet hquiet ht))
  have hnodup := h.timers.nodup
  cases harmed : s.armed with
  | nil =>
    rw [harmed] at ht
    cases ht
  | cons u us =>
    rw [harmed] at ht hnodup hname
    cases us with
    | nil => rw [List.mem_singleton.1 ht]
    | cons v vs =>
      have hne : u.id ≠ v.id := fun heq => (List.nodup_cons.1 hnodup).1 (List.mem_map.2 ⟨v, .head _, heq.symm⟩)
      exact absurd ((hname u (.head _)).trans (hname v (.tail _ (.head _))).symm) hne

omit [DecidableEq Thread] [DecidableEq Task] in
theorem Sound.none_armed (h : s.Sound home) (hquiet : s.Quiet) (hnone : s.blocks = [] ∨ s.deadline = none) :
    s.armed = [] := by
  refine List.eq_nil_iff_forall_not_mem.2 fun t ht => ?_
  obtain ⟨hin, hsome⟩ := h.armed_of_quiet hquiet ht
  exact hnone.elim hin hsome

omit [DecidableEq Thread] [DecidableEq Task] in
theorem Sound.one_armed (h : s.Sound home) (hquiet : s.Quiet) {d : Time} (hin : s.blocks ≠ [])
    (hcancel : s.cancelCalled = false) (hd : s.deadline = some d) (hnow : s.now < d) :
    ∃ t, s.armed = [t] ∧ t.time = some d ∧ s.handle = some t.id := by
  obtain ⟨k, hblocks, hk⟩ := h.placed.blocks.resolve_left hin
  obtain ⟨t, ht, hhandle⟩ : ∃ t ∈ s.armed, s.handle = some t.id := by
    refine (h.coming k d hk hcancel hd hnow).resolve_right fun hcoming => ?_
    rcases hcoming with hqueue | ⟨th, hbrings⟩
    · rw [hquiet.1] at hqueue
      cases hqueue
    · rw [hquiet.2] at hbrings
      exact hbrings
  exact ⟨t, h.armed_eq hquiet ht, (h.timers.inForce t ht hhandle).1.trans hd, hhandle⟩

end Sys

/-- A scope of a loop and another thread, with a deadline. -/
def newScope : Sys Bool Unit Nat :=
  { deadline := some 5, cancelCalled := false, cancelledCaught := false, convertToTimeout := false, task := none,
    handle := none, armed := [], made := 0, queue := [], threads := fun _ => .idle, now := 0, blocks := [] }

theorem reachable_newScope (ok : Sys Bool Unit Nat → Action Bool Unit Nat → Prop) :
    (system fun _ => true).ReachableWhen ok newScope :=
  .init ⟨rfl, rfl, rfl, rfl, rfl, rfl, fun _ => rfl⟩

/-- In every run in which no thread gets between two steps that belong together,
once all calls are through: a scope that was left, or has no deadline, has no
timer, and one that is entered and not cancelled has one timer for a deadline to
come. -/
theorem one_timer_for_deadline (h : (system home).ReachableWhen (Sys.Meets home) s) (hquiet : s.Quiet) :
    (s.blocks = [] ∨ s.deadline = none → s.armed = []) ∧
      ∀ d, s.blocks ≠ [] → s.cancelCalled = false → s.deadline = some d → s.now < d →
        ∃ t, s.armed = [t] ∧ t.time = some d ∧ s.handle = some t.id :=
  ⟨(sound h).none_armed hquiet, fun _ => (sound h).one_armed hquiet⟩

/-- Another thread assigns a later deadline. -/
theorem one_timer_for_deadline_postponed : ∃ s : Sys Bool Unit Nat, s.Quiet ∧ s.now = 0 ∧
    ∃ t, s.armed = [t] ∧ t.time = some 10 ∧ s.handle = some t.id := by
  have h := (reachable_newScope (Sys.Meets fun _ => true)).next (.enter true ()) ⟨nofun, fun _ => rfl⟩ rfl
  have h := (h.next (.advance true false) trivial rfl).next (.advance true false) trivial rfl
  have h := (h.next (.advance true false) ⟨nofun, rfl⟩ rfl).next (.advance true false) trivial rfl
  have h := h.next (.assign false (some 10)) (fun th => by cases th <;> nofun) rfl
  have h := (h.next (.advance false false) trivial rfl).next (.advance false false) (.inr (.inl rfl)) rfl
  have h := (h.next (.run true 10 ()) trivial rfl).next (.advance true false) trivial rfl
  have h := (h.next (.advance true false) trivial rfl).next (.advance true false) (fun _ => rfl) rfl
  have hnow : 0 < 10 := by decide
  refine ⟨_, ?_, ?_, (one_timer_for_deadline h ?_).2 10 nofun rfl rfl hnow⟩
  · exact ⟨rfl, fun th => by cases th <;> rfl⟩
  · rfl
  · exact ⟨rfl, fun th => by cases th <;> rfl⟩

end Multiloop.DeadlineTimer
