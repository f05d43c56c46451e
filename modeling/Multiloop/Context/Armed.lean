import Multiloop.Context.DeadlineTimer

/-!
# One timer for each deadline

What a scope and its timers look like in a run in which no thread gets between
two steps that belong together. Each armed timer is the one that
`_deadline_handle` names, or a setter has taken it and is about to cancel it; the
one that is named is set for the deadline in force. `Fits` says what a thread
relies on while it does something: at most one thread owns the scope, the home
of its task, and only that one arms timers or lets them fire.
-/

namespace Multiloop.DeadlineTimer

variable {Thread Task Time : Type}

namespace Doing

/-- The timer that a setter has taken and is about to cancel. -/
def holds : Doing Task Time → Option Nat
  | .assigned _ _ old => old
  | _ => none

def leaves : Doing Task Time → Bool
  | .leaving _ => true
  | _ => false

/-- The task that is in `__aenter__`. -/
def enters : Doing Task Time → Option Task
  | .entering host | .reading host | .early _ host | .late host | .checking host | .rollback _ host | .unset host =>
    some host
  | _ => none

/-- The thread will arm a timer for deadline `d` of task `k`, or take the task
out of the scope. -/
def Brings (d : Time) (k : Task) : Doing Task Time → Prop
  | .assigned value task _ => value = some d ∧ task = some k
  | .posting value task | .schedule value task | .checked value task | .arming value task => value = d ∧ task = k
  | .entering host | .reading host | .rollback _ host | .unset host => host = k
  | .early value host => value = some d ∧ host = k
  | _ => False

/-- A thread that holds no timer may turn from the one to the other. -/
def Follows (d₀ d : Doing Task Time) : Prop :=
  d₀.holds = none ∧ d.holds = none ∧ (d₀.leaves = true → d.leaves = true) ∧ ∀ k, d₀.enters = some k → d.enters = some k

end Doing

namespace Sys

variable [LinearOrder Time] (home : Task → Thread) (s : Sys Thread Task Time)

/-- The thread is the home of the task that the scope belongs to. -/
def Owned (th : Thread) (k : Task) : Prop := s.task = some k ∧ home k = th

/-- Task `k` is in `__aenter__`, and has left no timer. -/
def Inside (th : Thread) (k : Task) : Prop := s.Owned home th k ∧ s.blocks = []

/-- `_deadline_handle` names no timer that is armed. -/
def Stale : Prop := ∀ t ∈ s.armed, s.handle ≠ some t.id

/-- What a thread relies on. -/
def Fits (th : Thread) : Doing Task Time → Prop
  | .idle | .assigned _ _ _ | .posting _ _ | .cancelling => True
  | .schedule _ task => home task = th
  | .checked _ task | .arming _ task => s.Owned home th task
  | .firing timer => (∃ k, s.Owned home th k) ∧ (s.handle = none ∨ s.handle = some timer) ∧
      ∀ t ∈ s.armed, t.id ≠ timer
  | .entering host | .reading host | .early _ host | .unset host => s.Inside home th host ∧ s.handle = none
  | .late host | .checking host => s.Inside home th host
  | .rollback stage host => s.Inside home th host ∧ (stage = .cancel → s.handle ≠ none) ∧ (stage = .clear → s.Stale)
  | .leaving stage => s.task = none ∧ s.blocks = [] ∧ (stage = .clear → s.Stale)

/-- Whom the scope belongs to, and what the threads do with it. -/
structure Placed : Prop where
  fits : ∀ th, s.Fits home th (s.threads th)
  blocks : s.blocks = [] ∨ ∃ k, s.blocks = [k] ∧ s.task = some k
  task : ∀ k, s.task = some k → s.blocks = [k] ∨ (s.threads (home k)).enters = some k
  free : s.task = none → s.handle = none ∨ ∃ th, (s.threads th).leaves = true

structure Timers : Prop where
  fresh : ∀ t ∈ s.armed, t.id < s.made
  nodup : (s.armed.map (·.id)).Nodup
  known : ∀ timer, s.handle = some timer → timer < s.made
  inForce : ∀ t ∈ s.armed, s.handle = some t.id → t.time = s.deadline ∧ s.deadline ≠ none
  held : ∀ t ∈ s.armed, s.handle = some t.id ∨ ∃ th, (s.threads th).holds = some t.id
  loop : ∀ t ∈ s.armed, s.handle = some t.id → (∃ k, s.Owned home t.loop k) ∨ (s.threads t.loop).leaves = true
  taken : ∀ th timer, (s.threads th).holds = some timer → timer < s.made ∧ s.handle ≠ some timer

/-- A timer for the deadline is armed, or will be. -/
def Coming (d : Time) (k : Task) : Prop :=
  (∃ t ∈ s.armed, s.handle = some t.id) ∨ (d, k) ∈ s.queue ∨ ∃ th, (s.threads th).Brings d k

structure Sound : Prop where
  placed : s.Placed home
  timers : s.Timers home
  coming : ∀ k d, s.task = some k → s.cancelCalled = false → s.deadline = some d → s.now < d → s.Coming d k

variable [DecidableEq Thread] [DecidableEq Task]

/-- No thread gets between two steps that belong together. -/
def Meets : Action Thread Task Time → Prop
  | .assign _ _ => ∀ th host, s.threads th ≠ .rollback .cancel host
  | .fire _ timer => ∀ th, (s.threads th).holds ≠ some timer
  | .enter _ host => host ∉ s.blocks ∧ ∀ th, (s.threads th).leaves = false
  | .advance th flag =>
    match s.threads th with
    | .posting value task => th = home task ∨ flag = false ∨ ¬ s.Wanted value task
    | .arming value task => s.Wanted value task → s.handle = none
    | .early value _ => value ≠ none ∧ s.deadline = value
    | _ => True
  | _ => True

/-! ## The scope changes, the threads do not -/

omit [LinearOrder Time] [DecidableEq Thread] [DecidableEq Task] in
theorem Owned.unique {home : Task → Thread} {s : Sys Thread Task Time} {th th' : Thread} {k k' : Task}
    (h : s.Owned home th k) (h' : s.Owned home th' k') : th' = th := by
  have hk : k = k' := Option.some.inj (h.1.symm.trans h'.1)
  rw [← h.2, ← h'.2, hk]

variable {home : Task → Thread} {s s' : Sys Thread Task Time} {th : Thread} {d : Doing Task Time}

omit [LinearOrder Time] [DecidableEq Thread] [DecidableEq Task] in
/-- What a thread relies on stays true if the scope stays with its task. -/
theorem Fits.same (h : s.Fits home th d) (htask : s'.task = s.task) (hblocks : s'.blocks = s.blocks)
    (hhandle : s'.handle = s.handle) (harmed : ∀ t ∈ s'.armed, t ∈ s.armed) : s'.Fits home th d := by
  cases d with
  | firing timer =>
    obtain ⟨howned, hh, hnone⟩ := h
    refine ⟨?_, ?_, fun t ht => hnone t (harmed t ht)⟩
    · simp only [Owned, htask]
      exact howned
    · rw [hhandle]
      exact hh
  | rollback stage host =>
    obtain ⟨hinside, hcancel, hclear⟩ := h
    refine ⟨?_, ?_, fun hstage t ht => ?_⟩
    · simp only [Inside, Owned, htask, hblocks]
      exact hinside
    · rw [hhandle]
      exact hcancel
    · rw [hhandle]
      exact hclear hstage t (harmed t ht)
  | leaving stage =>
    obtain ⟨hnone, hempty, hclear⟩ := h
    refine ⟨htask.trans hnone, hblocks.trans hempty, fun hstage t ht => ?_⟩
    rw [hhandle]
    exact hclear hstage t (harmed t ht)
  | _ =>
    simp only [Fits, Inside, Owned, htask, hblocks, hhandle] at h ⊢
    try exact h

omit [LinearOrder Time] [DecidableEq Thread] [DecidableEq Task] in
/-- Other threads than the owner rely on next to nothing. -/
theorem Fits.other (h : s.Fits home th d) {th' : Thread} {k : Task} (howned : s.Owned home th' k) (hne : th ≠ th') :
    s'.Fits home th d := by
  have hnot {k' : Task} (h' : s.Owned home th k') {p : Prop} : p := absurd (howned.unique h') hne
  cases d with
  | idle => trivial
  | assigned value task old => trivial
  | posting value task => trivial
  | schedule value task => exact h
  | cancelling => trivial
  | checked value task => exact hnot h
  | arming value task => exact hnot h
  | firing timer => exact h.1.elim fun _ h' => hnot h'
  | entering host => exact hnot h.1.1
  | reading host => exact hnot h.1.1
  | early value host => exact hnot h.1.1
  | late host => exact hnot h.1
  | checking host => exact hnot h.1
  | rollback stage host => exact hnot h.1.1
  | unset host => exact hnot h.1.1
  | leaving stage =>
    have hnone := howned.1
    rw [h.1] at hnone
    cases hnone

omit [DecidableEq Thread] [DecidableEq Task] in
theorem Sound.tick (h : s.Sound home) {time : Time} (hle : s.now ≤ time) : ({ s with now := time }).Sound home where
  placed := ⟨fun th => (h.placed.fits th).same rfl rfl rfl fun _ ht => ht, h.placed.blocks, h.placed.task,
    h.placed.free⟩
  timers := ⟨h.timers.fresh, h.timers.nodup, h.timers.known, h.timers.inForce, h.timers.held, h.timers.loop,
    h.timers.taken⟩
  coming k d htask hcancel hd hnow := h.coming k d htask hcancel hd (lt_of_le_of_lt hle hnow)

omit [DecidableEq Thread] [DecidableEq Task] in
theorem Sound.cancel (h : s.Sound home) : ({ s with cancelCalled := true }).Sound home where
  placed := ⟨fun th => (h.placed.fits th).same rfl rfl rfl fun _ ht => ht, h.placed.blocks, h.placed.task,
    h.placed.free⟩
  timers := ⟨h.timers.fresh, h.timers.nodup, h.timers.known, h.timers.inForce, h.timers.held, h.timers.loop,
    h.timers.taken⟩
  coming k d _ hcancel := by cases hcancel

omit [DecidableEq Thread] [DecidableEq Task] in
/-- A timer is cancelled. -/
theorem Sound.cancelTimer (h : s.Sound home) {timer : Nat}
    (hcoming : ∀ k d, s.task = some k → s.cancelCalled = false → s.deadline = some d → s.now < d →
      s.handle = some timer → ∃ th, (s.threads th).Brings d k) : (s.cancelTimer timer).Sound home := by
  have hsub : ∀ t ∈ (s.cancelTimer timer).armed, t ∈ s.armed ∧ t.id ≠ timer := fun t ht => by
    simpa [Sys.cancelTimer] using ht
  refine ⟨⟨fun th => (h.placed.fits th).same rfl rfl rfl fun t ht => (hsub t ht).1, h.placed.blocks,
    h.placed.task, h.placed.free⟩, ⟨fun t ht => h.timers.fresh t (hsub t ht).1, ?_, h.timers.known,
    fun t ht => h.timers.inForce t (hsub t ht).1, fun t ht => h.timers.held t (hsub t ht).1,
    fun t ht => h.timers.loop t (hsub t ht).1, h.timers.taken⟩, fun k d htask hcancel hd hnow => ?_⟩
  · exact h.timers.nodup.sublist (List.filter_sublist.map _)
  · rcases h.coming k d htask hcancel hd hnow with ⟨t, ht, hhandle⟩ | hcoming'
    · by_cases htimer : t.id = timer
      · exact .inr (.inr (hcoming k d htask hcancel hd hnow (htimer ▸ hhandle)))
      · exact .inl ⟨t, List.mem_filter.2 ⟨ht, by simpa using htimer⟩, hhandle⟩
    · exact .inr hcoming'

omit [DecidableEq Thread] [DecidableEq Task] in
/-- The handle of a timer that is not armed is forgotten. -/
theorem Sound.clearHandle (h : s.Sound home) (harmed : s.Stale)
    (hrollback : ∀ th host, s.threads th ≠ .rollback .cancel host) : ({ s with handle := none }).Sound home := by
  have hnone {t : Timer Thread Time} (ht : (none : Option Nat) = some t.id) {p : Prop} : p := by cases ht
  refine ⟨⟨fun th => ?_, h.placed.blocks, h.placed.task, fun _ => .inl rfl⟩, ⟨h.timers.fresh, h.timers.nodup,
    nofun, fun t _ ht => hnone ht, fun t ht => .inr ((h.timers.held t ht).resolve_left (harmed t ht)),
    fun t _ ht => hnone ht, fun th timer ht => ⟨(h.timers.taken th timer ht).1, nofun⟩⟩,
    fun k d htask hcancel hd hnow => ?_⟩
  · have hfits := h.placed.fits th
    show Sys.Fits home _ th (s.threads th)
    cases hdoing : s.threads th with
    | firing timer =>
      rw [hdoing] at hfits
      exact ⟨hfits.1, .inl rfl, hfits.2.2⟩
    | rollback stage host =>
      rw [hdoing] at hfits
      refine ⟨hfits.1, fun hstage => ?_, fun _ _ _ => nofun⟩
      rw [hstage] at hdoing
      exact absurd hdoing (hrollback th host)
    | leaving stage =>
      rw [hdoing] at hfits
      exact ⟨hfits.1, hfits.2.1, fun _ _ _ => nofun⟩
    | entering host =>
      rw [hdoing] at hfits
      exact ⟨hfits.1, rfl⟩
    | reading host =>
      rw [hdoing] at hfits
      exact ⟨hfits.1, rfl⟩
    | early value host =>
      rw [hdoing] at hfits
      exact ⟨hfits.1, rfl⟩
    | unset host =>
      rw [hdoing] at hfits
      exact ⟨hfits.1, rfl⟩
    | _ =>
      rw [hdoing] at hfits
      exact hfits
  · rcases h.coming k d htask hcancel hd hnow with ⟨t, ht, hhandle⟩ | hcoming
    · exact absurd hhandle (harmed t ht)
    · exact .inr hcoming

/-! ## A thread turns to something else -/

/-- Thread `th` may turn to `d`. -/
structure Turns (home : Task → Thread) (s : Sys Thread Task Time) (th : Thread) (d : Doing Task Time) : Prop where
  fits : s.Fits home th d
  holds : d.holds = none
  held : ∀ t ∈ s.armed, (s.threads th).holds ≠ some t.id
  leaves : (s.threads th).leaves = true → d.leaves = true ∨ s.handle = none
  enters : ∀ k, (s.threads th).enters = some k → d.enters = some k
  coming : ∀ k t, s.task = some k → s.cancelCalled = false → s.deadline = some t → s.now < t →
    (s.threads th).Brings t k → d.Brings t k ∨ (t, k) ∈ s.queue

omit [LinearOrder Time] [DecidableEq Task] in
theorem goto_self (s : Sys Thread Task Time) (th : Thread) (d : Doing Task Time) : (s.goto th d).threads th = d :=
  Function.update_self ..

omit [LinearOrder Time] [DecidableEq Task] in
theorem goto_of_ne (s : Sys Thread Task Time) {th th' : Thread} (h : th' ≠ th) (d : Doing Task Time) :
    (s.goto th d).threads th' = s.threads th' := Function.update_of_ne h ..

omit [LinearOrder Time] [DecidableEq Task] in
/-- What the other threads rely on, and what this one does. -/
theorem fits_goto (hfits : s.Fits home th d) (hothers : ∀ th' ≠ th, s.Fits home th' (s.threads th')) (th' : Thread) :
    (s.goto th d).Fits home th' ((s.goto th d).threads th') := by
  by_cases hth : th' = th
  · rw [hth, goto_self]
    exact hfits
  · rw [goto_of_ne s hth]
    exact hothers th' hth

omit [LinearOrder Time] [DecidableEq Task] in
/-- The timers, when a thread turns to something else, and the scope to another
task. -/
theorem Timers.turn (h : s.Timers home) (hholds : d.holds = none)
    (hheld : ∀ t ∈ s.armed, (s.threads th).holds ≠ some t.id) {task : Option Task} {blocks : List Task}
    (hloop : ∀ t ∈ s.armed, s.handle = some t.id →
      (∃ k, task = some k ∧ home k = t.loop) ∨ ((s.goto th d).threads t.loop).leaves = true) :
    ({ s with task, blocks }.goto th d).Timers home := by
  refine ⟨h.fresh, h.nodup, h.known, h.inForce, fun t hmem => ?_, hloop, fun th' timer htimer => ?_⟩
  · refine (h.held t hmem).imp_right fun ⟨th', holds⟩ => ⟨th', ?_⟩
    have hth : th' ≠ th := fun hth => hheld t hmem (hth ▸ holds)
    rw [goto_of_ne _ hth]
    exact holds
  · have hth : th' ≠ th := by
      rintro rfl
      rw [goto_self, hholds] at htimer
      cases htimer
    rw [goto_of_ne _ hth] at htimer
    exact h.taken th' timer htimer

omit [DecidableEq Task] in
theorem Sound.goto (h : s.Sound home) (ht : s.Turns home th d) : (s.goto th d).Sound home := by
  refine ⟨⟨fits_goto ht.fits fun th' _ => h.placed.fits th', h.placed.blocks, fun k hk => ?_, fun htask => ?_⟩,
    h.timers.turn ht.holds ht.held fun t hmem hhandle => ?_, fun k t hk hcancel hd hnow => ?_⟩
  · rcases h.placed.task k hk with hblocks | henters
    · exact .inl hblocks
    · by_cases hth : home k = th
      · rw [hth] at henters ⊢
        rw [goto_self]
        exact .inr (ht.enters k henters)
      · rw [goto_of_ne s hth]
        exact .inr henters
  · rcases h.placed.free htask with hnone | ⟨th', hleaves⟩
    · exact .inl hnone
    · by_cases hth : th' = th
      · rcases ht.leaves (hth ▸ hleaves) with hd | hnone
        · exact .inr ⟨th, by rw [goto_self]; exact hd⟩
        · exact .inl hnone
      · exact .inr ⟨th', by rw [goto_of_ne s hth]; exact hleaves⟩
  · refine (h.timers.loop t hmem hhandle).imp_right fun hleaves => ?_
    by_cases hth : t.loop = th
    · rw [hth, goto_self]
      refine (ht.leaves (hth ▸ hleaves)).resolve_right fun hnone => ?_
      cases hnone.symm.trans hhandle
    · rw [goto_of_ne s hth]
      exact hleaves
  · rcases h.coming k t hk hcancel hd hnow with harmed | hqueue | ⟨th', hbrings⟩
    · exact .inl harmed
    · exact .inr (.inl hqueue)
    · by_cases hth : th' = th
      · rcases ht.coming k t hk hcancel hd hnow (hth ▸ hbrings) with hbrings' | hqueue
        · exact .inr (.inr ⟨th, by rw [goto_self]; exact hbrings'⟩)
        · exact .inr (.inl hqueue)
      · exact .inr (.inr ⟨th', by rw [goto_of_ne s hth]; exact hbrings⟩)

/-! ## The scope and a thread change together -/

omit [DecidableEq Thread] [DecidableEq Task] in
/-- A thread that owns the scope leaves nothing for the others to rely on. -/
theorem Sound.others (h : s.Sound home) {k : Task} (howned : s.Owned home th k) :
    ∀ th' ≠ th, s'.Fits home th' (s.threads th') :=
  fun th' hne => (h.placed.fits th').other howned hne

omit [DecidableEq Thread] [DecidableEq Task] in
theorem Sound.leaves_eq_false (h : s.Sound home) {k : Task} (htask : s.task = some k) (th : Thread) :
    (s.threads th).leaves = false := by
  have hfits := h.placed.fits th
  cases hdoing : s.threads th with
  | leaving stage =>
    rw [hdoing] at hfits
    cases hfits.1.symm.trans htask
  | _ => rfl

omit [DecidableEq Task] in
/-- The lock of the setter. -/
theorem Sound.assign (h : s.Sound home) (hidle : s.threads th = .idle) {value : Option Time}
    (hrollback : ∀ th host, s.threads th ≠ .rollback .cancel host) :
    ({ s with deadline := value, handle := none }.goto th (.assigned value s.task s.handle)).Sound home := by
  have hnone {t : Timer Thread Time} (ht : (none : Option Nat) = some t.id) {p : Prop} : p := by cases ht
  have hother {th' : Thread} (hne : s.threads th' ≠ .idle) : th' ≠ th := fun hth => hne (hth ▸ hidle)
  have hfits : ∀ th', Sys.Fits home { s with deadline := value, handle := none } th' (s.threads th') := by
    intro th'
    have hfits := h.placed.fits th'
    cases hdoing : s.threads th' with
    | firing timer =>
      rw [hdoing] at hfits
      exact ⟨hfits.1, .inl rfl, hfits.2.2⟩
    | rollback stage host =>
      rw [hdoing] at hfits
      refine ⟨hfits.1, fun hstage => ?_, fun _ _ _ => nofun⟩
      rw [hstage] at hdoing
      exact absurd hdoing (hrollback th' host)
    | leaving stage =>
      rw [hdoing] at hfits
      exact ⟨hfits.1, hfits.2.1, fun _ _ _ => nofun⟩
    | entering host =>
      rw [hdoing] at hfits
      exact ⟨hfits.1, rfl⟩
    | reading host =>
      rw [hdoing] at hfits
      exact ⟨hfits.1, rfl⟩
    | early value host =>
      rw [hdoing] at hfits
      exact ⟨hfits.1, rfl⟩
    | unset host =>
      rw [hdoing] at hfits
      exact ⟨hfits.1, rfl⟩
    | _ =>
      rw [hdoing] at hfits
      exact hfits
  refine ⟨⟨fits_goto (s := { s with deadline := value, handle := none }) trivial fun th' _ => hfits th',
    h.placed.blocks, fun k hk => (h.placed.task k hk).imp_right fun henters => ?_, fun _ => .inl rfl⟩,
    ⟨h.timers.fresh, h.timers.nodup, nofun, fun t _ ht => hnone ht, fun t ht => .inr ?_, fun t _ ht => hnone ht,
    fun th' timer htimer => ?_⟩, fun k t hk _ hd _ => .inr (.inr ⟨th, ?_⟩)⟩
  · have hth : home k ≠ th := hother fun hdoing => by
      rw [hdoing] at henters
      cases henters
    rw [goto_of_ne _ hth]
    exact henters
  · rcases h.timers.held t ht with hhandle | ⟨th', hholds⟩
    · exact ⟨th, by rw [goto_self]; exact hhandle⟩
    · have hth : th' ≠ th := hother fun hdoing => by
        rw [hdoing] at hholds
        cases hholds
      exact ⟨th', by rw [goto_of_ne _ hth]; exact hholds⟩
  · refine ⟨?_, nofun⟩
    by_cases hth : th' = th
    · rw [hth, goto_self] at htimer
      exact h.timers.known timer htimer
    · rw [goto_of_ne _ hth] at htimer
      exact (h.timers.taken th' timer htimer).1
  · rw [goto_self]
    exact ⟨hd, hk⟩

omit [DecidableEq Task] in
/-- A timer is armed for the deadline, and no other is. -/
theorem Sound.arm (h : s.Sound home) {k : Task} (howned : s.Owned home th k) (hhandle : s.handle = none)
    {value : Time} (hdeadline : s.deadline = some value) (hnot : (s.threads th).holds = none)
    (hfits : (s.arm th (some value)).Fits home th d) (hd : d.holds = none)
    (henters : (s.threads th).enters = d.enters) : ((s.arm th (some value)).goto th d).Sound home := by
  have hfresh {t : Timer Thread Time} (ht : t ∈ s.armed) : t.id ≠ s.made := Nat.ne_of_lt (h.timers.fresh t ht)
  have hnew : ∀ t ∈ (s.arm th (some value)).armed, t ∈ s.armed ∨ t = ⟨s.made, th, some value⟩ := by
    intro t ht
    exact (List.mem_append.1 ht).imp_right List.mem_singleton.1
  refine ⟨⟨fits_goto hfits (h.others howned), h.placed.blocks,
    fun k' hk => (h.placed.task k' hk).imp_right fun hk' => ?_, fun hnone => ?_⟩,
    ⟨fun t ht => ?_, ?_, fun timer htimer => ?_, fun t ht htimer => ?_, fun t ht => ?_, fun t ht htimer => ?_,
    fun th' timer htimer => ?_⟩, fun k' d' _ _ _ _ => .inl ⟨⟨s.made, th, some value⟩, ?_, rfl⟩⟩
  · by_cases hth : home k' = th
    · rw [hth] at hk' ⊢
      rw [goto_self, ← henters]
      exact hk'
    · rw [goto_of_ne _ hth]
      exact hk'
  · cases hnone.symm.trans howned.1
  · rcases hnew t ht with ht | rfl
    · exact Nat.lt_succ_of_lt (h.timers.fresh t ht)
    · exact Nat.lt_succ_self _
  · show ((s.armed ++ [_]).map _).Nodup
    rw [List.map_append, List.nodup_append]
    refine ⟨h.timers.nodup, List.pairwise_singleton _ _, fun i hi j hj hij => ?_⟩
    obtain ⟨t, ht, rfl⟩ := List.mem_map.1 hi
    rw [List.mem_singleton.1 hj] at hij
    exact hfresh ht hij
  · rw [← Option.some.inj htimer]
    exact Nat.lt_succ_self _
  · rcases hnew t ht with ht | rfl
    · exact absurd (Option.some.inj htimer).symm (hfresh ht)
    · refine ⟨hdeadline.symm, fun hnone => ?_⟩
      cases hdeadline.symm.trans hnone
  · rcases hnew t ht with ht | rfl
    · refine .inr ?_
      rcases h.timers.held t ht with hold | ⟨th', hholds⟩
      · cases hhandle.symm.trans hold
      · have hth : th' ≠ th := by
          rintro rfl
          cases hnot.symm.trans hholds
        exact ⟨th', by rw [goto_of_ne _ hth]; exact hholds⟩
    · exact .inl rfl
  · rcases hnew t ht with ht | rfl
    · exact absurd (Option.some.inj htimer).symm (hfresh ht)
    · exact .inl ⟨k, howned⟩
  · have hth : th' ≠ th := by
      rintro rfl
      rw [goto_self, hd] at htimer
      cases htimer
    rw [goto_of_ne _ hth] at htimer
    have hlt := (h.timers.taken th' timer htimer).1
    exact ⟨Nat.lt_succ_of_lt hlt, fun heq => Nat.ne_of_gt hlt (Option.some.inj heq)⟩
  · exact List.mem_append_right _ (List.mem_singleton_self _)

omit [DecidableEq Task] in
/-- A task is in the block. -/
theorem Sound.entered (h : s.Sound home) {host : Task} (hinside : s.Inside home th host)
    (hnot : (s.threads th).holds = none) (hbrings : ∀ t k, ¬ (s.threads th).Brings t k) :
    (s.entered th host).Sound home := by
  have hleaves := h.leaves_eq_false hinside.1.1
  refine ⟨⟨fits_goto (s := { s with blocks := host :: s.blocks }) trivial (h.others hinside.1), .inr ?_,
    fun k hk => .inl ?_, fun hnone => ?_⟩,
    h.timers.turn rfl (fun t _ => by simp [hnot]) fun t hmem hhandle => ?_,
    fun k t hk hcancel hd hnow => ?_⟩
  · refine ⟨host, ?_, hinside.1.1⟩
    show host :: s.blocks = _
    rw [hinside.2]
  · show host :: s.blocks = _
    rw [hinside.2, Option.some.inj (hinside.1.1.symm.trans hk)]
  · cases hnone.symm.trans hinside.1.1
  · refine .inl ((h.timers.loop t hmem hhandle).resolve_right fun hl => ?_)
    rw [hleaves] at hl
    cases hl
  · rcases h.coming k t hk hcancel hd hnow with harmed | hqueue | ⟨th', hth'⟩
    · exact .inl harmed
    · exact .inr (.inl hqueue)
    · have hth : th' ≠ th := fun hth => hbrings t k (hth ▸ hth')
      refine .inr (.inr ⟨th', ?_⟩)
      show ((s.entered th host).threads th').Brings t k
      rw [Sys.entered, goto_of_ne _ hth]
      exact hth'

omit [DecidableEq Task] in
/-- The lock of `_rollback_aenter`. -/
theorem Sound.unset (h : s.Sound home) {host : Task} (hdoing : s.threads th = .unset host) :
    ({ s with task := none }.goto th .idle).Sound home := by
  have hfits := h.placed.fits th
  rw [hdoing] at hfits
  obtain ⟨hinside, hhandle⟩ := hfits
  refine ⟨⟨fits_goto (s := { s with task := none }) trivial (h.others hinside.1), .inl hinside.2,
    nofun, fun _ => .inl hhandle⟩,
    h.timers.turn rfl (fun t _ => by simp [hdoing, Doing.holds]) fun t _ ht => ?_,
    nofun⟩
  cases hhandle.symm.trans ht

omit [DecidableEq Task] in
/-- The lock of `__aenter__`. -/
theorem Sound.enter (h : s.Sound home) (hidle : s.threads th = .idle) {host : Task} (hhome : home host = th)
    (htask : s.task = none ∨ s.task = some host) (hout : host ∉ s.blocks)
    (hleaves : ∀ th, (s.threads th).leaves = false) :
    ({ s with task := some host }.goto th (.entering host)).Sound home := by
  have hnone : s.task = none := by
    refine htask.resolve_right fun hhost => ?_
    rcases h.placed.task host hhost with hblocks | henters
    · rw [hblocks] at hout
      exact hout (List.mem_singleton_self _)
    · rw [hhome, hidle] at henters
      cases henters
  have hblocks : s.blocks = [] := by
    rcases h.placed.blocks with hblocks | ⟨k, -, hk⟩
    · exact hblocks
    · cases hnone.symm.trans hk
  have hhandle : s.handle = none := by
    refine (h.placed.free hnone).resolve_right fun ⟨th', hth'⟩ => ?_
    rw [hleaves] at hth'
    cases hth'
  -- Nobody owns a scope without a task.
  have hothers : ∀ th', Sys.Fits home { s with task := some host } th' (s.threads th') := by
    intro th'
    have hfits := h.placed.fits th'
    have hnot {k : Task} (hk : s.Owned home th' k) {p : Prop} : p := by cases hnone.symm.trans hk.1
    cases hdoing : s.threads th' with
    | idle => trivial
    | assigned value task old => trivial
    | posting value task => trivial
    | schedule value task =>
      rw [hdoing] at hfits
      exact hfits
    | cancelling => trivial
    | leaving stage =>
      have hfalse := hleaves th'
      rw [hdoing] at hfalse
      cases hfalse
    | firing timer =>
      rw [hdoing] at hfits
      exact hfits.1.elim fun _ hk => hnot hk
    | checked value task =>
      rw [hdoing] at hfits
      exact hnot hfits
    | arming value task =>
      rw [hdoing] at hfits
      exact hnot hfits
    | late k =>
      rw [hdoing] at hfits
      exact hnot hfits.1
    | checking k =>
      rw [hdoing] at hfits
      exact hnot hfits.1
    | _ =>
      rw [hdoing] at hfits
      exact hnot hfits.1.1
  refine ⟨⟨fits_goto (s := { s with task := some host }) ⟨⟨⟨rfl, hhome⟩, hblocks⟩, hhandle⟩ fun th' _ => hothers th',
    .inl hblocks, fun k hk => .inr ?_, nofun⟩,
    h.timers.turn rfl (fun t _ => by simp [hidle, Doing.holds]) fun t _ ht => ?_,
    fun k t hk _ _ _ => .inr (.inr ⟨th, ?_⟩)⟩
  · have hk : host = k := Option.some.inj hk
    rw [← hk, hhome, goto_self]
    rfl
  · cases hhandle.symm.trans ht
  · rw [goto_self]
    exact Option.some.inj hk

/-- The lock of `__aexit__`. -/
theorem Sound.exit (h : s.Sound home) (hidle : s.threads th = .idle) {host : Task} (hhome : home host = th)
    (hin : host ∈ s.blocks) :
    ({ s with task := none, blocks := s.blocks.erase host }.goto th (.leaving .look)).Sound home := by
  obtain ⟨k, hblocks, htask⟩ : ∃ k, s.blocks = [k] ∧ s.task = some k := by
    refine h.placed.blocks.resolve_left fun hnone => ?_
    rw [hnone] at hin
    cases hin
  have hk : host = k := by
    rw [hblocks] at hin
    exact List.mem_singleton.1 hin
  subst hk
  have howned : s.Owned home th host := ⟨htask, hhome⟩
  have herase : s.blocks.erase host = [] := by
    rw [hblocks]
    exact List.erase_cons_head ..
  have hfalse := h.leaves_eq_false htask
  refine ⟨⟨fits_goto (s := { s with task := none, blocks := s.blocks.erase host }) ⟨rfl, herase, nofun⟩
    (h.others howned), (.inl herase), nofun, fun _ => .inr ⟨th, ?_⟩⟩,
    h.timers.turn rfl (fun t _ => by simp [hidle, Doing.holds]) fun t hmem hhandle => .inr ?_,
    nofun⟩
  · rw [goto_self]
    rfl
  · rcases h.timers.loop t hmem hhandle with ⟨k, hk⟩ | hl
    · rw [howned.unique hk, goto_self]
      rfl
    · rw [hfalse] at hl
      cases hl

end Sys

end Multiloop.DeadlineTimer
