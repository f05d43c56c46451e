import Multiloop.Nursery.Group

/-!
# The exit of a task group

Every task ever added to the children is done when `__aexit__` finishes, and
none is added until the group is entered again, as long as no `__aenter__`
clears the mark of the exit and then raises with its cancel scope. `Tracked`
holds in every state of such a run: a task that was added is done or still one
of the children, the children are done once the host has left, and while it
drains, those that are not done are among the tasks it drains.
-/

namespace Multiloop.Nursery

variable {Loop E : Type}

namespace TaskGroup

/-- `g'` differs from `g` in what was asked of the tasks and in what is
remembered for the exceptions. -/
structure Keeps (g g' : TaskGroup Loop E) : Prop where
  created : g'.tasks.created = g.tasks.created
  outcome : g'.tasks.outcome = g.tasks.outcome
  children : g'.children = g.children
  exited : g'.exited = g.exited
  loop : g'.loop = g.loop

variable {g g' g'' : TaskGroup Loop E} {w : Wait E} {t u : Nat}

theorem Keeps.refl (g : TaskGroup Loop E) : Keeps g g := ⟨rfl, rfl, rfl, rfl, rfl⟩

theorem Keeps.trans (h : Keeps g g') (h' : Keeps g' g'') : Keeps g g'' :=
  ⟨h'.created.trans h.created, h'.outcome.trans h.outcome, h'.children.trans h.children,
    h'.exited.trans h.exited, h'.loop.trans h.loop⟩

theorem Keeps.done (h : Keeps g g') (t : Nat) : g'.tasks.done t = g.tasks.done t := by
  unfold Tasks.done
  rw [h.outcome]

theorem keeps_cancel (g : TaskGroup Loop E) (t : Nat) : Keeps g (g.cancel t) := by
  have htasks : (g.tasks.cancel t).created = g.tasks.created ∧ (g.tasks.cancel t).outcome = g.tasks.outcome := by
    unfold Tasks.cancel
    split
    · exact ⟨rfl, rfl⟩
    · exact ⟨rfl, rfl⟩
  exact ⟨htasks.1, htasks.2, rfl, rfl, rfl⟩

theorem keeps_cancelEach (ts : List Nat) (g : TaskGroup Loop E) : Keeps g (g.cancelEach ts) := by
  induction ts generalizing g with
  | nil => exact .refl g
  | cons t ts ih => exact (keeps_cancel g t).trans (ih (g.cancel t))

/-- What one task reported changes. -/
theorem collectOne_spec (g : TaskGroup Loop E) (w : Wait E) (t : Nat) :
    Keeps g (g.collectOne w t).2 ∧ (g.collectOne w t).1.processed = w.processed ∧
      (g.collectOne w t).1.pending = w.pending := by
  unfold collectOne
  split
  · dsimp only
    split
    · exact ⟨.refl g, rfl, rfl⟩
    · obtain ⟨hcreated, houtcome, hchildren, hexited, hloop⟩ := keeps_cancelEach w.pending g
      exact ⟨⟨hcreated, houtcome, hchildren, hexited, hloop⟩, rfl, rfl⟩
  · exact ⟨.refl g, rfl, rfl⟩

/-- What was processed is done. -/
def Seen (g : TaskGroup Loop E) (w : Wait E) : Prop := ∀ t ∈ w.processed, g.tasks.done t = true

/-- A task that is absorbed is processed or pending. -/
theorem absorbOne_spec (hseen : g.Seen w) :
    Keeps g (g.absorbOne w t).2 ∧ g.Seen (g.absorbOne w t).1 ∧
      ((u ∈ w.processed ∨ u ∈ w.pending) ∨ u = t →
        u ∈ (g.absorbOne w t).1.processed ∨ u ∈ (g.absorbOne w t).1.pending) := by
  unfold absorbOne
  split
  · rename_i hin
    refine ⟨.refl g, hseen, fun hu => ?_⟩
    rcases hu with hu | rfl
    · exact hu
    · exact hin
  · split
    · rename_i hdone
      obtain ⟨hkeeps, hprocessed, hpending⟩ := collectOne_spec g w t
      refine ⟨hkeeps, fun v hv => ?_, fun hu => ?_⟩
      · rcases List.mem_append.1 hv with hv | hv
        · rw [hprocessed] at hv
          exact hseen v hv
        · rw [List.mem_singleton.1 hv]
          exact hdone
      · show u ∈ (g.collectOne w t).1.processed ++ [t] ∨ u ∈ (g.collectOne w t).1.pending
        rw [hprocessed, hpending, List.mem_append, List.mem_singleton]
        rcases hu with (hu | hu) | hu
        · exact .inl (.inl hu)
        · exact .inr hu
        · exact .inl (.inr hu)
    · have hlater : (u ∈ w.processed ∨ u ∈ w.pending) ∨ u = t →
          u ∈ w.processed ∨ u ∈ w.pending ++ [t] := by
        rw [List.mem_append, List.mem_singleton]
        rintro ((hu | hu) | hu)
        · exact .inl hu
        · exact .inr (.inl hu)
        · exact .inr (.inr hu)
      split
      · exact ⟨keeps_cancel g t, hseen, hlater⟩
      · exact ⟨.refl g, hseen, hlater⟩

theorem Seen.keeps (h : g.Seen w) (hk : Keeps g g') : g'.Seen w := fun t ht => (hk.done t).trans (h t ht)

/-- After `absorb`, every child is processed or pending. -/
theorem absorb_spec (order : List Nat) (hseen : g.Seen w) :
    Keeps g (g.absorb w order).2 ∧ g.Seen (g.absorb w order).1 ∧
      ∀ t, t ∈ w.processed ∨ t ∈ w.pending ∨ t ∈ order →
        t ∈ (g.absorb w order).1.processed ∨ t ∈ (g.absorb w order).1.pending := by
  induction order generalizing g w with
  | nil =>
    refine ⟨.refl g, hseen, fun t ht => ?_⟩
    rcases ht with ht | ht | ht
    · exact .inl ht
    · exact .inr ht
    · cases ht
  | cons t order ih =>
    obtain ⟨hkeeps, hone, -⟩ := absorbOne_spec (t := t) (u := t) hseen
    obtain ⟨hrest, hall, hsound⟩ := ih (hone.keeps hkeeps)
    refine ⟨hkeeps.trans hrest, fun v hv => ?_, fun v hv => hsound v ?_⟩
    · rw [← hkeeps.done v]
      exact hall v hv
    · obtain ⟨-, -, hv'⟩ := absorbOne_spec (t := t) (u := v) hseen
      rcases hv with hv | hv | hv
      · exact or_assoc.1 (.inl (hv' (.inl (.inl hv))))
      · exact or_assoc.1 (.inl (hv' (.inl (.inr hv))))
      · rcases List.mem_cons.1 hv with hv | hv
        · exact or_assoc.1 (.inl (hv' (.inr hv)))
        · exact .inr (.inr hv)

/-- Collecting tasks that are done. -/
theorem collect_spec (ts : List Nat) (hseen : g.Seen w) (hts : ∀ t ∈ ts, g.tasks.done t = true) :
    Keeps g (g.collect w ts).2 ∧ g.Seen (g.collect w ts).1 := by
  induction ts generalizing g w with
  | nil => exact ⟨.refl g, hseen⟩
  | cons t ts ih =>
    obtain ⟨hkeeps, hprocessed, -⟩ := collectOne_spec g { w with processed := w.processed ++ [t] } t
    have hone : g.Seen (g.collectOne { w with processed := w.processed ++ [t] } t).1 := by
      intro v hv
      rw [hprocessed] at hv
      rcases List.mem_append.1 hv with hv | hv
      · exact hseen v hv
      · rw [List.mem_singleton.1 hv]
        exact hts t (.head _)
    have hrest : ∀ v ∈ ts, (g.collectOne { w with processed := w.processed ++ [t] } t).2.tasks.done v = true :=
      fun v hv => (hkeeps.done v).trans (hts v (.tail _ hv))
    obtain ⟨hk, hall⟩ := ih (hone.keeps hkeeps) hrest
    refine ⟨hkeeps.trans hk, fun v hv => ?_⟩
    rw [← hkeeps.done v]
    exact hall v hv

theorem keeps_startEnds (g : TaskGroup Loop E) (t : Nat) (called : Bool) : Keeps g (g.startEnds t called).2 := by
  have hreraise : Keeps g
      ({ g with consumed := g.consumed ++ [t] }.cancelEach (g.remaining.filter fun u => u ≠ t)) := by
    obtain ⟨hcreated, houtcome, hchildren, hexited, hloop⟩ :=
      keeps_cancelEach (g.remaining.filter fun u => u ≠ t) { g with consumed := g.consumed ++ [t] }
    exact ⟨hcreated, houtcome, hchildren, hexited, hloop⟩
  unfold startEnds
  dsimp only
  split
  · exact .refl g
  · split
    · exact .refl g
    · exact hreraise
  · exact hreraise
  · split
    · exact .refl g
    · exact .refl g

theorem done_of_not_remaining (h : t ∈ g.children) (hr : t ∉ g.remaining) : g.tasks.done t = true := by
  by_contra hnot
  exact hr (List.mem_filter.2 ⟨h, by simpa using hnot⟩)

end TaskGroup

namespace TaskGroup

variable {g g' : TaskGroup Loop E}

/-- `__aenter__` comes to the cancel scope. -/
structure Entered (g : TaskGroup Loop E) (l : Loop) (g' : TaskGroup Loop E) : Prop where
  accepted : g.cancelCalled = false
  group : g' = { g with
    loop := some l
    exited := false
    children := if g.exited then [] else g.children
    consumed := if g.exited then [] else g.consumed }

theorem entered_of_enter {l : Loop} (h : g.enter l = some g') : g.Entered l g' := by
  unfold enter at h
  split at h
  · cases h
  · rename_i hcalled
    exact ⟨eq_false_of_ne_true hcalled, (Option.some.inj h).symm⟩

theorem Entered.tasks {l : Loop} (h : g.Entered l g') : g'.tasks = g.tasks := by rw [h.group]

theorem Entered.exited {l : Loop} (h : g.Entered l g') : g'.exited = false := by rw [h.group]

theorem Entered.children_open {l : Loop} (h : g.Entered l g') (hopen : g.exited = false) : g'.children = g.children := by
  rw [h.group]
  exact if_neg (hopen ▸ Bool.false_ne_true)

/-- The children that are forgotten were done. -/
theorem Entered.tracked {l : Loop} (h : g.Entered l g') {t : Nat} (ht : g.tasks.done t = true ∨ t ∈ g.children)
    (hdone : g.exited = true → ∀ u ∈ g.children, g.tasks.done u = true) :
    g'.tasks.done t = true ∨ t ∈ g'.children := by
  rw [h.tasks]
  by_cases hexited : g.exited = true
  · exact .inl (ht.elim id (hdone hexited t))
  · rw [h.children_open (eq_false_of_ne_true hexited)]
    exact ht

/-- Only tasks that were created are done. -/
def Fresh (g : TaskGroup Loop E) : Prop := ∀ t, g.tasks.done t = true → t < g.tasks.created

theorem Fresh.keeps (h : g.Fresh) (hk : Keeps g g') : g'.Fresh := by
  intro t ht
  rw [hk.done] at ht
  rw [hk.created]
  exact h t ht

theorem Fresh.create (h : g.Fresh) (t : Nat) :
    (g.tasks.done t = true → g.tasks.create.done t = true) ∧
      (g.tasks.create.done t = true → t < g.tasks.created + 1) := by
  unfold Tasks.done Tasks.create
  by_cases ht : t = g.tasks.created
  · subst ht
    refine ⟨fun hdone => absurd (h _ hdone) (Nat.lt_irrefl _), fun _ => Nat.lt_succ_self _⟩
  · dsimp only
    rw [Function.update_of_ne ht]
    exact ⟨id, fun hdone => Nat.lt_succ_of_lt (h t hdone)⟩

end TaskGroup

namespace Sys

open TaskGroup

/-- The group goes on as it is, and what was done stays done. -/
structure Later (s s' : Sys Loop E) : Prop where
  host : s'.host = s.host
  added : s'.added = s.added
  result : s'.result = s.result
  children : s'.group.children = s.group.children
  exited : s'.group.exited = s.group.exited
  loop : s'.group.loop = s.group.loop
  done : ∀ t, s.group.tasks.done t = true → s'.group.tasks.done t = true
  fresh : s'.group.Fresh

variable {s s' : Sys Loop E}

theorem Later.keeps (h : Later s s') {g : TaskGroup Loop E} (hk : Keeps s'.group g) {starting : List Nat} :
    Later s { s' with group := g, starting } :=
  ⟨h.host, h.added, h.result, hk.children.trans h.children, hk.exited.trans h.exited, hk.loop.trans h.loop,
    fun t ht => (hk.done t).trans (h.done t ht), h.fresh.keeps hk⟩

theorem later_refl (hfresh : s.group.Fresh) : Later s s := ⟨rfl, rfl, rfl, rfl, rfl, rfl, fun _ => id, hfresh⟩

/-- A task is created. -/
theorem later_create (hfresh : s.group.Fresh) :
    Later s { s with group := { s.group with tasks := s.group.tasks.create } } :=
  ⟨rfl, rfl, rfl, rfl, rfl, rfl, fun t => (hfresh.create t).1, fun t => (hfresh.create t).2⟩

/-- A task ends. -/
theorem later_finish (hfresh : s.group.Fresh) {t : Nat} (ht : t < s.group.tasks.created) (outcome : Outcome E) :
    Later s { s with group := { s.group with
      tasks := { s.group.tasks with outcome := Function.update s.group.tasks.outcome t (some outcome) } } } := by
  refine ⟨rfl, rfl, rfl, rfl, rfl, rfl, fun u hu => ?_, fun u hu => ?_⟩
  · by_cases heq : u = t
    · show (Function.update s.group.tasks.outcome t (some outcome) u).isSome = true
      rw [heq, Function.update_self]
      rfl
    · show (Function.update s.group.tasks.outcome t (some outcome) u).isSome = true
      rw [Function.update_of_ne heq]
      exact hu
  · by_cases heq : u = t
    · rw [heq]
      exact ht
    · apply hfresh u
      change (Function.update s.group.tasks.outcome t (some outcome) u).isSome = true at hu
      rw [Function.update_of_ne heq] at hu
      exact hu

/-- What the host finds when it comes back. -/
structure Tracked (s : Sys Loop E) : Prop where
  fresh : s.group.Fresh
  tracked : ∀ t ∈ s.added, s.group.tasks.done t = true ∨ t ∈ s.group.children
  outside : s.host = .outside → s.group.exited = true →
    s.group.loop = none ∧ ∀ t ∈ s.group.children, s.group.tasks.done t = true
  inside : s.host ≠ .outside → (∀ pending, s.host ≠ .draining pending) → s.group.exited = false
  waiting : ∀ exc w, s.host = .waiting exc w → s.group.Seen w
  draining : ∀ pending, s.host = .draining pending →
    s.group.exited = true ∧ ∀ t ∈ s.group.children, s.group.tasks.done t = true ∨ t ∈ pending

theorem tracked_new : (new : Sys Loop E).Tracked :=
  ⟨nofun, nofun, nofun, fun _ _ => rfl, nofun, nofun⟩

variable [DecidableEq Loop] [DecidableEq E] {a : Action Loop E}

/-- The steps of a group. -/
inductive Move (s s' : Sys Loop E) (a : Action Loop E) : Prop
  | later (h : Later s s')
  /-- A child is added. -/
  | child (t : Nat) (hexited : s.group.exited = false) (hexited' : s'.group.exited = false) (hhost : s'.host = s.host)
      (hresult : s'.result = s.result) (hadded : s'.added = s.added ++ [t]) (hchildren : s'.group.children = s.group.children ++ [t])
      (hdone : ∀ t, s.group.tasks.done t = true → s'.group.tasks.done t = true) (hfresh : s'.group.Fresh)
  | enter (l : Loop) (ha : a = .enter l true) (hhost : s.host = .outside) (g : TaskGroup Loop E)
      (henter : s.group.Entered l g) (hs' : s' = { s with group := g, host := .body })
  /-- Who enters is turned away by the cancel scope. -/
  | away (l : Loop) (ha : a = .enter l false) (g : TaskGroup Loop E) (henter : s.group.Entered l g)
      (hs' : s' = { s with group := g })
  /-- The host comes to the `while` loop of `_wait_children`. -/
  | round (exc : Option (Exc E)) (w : Wait E) (g : TaskGroup Loop E) (order : List Nat) (hhost : s.host ≠ .outside)
      (hopen : s.group.exited = false) (hkeeps : Keeps s.group g) (hseen : g.Seen w) (hround : s.round exc w g order = some s')
  /-- The host is interrupted in `_wait_children`. -/
  | drain (g : TaskGroup Loop E) (hhost : s.host ≠ .outside) (hkeeps : Keeps { s.group with exited := true } g)
      (hs' : s' = { s with group := g, host := .draining s.group.remaining })
  | left (g : TaskGroup Loop E) (hhost : s.host ≠ .outside) (hkeeps : Keeps { s.group with exited := true } g)
      (hdone : ∀ t ∈ s.group.children, s.group.tasks.done t = true)
      (hs' : s' = s.finishWith (.raises .cancelled) g)

theorem move_spawn (hfresh : s.group.Fresh) (message : String) (l : Loop) (starting : List Nat) :
    Move s { s.spawned (s.group.spawn message l) with starting } a := by
  have hcreate := later_create hfresh
  unfold spawn
  split
  · exact .later ((later_refl hfresh).keeps (.refl _))
  · dsimp only
    split
    · exact .later (hcreate.keeps (keeps_cancel _ _))
    · rename_i hexited
      have hopen : s.group.exited = false := by simpa using hexited
      exact .child s.group.tasks.created hopen hopen rfl rfl rfl rfl hcreate.done hcreate.fresh

/-- Every step is a move. -/
theorem Tracked.move (h : s.Tracked) (hst : s.step a = some s') : Move s s' a := by
  cases a with
  | enter l ok =>
    simp only [Sys.step] at hst
    split at hst
    · rename_i g henter
      cases ok with
      | true =>
        rw [if_pos rfl] at hst
        split at hst
        · rename_i hhost
          exact .enter l rfl hhost g (entered_of_enter henter) (Option.some.inj hst).symm
        · cases hst
      | false => exact .away l rfl g (entered_of_enter henter) (Option.some.inj hst).symm
    · cases hst
      exact .later (later_refl h.fresh)
  | exit exc order =>
    simp only [Sys.step] at hst
    split at hst
    · rename_i hhost
      refine .round exc _ _ order (by rw [hhost]; simp) (h.inside (by rw [hhost]; simp) (by rw [hhost]; simp)) ?_ ?_ hst
      · unfold preCancel
        split
        · exact keeps_cancelEach _ _
        · exact .refl _
      · exact nofun
    · cases hst
  | wake finished order =>
    simp only [Sys.step] at hst
    split at hst
    · rename_i exc w hhost
      split at hst
      · rename_i hw
        have hfinished : ∀ t ∈ finished, s.group.tasks.done t = true := fun t ht =>
          (List.mem_filter.1 (hw.1.mem_iff.1 ht)).2
        have hseen : s.group.Seen { w with pending := w.pending.filter fun t => !s.group.tasks.done t } :=
          h.waiting exc w hhost
        obtain ⟨hkeeps, hcollected⟩ := collect_spec finished hseen hfinished
        exact .round exc _ _ order (by rw [hhost]; simp) (h.inside (by rw [hhost]; simp) (by rw [hhost]; simp)) hkeeps
          (hcollected.keeps hkeeps) hst
      · cases hst
    · cases hst
  | interrupt =>
    simp only [Sys.step] at hst
    split at hst
    · rename_i exc w hhost
      have hkeeps := keeps_cancelEach s.group.remaining { s.group with exited := true }
      split at hst
      · rename_i hnone
        refine .left _ (by rw [hhost]; simp) hkeeps (fun t ht => done_of_not_remaining ht ?_) (Option.some.inj hst).symm
        rw [show s.group.remaining = [] from hnone]
        exact List.not_mem_nil
      · exact .drain _ (by rw [hhost]; simp) hkeeps (Option.some.inj hst).symm
    · cases hst
      exact .later (later_refl h.fresh)
    · cases hst
  | drained =>
    simp only [Sys.step] at hst
    split at hst
    · rename_i pending hhost
      split at hst
      · rename_i hall
        obtain ⟨hexited, hdrain⟩ := h.draining pending hhost
        refine .left s.group (by rw [hhost]; simp) ?_ (fun t ht => (hdrain t ht).elim id (hall t))
          (Option.some.inj hst).symm
        exact ⟨rfl, rfl, rfl, hexited, rfl⟩
      · cases hst
    · cases hst
  | startSoon l =>
    cases hst
    exact move_spawn h.fresh _ l s.starting
  | start l =>
    cases hst
    exact move_spawn h.fresh _ l _
  | startEnds t called =>
    simp only [Sys.step] at hst
    split at hst
    · cases hst
      exact .later ((later_refl h.fresh).keeps (keeps_startEnds s.group t called))
    · cases hst
  | finish t outcome =>
    simp only [Sys.step] at hst
    split at hst
    · rename_i ht
      cases hst
      exact .later (later_finish h.fresh ht.1 outcome)
    · cases hst
  | cancel t =>
    simp only [Sys.step] at hst
    split at hst
    · cases hst
      exact .later ((later_refl h.fresh).keeps (keeps_cancel s.group t))
    · cases hst
  | uncancel t =>
    cases hst
    exact .later ⟨rfl, rfl, rfl, rfl, rfl, rfl, fun _ => id, h.fresh⟩

omit [DecidableEq Loop] [DecidableEq E] in
/-- A move that keeps the host where it is. -/
theorem Tracked.later (h : s.Tracked) (hl : Later s s') : s'.Tracked := by
  have hdone := hl.done
  refine ⟨hl.fresh, fun t ht => ?_, fun hhost hexited => ?_, fun hin hquiet => ?_, fun exc w hhost t ht => ?_,
    fun pending hhost => ?_⟩
  · rw [hl.added] at ht
    rw [hl.children]
    exact (h.tracked t ht).imp_left (hdone t)
  · rw [hl.host] at hhost
    rw [hl.exited] at hexited
    rw [hl.loop, hl.children]
    obtain ⟨hloop, hall⟩ := h.outside hhost hexited
    exact ⟨hloop, fun t ht => hdone t (hall t ht)⟩
  · rw [hl.host] at hin
    rw [hl.exited]
    exact h.inside hin fun pending hp => hquiet pending (hl.host.trans hp)
  · rw [hl.host] at hhost
    exact hdone t (h.waiting exc w hhost t ht)
  · rw [hl.host] at hhost
    rw [hl.exited, hl.children]
    obtain ⟨hexited, hall⟩ := h.draining pending hhost
    exact ⟨hexited, fun t ht => (hall t ht).imp_left (hdone t)⟩

omit [DecidableEq Loop] in
theorem keeps_finish (g : TaskGroup Loop E) (exc : Option (Exc E)) (es : List (Exc E)) :
    Keeps { g with exited := true } (g.finish exc es).2 := by
  have hcancel : ∀ b, Keeps { g with exited := true } { g with exited := true, cancelCalled := b } := fun b =>
    ⟨rfl, rfl, rfl, rfl, rfl⟩
  unfold finish
  dsimp only
  split
  · exact hcancel _
  · split
    · exact hcancel _
    · split
      · split
        · exact hcancel _
        · exact hcancel _
      · split
        · exact hcancel _
        · exact hcancel _

omit [DecidableEq Loop] [DecidableEq E] in
/-- `__aexit__` finishes with all children done. -/
theorem Tracked.finish (h : s.Tracked) {g : TaskGroup Loop E} (hk : Keeps { s.group with exited := true } g)
    (hdone : ∀ t ∈ s.group.children, s.group.tasks.done t = true) (r : Result E) : (s.finishWith r g).Tracked := by
  have hsame : ∀ t, s.group.tasks.done t = true → g.tasks.done t = true := fun t ht => (hk.done t).trans ht
  have hall : ∀ t ∈ g.children, g.tasks.done t = true := by
    intro t ht
    rw [hk.children] at ht
    exact hsame t (hdone t ht)
  have hfresh : g.Fresh := Fresh.keeps (g := { s.group with exited := true }) h.fresh hk
  refine ⟨hfresh, fun t ht => .inl ?_,
    fun _ _ => ⟨rfl, hall⟩, fun hin => absurd rfl hin, nofun, nofun⟩
  exact hsame t ((h.tracked t ht).elim id (hdone t))

omit [DecidableEq Loop] in
/-- The host waits again, or finds all children done. -/
theorem Tracked.round (h : s.Tracked) {exc : Option (Exc E)} {w : Wait E} {g : TaskGroup Loop E} {order : List Nat}
    (hopen : s.group.exited = false) (hk : Keeps s.group g) (hseen : g.Seen w) (hr : s.round exc w g order = some s') :
    s'.Tracked ∧ s'.added = s.added ∧ (s'.host = .outside → s'.group.exited = true) := by
  unfold Sys.round at hr
  split at hr
  · rename_i horder
    obtain ⟨hkeeps, habsorbed, hsound⟩ := absorb_spec order hseen
    have hboth := hk.trans hkeeps
    have hchildren : ∀ t ∈ s.group.children,
        t ∈ (g.absorb w order).1.processed ∨ t ∈ (g.absorb w order).1.pending := by
      intro t ht
      rw [← hk.children] at ht
      exact hsound t (.inr (.inr (horder.mem_iff.2 ht)))
    dsimp only at hr
    split at hr
    · rename_i hnone
      have hdone : ∀ t ∈ s.group.children, s.group.tasks.done t = true := by
        intro t ht
        rcases hchildren t ht with hp | hp
        · rw [← hk.done t]
          exact habsorbed t hp
        · rw [hnone] at hp
          cases hp
      have hexit : Keeps { s.group with exited := true } { (g.absorb w order).2 with exited := true } :=
        ⟨hboth.created, hboth.outcome, hboth.children, rfl, hboth.loop⟩
      cases hr
      exact ⟨h.finish (hexit.trans (keeps_finish _ _ _)) hdone _, rfl, fun _ => rfl⟩
    · cases hr
      refine ⟨⟨h.fresh.keeps hboth, fun t ht => ?_, nofun, fun _ _ => hboth.exited.trans hopen, fun exc' w' hw => ?_,
        nofun⟩, rfl, nofun⟩
      · show (g.absorb w order).2.tasks.done t = true ∨ t ∈ (g.absorb w order).2.children
        rw [hboth.done, hboth.children]
        exact h.tracked t ht
      · cases hw
        exact habsorbed.keeps hkeeps
  · cases hr

/-- Nobody is turned away from a group by its cancel scope after the group has
removed the mark of its exit. -/
def KeepsExited (s : Sys Loop E) : Action Loop E → Prop
  | .enter _ ok => ok = true ∨ s.group.exited = false ∨ s.group.cancelCalled = true
  | _ => True

omit [DecidableEq Loop] [DecidableEq E] in
/-- One who is turned away finds the group not marked, if that is its condition. -/
theorem open_of_away {l : Loop} {g : TaskGroup Loop E} (henter : s.group.Entered l g)
    (hok : s.KeepsExited (.enter l false)) : s.group.exited = false := by
  rcases hok with hok | hopen | hcalled
  · cases hok
  · exact hopen
  · exact absurd (henter.accepted.symm.trans hcalled) Bool.false_ne_true

/-- Every step keeps what is tracked, if nobody is turned away while the host
drains; and a host that leaves the group has marked it as exited. -/
theorem Tracked.step (h : s.Tracked) (hdrain : ∀ pending, s.host = .draining pending → s.KeepsExited a)
    (hst : s.step a = some s') :
    s'.Tracked ∧ (s.host ≠ .outside → s'.host = .outside → s'.group.exited = true) := by
  cases h.move hst with
  | later hl =>
    refine ⟨h.later hl, fun hne hhost => ?_⟩
    rw [hl.host] at hhost
    exact absurd hhost hne
  | child t hopen hopen' hhost hresult hadded hchildren hdone hfresh =>
    have hclosed : ∀ {p : Prop}, s'.group.exited = true → p := by
      intro p hexited
      rw [hopen'] at hexited
      cases hexited
    refine ⟨⟨hfresh, fun u hu => ?_, fun _ hexited => hclosed hexited, fun _ _ => hopen', fun exc w hw u hu => ?_,
      fun pending hp => ?_⟩,
      fun hne hout => absurd (hhost.symm.trans hout) hne⟩
    · rw [hadded] at hu
      rw [hchildren]
      rcases List.mem_append.1 hu with hu | hu
      · exact (h.tracked u hu).imp (hdone u) (List.mem_append_left _)
      · exact .inr (List.mem_append_right _ hu)
    · rw [hhost] at hw
      exact hdone u (h.waiting exc w hw u hu)
    · rw [hhost] at hp
      rw [(h.draining pending hp).1] at hopen
      cases hopen
  | enter l ha hhost g henter hs' =>
    refine ⟨?_, fun hne => absurd hhost hne⟩
    have hdone : s.group.exited = true → ∀ u ∈ s.group.children, s.group.tasks.done u = true :=
      fun hexited => (h.outside hhost hexited).2
    rw [hs']
    exact ⟨fun t => henter.tasks ▸ h.fresh t, fun t ht => henter.tracked (h.tracked t ht) hdone,
      fun hout => (nomatch hout), fun _ _ => henter.exited, nofun, nofun⟩
  | away l ha g henter hs' =>
    have hdraining : ∀ pending, s.host ≠ .draining pending := by
      intro pending hp
      have hopen := open_of_away henter (ha ▸ hdrain pending hp)
      exact Bool.false_ne_true (hopen.symm.trans (h.draining pending hp).1)
    have hdone : s.group.exited = true → ∀ u ∈ s.group.children, s.group.tasks.done u = true := by
      intro hexited
      have hhost : s.host = .outside := by
        by_contra hin
        exact Bool.false_ne_true ((h.inside hin hdraining).symm.trans hexited)
      exact (h.outside hhost hexited).2
    rw [hs']
    exact ⟨⟨fun t => henter.tasks ▸ h.fresh t, fun t ht => henter.tracked (h.tracked t ht) hdone,
      fun _ hexited => absurd (henter.exited.symm.trans hexited) Bool.false_ne_true, fun _ _ => henter.exited,
      fun exc w hw t ht => henter.tasks ▸ h.waiting exc w hw t ht, fun pending hp => absurd hp (hdraining pending)⟩,
      fun hin hout => absurd hout hin⟩
  | round exc w g order hhost hopen hkeeps hseen hround =>
    obtain ⟨htracked, -, hexited⟩ := h.round hopen hkeeps hseen hround
    exact ⟨htracked, fun _ => hexited⟩
  | drain g hhost hkeeps hs' =>
    rw [hs']
    have hdone := hkeeps.done
    have hfresh : g.Fresh := Fresh.keeps (g := { s.group with exited := true }) h.fresh hkeeps
    refine ⟨⟨hfresh, fun t ht => ?_, nofun, fun _ hquiet => absurd rfl (hquiet _), nofun, fun pending hp => ⟨hkeeps.exited, fun t ht => ?_⟩⟩,
      fun _ => nofun⟩
    · show g.tasks.done t = true ∨ t ∈ g.children
      rw [hdone, hkeeps.children]
      exact h.tracked t ht
    · cases hp
      rw [hkeeps.children] at ht
      rw [hdone]
      by_cases hr : t ∈ s.group.remaining
      · exact .inr hr
      · exact .inl (done_of_not_remaining ht hr)
  | left g hhost hkeeps hdone hs' =>
    rw [hs']
    exact ⟨h.finish hkeeps hdone _, fun _ _ => rfl⟩

end Sys

variable [DecidableEq Loop] [DecidableEq E] {s : Sys Loop E}

namespace TaskGroup

/-- After the exit: the task is created and cancelled, and the call raises. -/
def orphan (g : TaskGroup Loop E) : TaskGroup Loop E :=
  { g with tasks := g.tasks.create }.cancel g.tasks.created

omit [DecidableEq E] in
theorem spawn_exited {g : TaskGroup Loop E} (hexited : g.exited = true) (hloop : g.loop = none) (message : String)
    (l : Loop) : g.spawn message l = (.error message, g.orphan) := by
  simp [spawn, orphan, hexited, hloop]

omit [DecidableEq Loop] [DecidableEq E] in
theorem orphan_spec (g : TaskGroup Loop E) : g.orphan.children = g.children ∧
    g.orphan.tasks.cancelling g.tasks.created = 1 ∧ g.orphan.tasks.done g.tasks.created = false := by
  have hpending : g.tasks.create.done g.tasks.created = false := by simp [Tasks.done, Tasks.create]
  have hzero : g.tasks.create.cancelling g.tasks.created = 0 := Function.update_self ..
  have horphan : g.orphan.tasks = { g.tasks.create with
      cancelling := Function.update g.tasks.create.cancelling g.tasks.created
        (g.tasks.create.cancelling g.tasks.created + 1) } := if_neg (by simp [hpending])
  refine ⟨rfl, ?_, ?_⟩
  · rw [horphan, hzero]
    exact Function.update_self ..
  · rw [horphan]
    exact hpending

end TaskGroup

namespace Sys

/-- `__aexit__` has finished, and nobody entered the group again since. -/
def Left (s : Sys Loop E) : Prop := s.host = .outside ∧ s.result ≠ none

/-- All tasks ever added are done, and none can be added: `start_soon` and
`start` raise and cancel the task they created. -/
structure Shut (s : Sys Loop E) : Prop where
  done : ∀ t ∈ s.added, s.group.tasks.done t = true
  startSoon : ∀ l, s.group.startSoon l =
    (.error "TaskGroup is not active: cannot start_soon() after the group exited", s.group.orphan)
  start : ∀ l, s.group.start l =
    (.error "TaskGroup is not active: cannot start() after the group exited", s.group.orphan)
  children : s.group.orphan.children = s.group.children
  cancelled : s.group.orphan.tasks.cancelling s.group.tasks.created = 1
  pending : s.group.orphan.tasks.done s.group.tasks.created = false

variable {s s' : Sys Loop E} {a : Action Loop E}

omit [DecidableEq E] in
/-- A group that its host left is shut as long as it is marked as exited. -/
theorem Tracked.shut (h : s.Tracked) (hhost : s.host = .outside) (hexited : s.group.exited = true) : s.Shut := by
  obtain ⟨hloop, hall⟩ := h.outside hhost hexited
  obtain ⟨hchildren, hcancelled, hpending⟩ := TaskGroup.orphan_spec s.group
  exact ⟨fun t ht => (h.tracked t ht).elim id (hall t), TaskGroup.spawn_exited hexited hloop _,
    TaskGroup.spawn_exited hexited hloop _, hchildren, hcancelled, hpending⟩

omit [DecidableEq E] in
/-- A group that is not marked takes a child from its own loop. -/
theorem Shut.exited (h : s.Shut) (l : Loop) (hl : ∀ l', s.group.loop = some l' → l' = l) : s.group.exited = true := by
  by_contra hopen
  have hspawn := h.startSoon l
  have hown : ¬ (s.group.loop.any fun l' => decide (l' ≠ l)) = true := by
    intro hany
    obtain ⟨l', hl', hne⟩ := (Option.any_eq_true _ _).1 hany
    exact of_decide_eq_true hne (hl l' hl')
  unfold TaskGroup.startSoon TaskGroup.spawn at hspawn
  rw [if_neg hown] at hspawn
  dsimp only at hspawn
  rw [if_neg hopen] at hspawn
  cases (Prod.mk.inj hspawn).1

/-- A host that is outside after a step has finished its exit in it. -/
theorem Tracked.leaves (h : s.Tracked) (hst : s.step a = some s') (hin : s.host ≠ .outside)
    (hout : s'.host = .outside) : s'.result ≠ none := by
  cases h.move hst with
  | later hl => exact absurd (hl.host.symm.trans hout) hin
  | child t _ _ hhost => exact absurd (hhost.symm.trans hout) hin
  | enter l _ hhost => exact absurd hhost hin
  | away l _ g _ hs' =>
    rw [hs'] at hout
    exact absurd hout hin
  | round exc w g order _ _ _ _ hround =>
    unfold Sys.round at hround
    split at hround
    · dsimp only at hround
      split at hround
      · cases hround
        exact Option.some_ne_none _
      · cases hround
        cases hout
    · cases hround
  | drain g _ _ hs' =>
    rw [hs'] at hout
    cases hout
  | left g _ _ _ hs' =>
    rw [hs']
    exact Option.some_ne_none _

/-- A step by which the host leaves turns nobody away. -/
theorem keepsExited_of_leaves (hst : s.step a = some s') (hin : s.host ≠ .outside) (hout : s'.host = .outside) :
    s.KeepsExited a := by
  cases a with
  | enter l ok =>
    cases ok with
    | true => exact .inl rfl
    | false =>
      simp only [Sys.step, Bool.false_eq_true, if_false] at hst
      split at hst
      · cases hst
        exact absurd hout hin
      · cases hst
        exact absurd hout hin
  | _ => exact trivial

/-- The mark of an exit outlives the steps that meet the condition, until the
group is entered again. -/
theorem Tracked.keepsExited (h : s.Tracked) (hst : s.step a = some s') (hok : s.KeepsExited a)
    (hexited : s.Left → s.group.exited = true) (hleft : s'.Left) : s'.group.exited = true := by
  obtain ⟨hhost', hresult'⟩ := hleft
  by_cases hhost : s.host = .outside
  · cases h.move hst with
    | later hl =>
      rw [hl.exited]
      exact hexited ⟨hhost, hl.result ▸ hresult'⟩
    | child t hopen _ _ hresult =>
      have hmarked := hexited ⟨hhost, hresult ▸ hresult'⟩
      exact absurd (hopen.symm.trans hmarked) Bool.false_ne_true
    | enter l _ _ g _ hs' =>
      rw [hs'] at hhost'
      cases hhost'
    | away l ha g henter hs' =>
      rw [hs'] at hresult'
      have hopen := open_of_away henter (ha ▸ hok)
      exact absurd (hopen.symm.trans (hexited ⟨hhost, hresult'⟩)) Bool.false_ne_true
    | round exc w g order hin => exact absurd hhost hin
    | drain g hin => exact absurd hhost hin
    | left g hin => exact absurd hhost hin
  · exact (h.step (fun _ _ => hok) hst).2 hhost hhost'

/-- One who is turned away from a group that was left has removed the mark of the
exit. -/
theorem keepsExited_of_shut (hst : s.step a = some s') (hleft : s.Left) (hshut' : s'.Left → s'.Shut) :
    s.KeepsExited a := by
  cases a with
  | enter l ok =>
    by_cases hcalled : s.group.cancelCalled = true
    · exact .inr (.inr hcalled)
    · cases ok with
      | true => exact .inl rfl
      | false =>
        have henter : s.group.enter l = some { s.group with
            loop := some l
            exited := false
            children := if s.group.exited then [] else s.group.children
            consumed := if s.group.exited then [] else s.group.consumed } := if_neg hcalled
        simp only [Sys.step, henter, Bool.false_eq_true, if_false] at hst
        cases hst
        have hshut := hshut' hleft
        exact absurd (hshut.exited l fun l' hl' => (Option.some.inj hl').symm) Bool.false_ne_true
  | _ => exact trivial

/-- A step from a group that was left and is marked adds no child. -/
theorem Tracked.adds_none (h : s.Tracked) (hst : s.step a = some s') (hhost : s.host = .outside)
    (hexited : s.group.exited = true) : s'.added = s.added := by
  cases h.move hst with
  | later hl => exact hl.added
  | child t hopen => exact absurd (hopen.symm.trans hexited) Bool.false_ne_true
  | enter l _ _ g _ hs' => rw [hs']
  | away l _ g _ hs' => rw [hs']
  | round exc w g order hin => exact absurd hhost hin
  | drain g hin => exact absurd hhost hin
  | left g hin => exact absurd hhost hin

theorem tracked (h : (system Loop E).ReachableWhen KeepsExited s) :
    s.Tracked ∧ (s.Left → s.group.exited = true) := by
  apply h.inv (I := fun s => s.Tracked ∧ (s.Left → s.group.exited = true))
  · rintro s rfl
    exact ⟨tracked_new, fun hleft => absurd rfl hleft.2⟩
  · rintro s a s' ⟨htracked, hexited⟩ hok hst
    exact ⟨(htracked.step (fun _ _ => hok) hst).1, htracked.keepsExited hst hok hexited⟩

end Sys

/-- In every run of a task group in which nobody is turned away from it by its
cancel scope after it has removed the mark of its exit: when `__aexit__`
finishes, every task ever added to the children is done; and that stays so until
the group is entered again, no step adds a child, and `start_soon` and `start`
raise and cancel the task they created. The first step that turns one away from
a group that was left ends that. -/
theorem exit_leaves_no_child :
    ∀ s : Sys Loop E, (system Loop E).ReachableWhen Sys.KeepsExited s →
      (∀ a s', s.step a = some s' → s.host ≠ .outside → s'.host = .outside → s'.Left ∧ s'.Shut) ∧
      (s.Left → s.Shut ∧ ∀ a s', s.step a = some s' →
        s'.added = s.added ∧ ((s'.Left → s'.Shut) ↔ s.KeepsExited a)) := by
  intro s h
  obtain ⟨htracked, hmarked⟩ := Sys.tracked h
  refine ⟨fun a s' hst hin hout => ?_, fun hleft => ⟨htracked.shut hleft.1 (hmarked hleft), fun a s' hst =>
    ⟨htracked.adds_none hst hleft.1 (hmarked hleft), ⟨Sys.keepsExited_of_shut hst hleft, fun hok hleft' => ?_⟩⟩⟩⟩
  · have hok : ∀ pending, s.host = .draining pending → s.KeepsExited a := fun _ _ => Sys.keepsExited_of_leaves hst hin hout
    obtain ⟨htracked', hexited⟩ := htracked.step hok hst
    exact ⟨⟨hout, htracked.leaves hst hin hout⟩, htracked'.shut hout (hexited hin hout)⟩
  · exact (htracked.step (fun _ _ => hok) hst).1.shut hleft'.1 (htracked.keepsExited hst hok hmarked hleft')

/-- A child is added while the host waits, the host is interrupted, and again
while it drains. The group is entered again, and left without a child. -/
theorem exit_leaves_no_child_interrupted : ∃ s : Sys Unit Unit, s.Left ∧ s.Shut ∧
    s.added = [0, 1] ∧ s.result = some (.returns) := by
  have h : (system Unit Unit).ReachableWhen Sys.KeepsExited .new := .init rfl
  have h := h.next (.enter () true) (.inl rfl) rfl
  have h := h.next (.startSoon ()) trivial rfl
  have h := h.next (.exit none [0]) trivial rfl
  have h := h.next (.startSoon ()) trivial rfl
  have h := h.next (.finish 0 .result) trivial rfl
  have h := h.next (.wake [0] [1, 0]) trivial rfl
  have h := h.next .interrupt trivial rfl
  have h := h.next .interrupt trivial rfl
  have h := h.next (.startSoon ()) trivial rfl
  have h := h.next (.finish 1 (.raised .cancelled)) trivial rfl
  have h := h.next .drained trivial rfl
  have h := h.next (.enter () true) (.inl rfl) rfl
  have h := h.next (.exit none []) trivial rfl
  have hall := (exit_leaves_no_child _ h).2 ⟨rfl, Option.some_ne_none _⟩
  exact ⟨_, ⟨rfl, Option.some_ne_none _⟩, hall.1, rfl, rfl⟩

/-- A group is left, and entered again in a scope that is cancelled, which
raises. It takes a child, of which nobody takes care. And another task is turned
away while the host drains: the child that comes then is left behind. -/
theorem turned_away_takes_child :
    (∃ s : Sys Unit Unit, (system Unit Unit).Reachable s ∧ s.Left ∧ ¬ s.Shut ∧ s.group.exited = false) ∧
      ∃ s : Sys Unit Unit, (system Unit Unit).Reachable s ∧ s.Left ∧ ¬ s.Shut ∧ s.group.exited = true := by
  constructor
  · have h : (system Unit Unit).Reachable .new := .init rfl
    have h := h.next (.enter () true) trivial rfl
    have h := h.next (.exit none []) trivial rfl
    have h := h.next (.enter () false) trivial rfl
    have h := h.next (.startSoon ()) trivial rfl
    exact ⟨_, h, ⟨rfl, Option.some_ne_none _⟩, fun hshut => Bool.false_ne_true (hshut.done 0 (.head _)), rfl⟩
  · have h : (system Unit Unit).Reachable .new := .init rfl
    have h := h.next (.enter () true) trivial rfl
    have h := h.next (.startSoon ()) trivial rfl
    have h := h.next (.exit none [0]) trivial rfl
    have h := h.next .interrupt trivial rfl
    have h := h.next (.enter () false) trivial rfl
    have h := h.next (.startSoon ()) trivial rfl
    have h := h.next (.finish 0 (.raised .cancelled)) trivial rfl
    have h := h.next .drained trivial rfl
    exact ⟨_, h, ⟨rfl, Option.some_ne_none _⟩, fun hshut => Bool.false_ne_true (hshut.done 1 (.tail _ (.head _))), rfl⟩

end Multiloop.Nursery
