import Multiloop.RWLock.Preference

/-!
# The fallback at rest

When no task can go on in `reader` or `writer`, and no loop has an event to set,
every task is outside or sleeps in `wait` for a permit that another task has
(`safe_and_awake`): whoever waits for the lock of the two conditions could go on,
or its owner could.
-/

namespace Multiloop.Sync.Lock.Sys

variable {Loop Task : Type} [DecidableEq Task] {home : Task → Loop} {s s' : Sys Loop Task} {t : Task} {e : Fut Task}

/-! ## A lock whose loops have no event to set -/

theorem settled_enter (h : s.host.Settled) : (s.enter t).host.Settled := by
  unfold enter
  split
  · exact h
  · exact h.wait t

theorem settled_acquire (h : s.host.Settled) : (s.acquire home t).host.Settled := by
  unfold Sys.acquire
  split
  · exact h
  · split
    · exact settled_enter (s := s.releaseLocked home) h
    · exact settled_enter h

theorem settled_resume (h : s.host.Settled) (hr : s.resume t e = some s') : s'.host.Settled := by
  unfold Sys.resume at hr
  split at hr
  · cases hr
    exact h
  · cases hr
    exact h
  · cases hr

theorem settled_discard (h : s.host.Settled) : (s.discard home t e).host.Settled := by
  unfold Sys.discard
  dsimp only
  split
  · exact h
  · exact h

theorem settled_release (h : s.host.Settled) : (s.release home t).host.Settled := by
  unfold Sys.release
  split
  · exact h
  · exact h

variable [DecidableEq Loop]

/-- The future of an event that is set stays done. -/
theorem settled_step (h : s.host.Settled) {a : Action Loop Task} (hst : s.step home a = some s') :
    s'.host.Settled := by
  cases a with
  | acquire t =>
    obtain ⟨-, hst⟩ := Option.ite_none_right_eq_some.1 hst
    cases hst
    exact settled_acquire h
  | resume t =>
    simp only [Sys.step] at hst
    split at hst
    · obtain ⟨-, hst⟩ := Option.ite_none_right_eq_some.1 hst
      exact settled_resume h hst
    · cases hst
  | discard t =>
    simp only [Sys.step] at hst
    split at hst
    · obtain ⟨-, hst⟩ := Option.ite_none_right_eq_some.1 hst
      cases hst
      exact settled_discard h
    · cases hst
  | release t =>
    obtain ⟨-, hst⟩ := Option.ite_none_right_eq_some.1 hst
    cases hst
    exact settled_release h
  | finish t =>
    obtain ⟨-, hst⟩ := Option.ite_none_right_eq_some.1 hst
    cases hst
    exact h
  | cancel t other =>
    simp only [Sys.step] at hst
    split at hst
    · rename_i e hpc
      cases hst
      exact h.cancel t (some e)
    · cases hst
      exact h.cancel t none
    · obtain ⟨-, hst⟩ := Option.ite_none_right_eq_some.1 hst
      cases hst
      exact h.cancel t other
  | runCallback i =>
    obtain ⟨host, hr, rfl⟩ := Option.map_eq_some_iff.1 hst
    exact h.runCallback hr
  | closeLoop l =>
    cases hst
    exact h
  | waitElsewhere t =>
    obtain ⟨-, hst⟩ := Option.ite_none_right_eq_some.1 hst
    cases hst
    exact h.wait t
  | wakeElsewhere e =>
    obtain ⟨-, hst⟩ := Option.ite_none_right_eq_some.1 hst
    cases hst
    exact h
  | elsewhere t b =>
    obtain ⟨-, hst⟩ := Option.ite_none_right_eq_some.1 hst
    cases hst
    exact h

/-- The task goes on in `acquire`. -/
def Awake (home : Task → Loop) (s : Sys Loop Task) (t : Task) : Prop :=
  s.step home (.resume t) ≠ none ∨ s.step home (.discard t) ≠ none

/-- A task that waits in `acquire` goes on if its future is done. -/
theorem awake_of_futs (hlive : s.live home t = true) (hwaits : s.waits t = some e) (hf : s.host.futs e ≠ .pending) :
    s.Awake home t := by
  cases hpc : s.pc t with
  | outside =>
    rw [waits_of_pc hpc] at hwaits
    cases hwaits
  | acquiring f =>
    obtain rfl : f = e := by
      rw [waits_of_pc hpc] at hwaits
      exact Option.some.inj hwaits
    have hresumes := Host.resumption_ne_none t hf
    refine .inl ?_
    simp only [Sys.step, hpc, hlive, if_true, Sys.resume]
    cases hr : s.host.resumption t f with
    | none => exact absurd hr hresumes
    | some r => cases r <;> exact Option.some_ne_none _
  | discarding f =>
    refine .inr ?_
    simp only [Sys.step, hpc, hlive, if_true]
    exact Option.some_ne_none _

/-- A task whose event is set goes on. -/
theorem awake_of_inFlight (h : s.host.Settled) (hnone : s.host.scheduled = []) (hlive : s.live home t = true)
    (hfly : s.inFlight t = true) : s.Awake home t := by
  obtain ⟨e, hwaits, hwoken⟩ := inFlight_iff.1 hfly
  refine awake_of_futs hlive hwaits (h e ?_)
  simpa [Host.woken, hnone] using hwoken

/-- Whoever waits in `acquire` goes on, or another task owns the lock and holds it
or goes on. -/
theorem Guarded.awake (hg : s.Guarded home) (h : s.host.Settled) (hnone : s.host.scheduled = [])
    (hopen : ∀ u, s.isOpen home u = true) (hwaits : s.waits t = some e) :
    s.Awake home t ∨ ∃ u, s.holding u = true ∨ s.waits u ≠ none ∧ s.Awake home u := by
  have hlive : ∀ u, s.waits u ≠ none → s.live home u = true := fun u hu => by
    rw [live, (hg.linked.waiting u hu).1, hopen u]
    rfl
  have hclosed : s.host.closed (home t) = false := (Bool.not_eq_true' _).mp (hopen t)
  rcases hg.linked.wired.queued_or_woken hwaits hclosed with hqueued | hwoken
  · obtain ⟨w, hw, -⟩ := List.mem_map.1 hqueued
    obtain ⟨u, howner⟩ := Option.ne_none_iff_exists'.1 (hg.owned.queue (List.ne_nil_of_mem hw))
    rcases hg.owned.owner u howner with hholding | hfly
    · exact .inr ⟨u, .inl hholding⟩
    · obtain ⟨f, hf, -⟩ := inFlight_iff.1 hfly
      have hne : s.waits u ≠ none := by
        rw [hf]
        exact Option.some_ne_none f
      exact .inr ⟨u, .inr ⟨hne, awake_of_inFlight h hnone (hlive u hne) hfly⟩⟩
  · refine .inl (awake_of_inFlight h hnone (hlive t ?_) (inFlight_iff.2 ⟨e, hwaits, hwoken⟩))
    rw [hwaits]
    exact Option.some_ne_none e

end Multiloop.Sync.Lock.Sys

namespace Multiloop.RWLock.Fallback

open Sync

variable {Loop Task : Type}

/-! ## The fallback -/

/-- A step of a task in `reader` or `writer` that waits for nothing, or of a loop
that sets an event. The others are those of the callers and of whoever cancels a
task or closes a loop. -/
def Action.inner : Action Loop Task → Bool
  | .lock (.runCallback _) | .move _ .body | .move _ .resume | .move _ .discard | .move _ .forward | .acquire _
  | .resumeAcquire _ | .discardAcquire _ | .release _ => true
  | _ => false

/-- The task is on its way to a permit. -/
def Pc.awaits (k : Kind) : Pc → Bool
  | .entering k' | .arrived k' | .testing k' | .releasing k' | .suspended k' | .raised k' | .forwarding k'
  | .reacquiring k' _ _ | .passingOn k' | .granting k' => k' = k
  | _ => false

namespace Sys

variable [DecidableEq Task] [DecidableEq Loop] {home : Task → Loop} {s s' : Sys Loop Task} {t : Task}

/-- No task can go on, and no loop has an event to set. -/
def Quiescent (home : Task → Loop) (s : Sys Loop Task) : Prop := ∀ a : Action Loop Task, a.inner = true → s.step home a = none

omit [DecidableEq Loop] in
theorem proceed_lock (t : Task) : (s.proceed t).lock = s.lock := by
  unfold proceed
  split <;> rfl

/-- A step is one of the lock, or leaves it as it is. -/
theorem lock_of_step {a : Action Loop Task} (hst : s.step home a = some s') :
    s'.lock = s.lock ∨ ∃ b, s.lock.step home b = some s'.lock := by
  cases a with
  | lock a =>
    obtain ⟨-, hst⟩ := Option.ite_none_right_eq_some.1 hst
    obtain ⟨lock, hlock, rfl⟩ := Option.map_eq_some_iff.1 hst
    exact .inr ⟨a, hlock⟩
  | move t a =>
    obtain ⟨-, hst⟩ := Option.ite_none_right_eq_some.1 hst
    obtain ⟨r, -, rfl⟩ := Option.map_eq_some_iff.1 hst
    exact .inl rfl
  | acquire t | resumeAcquire t =>
    obtain ⟨-, hst⟩ := Option.ite_none_right_eq_some.1 hst
    obtain ⟨lock, hlock, rfl⟩ := Option.map_eq_some_iff.1 hst
    rw [proceed_lock]
    exact .inr ⟨_, hlock⟩
  | discardAcquire t =>
    obtain ⟨-, hst⟩ := Option.ite_none_right_eq_some.1 hst
    obtain ⟨lock, hlock, rfl⟩ := Option.map_eq_some_iff.1 hst
    exact .inr ⟨_, hlock⟩
  | release t =>
    simp only [Sys.step] at hst
    split at hst
    · obtain ⟨lock, hlock, rfl⟩ := Option.map_eq_some_iff.1 hst
      exact .inr ⟨_, hlock⟩
    · obtain ⟨lock, hlock, rfl⟩ := Option.map_eq_some_iff.1 hst
      exact .inr ⟨_, hlock⟩
    · cases hst

theorem settled_of_reachable (h : (tasks home).Reachable s) : s.lock.host.Settled := by
  refine System.Reachable.inv (I := fun s => s.lock.host.Settled) ?_ (fun s a s' hs hst => ?_) h
  · rintro s rfl
    exact Host.settled_new
  · rcases lock_of_step hst with hsame | ⟨b, hlock⟩
    · rw [hsame]
      exact hs
    · exact Lock.Sys.settled_step hs hlock

/-- No loop has an event to set. -/
theorem Quiescent.scheduled (hq : s.Quiescent home) (hopen : ∀ u, s.lock.isOpen home u = true) :
    s.lock.host.scheduled = [] := by
  cases hs : s.lock.host.scheduled with
  | nil => rfl
  | cons e es =>
    have hnone := hq (.lock (.runCallback 0)) rfl
    have hclosed : s.lock.host.closed (home e.owner) = false := (Bool.not_eq_true' _).mp (hopen e.owner)
    simp [Sys.step, allows, onLock, Lock.Sys.step, Host.runCallback, hs, hclosed] at hnone

theorem Quiescent.move (hq : s.Quiescent home) (hlive : s.lock.live home t = true) (hout : s.lock.pc t = .outside)
    {a : Move} (ha : (Action.move t a : Action Loop Task).inner = true) :
    s.mutex.move (s.lock.isOpen home) t a (s.pc t) = none := by
  have hnone := hq (.move t a) ha
  simpa only [Sys.step, hlive, hout, and_self, if_true, Option.map_eq_none_iff] using hnone

omit [DecidableEq Loop] in
/-- A task that is not outside can run. -/
theorem Sections.live (hs : s.Sections home) (hopen : ∀ u, s.lock.isOpen home u = true) (hne : s.pc t ≠ .outside) :
    s.lock.live home t = true := by
  rw [Lock.Sys.live, hs.alive t hne, hopen t]
  rfl

/-- A task that holds the lock can go on. -/
theorem Quiescent.not_locked (hq : s.Quiescent home) (hs : s.Sections home)
    (hopen : ∀ u, s.lock.isOpen home u = true) (t : Task) : (s.pc t).locked = false := by
  by_contra hnot
  have hlocked : (s.pc t).locked = true := Bool.eq_true_of_not_eq_false hnot
  have hout := hs.rests t (Pc.acquires_of_locked hlocked)
  have hlive := hs.live hopen (t := t) fun hpc => by
    rw [hpc] at hlocked
    cases hlocked
  have hbody := hq.move hlive hout (a := .body) rfl
  have hrelease := hq (.release t) rfl
  cases hpc : s.pc t with
  | arrived k =>
    rw [hpc] at hbody
    simp only [Mutex.move, Mutex.body] at hbody
    split at hbody
    · cases hbody
    · cases k <;> cases hbody
  | testing | granting | settling | passingOn | departing =>
    rw [hpc] at hbody
    cases hbody
  | releasing | unlocking =>
    simp only [Sys.step, hpc, onLock, Lock.Sys.step, hlive, hout, and_self, if_true, Option.map_some] at hrelease
    cases hrelease
  | outside | entering | suspended | raised | forwarding | reacquiring | exiting =>
    rw [hpc] at hlocked
    cases hlocked

/-- A task that can go on in `acquire` is not waiting there for the lock to be
handed to it. -/
theorem Quiescent.not_awake (hq : s.Quiescent home) (hacq : (s.pc t).acquires = true) :
    ¬ s.lock.Awake home t := by
  rintro (hresume | hdiscard)
  · have hnone := hq (.resumeAcquire t) rfl
    simp only [Sys.step, hacq, if_true, onLock, Option.map_eq_none_iff] at hnone
    exact hresume hnone
  · have hnone := hq (.discardAcquire t) rfl
    simp only [Sys.step, hacq, if_true, onLock, Option.map_eq_none_iff] at hnone
    exact hdiscard hnone

/-- No task waits for the lock. -/
theorem Quiescent.not_acquires (hq : s.Quiescent home) (hs : s.Sections home) (hsettled : s.lock.host.Settled)
    (hopen : ∀ u, s.lock.isOpen home u = true) (t : Task) : (s.pc t).acquires = false := by
  by_contra hnot
  have hacq : (s.pc t).acquires = true := Bool.eq_true_of_not_eq_false hnot
  have hlive := hs.live hopen (t := t) fun hpc => by
    rw [hpc] at hacq
    cases hacq
  cases hwaits : s.lock.waits t with
  | none =>
    have hout : s.lock.pc t = .outside := by
      cases hpc : s.lock.pc t with
      | outside => rfl
      | acquiring | discarding =>
        rw [Lock.Sys.waits_of_pc hpc] at hwaits
        cases hwaits
    have hnone := hq (.acquire t) rfl
    simp only [Sys.step, hacq, onLock, Lock.Sys.step, hlive, hout, and_self, if_true, Option.map_some] at hnone
    cases hnone
  | some e =>
    rcases hs.lock.awake hsettled (hq.scheduled hopen) hopen hwaits with hawake | ⟨u, hholding | ⟨hne, hawake⟩⟩
    · exact hq.not_awake hacq hawake
    · rw [hs.holds u, hq.not_locked hs hopen u] at hholding
      cases hholding
    · refine hq.not_awake (Bool.eq_true_of_not_eq_false fun hnot => hne ?_) hawake
      exact Lock.Sys.waits_of_pc (hs.rests u hnot)

/-- A task that is not outside sleeps. -/
theorem Quiescent.asleep (hq : s.Quiescent home) (hs : s.Sections home) (hsettled : s.lock.host.Settled)
    (hopen : ∀ u, s.lock.isOpen home u = true) (hne : s.pc t ≠ .outside) : s.asleep t := by
  have hlocked := hq.not_locked hs hopen t
  have hacq := hq.not_acquires hs hsettled hopen t
  have hmove := fun a => hq.move (hs.live hopen hne) (hs.rests t hacq) (a := a)
  cases hpc : s.pc t with
  | outside => exact absurd hpc hne
  | suspended k =>
    refine ⟨⟨k, hpc⟩, Bool.eq_false_iff.2 fun hpopped => ?_⟩
    have hnone := hmove .resume rfl
    simp only [hpc, Mutex.move, hpopped, if_true] at hnone
    cases hnone
  | raised =>
    have hnone := hmove .discard rfl
    rw [hpc] at hnone
    cases hnone
  | forwarding =>
    have hnone := hmove .forward rfl
    rw [hpc] at hnone
    cases hnone
  | arrived | testing | releasing | passingOn | granting | settling | unlocking | departing =>
    rw [hpc] at hlocked
    cases hlocked
  | entering | reacquiring | exiting =>
    rw [hpc] at hacq
    cases hacq

variable [Fintype Task]

/-- Who keeps a task out that is on its way to a permit. -/
theorem Quiescent.kept_out (hq : s.Quiescent home) (hbooks : s.Books home) (hsettled : s.lock.host.Settled)
    (hopen : ∀ u, s.lock.isOpen home u = true) {k : Kind} (ht : (s.pc t).awaits k = true) :
    s.mutex.blocks k = true := by
  have hne : s.pc t ≠ .outside := by
    intro hpc
    rw [hpc] at ht
    cases ht
  obtain ⟨⟨k', hpc⟩, hpopped⟩ := hq.asleep hbooks.sections hsettled hopen hne
  rw [hpc] at ht
  obtain rfl : k' = k := of_decide_eq_true ht
  exact hbooks.blocked hpc hpopped

end Sys

end Multiloop.RWLock.Fallback
