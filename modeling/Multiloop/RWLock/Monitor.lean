import Multiloop.RWLock.Fallback

/-!
# One task at a time has the lock

A task is between two calls of the lock exactly if it holds it, and no two tasks
are (`Sections.exclusive`): what one of them has seen of the mutex is not changed
by the others until it releases the lock.
-/

namespace Multiloop.RWLock.Fallback

open Sync

variable {Loop Task : Type}

theorem Pc.locked_afterRaise (k : Kind) : (Pc.afterRaise k).locked = true := by
  cases k with
  | reader => rfl
  | writer => rfl

theorem Pc.locked_of_acquires {p : Pc} (h : p.acquires = true) : p.locked = false := by
  cases p with
  | entering | reacquiring | exiting => rfl
  | _ => cases h

theorem Pc.locked_acquired {p : Pc} (h : p.acquires = true) : p.acquired.locked = true := by
  cases p with
  | entering | exiting => rfl
  | reacquiring k branch cancelled =>
    cases branch with
    | handler => exact locked_afterRaise k
    | notified =>
      cases cancelled with
      | true => rfl
      | false => rfl
  | _ => cases h

theorem Pc.acquires_of_locked {p : Pc} (h : p.locked = true) : p.acquires = false := by
  cases p with
  | entering | reacquiring | exiting => cases h
  | _ => rfl

theorem Pc.interrupted_locked {p : Pc} (h : p.acquires = true) : p.interrupted.locked = false := by
  cases p with
  | entering | reacquiring | exiting => rfl
  | _ => cases h

theorem Pc.released_locked (p : Pc) : p.released.locked = false ∧ p.released.acquires = false := by
  cases p <;> exact ⟨rfl, rfl⟩

/-- What a move of task `t` does, from one place to another. -/
inductive Moved [DecidableEq Task] (isOpen : Task → Bool) (t : Task) (m : Mutex Task) : Pc → Mutex Task → Pc → Prop
  | refused : Moved isOpen t m .outside m .outside
  | enters (k : Kind) : Moved isOpen t m .outside m (.entering k)
  | nested (k : Kind) : Moved isOpen t m (.arrived k) m .unlocking
  | tests (hwriter : m.writerTask ≠ some t) (hdepth : m.readerDepth t = 0) :
    Moved isOpen t m (.arrived .reader) m (.testing .reader)
  | reenters (h : 0 < m.readerDepth t) : Moved isOpen t m (.arrived .reader) m (.granting .reader)
  | pends (hwriter : m.writerTask ≠ some t) (hdepth : m.readerDepth t = 0) :
    Moved isOpen t m (.arrived .writer) { m with pendingWriters := m.pendingWriters + 1 } (.testing .writer)
  | waits (k : Kind) (h : m.blocks k = true) : Moved isOpen t m (.testing k) (m.register t k) (.releasing k)
  | passes (k : Kind) (h : m.blocks k = false) : Moved isOpen t m (.testing k) m (.granting k)
  | reads : Moved isOpen t m (.granting .reader) (m.grant t .reader) .unlocking
  | writes : Moved isOpen t m (.granting .writer) (m.grant t .writer) .settling
  | settles : Moved isOpen t m .settling m.settle .unlocking
  | hands (k : Kind) : Moved isOpen t m (.passingOn k) (m.forwardNotify isOpen k) (.afterRaise k)
  | departs (k : Kind) : Moved isOpen t m (.departing k) (m.depart t k) .unlocking
  | resumes (k : Kind) (h : m.popped t = true) :
    Moved isOpen t m (.suspended k) m (.reacquiring k .notified false)
  | raises (k : Kind) : Moved isOpen t m (.suspended k) m (.raised k)
  | discards (k : Kind) :
    Moved isOpen t m (.raised k) (m.discardWaiter t k) (.reacquiring k .handler false)
  | misses (k : Kind) (h : t ∉ m.waiters k) : Moved isOpen t m (.raised k) m (.forwarding k)
  | forwards (k : Kind) :
    Moved isOpen t m (.forwarding k) (m.forwardNotify isOpen k) (.reacquiring k .handler false)
  | leaves (k : Kind) (h : m.holds t k = true) : Moved isOpen t m .outside m (.exiting k)

section Moves

variable [DecidableEq Task] {m m' : Mutex Task} {isOpen : Task → Bool} {t : Task} {a : Move} {p p' : Pc}

theorem Mutex.body_moved (h : m.body isOpen t p = some (m', p')) : Moved isOpen t m p m' p' := by
  cases p with
  | arrived k =>
    simp only [body] at h
    split at h
    · cases h
      exact .nested k
    rename_i hrefuses
    cases k with
    | reader =>
      cases h
      split
      · rename_i hdepth
        exact .tests (fun hwriter => hrefuses (decide_eq_true hwriter)) hdepth
      · rename_i hdepth
        exact .reenters (Nat.pos_of_ne_zero hdepth)
    | writer =>
      cases h
      refine .pends (fun hwriter => hrefuses (decide_eq_true (.inr hwriter))) (Nat.eq_zero_of_not_pos fun hdepth => ?_)
      exact hrefuses (decide_eq_true (.inl hdepth))
  | testing k =>
    simp only [body, Option.some.injEq] at h
    split at h
    · rename_i hblocks
      cases h
      exact .waits k hblocks
    · rename_i hblocks
      cases h
      exact .passes k (Bool.eq_false_iff.2 hblocks)
  | granting k =>
    cases k with
    | reader =>
      cases h
      exact .reads
    | writer =>
      cases h
      exact .writes
  | settling =>
    cases h
    exact .settles
  | passingOn k =>
    cases h
    exact .hands k
  | departing k =>
    cases h
    exact .departs k
  | outside | entering | releasing | suspended | raised | forwarding | reacquiring | unlocking | exiting => cases h

theorem Mutex.move_moved (h : m.move isOpen t a p = some (m', p')) : Moved isOpen t m p m' p' := by
  unfold move at h
  split at h
  · cases h
    split
    · exact .refused
    · exact .enters _
  · exact body_moved h
  · split at h
    · rename_i hpopped
      cases h
      exact .resumes _ hpopped
    · cases h
  · cases h
    exact .raises _
  · split at h
    · cases h
      exact .discards _
    · rename_i hmem
      cases h
      exact .misses _ hmem
  · cases h
    exact .forwards _
  · split at h
    · rename_i hholds
      cases h
      exact .leaves _ hholds
    · cases h
  · cases h

/-- No move takes the lock or gives it back. -/
theorem Moved.locked (h : Moved isOpen t m p m' p') : p'.locked = p.locked := by
  cases h with
  | hands k => exact Pc.locked_afterRaise k
  | _ => rfl

end Moves

namespace Sys

variable [DecidableEq Task] {home : Task → Loop} {s s' : Sys Loop Task} {t u : Task}

/-- A task owns the lock in its sections and nowhere else. -/
structure Sections (home : Task → Loop) (s : Sys Loop Task) : Prop where
  lock : s.lock.Guarded home
  holds : ∀ t, s.lock.holding t = (s.pc t).locked
  rests : ∀ t, (s.pc t).acquires = false → s.lock.pc t = .outside
  alive : ∀ t, s.pc t ≠ .outside → s.lock.done t = false

theorem Sections.exclusive (h : s.Sections home) (ht : (s.pc t).locked = true) (hu : (s.pc u).locked = true) :
    t = u := by
  have howner : ∀ v, (s.pc v).locked = true → s.lock.lock.owner = some v := by
    intro v hv
    refine h.lock.owned.holder v ((h.holds v).trans hv) (h.alive v ?_)
    intro hout
    rw [hout] at hv
    cases hv
  exact Option.some.inj ((howner t ht).symm.trans (howner u hu))

/-- A task that does not hold the lock, and does not wait for it, does not own it. -/
theorem Sections.not_owner (h : s.Sections home) (ht : (s.pc t).locked = false) (hpc : s.lock.pc t = .outside) :
    s.lock.lock.owner ≠ some t := by
  intro howner
  rcases h.lock.owned.owner t howner with hholding | hfly
  · rw [h.holds t, ht] at hholding
    cases hholding
  · have hnot := Lock.Sys.not_inFlight (Lock.Sys.waits_of_pc hpc)
    rw [hfly] at hnot
    cases hnot

variable [DecidableEq Loop]

/-- A step of the lock by task `t`, after which it is at `p`. -/
theorem Sections.of_step (h : s.Sections home) {a : Lock.Action Loop Task} (hst : s.lock.step home a = some s'.lock)
    (ha : ∀ u, a.task? = some u → u = t) (hothers : ∀ u, u ≠ t → s'.pc u = s.pc u)
    (hholds : s'.lock.holding t = (s'.pc t).locked) (hrests : (s'.pc t).acquires = false → s'.lock.pc t = .outside)
    (halive : s'.pc t ≠ .outside → s'.lock.done t = false) : s'.Sections home := by
  have hsame : ∀ u, u ≠ t → s.lock.SameFor u s'.lock := fun u hu => Lock.Sys.step_other hst fun htask => hu (ha u htask)
  refine ⟨h.lock.step hst, fun u => ?_, fun u hu => ?_, fun u hu => ?_⟩
  · by_cases hut : u = t
    · subst hut
      exact hholds
    · rw [(hsame u hut).holding, hothers u hut]
      exact h.holds u
  · by_cases hut : u = t
    · subst hut
      exact hrests hu
    · rw [hothers u hut] at hu
      rw [(hsame u hut).pc]
      exact h.rests u hu
  · by_cases hut : u = t
    · subst hut
      exact halive hu
    · rw [hothers u hut] at hu
      rw [(hsame u hut).done]
      exact h.alive u hu

/-- A task in `acquire` goes on, if it holds the lock now. -/
theorem Sections.proceed (h : s.Sections home) {a : Lock.Action Loop Task} {lock : Lock.Sys Loop Task}
    (hst : s.lock.step home a = some lock) (ha : ∀ u, a.task? = some u → u = t) (hacq : (s.pc t).acquires = true)
    (hdone : lock.done t = false) (hheld : lock.holding t = true → lock.pc t = .outside) :
    ({ s with lock }.proceed t).Sections home := by
  unfold Sys.proceed
  split
  · rename_i hholding
    have hpc : Function.update s.pc t (s.pc t).acquired t = (s.pc t).acquired := Function.update_self ..
    refine h.of_step hst ha (fun u hu => Function.update_of_ne hu ..) ?_ (fun _ => hheld hholding) fun _ => hdone
    show lock.holding t = (Function.update s.pc t (s.pc t).acquired t).locked
    rw [hpc, Pc.locked_acquired hacq]
    exact hholding
  · rename_i hholding
    refine h.of_step hst ha (fun _ _ => rfl) ?_ (fun hnot => ?_) fun _ => hdone
    · show lock.holding t = (s.pc t).locked
      rw [Pc.locked_of_acquires hacq]
      exact Bool.eq_false_iff.2 hholding
    · cases hacq.symm.trans hnot

theorem Sections.acquire (h : s.Sections home) {lock : Lock.Sys Loop Task}
    (hst : s.lock.step home (.acquire t) = some lock) (hacq : (s.pc t).acquires = true) :
    ({ s with lock }.proceed t).Sections home := by
  obtain ⟨hlive, hpc⟩ := Lock.Sys.acquire_enabled hst
  have hunlocked := Pc.locked_of_acquires hacq
  obtain ⟨hdone, hres⟩ := Lock.Sys.step_acquire hst (h.not_owner hunlocked hpc)
  refine h.proceed hst (fun u hu => (Option.some.inj hu).symm) hacq ?_ fun hholding => ?_
  · rw [hdone]
    exact Lock.Sys.live_done hlive
  · rcases hres with ⟨-, hout⟩ | ⟨hsame, -⟩
    · exact hout
    · rw [hsame, h.holds t, hunlocked] at hholding
      cases hholding

theorem Sections.resumeAcquire (h : s.Sections home) {lock : Lock.Sys Loop Task}
    (hst : s.lock.step home (.resume t) = some lock) (hacq : (s.pc t).acquires = true) :
    ({ s with lock }.proceed t).Sections home := by
  obtain ⟨hlive, hdone, e, -, hres⟩ := Lock.Sys.step_resume hst
  refine h.proceed hst (fun u hu => (Option.some.inj hu).symm) hacq ?_ fun hholding => ?_
  · rw [hdone]
    exact Lock.Sys.live_done hlive
  · rcases hres with ⟨-, -, hout⟩ | ⟨hsame, -⟩
    · exact hout
    · rw [hsame, h.holds t, Pc.locked_of_acquires hacq] at hholding
      cases hholding

theorem Sections.discardAcquire (h : s.Sections home) {lock : Lock.Sys Loop Task}
    (hst : s.lock.step home (.discard t) = some lock) (hacq : (s.pc t).acquires = true) :
    (({ s with lock } : Sys Loop Task).goto t (s.pc t).interrupted).Sections home := by
  obtain ⟨hlive, hdone, hsame, hout⟩ := Lock.Sys.step_discard hst
  have hpc : Function.update s.pc t (s.pc t).interrupted t = (s.pc t).interrupted := Function.update_self ..
  refine h.of_step hst (fun u hu => (Option.some.inj hu).symm) (fun u hu => Function.update_of_ne hu ..) ?_
    (fun _ => hout) fun _ => ?_
  · show lock.holding t = (Function.update s.pc t (s.pc t).interrupted t).locked
    rw [hpc, hsame, h.holds t, Pc.locked_of_acquires hacq, Pc.interrupted_locked hacq]
  · show lock.done t = false
    rw [hdone]
    exact Lock.Sys.live_done hlive

theorem Sections.release (h : s.Sections home) {lock : Lock.Sys Loop Task}
    (hst : s.lock.step home (.release t) = some lock) (hlocked : (s.pc t).locked = true) :
    (({ s with lock } : Sys Loop Task).goto t (s.pc t).released).Sections home := by
  have hne : s.pc t ≠ .outside := by
    intro hout
    rw [hout] at hlocked
    cases hlocked
  have howner := h.lock.owned.holder t ((h.holds t).trans hlocked) (h.alive t hne)
  obtain ⟨hlive, hdone, hheld, hpc'⟩ := Lock.Sys.step_release hst howner
  have hpc : Function.update s.pc t (s.pc t).released t = (s.pc t).released := Function.update_self ..
  refine h.of_step hst (fun u hu => (Option.some.inj hu).symm) (fun u hu => Function.update_of_ne hu ..) ?_
    (fun _ => ?_) fun _ => ?_
  · show lock.holding t = (Function.update s.pc t (s.pc t).released t).locked
    rw [hpc, hheld, (Pc.released_locked _).1]
  · show lock.pc t = .outside
    rw [hpc']
    exact h.rests t (Pc.acquires_of_locked hlocked)
  · show lock.done t = false
    rw [hdone]
    exact Lock.Sys.live_done hlive

/-- A step of the lock that is no call of it. -/
theorem Sections.lock_step (h : s.Sections home) {a : Lock.Action Loop Task} {lock : Lock.Sys Loop Task}
    (hallows : s.allows a = true) (hst : s.lock.step home a = some lock) :
    ({ s with lock } : Sys Loop Task).Sections home := by
  have hkeeps : ∀ u, lock.holding u = s.lock.holding u ∧ lock.pc u = s.lock.pc u ∧
      (s.pc u ≠ .outside → lock.done u = s.lock.done u) := by
    intro u
    by_cases htask : a.task? = some u
    · cases a with
      | finish v =>
        obtain rfl := Option.some.inj htask
        simp only [Lock.Sys.step] at hst
        split at hst
        · cases hst
          exact ⟨rfl, rfl, fun hne => absurd (of_decide_eq_true hallows) hne⟩
        · cases hst
      | waitElsewhere v =>
        obtain ⟨hdone, hholding, hpc⟩ := Lock.Sys.step_elsewhere hst (.inl rfl)
        exact ⟨congrFun hholding u, congrFun hpc u, fun _ => congrFun hdone u⟩
      | elsewhere v b =>
        obtain ⟨hdone, hholding, hpc⟩ := Lock.Sys.step_elsewhere hst (.inr ⟨b, rfl⟩)
        exact ⟨congrFun hholding u, congrFun hpc u, fun _ => congrFun hdone u⟩
      | acquire | resume | discard | release => cases hallows
      | cancel | runCallback | closeLoop | wakeElsewhere => cases htask
    · have hsame := Lock.Sys.step_other hst htask
      exact ⟨hsame.holding, hsame.pc, fun _ => hsame.done⟩
  refine ⟨h.lock.step hst, fun u => (hkeeps u).1.trans (h.holds u), fun u hu => (hkeeps u).2.1.trans (h.rests u hu),
    fun u hu => ((hkeeps u).2.2 hu).trans (h.alive u hu)⟩

omit [DecidableEq Loop] in
theorem Sections.move (h : s.Sections home) {m : Mutex Task} {p : Pc} (hlive : s.lock.live home t = true)
    (hout : s.lock.pc t = .outside) (hm : Moved (s.lock.isOpen home) t s.mutex (s.pc t) m p) :
    (({ s with mutex := m } : Sys Loop Task).goto t p).Sections home := by
  refine ⟨h.lock, fun u => ?_, fun u hu => ?_, fun u hu => ?_⟩
  · show s.lock.holding u = (Function.update s.pc t p u).locked
    by_cases hut : u = t
    · subst hut
      rw [Function.update_self, hm.locked]
      exact h.holds u
    · rw [Function.update_of_ne hut]
      exact h.holds u
  · by_cases hut : u = t
    · subst hut
      exact hout
    · change (Function.update s.pc t p u).acquires = false at hu
      rw [Function.update_of_ne hut] at hu
      exact h.rests u hu
  · by_cases hut : u = t
    · subst hut
      exact Lock.Sys.live_done hlive
    · change Function.update s.pc t p u ≠ .outside at hu
      rw [Function.update_of_ne hut] at hu
      exact h.alive u hu

/-- Where a call of the lock leads. -/
inductive Turned : Pc → Pc → Prop
  | acquired {p : Pc} (h : p.acquires = true) : Turned p p.acquired
  | interrupted {p : Pc} (h : p.acquires = true) : Turned p p.interrupted
  | suspends (k : Kind) : Turned (.releasing k) (.suspended k)
  | leaves : Turned .unlocking .outside

/-- What a step does with the mutex, and where it leads. -/
inductive Steps (home : Task → Loop) (s s' : Sys Loop Task) : Prop
  | stays (hm : s'.mutex = s.mutex) (hpc : s'.pc = s.pc)
  | moves (t : Task) (p : Pc) (hm : Moved (s.lock.isOpen home) t s.mutex (s.pc t) s'.mutex p)
    (hpc : s'.pc = Function.update s.pc t p)
  | turns (t : Task) (p : Pc) (hm : s'.mutex = s.mutex) (hp : Turned (s.pc t) p)
    (hpc : s'.pc = Function.update s.pc t p)

omit [DecidableEq Loop] in
theorem steps_proceed {lock : Lock.Sys Loop Task} (hacq : (s.pc t).acquires = true) :
    Steps home s ({ s with lock }.proceed t) := by
  unfold Sys.proceed
  split
  · exact .turns t _ rfl (.acquired hacq) rfl
  · exact .stays rfl rfl

/-- Every step keeps the lock and the places of the tasks in line. -/
theorem Sections.step (h : s.Sections home) {a : Action Loop Task} (hst : s.step home a = some s') :
    s'.Sections home ∧ Steps home s s' := by
  cases a with
  | lock a =>
    obtain ⟨hallows, hst⟩ := Option.ite_none_right_eq_some.1 hst
    obtain ⟨lock, hlock, rfl⟩ := Option.map_eq_some_iff.1 hst
    exact ⟨h.lock_step hallows hlock, .stays rfl rfl⟩
  | move t a =>
    obtain ⟨⟨hlive, hout⟩, hst⟩ := Option.ite_none_right_eq_some.1 hst
    obtain ⟨⟨m, p⟩, hmove, rfl⟩ := Option.map_eq_some_iff.1 hst
    have hm := Mutex.move_moved hmove
    exact ⟨h.move hlive hout hm, .moves t p hm rfl⟩
  | acquire t =>
    obtain ⟨hacq, hst⟩ := Option.ite_none_right_eq_some.1 hst
    obtain ⟨lock, hlock, rfl⟩ := Option.map_eq_some_iff.1 hst
    exact ⟨h.acquire hlock hacq, steps_proceed hacq⟩
  | resumeAcquire t =>
    obtain ⟨hacq, hst⟩ := Option.ite_none_right_eq_some.1 hst
    obtain ⟨lock, hlock, rfl⟩ := Option.map_eq_some_iff.1 hst
    exact ⟨h.resumeAcquire hlock hacq, steps_proceed hacq⟩
  | discardAcquire t =>
    obtain ⟨hacq, hst⟩ := Option.ite_none_right_eq_some.1 hst
    obtain ⟨lock, hlock, rfl⟩ := Option.map_eq_some_iff.1 hst
    exact ⟨h.discardAcquire hlock hacq, .turns t _ rfl (.interrupted hacq) rfl⟩
  | release t =>
    simp only [Sys.step] at hst
    split at hst
    · rename_i k hpc
      obtain ⟨lock, hlock, rfl⟩ := Option.map_eq_some_iff.1 hst
      refine ⟨h.release hlock (by rw [hpc]; rfl), .turns t (.suspended k) rfl (by rw [hpc]; exact .suspends k) ?_⟩
      show Function.update s.pc t (s.pc t).released = _
      rw [hpc]
      rfl
    · rename_i hpc
      obtain ⟨lock, hlock, rfl⟩ := Option.map_eq_some_iff.1 hst
      refine ⟨h.release hlock (by rw [hpc]; rfl), .turns t .outside rfl (by rw [hpc]; exact .leaves) ?_⟩
      show Function.update s.pc t (s.pc t).released = _
      rw [hpc]
      rfl
    · cases hst

omit [DecidableEq Loop] in
theorem sections_new : (new : Sys Loop Task).Sections home :=
  ⟨Lock.Sys.guarded_new, fun _ => rfl, fun _ _ => rfl, fun _ hne => absurd rfl hne⟩

end Sys

end Multiloop.RWLock.Fallback
