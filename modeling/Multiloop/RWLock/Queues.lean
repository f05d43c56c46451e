import Multiloop.Framework.Ledger
import Multiloop.Framework.Transition
import Multiloop.RWLock.Moves

/-!
# The queues of a `RawAsyncRWMutex`

Runs of operations on a fresh lock, where `release_read` is called while a
reader is counted and `release_write` while the writer is. A future may be
registered twice, or removed without having been registered. Beside the lock a
run keeps a ledger of its readers' and of its writers' queue.
-/

namespace Multiloop.RWLock

variable {Loop Fut : Type}

/-- A call of one of the methods that change the state. -/
inductive Op (Loop Fut : Type)
  | tryAcquireRead
  | acquireReadOrRegister (loopObj : Loop) (futObj : Fut)
  | releaseRead
  | tryAcquireWrite
  | acquireWriteOrRegister (loopObj : Loop) (futObj : Fut)
  | releaseWrite
  | removeWaiter (futObj : Fut) (isWriter : Bool)

/-- A lock, and what happened to its waiters. -/
structure Course (Loop Fut : Type) where
  lock : RWMutexInner Loop Fut
  reads : Ledger (Waiter Loop Fut)
  writes : Ledger (Waiter Loop Fut)

namespace Course

variable [DecidableEq Fut]

/-- One call. The waiters that `release_write` returns are the next writer, or
readers if no writer is queued. -/
def step (c : Course Loop Fut) : Op Loop Fut → Option (Course Loop Fut)
  | .tryAcquireRead => some { c with lock := c.lock.tryAcquireRead.2 }
  | .acquireReadOrRegister l f =>
    let (acquired, lock) := c.lock.acquireReadOrRegister l f
    some { c with lock, reads := if acquired then c.reads else c.reads.register (l, f) }
  | .releaseRead =>
    if c.lock.readers = 0 then none
    else
      let (wakers, lock) := c.lock.releaseRead
      some { c with lock, writes := c.writes.grant (wakers.getD []) }
  | .tryAcquireWrite => some { c with lock := c.lock.tryAcquireWrite.2 }
  | .acquireWriteOrRegister l f =>
    let (acquired, lock) := c.lock.acquireWriteOrRegister l f
    some { c with lock, writes := if acquired then c.writes else c.writes.register (l, f) }
  | .releaseWrite =>
    if c.lock.writer then
      let (wakers, lock) := c.lock.releaseWrite
      if c.lock.writeWaiters = [] then some { c with lock, reads := c.reads.grant (wakers.getD []) }
      else some { c with lock, writes := c.writes.grant (wakers.getD []) }
    else none
  | .removeWaiter f isWriter =>
    let (wakers, lock) := c.lock.removeWaiter f isWriter
    if isWriter then
      some { lock
             reads := c.reads.grant (wakers.getD [])
             writes := c.writes.leave (c.lock.writeWaiters.filter fun w => w.2 = f) }
    else some { c with lock, reads := c.reads.leave (c.lock.readWaiters.filter fun w => w.2 = f) }

end Course

/-- The runs of calls on a fresh lock. -/
def calls [DecidableEq Fut] : System (Course Loop Fut) (Op Loop Fut) where
  init c := c = ⟨new, {}, {}⟩
  step := Course.step

namespace RWMutexInner

variable {s : RWMutexInner Loop Fut}

/-- The lock is not held by a writer and readers at once, and nobody waits for
a lock that nobody holds or waits for. -/
structure Lively (s : RWMutexInner Loop Fut) : Prop where
  exclusion : s.writer = true → s.readers = 0
  pending : s.pendingWriters = s.writeWaiters.length
  writers : s.writeWaiters ≠ [] → s.writer = true ∨ 0 < s.readers
  readers : s.readWaiters ≠ [] → s.writer = true ∨ 0 < s.pendingWriters

theorem Lively.no_writers (h : s.Lively) : s.pendingWriters = 0 ↔ s.writeWaiters = [] := by
  rw [h.pending, List.length_eq_zero_iff]

theorem lively_new : Lively (new : RWMutexInner Loop Fut) :=
  ⟨fun h => by simp [new] at h, rfl, fun h => absurd rfl h, fun h => absurd rfl h⟩

/-! ## Acquiring -/

/-- A reader gets the lock at once if no writer holds it or waits for it. -/
theorem tryAcquireRead_eq : s.tryAcquireRead =
    if s.writer = false ∧ s.pendingWriters = 0 then (true, { s with readers := s.readers + 1 }) else (false, s) := by
  simp [tryAcquireRead]

theorem acquireReadOrRegister_eq (l : Loop) (f : Fut) : s.acquireReadOrRegister l f =
    if s.writer = false ∧ s.pendingWriters = 0 then (true, { s with readers := s.readers + 1 })
    else (false, { s with readWaiters := s.readWaiters ++ [(l, f)] }) := by
  simp [acquireReadOrRegister]

theorem Lively.enterRead (h : s.Lively) (hw : s.writer = false) : Lively { s with readers := s.readers + 1 } where
  exclusion hc := by simp [hw] at hc
  pending := h.pending
  writers _ := .inr (Nat.succ_pos _)
  readers := h.readers

theorem Lively.enterWrite (h : s.Lively) (hr : s.readers = 0) : Lively { s with writer := true } :=
  ⟨fun _ => hr, h.pending, fun _ => .inl rfl, fun _ => .inl rfl⟩

theorem Lively.registerRead (h : s.Lively) (hb : ¬ (s.writer = false ∧ s.pendingWriters = 0)) (w : Waiter Loop Fut) :
    Lively { s with readWaiters := s.readWaiters ++ [w] } where
  exclusion := h.exclusion
  pending := h.pending
  writers := h.writers
  readers _ := by
    show s.writer = true ∨ 0 < s.pendingWriters
    cases hw : s.writer with
    | true => exact .inl rfl
    | false => exact .inr (Nat.pos_of_ne_zero fun hp => hb ⟨hw, hp⟩)

theorem Lively.registerWrite (h : s.Lively)
    (hb : ¬ (¬ s.writer = true ∧ s.readers = 0 ∧ s.pendingWriters = 0)) (w : Waiter Loop Fut) :
    Lively { s with pendingWriters := s.pendingWriters + 1, writeWaiters := s.writeWaiters ++ [w] } where
  exclusion := h.exclusion
  pending := by simp [h.pending]
  writers _ := by
    show s.writer = true ∨ 0 < s.readers
    by_cases hnil : s.writeWaiters = []
    · by_contra hn
      push Not at hn
      exact hb ⟨hn.1, by omega, h.no_writers.2 hnil⟩
    · exact h.writers hnil
  readers _ := .inr (Nat.succ_pos _)

/-! ## Releasing -/

theorem Lively.releaseRead (h : s.Lively) (hr : s.readers ≠ 0) : s.releaseRead.2.Lively := by
  rcases releaseRead_cases h.pending with ⟨w, ws, hw, -, e⟩ | e
  · rw [e]
    exact ⟨fun _ => rfl, rfl, fun _ => .inl rfl, fun _ => .inl rfl⟩
  · have hwr : s.writer = false := by
      by_contra hc
      exact hr (h.exclusion (by simpa using hc))
    -- The last reader does not leave a queued writer behind.
    have hlast : s.writeWaiters ≠ [] → 0 < s.readers - 1 := by
      intro hne
      obtain ⟨w, ws, hw⟩ := List.exists_cons_of_ne_nil hne
      by_contra hzero
      have hone : s.readers = 1 := by omega
      simp [RWMutexInner.releaseRead, hw, hone] at e
    rw [e]
    exact ⟨fun hc => by simp [hwr] at hc, h.pending, fun hne => .inr (hlast hne), h.readers⟩

theorem Lively.releaseWrite (h : s.Lively) (hw : s.writer = true) : s.releaseWrite.2.Lively := by
  have hr := h.exclusion hw
  rcases releaseWrite_cases h.pending with ⟨w, ws, -, e⟩ | ⟨hnil, e⟩ | ⟨hnil, hrn, e⟩ <;> rw [e]
  · exact ⟨fun _ => hr, rfl, fun _ => .inl rfl, fun _ => .inl rfl⟩
  · exact ⟨fun hc => by simp at hc, h.pending, fun hne => absurd hnil hne, fun hne => absurd rfl hne⟩
  · exact ⟨fun hc => by simp at hc, h.pending, fun hne => absurd hnil hne, fun hne => absurd hrn hne⟩

variable [DecidableEq Fut]

theorem Lively.removeReader (h : s.Lively) (f : Fut) : (s.removeWaiter f false).2.Lively := by
  refine ⟨h.exclusion, h.pending, h.writers, fun hne => h.readers fun hnil => hne ?_⟩
  show retain f s.readWaiters = []
  rw [hnil]
  rfl

theorem Lively.removeWriter (h : s.Lively) (f : Fut) : (s.removeWaiter f true).2.Lively := by
  rcases removeWaiter_cases h.pending f with ⟨-, hw, e⟩ | e
  · rw [e]
    exact ⟨fun hc => by simp [hw] at hc, rfl, fun hne => absurd rfl hne, fun hne => absurd rfl hne⟩
  · -- Readers are left waiting only behind the writer or a queued one.
    have hready : s.readWaiters ≠ [] → s.writer = true ∨ 0 < (retain f s.writeWaiters).length := by
      intro hne
      obtain ⟨r, rs, hr⟩ := List.exists_cons_of_ne_nil hne
      by_contra hn
      push Not at hn
      have hlen : (retain f s.writeWaiters).length = 0 := by omega
      have hle : (retain f s.writeWaiters).length ≤ s.writeWaiters.length := List.length_filter_le _ _
      have hpend := h.pending
      have hzero : (if s.writeWaiters.length > 0 ∧ s.pendingWriters ≥ s.writeWaiters.length then
          s.pendingWriters - s.writeWaiters.length else s.pendingWriters) = 0 := by
        split <;> omega
      simp [removeWaiter, hr, hlen, hzero, hn.1] at e
    rw [e]
    refine ⟨h.exclusion, rfl, fun hne => h.writers fun hnil => hne ?_, hready⟩
    show retain f s.writeWaiters = []
    rw [hnil]
    rfl

end RWMutexInner

namespace Course

open RWMutexInner

variable [DecidableEq Fut] {c c' : Course Loop Fut}

/-- The state of a run. -/
structure Orderly (c : Course Loop Fut) : Prop where
  lively : c.lock.Lively
  reads : c.reads.Fair c.lock.readWaiters
  writes : c.writes.Fair c.lock.writeWaiters

omit [DecidableEq Fut] in
theorem Orderly.acquireRead (h : c.Orderly) (hw : c.lock.writer = false) :
    Orderly { c with lock := { c.lock with readers := c.lock.readers + 1 } } :=
  ⟨h.lively.enterRead hw, h.reads, h.writes⟩

omit [DecidableEq Fut] in
theorem Orderly.acquireWrite (h : c.Orderly) (hr : c.lock.readers = 0) :
    Orderly { c with lock := { c.lock with writer := true } } :=
  ⟨h.lively.enterWrite hr, h.reads, h.writes⟩

theorem retain_eq (f : Fut) (ws : List (Waiter Loop Fut)) :
    retain f ws = ws.filter fun w => ! decide (w.2 = f) := by
  simp [retain]

/-- One call keeps the queues in order. -/
theorem Orderly.step (h : c.Orderly) {op : Op Loop Fut} (hst : c.step op = some c') : c'.Orderly := by
  have hpend := h.lively.pending
  cases op with
  | tryAcquireRead =>
    simp only [Course.step, tryAcquireRead_eq, Option.some.injEq] at hst
    subst hst
    split
    · rename_i hfree
      exact h.acquireRead hfree.1
    · exact h
  | acquireReadOrRegister l f =>
    simp only [Course.step, acquireReadOrRegister_eq, Option.some.injEq] at hst
    subst hst
    split
    · rename_i hfree
      exact h.acquireRead hfree.1
    · rename_i hbusy
      exact ⟨h.lively.registerRead hbusy _, h.reads.register _, h.writes⟩
  | releaseRead =>
    simp only [Course.step] at hst
    split at hst
    · cases hst
    · rename_i hr
      simp only [Option.some.injEq] at hst
      subst hst
      refine ⟨h.lively.releaseRead hr, ?_, ?_⟩
      · rcases releaseRead_cases hpend with ⟨w, ws, -, -, e⟩ | e <;> simp only [e] <;> exact h.reads
      · have hwrites := h.writes
        rcases releaseRead_cases hpend with ⟨w, ws, hw, -, e⟩ | e <;> simp only [e]
        · rw [hw] at hwrites
          exact Ledger.Fair.grant (p := [w]) hwrites
        · exact Ledger.Fair.grant (p := []) hwrites
  | tryAcquireWrite =>
    simp only [Course.step, Option.some.injEq] at hst
    subst hst
    rcases tryAcquireWrite_cases (s := c.lock) with ⟨-, hr, e⟩ | e <;> rw [e]
    · exact h.acquireWrite hr
    · exact h
  | acquireWriteOrRegister l f =>
    simp only [Course.step, RWMutexInner.acquireWriteOrRegister, Option.some.injEq] at hst
    subst hst
    split
    · rename_i hfree
      exact h.acquireWrite hfree.2.1
    · rename_i hbusy
      exact ⟨h.lively.registerWrite hbusy _, h.reads, h.writes.register _⟩
  | releaseWrite =>
    simp only [Course.step] at hst
    split at hst
    · rename_i hw
      have hlive := h.lively.releaseWrite hw
      have hreads := h.reads
      have hwrites := h.writes
      rcases releaseWrite_cases hpend with ⟨w, ws, hne, e⟩ | ⟨hnil, e⟩ | ⟨hnil, hrn, e⟩
      · simp only [e, hne, reduceCtorEq, if_false, Option.some.injEq] at hst
        subst hst
        rw [e] at hlive
        rw [hne] at hwrites
        exact ⟨hlive, hreads, Ledger.Fair.grant (p := [w]) hwrites⟩
      · simp only [e, hnil, if_true, Option.some.injEq] at hst
        subst hst
        rw [hnil] at hwrites
        rw [e, hnil] at hlive
        exact ⟨hlive, Ledger.Fair.grant (by simpa using hreads), hwrites⟩
      · simp only [e, hnil, if_true, Option.some.injEq] at hst
        subst hst
        rw [hnil] at hwrites
        rw [e, hnil] at hlive
        exact ⟨hlive, Ledger.Fair.grant (p := []) hreads, hwrites⟩
    · cases hst
  | removeWaiter f isWriter =>
    cases isWriter with
    | false =>
      simp only [Course.step, Bool.false_eq_true, if_false, Option.some.injEq] at hst
      subst hst
      refine ⟨h.lively.removeReader f, ?_, h.writes⟩
      show (c.reads.leave _).Fair (retain f c.lock.readWaiters)
      rw [retain_eq]
      exact h.reads.leave _
    | true =>
      simp only [Course.step, if_true, Option.some.injEq] at hst
      subst hst
      have hleft := h.writes.leave fun w => decide (w.2 = f)
      rw [← retain_eq] at hleft
      have hlive := h.lively.removeWriter f
      rcases removeWaiter_cases hpend f with ⟨hnil, -, e⟩ | e
      · rw [e] at hlive
        simp only [e]
        rw [hnil] at hleft
        exact ⟨hlive, Ledger.Fair.grant (by simpa using h.reads), hleft⟩
      · rw [e] at hlive
        simp only [e]
        exact ⟨hlive, Ledger.Fair.grant (p := []) h.reads, hleft⟩

theorem orderly_of_reachable (h : calls.Reachable c) : c.Orderly := by
  apply h.inv
  · intro c hc
    obtain rfl : c = ⟨new, {}, {}⟩ := hc
    exact ⟨lively_new, Ledger.fair_new, Ledger.fair_new⟩
  · intro c op c' hi hst
    exact hi.step hst

/-- A call that grants a read leaves no writer queued; only the removal of a
writer finds one. -/
theorem Orderly.reads_granted (h : c.Orderly) {op : Op Loop Fut} (hst : c.step op = some c')
    (hgrant : c.lock.readers < c'.lock.readers) :
    c'.lock.writeWaiters = [] ∧ (c.lock.writeWaiters = [] ∨ ∃ f, op = .removeWaiter f true) := by
  have hpend := h.lively.pending
  have hnone := h.lively.no_writers
  cases op with
  | tryAcquireRead =>
    simp only [Course.step, tryAcquireRead_eq, Option.some.injEq] at hst
    subst hst
    split at hgrant
    · rename_i hfree
      have hnil := hnone.1 hfree.2
      simp [hfree, hnil]
    · exact absurd hgrant (Nat.lt_irrefl _)
  | acquireReadOrRegister l f =>
    simp only [Course.step, acquireReadOrRegister_eq, Option.some.injEq] at hst
    subst hst
    split at hgrant
    · rename_i hfree
      have hnil := hnone.1 hfree.2
      simp [hfree, hnil]
    · exact absurd hgrant (Nat.lt_irrefl _)
  | releaseRead =>
    simp only [Course.step] at hst
    split at hst
    · cases hst
    · simp only [Option.some.injEq] at hst
      subst hst
      rcases releaseRead_cases hpend with ⟨w, ws, -, -, e⟩ | e <;> simp only [e] at hgrant <;> omega
  | tryAcquireWrite =>
    simp only [Course.step, Option.some.injEq] at hst
    subst hst
    rcases tryAcquireWrite_cases (s := c.lock) with ⟨-, -, e⟩ | e <;> simp [e] at hgrant
  | acquireWriteOrRegister l f =>
    simp only [Course.step, Option.some.injEq] at hst
    subst hst
    rcases acquireWriteOrRegister_cases (s := c.lock) l f with ⟨-, -, e⟩ | e <;> simp [e] at hgrant
  | releaseWrite =>
    simp only [Course.step] at hst
    split at hst
    · rcases releaseWrite_cases hpend with ⟨w, ws, hne, e⟩ | ⟨hnil, e⟩ | ⟨hnil, -, e⟩
      · simp only [e, hne, reduceCtorEq, if_false, Option.some.injEq] at hst
        subst hst
        simp at hgrant
      · simp only [e, hnil, if_true, Option.some.injEq] at hst
        subst hst
        exact ⟨rfl, .inl hnil⟩
      · simp only [e, hnil, if_true, Option.some.injEq] at hst
        subst hst
        exact ⟨rfl, .inl hnil⟩
    · cases hst
  | removeWaiter f isWriter =>
    cases isWriter with
    | false =>
      simp only [Course.step, Bool.false_eq_true, if_false, Option.some.injEq] at hst
      subst hst
      exact absurd hgrant (Nat.lt_irrefl _)
    | true =>
      simp only [Course.step, if_true, Option.some.injEq] at hst
      subst hst
      rcases removeWaiter_cases hpend f with ⟨-, -, e⟩ | e
      · exact ⟨by simp [e], .inr ⟨f, rfl⟩⟩
      · simp [e] at hgrant

/-- In every state of every run: no writer together with readers;
`pending_writers` counts the queued writers; writers wait only while the lock
is held, and readers only behind a writer that holds it or waits. The granted
writers, then the queued ones, came in this order, and the readers as well;
each registration was granted once, was removed once, or is queued. A call
that grants a read leaves no writer queued, and finds none unless it removes
the last one. -/
theorem queues_in_order (h : calls.Reachable c) :
    ¬ (c.lock.writer = true ∧ 0 < c.lock.readers) ∧
    c.lock.pendingWriters = c.lock.writeWaiters.length ∧
    (c.lock.writeWaiters ≠ [] → c.lock.writer = true ∨ 0 < c.lock.readers) ∧
    (c.lock.readWaiters ≠ [] → c.lock.writer = true ∨ 0 < c.lock.pendingWriters) ∧
    c.writes.Fair c.lock.writeWaiters ∧ c.reads.Fair c.lock.readWaiters ∧
    ∀ op c', c.step op = some c' → c.lock.readers < c'.lock.readers →
      c'.lock.writeWaiters = [] ∧ (c.lock.writeWaiters = [] ∨ ∃ f, op = .removeWaiter f true) := by
  have ho := orderly_of_reachable h
  refine ⟨fun ⟨hw, hr⟩ => ?_, ho.lively.pending, ho.lively.writers, ho.lively.readers, ho.writes, ho.reads,
    fun op c' hst hgrant => ho.reads_granted hst hgrant⟩
  have hzero := ho.lively.exclusion hw
  omega

/-- A writer holds the lock, a writer and a reader queue behind it, and the
lock is released. -/
theorem queues_in_order_handed_on : ∃ c : Course Unit Nat, c.lock.readWaiters = [((), 2)] ∧
    (c.lock.readWaiters ≠ [] → c.lock.writer = true ∨ 0 < c.lock.pendingWriters) := by
  have hrun : calls.run ⟨new, {}, {}⟩
      [.tryAcquireWrite, .acquireWriteOrRegister () 1, .acquireReadOrRegister () 2, .releaseWrite] = some _ := rfl
  exact ⟨_, rfl, (queues_in_order (System.reachable_of_run rfl hrun)).2.2.2.1⟩

end Course

end Multiloop.RWLock
