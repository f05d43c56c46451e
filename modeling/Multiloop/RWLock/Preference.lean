import Multiloop.RWLock.Waiters

/-!
# The runs of the fallback

What holds of a mutex that any number of tasks use, in every state of a run: the
counters are those of the tasks (`permits_of_reachable`), writers go first
(`writers_first`), and no task sleeps on without a reason (`waits_for_another`).
-/

namespace Multiloop.RWLock.Fallback

variable {Loop Task : Type}

/-! ## Who gets a permit -/

section Grants

variable [DecidableEq Task] {m m' : Mutex Task} {t u : Task} {p q : Pc} {isOpen : Task → Bool}

theorem Mutex.settle_permits (m : Mutex Task) :
    m.settle.readerDepth = m.readerDepth ∧ m.settle.writerTask = m.writerTask := by
  unfold settle
  dsimp only
  split <;> exact ⟨rfl, rfl⟩

theorem Mutex.depart_permits (m : Mutex Task) (t : Task) (k : Kind) :
    (∀ u, (m.depart t k).readerDepth u ≤ m.readerDepth u) ∧
      ∀ u, (m.depart t k).writerTask = some u → m.writerTask = some u := by
  have hless : ∀ n u, n ≤ m.readerDepth t → Function.update m.readerDepth t n u ≤ m.readerDepth u := by
    intro n u hn
    by_cases hut : u = t
    · subst hut
      rw [Function.update_self]
      exact hn
    · rw [Function.update_of_ne hut]
  cases k with
  | reader =>
    unfold depart
    dsimp only
    split
    · split <;> exact ⟨fun u => hless 0 u (Nat.zero_le _), fun _ hu => hu⟩
    · exact ⟨fun u => hless _ u (Nat.sub_le ..), fun _ hu => hu⟩
  | writer =>
    unfold depart
    dsimp only
    split <;> exact ⟨fun u => le_rfl, fun _ => nofun⟩

/-- A permit is taken behind the loop, and nowhere else. -/
theorem Moved.grants (h : Moved isOpen t m q m' p) :
    (∀ u, m.readerDepth u < m'.readerDepth u → u = t ∧ q = .granting .reader) ∧
      ∀ u, m'.writerTask = some u → m.writerTask ≠ some u → u = t ∧ q = .granting .writer := by
  have hsame : ∀ m' : Mutex Task, m'.readerDepth = m.readerDepth → m'.writerTask = m.writerTask →
      (∀ u, m.readerDepth u < m'.readerDepth u → u = t ∧ q = .granting .reader) ∧
        ∀ u, m'.writerTask = some u → m.writerTask ≠ some u → u = t ∧ q = .granting .writer := by
    intro m' hdepth htask
    rw [hdepth, htask]
    exact ⟨fun u hu => absurd hu (lt_irrefl _), fun u hu hne => absurd hu hne⟩
  cases h with
  | reads =>
    refine ⟨fun u hu => ⟨?_, rfl⟩, fun u hu hne => absurd hu hne⟩
    by_contra hut
    change m.readerDepth u < Function.update m.readerDepth t (m.readerDepth t + 1) u at hu
    rw [Function.update_of_ne hut] at hu
    exact lt_irrefl _ hu
  | writes => exact ⟨fun u hu => absurd hu (lt_irrefl _), fun u hu _ => ⟨(Option.some.inj hu).symm, rfl⟩⟩
  | settles =>
    obtain ⟨hdepth, htask⟩ := m.settle_permits
    exact hsame _ hdepth htask
  | departs k =>
    obtain ⟨hdepth, htask⟩ := m.depart_permits t k
    exact ⟨fun u hu => absurd hu (hdepth u).not_gt, fun u hu hne => absurd (htask u hu) hne⟩
  | _ => exact hsame _ rfl rfl

end Grants

/-! ## The runs -/

namespace Sys

variable [DecidableEq Task] [Fintype Task] {home : Task → Loop} {s s' : Sys Loop Task} {t : Task} {k : Kind}

/-- All that holds of the mutex in every state. -/
structure Books (home : Task → Loop) (s : Sys Loop Task) : Prop where
  sections : s.Sections home
  counts : Counts s.mutex s.pc
  queues : Queues s.mutex s.pc
  reasons : Reasons s.mutex
  patient : Patient s.mutex s.pc

variable [DecidableEq Loop]

omit [DecidableEq Loop] in
theorem books_new : (new : Sys Loop Task).Books home where
  sections := sections_new
  counts := by
    refine ⟨Finset.sum_eq_zero fun _ _ => rfl, Finset.sum_eq_zero fun _ _ => rfl, rfl, nofun, nofun, fun t k hk => ?_⟩
    exact hk.elim nofun nofun
  queues := ⟨fun _ => List.nodup_nil, nofun, nofun⟩
  reasons := fun _ hne => absurd rfl hne
  patient := nofun

theorem Books.step (h : s.Books home) {a : Action Loop Task} (hst : s.step home a = some s') : s'.Books home := by
  obtain ⟨hsections, hsteps⟩ := h.sections.step hst
  cases hsteps with
  | stays hm hpc =>
    refine ⟨hsections, ?_, ?_, ?_, ?_⟩
    · rw [hm, hpc]
      exact h.counts
    · rw [hm, hpc]
      exact h.queues
    · rw [hm]
      exact h.reasons
    · rw [hm, hpc]
      exact h.patient
  | moves t p hm hpc =>
    have halone : (s.pc t).locked = true → ∀ u, u ≠ t → (s.pc u).locked = false := fun ht u hut =>
      Bool.eq_false_iff.2 fun hu => hut (h.sections.exclusive hu ht)
    refine ⟨hsections, ?_, ?_, h.reasons.moved h.counts h.queues hm, ?_⟩
    · rw [hpc]
      exact h.counts.moved rfl halone hm
    · rw [hpc]
      exact h.queues.moved rfl hm
    · rw [hpc]
      exact h.patient.moved rfl hm
  | turns t p hm hp hpc =>
    refine ⟨hsections, ?_, ?_, ?_, ?_⟩
    · rw [hm, hpc]
      exact h.counts.turned rfl hp
    · rw [hm, hpc]
      exact h.queues.turned rfl hp
    · rw [hm]
      exact h.reasons
    · rw [hm, hpc]
      exact h.patient.turned rfl hp

theorem books_of_reachable (h : (tasks home).Reachable s) : s.Books home := by
  refine System.Reachable.inv ?_ ?_ h
  · rintro s rfl
    exact books_new
  · exact fun s a s' hs hst => hs.step hst

omit [DecidableEq Loop] in
theorem Books.readers_card (h : s.Books home) :
    s.mutex.readers = (Finset.univ.filter fun t => 0 < s.mutex.readerDepth t).card := by
  rw [← h.counts.readers, Finset.card_filter]
  exact Finset.sum_congr rfl fun t _ => Bool.cond_decide ..

omit [DecidableEq Loop] in
theorem Books.pending_card (h : s.Books home) :
    s.mutex.pendingWriters = (Finset.univ.filter fun t => (s.pc t).pends = true).card := by
  rw [← h.counts.pending, Finset.card_filter]
  exact Finset.sum_congr rfl fun t _ => by cases (s.pc t).pends <;> rfl

omit [DecidableEq Loop] in
theorem Books.no_reader (h : s.Books home) (ht : s.mutex.writerTask = some t) (u : Task) :
    s.mutex.readerDepth u = 0 := by
  refine Nat.eq_zero_of_not_pos fun hdepth => ?_
  have hfree := h.counts.not_writer hdepth
  rw [h.counts.writer, ht] at hfree
  cases hfree

/-- The counters of the mutex are those of the tasks, and a writer has its permit
alone. -/
theorem permits_of_reachable (h : (tasks home).Reachable s) :
    s.mutex.readers = (Finset.univ.filter fun t => 0 < s.mutex.readerDepth t).card ∧
      s.mutex.pendingWriters = (Finset.univ.filter fun t => (s.pc t).pends = true).card ∧
      (s.mutex.writer = true ↔ ∃ t, s.mutex.writerTask = some t) ∧
      ∀ t u, s.mutex.writerTask = some t → s.mutex.readerDepth u = 0 := by
  have hbooks := books_of_reachable h
  refine ⟨hbooks.readers_card, hbooks.pending_card, ?_, fun t u ht => hbooks.no_reader ht u⟩
  rw [hbooks.counts.writer, Option.isSome_iff_exists]

theorem permits_of_reachable_nested : ∃ s : Sys Unit Bool, (tasks fun _ => ()).Reachable s ∧
    (s.mutex.readerDepth false = 2 ∧ s.pc true = .suspended .writer) ∧
      s.mutex.readers = (Finset.univ.filter fun t => 0 < s.mutex.readerDepth t).card ∧
      s.mutex.pendingWriters = (Finset.univ.filter fun t => (s.pc t).pends = true).card ∧
      (s.mutex.writer = true ↔ ∃ t, s.mutex.writerTask = some t) ∧
      ∀ t u, s.mutex.writerTask = some t → s.mutex.readerDepth u = 0 := by
  obtain ⟨s, hs, hp⟩ := System.exists_reachable_of_run (M := tasks fun _ => ()) (s := (.new : Sys Unit Bool))
    [.move false (.start .reader), .acquire false, .move false .body, .move false .body, .move false .body,
      .release false, .move true (.start .writer), .acquire true, .move true .body, .move true .body, .release true,
      .move false (.start .reader), .acquire false, .move false .body, .move false .body, .release false]
    (p := fun s => s.mutex.readerDepth false = 2 ∧ s.pc true = .suspended .writer) rfl (by decide +kernel)
  exact ⟨s, hs, hp, permits_of_reachable hs⟩

/-- The task sleeps in `wait`, and nobody has woken it. -/
def asleep (s : Sys Loop Task) (t : Task) : Prop := (∃ k, s.pc t = .suspended k) ∧ s.mutex.popped t = false

omit [DecidableEq Loop] in
/-- What keeps a waiter out. -/
theorem Books.blocked (h : s.Books home) (ht : s.pc t = .suspended k) (hpopped : s.mutex.popped t = false) :
    s.mutex.blocks k = true := by
  have hmem : t ∈ s.mutex.waiters k := by
    by_contra hnot
    have hregisters : (s.pc t).registers k = true := by
      rw [ht]
      exact decide_eq_true rfl
    rw [(h.queues.popped t k hregisters).2 hnot] at hpopped
    cases hpopped
  exact h.reasons k (List.ne_nil_of_mem hmem)

omit [DecidableEq Loop] in
theorem Books.holder (h : s.Books home) (hblocks : s.mutex.writer = true ∨ 0 < s.mutex.readers) :
    ∃ u, s.mutex.writerTask = some u ∨ 0 < s.mutex.readerDepth u := by
  rcases hblocks with hwriter | hreaders
  · rw [h.counts.writer] at hwriter
    obtain ⟨u, hu⟩ := Option.isSome_iff_exists.1 hwriter
    exact ⟨u, .inl hu⟩
  · rw [← h.counts.readers] at hreaders
    obtain ⟨u, -, hu⟩ := Finset.exists_ne_zero_of_sum_ne_zero hreaders.ne'
    refine ⟨u, .inr (Nat.pos_of_ne_zero fun hzero => hu ?_)⟩
    rw [hzero]
    rfl

/-- A task that sleeps in `wait` waits for another one, which has a permit or is a
writer that is counted and does not sleep. -/
theorem waits_for_another (h : (tasks home).Reachable s) (ht : s.asleep t) :
    ∃ u, u ≠ t ∧ (s.mutex.writerTask = some u ∨ 0 < s.mutex.readerDepth u ∨ (s.pc u).pends = true ∧ ¬ s.asleep u) := by
  have hbooks := books_of_reachable h
  obtain ⟨⟨k, hk⟩, hpopped⟩ := ht
  have hnone : s.mutex.writerTask ≠ some t ∧ s.mutex.readerDepth t = 0 := hbooks.patient t (by rw [hk]; rfl)
  have hholder : s.mutex.writer = true ∨ 0 < s.mutex.readers →
      ∃ u, u ≠ t ∧ (s.mutex.writerTask = some u ∨ 0 < s.mutex.readerDepth u ∨
        (s.pc u).pends = true ∧ ¬ s.asleep u) := by
    intro hblocks
    obtain ⟨u, hu⟩ := hbooks.holder hblocks
    refine ⟨u, ?_, hu.imp_right .inl⟩
    rintro rfl
    rcases hu with hwriter | hdepth
    · exact hnone.1 hwriter
    · rw [hnone.2] at hdepth
      cases hdepth
  have hblocks := hbooks.blocked hk hpopped
  cases k with
  | writer => exact hholder (Mutex.blocks_writer.1 hblocks)
  | reader =>
    rcases Mutex.blocks_reader.1 hblocks with hwriter | hpending
    · exact hholder (.inl hwriter)
    · obtain ⟨u, hpends⟩ := hbooks.counts.pending_of_pos hpending
      -- a writer that sleeps is kept out by a permit
      by_cases hasleep : s.asleep u
      · obtain ⟨⟨k, hk'⟩, hpopped'⟩ := hasleep
        have hblocks' := hbooks.blocked hk' hpopped'
        rw [hk'] at hpends
        cases k with
        | reader => cases hpends
        | writer => exact hholder (Mutex.blocks_writer.1 hblocks')
      · refine ⟨u, ?_, .inr (.inr ⟨hpends, hasleep⟩)⟩
        rintro rfl
        rw [hk] at hpends
        cases hpends

theorem waits_for_another_writer : ∃ s : Sys Unit Bool, s.asleep true ∧
    ∃ u, u ≠ true ∧
      (s.mutex.writerTask = some u ∨ 0 < s.mutex.readerDepth u ∨ (s.pc u).pends = true ∧ ¬ s.asleep u) := by
  obtain ⟨s, hs, ht⟩ := System.exists_reachable_of_run (M := tasks fun _ => ()) (s := (.new : Sys Unit Bool))
    [.move false (.start .writer), .acquire false, .move false .body, .move true (.start .reader), .acquire true,
      .move false .body, .move false .body, .move false .body, .release false, .lock (.runCallback 0),
      .resumeAcquire true, .move true .body, .move true .body, .release true]
    (p := fun s => s.pc true = .suspended .reader ∧ s.mutex.popped true = false) rfl (by decide +kernel)
  have hasleep : s.asleep true := ⟨⟨.reader, ht.1⟩, ht.2⟩
  exact ⟨s, hasleep, waits_for_another hs hasleep⟩

theorem Books.grants (h : s.Books home) {a : Action Loop Task} (hst : s.step home a = some s') :
    (∀ t, s.mutex.readerDepth t < s'.mutex.readerDepth t → s.pc t = .granting .reader) ∧
      ∀ t, s'.mutex.writerTask = some t → s.mutex.writerTask ≠ some t → s.pc t = .granting .writer := by
  have hstill : s'.mutex = s.mutex →
      (∀ t, s.mutex.readerDepth t < s'.mutex.readerDepth t → s.pc t = .granting .reader) ∧
        ∀ t, s'.mutex.writerTask = some t → s.mutex.writerTask ≠ some t → s.pc t = .granting .writer := by
    intro hm
    rw [hm]
    exact ⟨fun t ht => absurd ht (lt_irrefl _), fun t ht hne => absurd ht hne⟩
  cases (h.sections.step hst).2 with
  | stays hm _ => exact hstill hm
  | turns t p hm _ _ => exact hstill hm
  | moves t p hm _ =>
    obtain ⟨hdepth, htask⟩ := hm.grants
    refine ⟨fun u hu => ?_, fun u hu hne => ?_⟩
    · obtain ⟨rfl, hpc⟩ := hdepth u hu
      exact hpc
    · obtain ⟨rfl, hpc⟩ := htask u hu hne
      exact hpc

/-- Writers go first: a task gets a permit to read, other than one it has, if no
task has the one to write and no writer is counted as waiting, and a writer gets
its permit if no task has any. -/
theorem writers_first (h : (tasks home).Reachable s) {a : Action Loop Task} (hst : s.step home a = some s') :
    (s.mutex.readerDepth t = 0 → 0 < s'.mutex.readerDepth t →
        ∀ u, s.mutex.writerTask ≠ some u ∧ (s.pc u).pends = false) ∧
      (s.mutex.writerTask ≠ some t → s'.mutex.writerTask = some t →
        ∀ u, s.mutex.writerTask ≠ some u ∧ s.mutex.readerDepth u = 0) := by
  have hbooks := books_of_reachable h
  obtain ⟨hreads, hwrites⟩ := hbooks.grants hst
  have hnone : s.mutex.writer = false → ∀ u, s.mutex.writerTask ≠ some u := by
    intro hwriter u hu
    rw [hbooks.counts.writer, hu] at hwriter
    cases hwriter
  refine ⟨fun hzero hdepth u => ?_, fun hne ht u => ?_⟩
  · have hpc := hreads t (by rw [hzero]; exact hdepth)
    rcases hbooks.counts.granting t .reader hpc with hfree | ⟨-, hpos⟩
    · obtain ⟨hwriter, hpending⟩ := Bool.or_eq_false_iff.1 hfree
      refine ⟨hnone hwriter u, Bool.eq_false_iff.2 fun hpends => ?_⟩
      exact of_decide_eq_false hpending (hbooks.counts.pending_pos hpends)
    · rw [hzero] at hpos
      cases hpos
  · have hpc := hwrites t ht hne
    rcases hbooks.counts.granting t .writer hpc with hfree | ⟨hk, -⟩
    · obtain ⟨hwriter, hreaders⟩ := Bool.or_eq_false_iff.1 hfree
      refine ⟨hnone hwriter u, Nat.eq_zero_of_not_pos fun hpos => ?_⟩
      exact of_decide_eq_false hreaders (hbooks.counts.readers_pos hpos)
    · cases hk

theorem writers_first_reader : ∃ s s' : Sys Unit Bool,
    (s.mutex.readerDepth false = 0 ∧ 0 < s'.mutex.readerDepth false) ∧
      ∀ u, s.mutex.writerTask ≠ some u ∧ (s.pc u).pends = false := by
  obtain ⟨s, hs, hzero, hstep⟩ := System.exists_reachable_of_run (M := tasks fun _ => ()) (s := (.new : Sys Unit Bool))
    [.move false (.start .reader), .move true (.start .writer), .acquire false, .acquire true, .move false .body,
      .move false .body]
    (p := fun s => s.mutex.readerDepth false = 0 ∧
      ∃ s' ∈ s.step (fun _ => ()) (.move false .body), 0 < s'.mutex.readerDepth false) rfl (by decide +kernel)
  obtain ⟨s', hst, hdepth⟩ := hstep
  exact ⟨s, s', ⟨hzero, hdepth⟩, (writers_first (t := false) hs hst).1 hzero hdepth⟩

end Sys

end Multiloop.RWLock.Fallback
