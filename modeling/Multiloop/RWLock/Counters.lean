import Multiloop.Framework.Counting
import Multiloop.RWLock.Monitor

/-!
# The permits of the fallback

The counters of `AsyncRWMutex` without the extension module are those of the
tasks, and no writer has a permit beside another task.
-/

namespace Multiloop.RWLock.Fallback

variable {Loop Task : Type}

/-- The task is among the writers that are counted as waiting. -/
def Pc.pends : Pc → Bool
  | .testing .writer | .releasing .writer | .suspended .writer | .raised .writer | .forwarding .writer
  | .reacquiring .writer _ _ | .passingOn .writer | .granting .writer | .settling => true
  | _ => false

section Books

variable [DecidableEq Task]

/-- The counters and the permits. -/
structure Counts [Fintype Task] (m : Mutex Task) (pc : Task → Pc) : Prop where
  readers : ∑ t, (decide (0 < m.readerDepth t)).toNat = m.readers
  pending : ∑ t, (pc t).pends.toNat = m.pendingWriters
  writer : m.writer = m.writerTask.isSome
  exclusive : m.writer = true → m.readers = 0
  /-- What a task has seen of the mutex is so until it takes its permit. -/
  granting : ∀ t k, pc t = .granting k → m.blocks k = false ∨ k = .reader ∧ 0 < m.readerDepth t
  leaving : ∀ t k, pc t = .exiting k ∨ pc t = .departing k → m.holds t k = true

variable {m m' : Mutex Task} {pc : Task → Pc} {t : Task} {p : Pc} {k : Kind} {isOpen : Task → Bool}

/-- A task goes on, and what is counted stays the same. -/
theorem Counts.turn [Fintype Task] (h : Counts m pc) (hreaders : m'.readers = m.readers)
    (hwriter : m'.writer = m.writer) (hpending : m'.pendingWriters = m.pendingWriters)
    (hdepth : m'.readerDepth = m.readerDepth) (htask : m'.writerTask = m.writerTask) (hpends : p.pends = (pc t).pends)
    (hgranting : ∀ k, p = .granting k → m.blocks k = false ∨ k = .reader ∧ 0 < m.readerDepth t)
    (hleaving : ∀ k, p = .exiting k ∨ p = .departing k → m.holds t k = true) :
    Counts m' (Function.update pc t p) := by
  have hblocks : ∀ k, m'.blocks k = m.blocks k := by
    intro k
    cases k with
    | reader => simp only [Mutex.blocks, hwriter, hpending]
    | writer => simp only [Mutex.blocks, hwriter, hreaders]
  have hholds : ∀ u k, m'.holds u k = m.holds u k := by
    intro u k
    cases k with
    | reader => simp only [Mutex.holds, hdepth]
    | writer => simp only [Mutex.holds, htask]
  refine ⟨?_, ?_, ?_, ?_, fun u k hu => ?_, fun u k hu => ?_⟩
  · rw [hdepth, hreaders]
    exact h.readers
  · have hstep := sum_step (f := fun u => (pc u).pends.toNat) (g := fun u => (Function.update pc t p u).pends.toNat) t
      fun u hu => by rw [Function.update_of_ne hu]
    rw [Function.update_self, hpends, h.pending] at hstep
    omega
  · rw [hwriter, htask]
    exact h.writer
  · rw [hwriter, hreaders]
    exact h.exclusive
  · rw [hblocks, hdepth]
    by_cases hut : u = t
    · subst hut
      rw [Function.update_self] at hu
      exact hgranting k hu
    · rw [Function.update_of_ne hut] at hu
      exact h.granting u k hu
  · rw [hholds]
    by_cases hut : u = t
    · subst hut
      rw [Function.update_self] at hu
      exact hleaving k hu
    · rw [Function.update_of_ne hut] at hu
      exact h.leaving u k hu

/-- A task that holds the lock goes on, to no place where a permit matters. -/
theorem Counts.within [Fintype Task] (h : Counts m pc) (halone : ∀ u, u ≠ t → (pc u).locked = false)
    (hdepth : ∀ u, u ≠ t → m'.readerDepth u = m.readerDepth u)
    (hreaders : m'.readers + (decide (0 < m.readerDepth t)).toNat = m.readers + (decide (0 < m'.readerDepth t)).toNat)
    (hpending : m'.pendingWriters + (pc t).pends.toNat = m.pendingWriters + p.pends.toNat)
    (hwriter : m'.writer = m'.writerTask.isSome) (hexclusive : m'.writer = true → m'.readers = 0)
    (hp : ∀ k, p ≠ .granting k ∧ p ≠ .exiting k ∧ p ≠ .departing k)
    (hleaving : ∀ u, u ≠ t → m.writerTask = some u → m'.writerTask = some u) : Counts m' (Function.update pc t p) := by
  refine ⟨?_, ?_, hwriter, hexclusive, fun u k hu => ?_, fun u k hu => ?_⟩
  · have hstep := sum_step (f := fun u => (decide (0 < m.readerDepth u)).toNat)
      (g := fun u => (decide (0 < m'.readerDepth u)).toNat) t fun u hu => by rw [hdepth u hu]
    rw [h.readers] at hstep
    omega
  · have hstep := sum_step (f := fun u => (pc u).pends.toNat) (g := fun u => (Function.update pc t p u).pends.toNat) t
      fun u hu => by rw [Function.update_of_ne hu]
    rw [Function.update_self, h.pending] at hstep
    omega
  · by_cases hut : u = t
    · subst hut
      rw [Function.update_self] at hu
      exact absurd hu (hp k).1
    · rw [Function.update_of_ne hut] at hu
      have hunlocked := halone u hut
      rw [hu] at hunlocked
      cases hunlocked
  · by_cases hut : u = t
    · subst hut
      rw [Function.update_self] at hu
      exact (hu.elim (hp k).2.1 (hp k).2.2).elim
    · rw [Function.update_of_ne hut] at hu
      have hholds := h.leaving u k hu
      cases k with
      | reader =>
        simp only [Mutex.holds, hdepth u hut]
        exact hholds
      | writer =>
        simp only [Mutex.holds, decide_eq_true_eq] at hholds ⊢
        exact hleaving u hut hholds

theorem Counts.readers_pos [Fintype Task] (h : Counts m pc) (ht : 0 < m.readerDepth t) : 0 < m.readers := by
  rw [← h.readers]
  have hle := Finset.single_le_sum (f := fun u => (decide (0 < m.readerDepth u)).toNat) (fun _ _ => Nat.zero_le _)
    (Finset.mem_univ t)
  rw [decide_eq_true ht] at hle
  exact hle

theorem Counts.pending_pos [Fintype Task] (h : Counts m pc) (ht : (pc t).pends = true) : 0 < m.pendingWriters := by
  rw [← h.pending]
  have hle := Finset.single_le_sum (f := fun u => (pc u).pends.toNat) (fun _ _ => Nat.zero_le _) (Finset.mem_univ t)
  rw [ht] at hle
  exact hle

theorem Counts.pending_of_pos [Fintype Task] (h : Counts m pc) (hpending : 0 < m.pendingWriters) :
    ∃ u, (pc u).pends = true := by
  rw [← h.pending] at hpending
  obtain ⟨u, -, hu⟩ := Finset.exists_ne_zero_of_sum_ne_zero hpending.ne'
  refine ⟨u, ?_⟩
  by_contra hnot
  rw [Bool.eq_false_iff.2 hnot] at hu
  exact hu rfl

theorem Counts.not_writer [Fintype Task] (h : Counts m pc) (ht : 0 < m.readerDepth t) : m.writer = false := by
  refine Bool.eq_false_iff.2 fun hwriter => ?_
  have hpos := h.readers_pos ht
  rw [h.exclusive hwriter] at hpos
  cases hpos

theorem Counts.grantReader [Fintype Task] (h : Counts m pc) (halone : ∀ u, u ≠ t → (pc u).locked = false)
    (hpc : pc t = .granting .reader) : Counts (m.grant t .reader) (Function.update pc t .unlocking) := by
  have hwriter : m.writer = false := by
    rcases h.granting t .reader hpc with hblocks | ⟨-, hdepth⟩
    · exact (Bool.or_eq_false_iff.1 hblocks).1
    · exact h.not_writer hdepth
  refine h.within halone (fun u hu => Function.update_of_ne hu ..) ?_ (by rw [hpc]; rfl) h.writer (fun hw => ?_)
    (fun k => ⟨nofun, nofun, nofun⟩) fun u _ hu => hu
  · show (if m.readerDepth t = 0 then m.readers + 1 else m.readers) + _ =
      m.readers + (decide (0 < Function.update m.readerDepth t (m.readerDepth t + 1) t)).toNat
    rw [Function.update_self]
    by_cases hdepth : m.readerDepth t = 0
    · rw [if_pos hdepth, hdepth]
      rfl
    · rw [if_neg hdepth, decide_eq_true (Nat.pos_of_ne_zero hdepth), decide_eq_true (Nat.succ_pos _)]
  · cases hw.symm.trans hwriter

theorem Counts.grantWriter [Fintype Task] (h : Counts m pc) (halone : ∀ u, u ≠ t → (pc u).locked = false)
    (hpc : pc t = .granting .writer) : Counts (m.grant t .writer) (Function.update pc t .settling) := by
  have hblocks : m.blocks .writer = false := by
    rcases h.granting t .writer hpc with hblocks | ⟨hk, -⟩
    · exact hblocks
    · cases hk
  obtain ⟨hwriter, hreaders⟩ := Bool.or_eq_false_iff.1 hblocks
  have hnone : m.writerTask = none := by
    have hsome := h.writer
    rw [hwriter] at hsome
    exact Option.isNone_iff_eq_none.1 (Option.isSome_eq_false_iff.1 hsome.symm)
  refine h.within halone (fun u _ => rfl) rfl (by rw [hpc]; rfl) rfl (fun _ => ?_) (fun k => ⟨nofun, nofun, nofun⟩)
    fun u _ hu => ?_
  · exact Nat.eq_zero_of_not_pos (of_decide_eq_false hreaders)
  · rw [hnone] at hu
    cases hu

theorem Counts.settle [Fintype Task] (h : Counts m pc) (halone : ∀ u, u ≠ t → (pc u).locked = false)
    (hpc : pc t = .settling) : Counts m.settle (Function.update pc t .unlocking) := by
  have hpos : 0 < m.pendingWriters := h.pending_pos (by rw [hpc]; rfl)
  have hcount : ∀ m' : Mutex Task, m'.readers = m.readers → m'.writer = m.writer → m'.writerTask = m.writerTask →
      m'.readerDepth = m.readerDepth → m'.pendingWriters = m.pendingWriters - 1 →
      Counts m' (Function.update pc t .unlocking) := by
    intro m' hreaders hwriter htask hdepth hpending
    refine h.within halone (fun u _ => by rw [hdepth]) (by rw [hreaders, hdepth]) ?_ ?_ ?_
      (fun k => ⟨nofun, nofun, nofun⟩) fun u _ hu => ?_
    · rw [hpending, hpc]
      show m.pendingWriters - 1 + 1 = m.pendingWriters + 0
      omega
    · rw [hwriter, htask]
      exact h.writer
    · rw [hwriter, hreaders]
      exact h.exclusive
    · rw [htask]
      exact hu
  unfold Mutex.settle
  dsimp only
  split
  · exact hcount _ rfl rfl rfl rfl rfl
  · exact hcount _ rfl rfl rfl rfl rfl

theorem Counts.departReader [Fintype Task] (h : Counts m pc) (halone : ∀ u, u ≠ t → (pc u).locked = false)
    (hpc : pc t = .departing .reader) : Counts (m.depart t .reader) (Function.update pc t .unlocking) := by
  have hdepth : 0 < m.readerDepth t := of_decide_eq_true (h.leaving t .reader (.inr hpc))
  have hpos := h.readers_pos hdepth
  have hwriter := h.not_writer hdepth
  have hcount : ∀ (m' : Mutex Task) (n : Nat), m'.readerDepth = Function.update m.readerDepth t n →
      m'.readers + 1 = m.readers + (decide (0 < n)).toNat → m'.writer = m.writer → m'.writerTask = m.writerTask →
      m'.pendingWriters = m.pendingWriters → Counts m' (Function.update pc t .unlocking) := by
    intro m' n hdepth' hreaders hwriter' htask hpending
    refine h.within halone (fun u hu => by rw [hdepth', Function.update_of_ne hu]) ?_ ?_ ?_ (fun hw => ?_)
      (fun k => ⟨nofun, nofun, nofun⟩) fun u _ hu => ?_
    · rw [hdepth', Function.update_self, decide_eq_true hdepth]
      exact hreaders
    · rw [hpending, hpc]
      rfl
    · rw [hwriter', htask]
      exact h.writer
    · rw [hwriter', hwriter] at hw
      cases hw
    · rw [htask]
      exact hu
  unfold Mutex.depart
  dsimp only
  have hlast : m.readers - 1 + 1 = m.readers + (decide (0 < 0)).toNat := by
    show m.readers - 1 + 1 = m.readers + 0
    omega
  split
  · split
    · exact hcount _ 0 rfl hlast rfl rfl rfl
    · exact hcount _ 0 rfl hlast rfl rfl rfl
  · rename_i hmore
    refine hcount _ (m.readerDepth t - 1) rfl ?_ rfl rfl rfl
    rw [decide_eq_true (by omega : 0 < m.readerDepth t - 1)]
    rfl

theorem Counts.departWriter [Fintype Task] (h : Counts m pc) (halone : ∀ u, u ≠ t → (pc u).locked = false)
    (hpc : pc t = .departing .writer) : Counts (m.depart t .writer) (Function.update pc t .unlocking) := by
  have htask : m.writerTask = some t := of_decide_eq_true (h.leaving t .writer (.inr hpc))
  have hcount : ∀ m' : Mutex Task, m'.readers = m.readers → m'.writer = false → m'.writerTask = none →
      m'.readerDepth = m.readerDepth → m'.pendingWriters = m.pendingWriters →
      Counts m' (Function.update pc t .unlocking) := by
    intro m' hreaders hwriter hnone hdepth hpending
    refine h.within halone (fun u _ => by rw [hdepth]) (by rw [hreaders, hdepth]) ?_ ?_ (fun hw => ?_)
      (fun k => ⟨nofun, nofun, nofun⟩) fun u hut hu => ?_
    · rw [hpending, hpc]
      rfl
    · rw [hwriter, hnone]
      rfl
    · cases hwriter.symm.trans hw
    · exact absurd (Option.some.inj (hu.symm.trans htask)) hut
  unfold Mutex.depart
  dsimp only
  split
  · exact hcount _ rfl rfl rfl rfl rfl
  · exact hcount _ rfl rfl rfl rfl rfl

/-- Every move keeps the counters. -/
theorem Counts.moved [Fintype Task] (h : Counts m pc) {q : Pc} (hpc : pc t = q)
    (halone : q.locked = true → ∀ u, u ≠ t → (pc u).locked = false) (hm : Moved isOpen t m q m' p) :
    Counts m' (Function.update pc t p) := by
  have hsame : q.pends = p.pends → (∀ k, p ≠ .granting k ∧ p ≠ .exiting k ∧ p ≠ .departing k) →
      m'.readers = m.readers → m'.writer = m.writer → m'.pendingWriters = m.pendingWriters →
      m'.readerDepth = m.readerDepth → m'.writerTask = m.writerTask → Counts m' (Function.update pc t p) :=
    fun hpends hp hreaders hwriter hpending hdepth htask =>
      h.turn hreaders hwriter hpending hdepth htask (by rw [hpc, hpends]) (fun k hk => absurd hk (hp k).1)
        fun k hk => (hk.elim (hp k).2.1 (hp k).2.2).elim
  cases hm with
  | refused => exact hsame rfl (fun _ => ⟨nofun, nofun, nofun⟩) rfl rfl rfl rfl rfl
  | enters k => exact hsame rfl (fun _ => ⟨nofun, nofun, nofun⟩) rfl rfl rfl rfl rfl
  | nested k => exact hsame rfl (fun _ => ⟨nofun, nofun, nofun⟩) rfl rfl rfl rfl rfl
  | tests => exact hsame rfl (fun _ => ⟨nofun, nofun, nofun⟩) rfl rfl rfl rfl rfl
  | reenters hdepth =>
    refine h.turn rfl rfl rfl rfl rfl (by rw [hpc]; rfl) (fun k hk => .inr ⟨?_, hdepth⟩) fun k hk => hk.elim nofun nofun
    cases hk
    rfl
  | pends =>
    exact h.within (halone rfl) (fun u _ => rfl) rfl (by rw [hpc]; rfl) h.writer h.exclusive
      (fun _ => ⟨nofun, nofun, nofun⟩) fun u _ hu => hu
  | waits k _ =>
    refine hsame ?_ (fun _ => ⟨nofun, nofun, nofun⟩) rfl rfl rfl rfl rfl
    cases k <;> rfl
  | passes k hblocks =>
    refine h.turn rfl rfl rfl rfl rfl ?_ (fun k' hk => .inl ?_) fun k hk => hk.elim nofun nofun
    · rw [hpc]
      cases k <;> rfl
    · cases hk
      exact hblocks
  | reads => exact h.grantReader (halone rfl) hpc
  | writes => exact h.grantWriter (halone rfl) hpc
  | settles => exact h.settle (halone rfl) hpc
  | hands k =>
    cases k with
    | reader => exact hsame rfl (fun _ => ⟨nofun, nofun, nofun⟩) rfl rfl rfl rfl rfl
    | writer => exact hsame rfl (fun _ => ⟨nofun, nofun, nofun⟩) rfl rfl rfl rfl rfl
  | departs k =>
    cases k with
    | reader => exact h.departReader (halone rfl) hpc
    | writer => exact h.departWriter (halone rfl) hpc
  | resumes k _ | raises k | discards k | misses k _ | forwards k =>
    refine hsame ?_ (fun _ => ⟨nofun, nofun, nofun⟩) rfl rfl rfl rfl rfl
    cases k <;> rfl
  | leaves k hholds =>
    refine h.turn rfl rfl rfl rfl rfl (by rw [hpc]; rfl) (fun k' hk => ?_) fun k' hk => ?_
    · cases hk
    · rcases hk with hk | hk
      · cases hk
        exact hholds
      · cases hk

/-- A call of the lock keeps them. -/
theorem Counts.turned [Fintype Task] (h : Counts m pc) {q : Pc} (hpc : pc t = q) (hp : Sys.Turned q p) :
    Counts m (Function.update pc t p) := by
  have hsame : q.pends = p.pends → (∀ k, p ≠ .granting k ∧ p ≠ .exiting k ∧ p ≠ .departing k) →
      Counts m (Function.update pc t p) := fun hpends hp =>
    h.turn rfl rfl rfl rfl rfl (by rw [hpc, hpends]) (fun k hk => absurd hk (hp k).1)
      fun k hk => (hk.elim (hp k).2.1 (hp k).2.2).elim
  have hholds : ∀ k, q = .exiting k → p = .exiting k ∨ p = .departing k → Counts m (Function.update pc t p) := by
    rintro k rfl hp
    have hk := h.leaving t k (.inl hpc)
    rcases hp with rfl | rfl
    · refine h.turn rfl rfl rfl rfl rfl (by rw [hpc]) (fun _ => nofun) fun k' hk' => ?_
      rcases hk' with heq | heq
      · cases heq
        exact hk
      · cases heq
    · refine h.turn rfl rfl rfl rfl rfl (by rw [hpc]; rfl) (fun _ => nofun) fun k' hk' => ?_
      rcases hk' with heq | heq
      · cases heq
      · cases heq
        exact hk
  cases hp with
  | acquired hacq =>
    cases q with
    | entering k => exact hsame (by cases k <;> rfl) fun _ => ⟨nofun, nofun, nofun⟩
    | reacquiring k branch cancelled =>
      cases branch with
      | handler =>
        cases k with
        | reader => exact hsame rfl fun _ => ⟨nofun, nofun, nofun⟩
        | writer => exact hsame rfl fun _ => ⟨nofun, nofun, nofun⟩
      | notified =>
        cases cancelled with
        | true => exact hsame (by cases k <;> rfl) fun _ => ⟨nofun, nofun, nofun⟩
        | false => exact hsame (by cases k <;> rfl) fun _ => ⟨nofun, nofun, nofun⟩
    | exiting k => exact hholds k rfl (.inr rfl)
    | _ => cases hacq
  | interrupted hacq =>
    cases q with
    | entering k => exact hsame (by cases k <;> rfl) fun _ => ⟨nofun, nofun, nofun⟩
    | reacquiring k branch cancelled => exact hsame (by cases k <;> rfl) fun _ => ⟨nofun, nofun, nofun⟩
    | exiting k => exact hholds k rfl (.inl rfl)
    | _ => cases hacq
  | suspends k => exact hsame (by cases k <;> rfl) fun _ => ⟨nofun, nofun, nofun⟩
  | leaves => exact hsame rfl fun _ => ⟨nofun, nofun, nofun⟩

end Books

end Multiloop.RWLock.Fallback
