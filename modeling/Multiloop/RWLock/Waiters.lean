import Multiloop.RWLock.Counters

/-!
# The waiters of the fallback

No waiter is left behind. A condition of the mutex has waiters only as long as
the mutex keeps them out (`Reasons`), so that a task that sleeps in `wait` waits
for another one, which has a permit or is on its way to take one.
-/

namespace Multiloop.RWLock.Fallback

variable {Loop Task : Type}

/-- The waiter of the task may be registered. -/
def Pc.registers (k : Kind) : Pc → Bool
  | .releasing k' | .suspended k' | .raised k' => k' = k
  | _ => false

theorem Pc.registers_inj {p : Pc} {k k' : Kind} (h : p.registers k = true) (h' : p.registers k' = true) : k = k' := by
  cases p with
  | releasing | suspended | raised => exact (of_decide_eq_true h).symm.trans (of_decide_eq_true h')
  | _ => cases h

theorem Pc.pends_of_registers {p : Pc} (h : p.registers .writer = true) : p.pends = true := by
  cases p with
  | releasing | suspended | raised =>
    obtain rfl := of_decide_eq_true h
    rfl
  | _ => cases h

/-- The task is in the loop of `reader` or `writer`. -/
def Pc.waits : Pc → Bool
  | .testing _ | .releasing _ | .suspended _ | .raised _ | .forwarding _ | .reacquiring _ _ _ | .passingOn _ => true
  | _ => false

section Books

variable [DecidableEq Task]

/-- The waiters of the two conditions. -/
structure Queues (m : Mutex Task) (pc : Task → Pc) : Prop where
  nodup : ∀ k, (m.waiters k).Nodup
  registers : ∀ t k, t ∈ m.waiters k → (pc t).registers k = true
  /-- A waiter is registered until it is popped. -/
  popped : ∀ t k, (pc t).registers k = true → (m.popped t = true ↔ t ∉ m.waiters k)

/-- A task that waits has no permit. -/
def Patient (m : Mutex Task) (pc : Task → Pc) : Prop :=
  ∀ t, (pc t).waits = true → m.writerTask ≠ some t ∧ m.readerDepth t = 0

/-- A condition has waiters only as long as there is a reason to wait. -/
def Reasons (m : Mutex Task) : Prop := ∀ k, m.waiters k ≠ [] → m.blocks k = true

variable {m m' : Mutex Task} {pc : Task → Pc} {t : Task} {p : Pc} {k : Kind} {isOpen : Task → Bool}

/-- A task goes on that has no waiter registered, neither before nor behind. -/
theorem Queues.turn (h : Queues m pc) (hwaiters : m'.waiters = m.waiters) (hpopped : m'.popped = m.popped)
    (ht : ∀ k, t ∉ m.waiters k) (hp : ∀ k, p.registers k = false) : Queues m' (Function.update pc t p) := by
  refine ⟨fun k => ?_, fun u k hu => ?_, fun u k hu => ?_⟩
  · rw [hwaiters]
    exact h.nodup k
  · rw [hwaiters] at hu
    have hut : u ≠ t := fun hut => ht k (hut ▸ hu)
    rw [Function.update_of_ne hut]
    exact h.registers u k hu
  · have hut : u ≠ t := by
      rintro rfl
      rw [Function.update_self, hp k] at hu
      cases hu
    rw [Function.update_of_ne hut] at hu
    rw [hwaiters, hpopped]
    exact h.popped u k hu

omit [DecidableEq Task] in
theorem Queues.free (h : Queues m pc) (ht : ∀ k, (pc t).registers k = false) (k : Kind) : t ∉ m.waiters k := by
  intro hmem
  cases (h.registers t k hmem).symm.trans (ht k)

/-- A task whose waiter is registered goes on to where it still is. -/
theorem Queues.keep (h : Queues m pc) (hp : ∀ k, p.registers k = (pc t).registers k) :
    Queues m (Function.update pc t p) := by
  have hsame : ∀ u k, (Function.update pc t p u).registers k = (pc u).registers k := by
    intro u k
    by_cases hut : u = t
    · subst hut
      rw [Function.update_self]
      exact hp k
    · rw [Function.update_of_ne hut]
  refine ⟨h.nodup, fun u k hu => ?_, fun u k hu => ?_⟩
  · rw [hsame]
    exact h.registers u k hu
  · rw [hsame] at hu
    exact h.popped u k hu

/-- Waiters are popped from the front. -/
theorem Queues.pop (h : Queues m pc) (k : Kind) (n : Nat) : Queues (m.pop k n) pc := by
  have hother : ∀ k', k' ≠ k → (m.pop k n).waiters k' = m.waiters k' := fun k' hk => Function.update_of_ne hk ..
  have hself : (m.pop k n).waiters k = (m.waiters k).drop n := Function.update_self ..
  refine ⟨fun k' => ?_, fun u k' hu => ?_, fun u k' hu => ?_⟩
  · by_cases hk : k' = k
    · subst hk
      rw [hself]
      exact (h.nodup k').sublist (List.drop_sublist ..)
    · rw [hother k' hk]
      exact h.nodup k'
  · by_cases hk : k' = k
    · subst hk
      rw [hself] at hu
      exact h.registers u k' (List.mem_of_mem_drop hu)
    · rw [hother k' hk] at hu
      exact h.registers u k' hu
  · have hpopped : (m.pop k n).popped u = true ↔ m.popped u = true ∨ u ∈ (m.waiters k).take n := by
      show (m.popped u || decide (u ∈ (m.waiters k).take n)) = true ↔ _
      rw [Bool.or_eq_true, decide_eq_true_eq]
    rw [hpopped, h.popped u k' hu]
    by_cases hk : k' = k
    · subst hk
      have hmem : u ∈ m.waiters k' ↔ u ∈ (m.waiters k').take n ∨ u ∈ (m.waiters k').drop n := by
        rw [← List.mem_append, List.take_append_drop]
      have hnodup : ((m.waiters k').take n ++ (m.waiters k').drop n).Nodup := by
        rw [List.take_append_drop]
        exact h.nodup k'
      have htaken : u ∈ (m.waiters k').take n → u ∉ (m.waiters k').drop n :=
        fun htake hdrop => List.disjoint_of_nodup_append hnodup htake hdrop
      rw [hself, hmem]
      tauto
    · have hnot : u ∉ (m.waiters k).take n := fun htake =>
        hk (Pc.registers_inj hu (h.registers u k (List.mem_of_mem_take htake)))
      rw [hother k' hk, or_iff_left hnot]

theorem Queues.notifyAll (h : Queues m pc) (k : Kind) : Queues (m.notifyAll k) pc := h.pop k _

/-- A waiter is registered for the task. -/
theorem Queues.register (h : Queues m pc) (hpc : pc t = .testing k) :
    Queues (m.register t k) (Function.update pc t (.releasing k)) := by
  have hfree : ∀ k', t ∉ m.waiters k' := h.free fun k' => by rw [hpc]; rfl
  have hother : ∀ k', k' ≠ k → (m.register t k).waiters k' = m.waiters k' := fun k' hk => Function.update_of_ne hk ..
  have hself : (m.register t k).waiters k = m.waiters k ++ [t] := Function.update_self ..
  have hwaiters : ∀ u k', u ≠ t → (u ∈ (m.register t k).waiters k' ↔ u ∈ m.waiters k') := by
    intro u k' hut
    by_cases hk : k' = k
    · subst hk
      rw [hself, List.mem_append, List.mem_singleton, or_iff_left hut]
    · rw [hother k' hk]
  have hlast : ∀ k', t ∈ (m.register t k).waiters k' ↔ k' = k := by
    intro k'
    by_cases hk : k' = k
    · subst hk
      rw [hself]
      exact iff_of_true (List.mem_append_right _ (List.mem_singleton_self t)) rfl
    · rw [hother k' hk]
      exact iff_of_false (hfree k') hk
  refine ⟨fun k' => ?_, fun u k' hu => ?_, fun u k' hu => ?_⟩
  · by_cases hk : k' = k
    · subst hk
      rw [hself]
      exact List.nodup_append.2 ⟨h.nodup k', List.nodup_singleton t, fun u hu v hv huv =>
        hfree k' (by rw [← List.mem_singleton.1 hv, ← huv]; exact hu)⟩
    · rw [hother k' hk]
      exact h.nodup k'
  · by_cases hut : u = t
    · subst hut
      rw [Function.update_self]
      exact decide_eq_true ((hlast k').1 hu).symm
    · rw [Function.update_of_ne hut]
      exact h.registers u k' ((hwaiters u k' hut).1 hu)
  · by_cases hut : u = t
    · subst hut
      rw [Function.update_self] at hu
      have hpopped : (m.register u k).popped u = false := Function.update_self ..
      rw [hpopped, hlast, (of_decide_eq_true hu : k = k')]
      simp
    · rw [Function.update_of_ne hut] at hu
      have hpopped : (m.register t k).popped u = m.popped u := Function.update_of_ne hut ..
      rw [hpopped, hwaiters u k' hut]
      exact h.popped u k' hu

/-- The waiter of the task is discarded. -/
theorem Queues.discard (h : Queues m pc) (hpc : pc t = .raised k) :
    Queues (m.discardWaiter t k) (Function.update pc t (.reacquiring k .handler false)) := by
  have hwaiters : ∀ u k', u ∈ (m.discardWaiter t k).waiters k' ↔ u ∈ m.waiters k' ∧ ¬ (k' = k ∧ u = t) := by
    intro u k'
    show u ∈ Function.update m.waiters k ((m.waiters k).filter (· ≠ t)) k' ↔ _
    by_cases hk : k' = k
    · subst hk
      rw [Function.update_self, List.mem_filter]
      simp
    · rw [Function.update_of_ne hk]
      simp [hk]
  refine ⟨fun k' => ?_, fun u k' hu => ?_, fun u k' hu => ?_⟩
  · show (Function.update m.waiters k ((m.waiters k).filter (· ≠ t)) k').Nodup
    by_cases hk : k' = k
    · subst hk
      rw [Function.update_self]
      exact (h.nodup k').filter _
    · rw [Function.update_of_ne hk]
      exact h.nodup k'
  · obtain ⟨hmem, hnot⟩ := (hwaiters u k').1 hu
    have hut : u ≠ t := by
      rintro rfl
      have hregisters := h.registers u k' hmem
      rw [hpc] at hregisters
      exact hnot ⟨(of_decide_eq_true hregisters).symm, rfl⟩
    rw [Function.update_of_ne hut]
    exact h.registers u k' hmem
  · have hut : u ≠ t := by
      rintro rfl
      rw [Function.update_self] at hu
      cases hu
    rw [Function.update_of_ne hut] at hu
    rw [hwaiters, and_iff_left fun hboth => hut hboth.2]
    exact h.popped u k' hu

/-- Every move keeps the waiters. -/
theorem Queues.moved (h : Queues m pc) {q : Pc} (hpc : pc t = q) (hm : Moved isOpen t m q m' p) :
    Queues m' (Function.update pc t p) := by
  have hquiet : ∀ m' : Mutex Task, m'.waiters = m.waiters → m'.popped = m.popped → (∀ k, q.registers k = false) →
      (∀ k, p.registers k = false) → Queues m' (Function.update pc t p) :=
    fun m' hwaiters hpopped hq hp => h.turn hwaiters hpopped (h.free fun k => by rw [hpc, hq]) hp
  cases hm with
  | refused | enters | nested | tests | reenters | pends | passes | reads | writes | leaves =>
    exact hquiet _ rfl rfl (fun _ => rfl) fun _ => rfl
  | waits => exact h.register hpc
  | settles =>
    unfold Mutex.settle
    dsimp only
    split
    · refine Queues.notifyAll ?_ .reader
      exact hquiet _ rfl rfl (fun _ => rfl) fun _ => rfl
    · exact hquiet _ rfl rfl (fun _ => rfl) fun _ => rfl
  | hands k =>
    refine (hquiet m rfl rfl (fun _ => rfl) fun _ => ?_).pop k _
    cases k <;> rfl
  | departs k =>
    cases k with
    | reader =>
      unfold Mutex.depart
      dsimp only
      split
      · split
        · refine Queues.notifyAll ?_ .writer
          exact hquiet _ rfl rfl (fun _ => rfl) fun _ => rfl
        · exact hquiet _ rfl rfl (fun _ => rfl) fun _ => rfl
      · exact hquiet _ rfl rfl (fun _ => rfl) fun _ => rfl
    | writer =>
      unfold Mutex.depart
      dsimp only
      split
      · refine Queues.notifyAll ?_ .writer
        exact hquiet _ rfl rfl (fun _ => rfl) fun _ => rfl
      · refine Queues.notifyAll ?_ .reader
        exact hquiet _ rfl rfl (fun _ => rfl) fun _ => rfl
  | resumes k hpopped =>
    refine h.turn rfl rfl (fun k' hmem => ?_) fun _ => rfl
    have hregisters := h.registers t k' hmem
    exact (h.popped t k' hregisters).1 hpopped hmem
  | raises k => exact h.keep fun _ => by rw [hpc]; rfl
  | discards => exact h.discard hpc
  | misses k hmiss =>
    refine h.turn rfl rfl (fun k' hmem => ?_) fun _ => rfl
    have hregisters := h.registers t k' hmem
    rw [hpc] at hregisters
    obtain rfl := of_decide_eq_true hregisters
    exact hmiss hmem
  | forwards k => exact (hquiet m rfl rfl (fun _ => rfl) fun _ => rfl).pop k _

/-- A call of the lock keeps them. -/
theorem Queues.turned (h : Queues m pc) {q : Pc} (hpc : pc t = q) (hp : Sys.Turned q p) :
    Queues m (Function.update pc t p) := by
  have hquiet : (∀ k, q.registers k = false) → (∀ k, p.registers k = false) → Queues m (Function.update pc t p) :=
    fun hq hp => h.turn rfl rfl (h.free fun k => by rw [hpc, hq]) hp
  cases hp with
  | acquired hacq =>
    cases q with
    | entering | exiting => exact hquiet (fun _ => rfl) fun _ => rfl
    | reacquiring k branch cancelled =>
      refine hquiet (fun _ => rfl) fun _ => ?_
      cases branch with
      | handler => cases k <;> rfl
      | notified => cases cancelled <;> rfl
    | _ => cases hacq
  | interrupted hacq =>
    cases q with
    | entering | reacquiring | exiting => exact hquiet (fun _ => rfl) fun _ => rfl
    | _ => cases hacq
  | suspends => exact h.keep fun _ => by rw [hpc]; rfl
  | leaves => exact hquiet (fun _ => rfl) fun _ => rfl

/-! ## Why they wait -/

omit [DecidableEq Task] in
theorem Reasons.mono (h : Reasons m) (hwaiters : ∀ k, m'.waiters k ≠ [] → m.waiters k ≠ [])
    (hblocks : ∀ k, m.blocks k = true → m'.blocks k = true) : Reasons m' :=
  fun k hk => hblocks k (h k (hwaiters k hk))

omit [DecidableEq Task] in
theorem Mutex.blocks_reader {m : Mutex Task} : m.blocks .reader = true ↔ m.writer = true ∨ 0 < m.pendingWriters := by
  show (m.writer || decide (0 < m.pendingWriters)) = true ↔ _
  rw [Bool.or_eq_true, decide_eq_true_eq]

omit [DecidableEq Task] in
theorem Mutex.blocks_writer {m : Mutex Task} : m.blocks .writer = true ↔ m.writer = true ∨ 0 < m.readers := by
  show (m.writer || decide (0 < m.readers)) = true ↔ _
  rw [Bool.or_eq_true, decide_eq_true_eq]

theorem Reasons.pop (h : Reasons m) (k : Kind) (n : Nat) : Reasons (m.pop k n) := by
  refine h.mono (fun k' hk hnil => hk ?_) fun k' hblocks => ?_
  · show Function.update m.waiters k ((m.waiters k).drop n) k' = []
    by_cases hkk : k' = k
    · subst hkk
      rw [Function.update_self, hnil, List.drop_nil]
    · rw [Function.update_of_ne hkk]
      exact hnil
  · cases k' with
    | reader => exact hblocks
    | writer => exact hblocks

theorem Mutex.notifyAll_self (m : Mutex Task) (k : Kind) : (m.notifyAll k).waiters k = [] := by
  show Function.update m.waiters k ((m.waiters k).drop (m.waiters k).length) k = []
  rw [Function.update_self, List.drop_length]

/-- A condition may be emptied whatever it is that changes. -/
theorem Reasons.notifyAll {k : Kind} (h : ∀ k', k' ≠ k → m.waiters k' ≠ [] → m.blocks k' = true) :
    Reasons (m.notifyAll k) := by
  intro k' hk
  by_cases hkk : k' = k
  · subst hkk
    exact absurd (m.notifyAll_self k') hk
  · have hwaiters : (m.notifyAll k).waiters k' = m.waiters k' := Function.update_of_ne hkk ..
    rw [hwaiters] at hk
    have hblocks := h k' hkk hk
    cases k' with
    | reader => exact hblocks
    | writer => exact hblocks

/-- The waiters of the other condition are not notified: their reason is another one. -/
theorem Reasons.settle (h : Reasons m) : Reasons m.settle := by
  unfold Mutex.settle
  dsimp only
  split
  · refine Reasons.notifyAll fun k hk hne => ?_
    cases k with
    | reader => exact absurd rfl hk
    | writer => exact Mutex.blocks_writer.2 (Mutex.blocks_writer.1 (h .writer hne))
  · rename_i hmore
    intro k hne
    cases k with
    | reader =>
      refine Mutex.blocks_reader.2 ?_
      rcases Nat.eq_zero_or_pos (m.pendingWriters - 1) with hzero | hpos
      · exact .inl (Bool.of_not_eq_false fun hwriter => hmore ⟨hzero, hwriter⟩)
      · exact .inr hpos
    | writer => exact Mutex.blocks_writer.2 (Mutex.blocks_writer.1 (h .writer hne))

theorem Reasons.departReader (h : Reasons m) : Reasons (m.depart t .reader) := by
  unfold Mutex.depart
  dsimp only
  split
  · split
    · refine Reasons.notifyAll fun k hk hne => ?_
      cases k with
      | reader => exact Mutex.blocks_reader.2 (Mutex.blocks_reader.1 (h .reader hne))
      | writer => exact absurd rfl hk
    · rename_i hmore
      intro k hne
      cases k with
      | reader => exact Mutex.blocks_reader.2 (Mutex.blocks_reader.1 (h .reader hne))
      | writer => exact Mutex.blocks_writer.2 (.inr (Nat.pos_of_ne_zero hmore))
  · exact h.mono (fun _ => id) fun k hblocks => by cases k <;> exact hblocks

/-- A writer that is left by the notification would be counted. -/
theorem Reasons.departWriter [Fintype Task] (hcounts : Counts m pc) (hqueues : Queues m pc) :
    Reasons (m.depart t .writer) := by
  unfold Mutex.depart
  dsimp only
  split
  · rename_i hpending
    refine Reasons.notifyAll fun k hk _ => ?_
    cases k with
    | reader => exact Mutex.blocks_reader.2 (.inr hpending)
    | writer => exact absurd rfl hk
  · rename_i hpending
    refine Reasons.notifyAll fun k hk hne => ?_
    cases k with
    | reader => exact absurd rfl hk
    | writer =>
      obtain ⟨u, hu⟩ := List.exists_mem_of_ne_nil _ hne
      exact absurd (hcounts.pending_pos (Pc.pends_of_registers (hqueues.registers u .writer hu))) hpending

/-- Every move keeps them. -/
theorem Reasons.moved [Fintype Task] (h : Reasons m) (hcounts : Counts m pc) (hqueues : Queues m pc) {q : Pc}
    (hm : Moved isOpen t m q m' p) : Reasons m' := by
  cases hm with
  | refused | enters | nested | tests | reenters | passes | resumes | raises | misses | leaves => exact h
  | pends =>
    refine h.mono (fun _ => id) fun k hblocks => ?_
    cases k with
    | reader => exact Mutex.blocks_reader.2 (.inr (Nat.succ_pos _))
    | writer => exact hblocks
  | waits k hblocks =>
    intro k' hne
    have hsame : (m.register t k).blocks k' = m.blocks k' := by cases k' <;> rfl
    rw [hsame]
    by_cases hk : k' = k
    · subst hk
      exact hblocks
    · refine h k' fun hnil => hne ?_
      exact (Function.update_of_ne hk ..).trans hnil
  | reads =>
    refine h.mono (fun _ => id) fun k hblocks => ?_
    cases k with
    | reader => exact hblocks
    | writer =>
      refine Mutex.blocks_writer.2 ((Mutex.blocks_writer.1 hblocks).imp_right fun hpos => ?_)
      show 0 < if m.readerDepth t = 0 then m.readers + 1 else m.readers
      split
      · exact Nat.succ_pos _
      · exact hpos
  | writes =>
    refine h.mono (fun _ => id) fun k _ => ?_
    cases k with
    | reader => exact Mutex.blocks_reader.2 (.inl rfl)
    | writer => exact Mutex.blocks_writer.2 (.inl rfl)
  | settles => exact h.settle
  | hands k | forwards k => exact h.pop k _
  | departs k =>
    cases k with
    | reader => exact h.departReader
    | writer => exact Reasons.departWriter hcounts hqueues
  | discards k =>
    refine h.mono (fun k' hne hnil => hne ?_) fun k' hblocks => by cases k' <;> exact hblocks
    show Function.update m.waiters k ((m.waiters k).filter (· ≠ t)) k' = []
    by_cases hk : k' = k
    · subst hk
      rw [Function.update_self, hnil, List.filter_nil]
    · rw [Function.update_of_ne hk]
      exact hnil

/-! ## What they have -/

/-- The other tasks keep what they have. -/
theorem Patient.turn (h : Patient m pc) (hothers : ∀ u, u ≠ t → m'.readerDepth u = m.readerDepth u)
    (htask : ∀ u, u ≠ t → m'.writerTask = some u → m.writerTask = some u)
    (hp : p.waits = true → m'.writerTask ≠ some t ∧ m'.readerDepth t = 0) : Patient m' (Function.update pc t p) := by
  intro u hu
  by_cases hut : u = t
  · subst hut
    rw [Function.update_self] at hu
    exact hp hu
  · rw [Function.update_of_ne hut] at hu
    obtain ⟨hwriter, hdepth⟩ := h u hu
    exact ⟨fun hw => hwriter (htask u hut hw), (hothers u hut).trans hdepth⟩

theorem Patient.moved (h : Patient m pc) {q : Pc} (hpc : pc t = q) (hm : Moved isOpen t m q m' p) :
    Patient m' (Function.update pc t p) := by
  have hsame : ∀ m' : Mutex Task, m'.readerDepth = m.readerDepth → m'.writerTask = m.writerTask →
      (p.waits = true → m.writerTask ≠ some t ∧ m.readerDepth t = 0) → Patient m' (Function.update pc t p) := by
    intro m' hdepth htask hp
    refine h.turn (fun u _ => by rw [hdepth]) (fun u _ hu => by rw [← htask]; exact hu) ?_
    rw [hdepth, htask]
    exact hp
  have hstill : q.waits = true → m.writerTask ≠ some t ∧ m.readerDepth t = 0 := by
    rw [← hpc]
    exact h t
  cases hm with
  | refused | enters | nested | reenters | passes | leaves => exact hsame _ rfl rfl nofun
  | tests hwriter hdepth | pends hwriter hdepth => exact hsame _ rfl rfl fun _ => ⟨hwriter, hdepth⟩
  | waits | resumes | raises | discards | misses | forwards => exact hsame _ rfl rfl fun _ => hstill rfl
  | reads => exact h.turn (fun u hu => Function.update_of_ne hu ..) (fun u _ hu => hu) nofun
  | writes => exact h.turn (fun u _ => rfl) (fun u hut hu => absurd (Option.some.inj hu).symm hut) nofun
  | settles =>
    unfold Mutex.settle
    dsimp only
    split
    · exact hsame _ rfl rfl nofun
    · exact hsame _ rfl rfl nofun
  | hands k =>
    refine hsame _ rfl rfl ?_
    cases k with
    | reader => exact nofun
    | writer => exact nofun
  | departs k =>
    cases k with
    | reader =>
      unfold Mutex.depart
      dsimp only
      split
      · split
        · exact h.turn (fun u hu => Function.update_of_ne hu ..) (fun u _ hu => hu) nofun
        · exact h.turn (fun u hu => Function.update_of_ne hu ..) (fun u _ hu => hu) nofun
      · exact h.turn (fun u hu => Function.update_of_ne hu ..) (fun u _ hu => hu) nofun
    | writer =>
      unfold Mutex.depart
      dsimp only
      split
      · exact h.turn (fun u _ => rfl) (fun u _ => nofun) nofun
      · exact h.turn (fun u _ => rfl) (fun u _ => nofun) nofun

theorem Patient.turned (h : Patient m pc) {q : Pc} (hpc : pc t = q) (hp : Sys.Turned q p) :
    Patient m (Function.update pc t p) := by
  have hsame : (p.waits = true → q.waits = true) → Patient m (Function.update pc t p) := by
    intro hp
    refine h.turn (fun _ _ => rfl) (fun _ _ => id) fun hwaits => h t ?_
    rw [hpc]
    exact hp hwaits
  cases hp with
  | acquired hacq =>
    cases q with
    | entering | exiting => exact hsame nofun
    | reacquiring => exact hsame fun _ => rfl
    | _ => cases hacq
  | interrupted hacq =>
    cases q with
    | entering | exiting => exact hsame nofun
    | reacquiring => exact hsame fun _ => rfl
    | _ => cases hacq
  | suspends => exact hsame fun _ => rfl
  | leaves => exact hsame nofun

end Books

end Multiloop.RWLock.Fallback
