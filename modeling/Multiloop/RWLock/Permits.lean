import Mathlib.Data.Set.Card
import Multiloop.RWLock.Wiring

/-!
# The permits of the lock

A permit is counted in Rust when it is handed off, and is taken later in
Python. `Balanced` compares the two: the readers counted are the tasks that
hold a read permit or will take the one in flight to them, and the writer flag
is set for the one task that does so for writing. Every step keeps it that
hands nothing to a cancelled future, and cancels no task with a hand-off in
flight to it.
-/

namespace Multiloop.RWLock

variable {Loop Task : Type}

namespace Sys

open RWMutexInner

variable {s s' : Sys Loop Task} {home : Task → Loop}

/-- The wake of `f` is scheduled, or has set the future already. -/
def InFlight (s : Sys Loop Task) (f : Fut Task) : Prop :=
  s.futs f = .pending ∧ f ∈ s.scheduled ∨ s.futs f = .result ()

/-- Task `t`, which awaits `f`, returns from the await with the permit. -/
def Handed (s : Sys Loop Task) (t : Task) (f : Fut Task) : Prop := s.InFlight f ∧ s.mustCancel t = false

/-- The task awaits a future in its place `k` that was handed to it. -/
def Takes (s : Sys Loop Task) (k : Fut Task → Pc Task) (t : Task) : Prop := ∃ f, s.pc t = k f ∧ s.Handed t f

/-- A read hand-off is in flight to task `t`, which will take it. -/
def TakesRead (s : Sys Loop Task) (t : Task) : Prop := s.Takes .readAwait t

/-- A write hand-off is in flight to task `t`, which will take it. -/
def TakesWrite (s : Sys Loop Task) (t : Task) : Prop := s.Takes .writeAwait t

/-- The task has the lock for reading, or is about to. -/
def ReadPermit (s : Sys Loop Task) (t : Task) : Prop := 0 < s.readerDepth t ∨ s.TakesRead t

/-- The task has the lock for writing, or is about to. -/
def WritePermit (s : Sys Loop Task) (t : Task) : Prop := s.writerTask = some t ∨ s.TakesWrite t

/-- The Rust counters are the permits of the tasks, and a writer is alone. -/
structure Balanced (s : Sys Loop Task) : Prop where
  readers : (s.raw.readers : ℕ∞) = {t | s.ReadPermit t}.encard
  writer : ∃ o : Option Task, s.raw.writer = o.isSome ∧ ∀ t, s.WritePermit t ↔ o = some t
  exclusive : s.raw.writer = true → s.raw.readers = 0

theorem balanced_new : Balanced (Sys.new : Sys Loop Task) where
  readers := by simp [ReadPermit, TakesRead, Takes, Sys.new, RWLock.new]
  writer := ⟨none, rfl, by simp [WritePermit, TakesWrite, Takes, Sys.new]⟩
  exclusive := fun _ => rfl

/-- The steps that lose no permit: none cancels a task whose future has left
the queues, and none hands the lock to a cancelled future. -/
def Ok (s : Sys Loop Task) [DecidableEq Task] : Action Task → Prop
  | .cancel t => ∀ f, s.awaited t = some f → f ∈ s.queue.map Prod.snd ∨ s.futs f = .cancelled
  | .exitReader t =>
    s.readerDepth t = 1 → s.raw.readers ≤ 1 → ∀ w ∈ s.raw.writeWaiters.head?, s.futs w.2 ≠ .cancelled
  | .exitWriter _ =>
    (∀ w ∈ s.raw.writeWaiters.head?, s.futs w.2 ≠ .cancelled) ∧
      (s.raw.writeWaiters = [] → ∀ w ∈ s.raw.readWaiters, s.futs w.2 ≠ .cancelled)
  | .advance t =>
    ∀ f, s.pc t = .writeRemove f → retain f s.raw.writeWaiters = [] → s.raw.writer = false →
      ∀ w ∈ s.raw.readWaiters, s.futs w.2 ≠ .cancelled
  | .reader _ | .writer _ | .resume _ | .wake _ => True

/-! ## Who takes a hand-off -/

theorem not_takes {t : Task} (h : ∀ f, s.awaited t = some f → ¬ s.Handed t f) :
    ¬ s.TakesRead t ∧ ¬ s.TakesWrite t :=
  ⟨fun ⟨f, hpc, hh⟩ => h f (awaited_eq_some.2 (.inl hpc)) hh,
    fun ⟨f, hpc, hh⟩ => h f (awaited_eq_some.2 (.inr hpc)) hh⟩

theorem not_takes_of_fut? {t : Task} (h : s.awaited t = none) : ¬ s.TakesRead t ∧ ¬ s.TakesWrite t :=
  not_takes fun f hf => by simp [h] at hf

/-- A task is not concerned by a step that leaves its place, its cancellation
and the future it awaits alone. -/
theorem takes_congr {u : Task} (hpc : s'.pc u = s.pc u)
    (hh : ∀ f, s.awaited u = some f → (s'.Handed u f ↔ s.Handed u f)) :
    (s'.TakesRead u ↔ s.TakesRead u) ∧ (s'.TakesWrite u ↔ s.TakesWrite u) := by
  constructor
  all_goals
    refine exists_congr fun f => ?_
    rw [hpc]
    refine and_congr_right fun hp => hh f (awaited_eq_some.2 ?_)
    simp [hp]

/-- A queued future is in flight to nobody. -/
theorem Wired.not_inFlight (h : s.Wired) {f : Fut Task} (hq : f ∈ s.queue.map Prod.snd) : ¬ s.InFlight f := by
  obtain ⟨w, hw, rfl⟩ := List.mem_map.1 hq
  obtain ⟨hs, hc⟩ := h.attached w hw
  rintro (⟨-, hm⟩ | hr)
  · exact hs hm
  · rcases hc with hc | ⟨hc, -⟩ <;> simp [hr] at hc

/-- A step that changes who has a permit for nobody. -/
theorem Balanced.congr (h : s.Balanced) (hr : s'.raw.readers = s.raw.readers)
    (hw : s'.raw.writer = s.raw.writer) (hrp : ∀ u, s'.ReadPermit u ↔ s.ReadPermit u)
    (hwp : ∀ u, s'.WritePermit u ↔ s.WritePermit u) : s'.Balanced := by
  refine ⟨?_, ?_, by rw [hr, hw]; exact h.exclusive⟩
  · have hset : {u | s'.ReadPermit u} = {u | s.ReadPermit u} := Set.ext hrp
    rw [hset, hr, h.readers]
  · obtain ⟨o, ho, hown⟩ := h.writer
    exact ⟨o, hw.trans ho, fun u => (hwp u).trans (hown u)⟩

/-- A step that changes who holds or takes a permit for nobody. -/
theorem Balanced.same (h : s.Balanced) (hr : s'.raw.readers = s.raw.readers)
    (hw : s'.raw.writer = s.raw.writer) (hd : ∀ u, 0 < s'.readerDepth u ↔ 0 < s.readerDepth u)
    (ht : s'.writerTask = s.writerTask)
    (hp : ∀ u, (s'.TakesRead u ↔ s.TakesRead u) ∧ (s'.TakesWrite u ↔ s.TakesWrite u)) : s'.Balanced :=
  h.congr hr hw (fun u => or_congr (hd u) (hp u).1) fun u => or_congr (by rw [ht]) (hp u).2

/-! ## The steps that pass no permit -/

theorem Wired.owner_of_awaited (h : s.Wired) (t : Task) (f : Fut Task) (hf : s.awaited t = some f) :
    f.owner = t :=
  (h.owner t f (awaited_fut? hf)).1

/-- Task `t` goes on, and takes no permit before or after. -/
theorem Balanced.alone (h : s.Balanced) (ho : ∀ u f, s.awaited u = some f → f.owner = u) {t : Task} (hr : s'.raw.readers = s.raw.readers)
    (hw : s'.raw.writer = s.raw.writer) (hd : s'.readerDepth = s.readerDepth)
    (hwt : s'.writerTask = s.writerTask)
    (hu : ∀ u, u ≠ t → s'.pc u = s.pc u ∧ s'.mustCancel u = s.mustCancel u)
    (hf : ∀ f, f.owner ≠ t → (s'.InFlight f ↔ s.InFlight f))
    (hn : ∀ f, s.awaited t = some f → ¬ s.Handed t f) (hn' : ∀ f, s'.awaited t = some f → ¬ s'.Handed t f) :
    s'.Balanced := by
  refine h.same hr hw (fun u => by rw [hd]) hwt fun u => ?_
  by_cases ht : u = t
  · subst ht
    obtain ⟨hrd, hwr⟩ := not_takes hn
    obtain ⟨hrd', hwr'⟩ := not_takes hn'
    exact ⟨iff_of_false hrd' hrd, iff_of_false hwr' hwr⟩
  · obtain ⟨hpc, hmc⟩ := hu u ht
    refine takes_congr hpc fun f haw => ?_
    rw [Handed, Handed, hf f (by rwa [ho u f haw]), hmc]

theorem not_handed_of_fut? {t : Task} (h : (s.pc t).fut? = none) :
    ∀ f, s.awaited t = some f → ¬ s.Handed t f := fun f hf => by
  rw [awaited_fut? hf] at h
  cases h

/-! ## The steps that pass a permit -/

theorem inFlight_wakeAll {ws : List (Waiter Loop (Fut Task))} {f : Fut Task} :
    (s.wakeAll (some ws)).InFlight f ↔ s.InFlight f ∨ s.futs f = .pending ∧ f ∈ ws.map Prod.snd := by
  have hmem : f ∈ (s.wakeAll (some ws)).scheduled ↔
      f ∈ s.scheduled ∨ f ∈ ws.map Prod.snd ∧ s.futs f = .pending := by
    simp only [wakeAll, Option.getD_some, List.mem_append, List.mem_filterMap, List.mem_map]
    refine or_congr_right ⟨?_, ?_⟩
    · rintro ⟨w, hw, he⟩
      split at he <;> cases he
      exact ⟨⟨w, hw, rfl⟩, by assumption⟩
    · rintro ⟨⟨w, hw, rfl⟩, hp⟩
      exact ⟨w, hw, by simp [hp]⟩
  unfold InFlight
  rw [hmem]
  change (s.futs f = _ ∧ _ ∨ s.futs f = _) ↔ _
  tauto

/-- The futures `ws` are pending, and each is awaited, in its place `k`, by a
task that is not about to be cancelled. -/
def Ready (s : Sys Loop Task) (k : Fut Task → Pc Task) (ws : List (Waiter Loop (Fut Task))) : Prop :=
  ∀ w ∈ ws, s.futs w.2 = .pending ∧ s.pc w.2.owner = k w.2 ∧ s.mustCancel w.2.owner = false

theorem Wired.ready_readers (h : s.Wired) (hc : ∀ w ∈ s.raw.readWaiters, s.futs w.2 ≠ .cancelled) :
    s.Ready .readAwait s.raw.readWaiters := by
  intro w hw
  obtain ⟨hp, haw, hm⟩ := (h.attached w (List.mem_append_left _ hw)).2.resolve_left (hc w hw)
  refine ⟨hp, (awaited_eq_some.1 haw).resolve_right fun hpc => ?_, hm⟩
  have hr := h.reading w hw
  simp [hpc, Pc.reading?] at hr

theorem Wired.ready_writer (h : s.Wired) {w : Waiter Loop (Fut Task)} (hw : w ∈ s.raw.writeWaiters)
    (hc : s.futs w.2 ≠ .cancelled) : s.Ready .writeAwait [w] := by
  intro v hv
  obtain rfl := List.mem_singleton.1 hv
  obtain ⟨hp, haw, hm⟩ := (h.attached v (List.mem_append_right _ hw)).2.resolve_left hc
  refine ⟨hp, (awaited_eq_some.1 haw).resolve_left fun hpc => ?_, hm⟩
  have hr := h.writing v hw
  simp [hpc, Pc.writing?] at hr

/-- Waking waiters that are ready hands each of them what it waits for, -/
theorem takes_wakeAll (h : s.Wired) {k : Fut Task → Pc Task} (hk : ∀ f, (k f).fut? = some f)
    {ws : List (Waiter Loop (Fut Task))} (hw : s.Ready k ws) (u : Task) :
    (s.wakeAll (some ws)).Takes k u ↔ s.Takes k u ∨ u ∈ ws.map fun w => w.2.owner := by
  constructor
  · rintro ⟨f, hpc, hf, hm⟩
    rcases inFlight_wakeAll.1 hf with hf | ⟨-, hf⟩
    · exact .inl ⟨f, hpc, hf, hm⟩
    · obtain ⟨w, hws, rfl⟩ := List.mem_map.1 hf
      have ho : w.2.owner = u := (h.owner u w.2 ((congrArg Pc.fut? hpc).trans (hk _))).1
      exact .inr (List.mem_map.2 ⟨w, hws, ho⟩)
  · rintro (⟨f, hpc, hf, hm⟩ | hu)
    · exact ⟨f, hpc, inFlight_wakeAll.2 (.inl hf), hm⟩
    · obtain ⟨w, hws, rfl⟩ := List.mem_map.1 hu
      obtain ⟨hp, hpc, hm⟩ := hw w hws
      exact ⟨w.2, hpc, inFlight_wakeAll.2 (.inr ⟨hp, List.mem_map_of_mem hws⟩), hm⟩

/-- and nobody what it does not wait for. -/
theorem takes_wakeAll_other (h : s.Wired) {k k' : Fut Task → Pc Task} (hk : ∀ f, (k' f).fut? = some f)
    (hne : ∀ f, k f ≠ k' f) {ws : List (Waiter Loop (Fut Task))} (hw : s.Ready k ws) (u : Task) :
    (s.wakeAll (some ws)).Takes k' u ↔ s.Takes k' u := by
  refine exists_congr fun f => and_congr_right fun hpc => and_congr_left fun _ => ?_
  refine inFlight_wakeAll.trans (or_iff_left ?_)
  rintro ⟨-, hf⟩
  obtain ⟨w, hws, rfl⟩ := List.mem_map.1 hf
  obtain ⟨rfl, -⟩ := h.owner u w.2 ((congrArg Pc.fut? hpc).trans (hk _))
  exact hne _ ((hw w hws).2.1.symm.trans hpc)

theorem Wired.nodup_owners (h : s.Wired) : (s.raw.readWaiters.map fun w => w.2.owner).Nodup := by
  have hnd : (s.raw.readWaiters.map Prod.snd).Nodup :=
    h.nodup.sublist ((List.sublist_append_left _ _).map _)
  suffices ((s.raw.readWaiters.map Prod.snd).map Fut.owner).Nodup by simpa [Function.comp_def] using this
  refine hnd.map_on fun f hf g hg he => ?_
  obtain ⟨v, hv, rfl⟩ := List.mem_map.1 hf
  obtain ⟨w, hw, rfl⟩ := List.mem_map.1 hg
  have hr := h.reading v hv
  rw [he, h.reading w hw] at hr
  exact (Option.some.inj hr).symm

theorem encard_handed {P : Set Task} {l : List Task} (hnd : l.Nodup) (hd : ∀ u ∈ l, u ∉ P) :
    {u | u ∈ P ∨ u ∈ l}.encard = P.encard + l.length := by
  classical
  have hl : {u | u ∈ l}.encard = l.length := by
    rw [← List.toFinset_card_of_nodup hnd, ← Set.encard_coe_eq_coe_finsetCard, List.coe_toFinset]
  rw [← hl]
  exact Set.encard_union_eq (Set.disjoint_left.2 fun u hp hm => hd u hm hp)

/-- The queued readers are handed the lock. -/
theorem Balanced.toReaders (h : s.Balanced) (hwd : s.Wired) (hready : s.Ready .readAwait s.raw.readWaiters)
    (hr : s'.raw.readers = s.raw.readers + s.raw.readWaiters.length) (hw : s'.raw.writer = false)
    (hd : s'.readerDepth = s.readerDepth)
    (hp : ∀ u, s'.TakesRead u ↔ s.TakesRead u ∨ u ∈ s.raw.readWaiters.map fun w => w.2.owner)
    (hwp : ∀ u, ¬ s'.WritePermit u) : s'.Balanced := by
  have hnew : ∀ u ∈ s.raw.readWaiters.map (fun w => w.2.owner), u ∉ {t | s.ReadPermit t} := by
    rintro u hu (hdep | ⟨f, hpc, hf, -⟩)
    all_goals
      obtain ⟨w, hm, rfl⟩ := List.mem_map.1 hu
      obtain ⟨-, hpcw, -⟩ := hready w hm
    · have hzero := hwd.depth w.2.owner (by simp [hpcw])
      omega
    · rw [hpcw] at hpc
      cases hpc
      exact hwd.not_inFlight (List.mem_map_of_mem (List.mem_append_left _ hm)) hf
  refine ⟨?_, ⟨none, by simpa using hw, fun u => iff_of_false (hwp u) (by simp)⟩, by simp [hw]⟩
  have hset : {t | s'.ReadPermit t} =
      {u | u ∈ {t | s.ReadPermit t} ∨ u ∈ s.raw.readWaiters.map fun w => w.2.owner} := by
    ext u
    change _ ∨ _ ↔ _
    rw [hd, hp]
    exact or_assoc.symm
  rw [hset, encard_handed hwd.nodup_owners hnew, ← h.readers, hr, List.length_map]
  push_cast
  rfl

/-- The next writer is handed the lock, which nobody else has. -/
theorem balanced_toWriter {v : Task} (hr : s'.raw.readers = 0) (hw : s'.raw.writer = true)
    (hrp : ∀ u, ¬ s'.ReadPermit u) (hwp : ∀ u, s'.WritePermit u ↔ v = u) : s'.Balanced where
  readers := by
    have hset : {t | s'.ReadPermit t} = ∅ := Set.eq_empty_of_forall_notMem hrp
    rw [hset, hr]
    simp
  writer := ⟨some v, by simpa using hw, fun u => (hwp u).trans (by simp)⟩
  exclusive := fun _ => hr

/-- While a task has the lock for writing nobody has it for reading. -/
theorem Balanced.no_reader (h : s.Balanced) {t : Task} (ht : s.WritePermit t) (u : Task) : ¬ s.ReadPermit u := by
  obtain ⟨o, ho, hown⟩ := h.writer
  have hzero := h.exclusive (by rw [ho, (hown t).1 ht]; rfl)
  have hr := h.readers
  rw [hzero] at hr
  have hempty := Set.encard_eq_zero.1 hr.symm
  exact Set.eq_empty_iff_forall_notMem.1 hempty u

theorem Balanced.one_writer (h : s.Balanced) {t u : Task} (ht : s.WritePermit t) (hu : s.WritePermit u) :
    t = u := by
  obtain ⟨o, -, hown⟩ := h.writer
  exact Option.some.inj (((hown t).1 ht).symm.trans ((hown u).1 hu))

theorem Balanced.writer_of_permit (h : s.Balanced) {t : Task} (ht : s.WritePermit t) : s.raw.writer = true := by
  obtain ⟨o, ho, hown⟩ := h.writer
  rw [ho, (hown t).1 ht]
  rfl

theorem Balanced.no_writer (h : s.Balanced) (hw : s.raw.writer = false) (u : Task) : ¬ s.WritePermit u :=
  fun hu => by simp [h.writer_of_permit hu] at hw

/-- A task enters the lock for reading. -/
theorem Balanced.gainRead (h : s.Balanced) {t : Task} (hn : ¬ s.ReadPermit t)
    (hr : s'.raw.readers = s.raw.readers + 1) (hw : s'.raw.writer = s.raw.writer) (hwf : s.raw.writer = false)
    (hrp : ∀ u, s'.ReadPermit u ↔ u = t ∨ s.ReadPermit u) (hwp : ∀ u, s'.WritePermit u ↔ s.WritePermit u) :
    s'.Balanced := by
  refine ⟨?_, ?_, by simp [hw, hwf]⟩
  · have hset : {u | s'.ReadPermit u} = insert t {u | s.ReadPermit u} := Set.ext hrp
    rw [hset, Set.encard_insert_of_notMem (show t ∉ {u | s.ReadPermit u} from hn), ← h.readers, hr]
    push_cast
    rfl
  · obtain ⟨o, ho, hown⟩ := h.writer
    exact ⟨o, hw.trans ho, fun u => (hwp u).trans (hown u)⟩

/-- A task leaves the lock for reading, and hands it to nobody. -/
theorem Balanced.loseRead (h : s.Balanced) {t : Task} (ht : s.ReadPermit t)
    (hr : s'.raw.readers = s.raw.readers - 1) (hw : s'.raw.writer = s.raw.writer)
    (hrp : ∀ u, s'.ReadPermit u ↔ s.ReadPermit u ∧ u ≠ t) (hwp : ∀ u, s'.WritePermit u ↔ s.WritePermit u) :
    s'.Balanced := by
  refine ⟨?_, ?_, fun hwt => by rw [hr, h.exclusive (hw ▸ hwt)]⟩
  · have hset : {u | s'.ReadPermit u} = {u | s.ReadPermit u} \ {t} := Set.ext hrp
    rw [hset, Set.encard_sdiff_singleton_of_mem (show t ∈ {u | s.ReadPermit u} from ht), ← h.readers, hr]
    push_cast
    rfl
  · obtain ⟨o, ho, hown⟩ := h.writer
    exact ⟨o, hw.trans ho, fun u => (hwp u).trans (hown u)⟩

/-- Once the task that holds the lock for writing has left, nobody is about to
write. -/
theorem Balanced.no_takesWrite (h : s.Balanced) {t : Task} (ht : s.writerTask = some t)
    (hpc : s.pc t = .idle) (u : Task) : ¬ s.TakesWrite u := by
  intro hu
  obtain rfl := h.one_writer (.inl ht) (.inr hu)
  obtain ⟨f, hf, -⟩ := hu
  rw [hpc] at hf
  cases hf

/-! ## Every step -/

section Steps

variable [DecidableEq Task]

omit [DecidableEq Task] in
theorem mem_unscheduled {i : Nat} {f g : Fut Task} (hi : s.scheduled[i]? = some f) (hne : g ≠ f) :
    g ∈ (s.unscheduled i).scheduled ↔ g ∈ s.scheduled := by
  refine ⟨List.mem_of_mem_eraseIdx, fun hg => ?_⟩
  obtain ⟨j, hj⟩ := List.mem_iff_getElem?.1 hg
  refine List.mem_eraseIdx_iff_getElem?.2 ⟨j, fun e => ?_, hj⟩
  subst e
  exact hne (Option.some.inj (hj.symm.trans hi))

/-- A hand-off is in flight before and after its wake runs. -/
theorem inFlight_wake {i : Nat} {f : Fut Task} (hi : s.scheduled[i]? = some f) (hp : s.futs f = .pending)
    (g : Fut Task) : ((s.unscheduled i).withFut f (.result ())).InFlight g ↔ s.InFlight g := by
  by_cases hg : g = f
  · subst hg
    exact iff_of_true (.inr (by simp)) (.inl ⟨hp, List.mem_of_getElem? hi⟩)
  · simp [InFlight, hg, mem_unscheduled hi hg]

theorem inFlight_skip {i : Nat} {f : Fut Task} (hi : s.scheduled[i]? = some f) (hp : s.futs f ≠ .pending)
    (g : Fut Task) : (s.unscheduled i).InFlight g ↔ s.InFlight g := by
  by_cases hg : g = f
  · subst hg
    simp [InFlight, hp]
  · simp [InFlight, mem_unscheduled hi hg]

/-- The state of a future that another task owns does not matter. -/
theorem inFlight_await {t : Task} {f g : Fut Task} {p : Pc Task} (hg : g.owner ≠ t) (hf : f.owner = t) :
    (s.await t f p).InFlight g ↔ s.InFlight g := by
  have hne : g ≠ f := by
    rintro rfl
    exact hg hf
  by_cases hm : s.mustCancel t = true <;> simp [InFlight, Sys.await, hm, hne]

/-- Task `t` goes on from its await. -/
theorem takes_proceed {t : Task} {p : Pc Task} (hpc : s'.pc = Function.update s.pc t p) (hp : p.fut? = none)
    (hm : s'.mustCancel = s.mustCancel) (hf : ∀ f, s'.InFlight f ↔ s.InFlight f) {k : Fut Task → Pc Task}
    (hk : ∀ f, (k f).fut? = some f) (u : Task) : s'.Takes k u ↔ u ≠ t ∧ s.Takes k u := by
  unfold Takes Handed
  rw [hpc, hm]
  by_cases hu : u = t
  · subst hu
    simp only [Function.update_self, ne_eq, not_true_eq_false, false_and, iff_false]
    rintro ⟨f, rfl, -⟩
    simp [hk] at hp
  · simp [hu, hf]

/-- A task that takes no permit goes on without a future. -/
theorem Balanced.goto (h : s.Balanced) (ho : ∀ u f, s.awaited u = some f → f.owner = u) {t : Task} {p : Pc Task}
    (hn : s.awaited t = none) (hp : p.fut? = none) : (s.goto t p).Balanced :=
  h.alone (t := t) ho rfl rfl rfl rfl (fun u hu => by simp [Sys.goto, hu]) (fun f _ => .rfl)
    (fun f hf => by simp [hn] at hf) (not_handed_of_fut? (by simp [Sys.goto, hp]))

/-- A task that registers takes no permit. -/
theorem Balanced.register (h : s.Balanced) (hwd : s.Wired) {t : Task} {p : Pc Task}
    {r : RWMutexInner Loop (Fut Task)} (hn : (s.pc t).fut? = none) (hr : r.readers = s.raw.readers)
    (hw : r.writer = s.raw.writer) (hp : p = .readAwait (s.createFuture t).1 ∨ p = .writeAwait (s.createFuture t).1)
    (hwd' : (((s.createFuture t).2.setRaw r).await t (s.createFuture t).1 p).Wired)
    (hq : (s.createFuture t).1 ∈ (r.readWaiters ++ r.writeWaiters).map Prod.snd) :
    (((s.createFuture t).2.setRaw r).await t (s.createFuture t).1 p).Balanced := by
  refine h.alone (t := t) hwd.owner_of_awaited hr hw rfl rfl
    (fun u hu => by simp [Sys.await, Sys.createFuture, hu]) (fun f hf => inFlight_await hf rfl)
    (not_handed_of_fut? hn) fun f hf hh => hwd'.not_inFlight hq ?_
  have hfut := awaited_fut? hf
  rcases hp with rfl | rfl <;> simp [Sys.await, Pc.fut?] at hfut <;> exact hfut ▸ hh.1

/-- A task takes a read permit that nobody has. -/
theorem Balanced.enterRead (h : s.Balanced) (hwd : s.Wired) {t : Task} (hidle : s.pc t ≠ .idle)
    (hfut : (s.pc t).fut? = none) (hw : s.raw.writer = false) (hr : s'.raw.readers = s.raw.readers + 1)
    (hwr : s'.raw.writer = s.raw.writer) (hpc : s'.pc = Function.update s.pc t .idle)
    (hm : s'.mustCancel = s.mustCancel) (hd : s'.readerDepth = Function.update s.readerDepth t 1)
    (hwt : s'.writerTask = s.writerTask) (hf : ∀ f, s'.InFlight f ↔ s.InFlight f) : s'.Balanced := by
  obtain ⟨hnr, hnw⟩ := not_takes (not_handed_of_fut? hfut)
  have hs := fun k hk => takes_proceed (k := k) hpc rfl hm hf hk
  have hzero := hwd.depth t hidle
  refine h.gainRead (t := t) ?_ hr hwr hw (fun u => ?_) fun u => ?_
  · rintro (hp | hp)
    · omega
    · exact hnr hp
  · unfold ReadPermit TakesRead
    rw [hd, hs .readAwait fun _ => rfl]
    by_cases hu : u = t
    · subst hu
      simp
    · simp [hu]
  · unfold WritePermit TakesWrite
    rw [hwt, hs .writeAwait fun _ => rfl]
    refine or_congr_right (and_iff_right_of_imp ?_)
    rintro hu rfl
    exact hnw hu

/-- A task takes the write permit that nobody has. -/
theorem Balanced.enterWrite (h : s.Balanced) {t : Task} (hfut : (s.pc t).fut? = none)
    (hw : s.raw.writer = false) (hr : s.raw.readers = 0) (hr' : s'.raw.readers = s.raw.readers)
    (hwr : s'.raw.writer = true) (hpc : s'.pc = Function.update s.pc t .idle)
    (hm : s'.mustCancel = s.mustCancel) (hd : s'.readerDepth = s.readerDepth)
    (hwt : s'.writerTask = some t) (hf : ∀ f, s'.InFlight f ↔ s.InFlight f) : s'.Balanced := by
  obtain ⟨hnr, -⟩ := not_takes (not_handed_of_fut? hfut)
  have hs := fun k hk => takes_proceed (k := k) hpc rfl hm hf hk
  refine ⟨?_, ⟨some t, hwr, fun u => ?_⟩, fun _ => hr'.trans hr⟩
  · have hset : {u | s'.ReadPermit u} = {u | s.ReadPermit u} := by
      ext u
      change s'.ReadPermit u ↔ s.ReadPermit u
      unfold ReadPermit TakesRead
      rw [hd, hs .readAwait fun _ => rfl]
      refine or_congr_right (and_iff_right_of_imp ?_)
      rintro hu rfl
      exact hnr hu
    rw [hset, hr', h.readers]
  · unfold WritePermit TakesWrite
    rw [hwt, hs .writeAwait fun _ => rfl]
    exact or_iff_left fun hu => h.no_writer hw u (.inr hu.2)

/-- A task that has been handed the lock for reading takes it. -/
theorem Balanced.takeRead (h : s.Balanced) {t : Task} {f : Fut Task} (hpc : s.pc t = .readAwait f)
    (hf : s.futs f = .result ()) (hm : s.mustCancel t = false) : (s.enterReader t).Balanced := by
  have htakes : s.TakesRead t := ⟨f, hpc, .inr hf, hm⟩
  have hnw : ¬ s.TakesWrite t := by
    rintro ⟨g, hg, -⟩
    simp [hpc] at hg
  have hpc' : (s.enterReader t).pc = Function.update s.pc t _ := rfl
  have hs := fun k hk => takes_proceed (k := k) hpc' rfl rfl (fun f => .rfl) hk
  refine h.congr rfl rfl (fun u => ?_) fun u => ?_
  · by_cases hu : u = t
    · subst hu
      exact iff_of_true (.inl (by simp [enterReader])) (.inr htakes)
    · exact or_congr (by simp [enterReader, hu]) ((hs .readAwait (fun _ => rfl) u).trans (and_iff_right hu))
  · refine or_congr_right ((hs .writeAwait (fun _ => rfl) u).trans (and_iff_right_of_imp ?_))
    rintro hu rfl
    exact hnw hu

/-- A task that has been handed the lock for writing takes it. -/
theorem Balanced.takeWrite (h : s.Balanced) {t : Task} {f : Fut Task} (hpc : s.pc t = .writeAwait f)
    (hf : s.futs f = .result ()) (hm : s.mustCancel t = false) : (s.enterWriter t).Balanced := by
  have htakes : s.TakesWrite t := ⟨f, hpc, .inr hf, hm⟩
  have hnr : ¬ s.TakesRead t := by
    rintro ⟨g, hg, -⟩
    simp [hpc] at hg
  have hpc' : (s.enterWriter t).pc = Function.update s.pc t _ := rfl
  have hs := fun k hk => takes_proceed (k := k) hpc' rfl rfl (fun f => .rfl) hk
  refine h.congr rfl rfl (fun u => ?_) fun u => ?_
  · refine or_congr_right ((hs .readAwait (fun _ => rfl) u).trans (and_iff_right_of_imp ?_))
    rintro hu rfl
    exact hnr hu
  · constructor
    · rintro (hu | hu)
      · cases hu
        exact .inr htakes
      · exact .inr ((hs .writeAwait (fun _ => rfl) u).1 hu).2
    · rintro hu
      exact .inl (congrArg some (h.one_writer (.inr htakes) hu))

/-- A task that was not handed the lock, or is cancelled, raises from its await. -/
theorem Balanced.raise (h : s.Balanced) (hwd : s.Wired) {t : Task} {f : Fut Task} {p : Pc Task}
    (hpc : s.pc t = .readAwait f ∧ p = .readRemove f ∨ s.pc t = .writeAwait f ∧ p = .writeRemove f)
    (hf : s.futs f ≠ .pending) (hm : s.futs f = .result () → s.mustCancel t = true) : (s.raise t p).Balanced := by
  have haw : s.awaited t = some f := by rcases hpc with ⟨hpc, -⟩ | ⟨hpc, -⟩ <;> simp [awaited, hpc]
  have hn : (s.raise t p).awaited t = none := by
    rcases hpc with ⟨-, rfl⟩ | ⟨-, rfl⟩ <;> simp [awaited, Sys.raise]
  refine h.alone (t := t) hwd.owner_of_awaited rfl rfl rfl rfl (fun u hu => by simp [Sys.raise, hu]) (fun f _ => .rfl)
    (fun g hg hh => ?_) fun g hg => by simp [hn] at hg
  rw [haw] at hg
  cases hg
  rcases hh.1 with ⟨hp, -⟩ | hr
  · exact hf hp
  · exact absurd hh.2 (by simp [hm hr])

/-- The last queued writer leaves the queue: the lock goes to the queued readers. -/
theorem Balanced.removeLastWrite (h : s.Balanced) (hwd : s.Wired) {t : Task} {f : Fut Task}
    (hpc : s.pc t = .writeRemove f) (hw : s.raw.writer = false)
    (hready : s.Ready .readAwait s.raw.readWaiters) :
    (((s.setRaw { s.raw with
      pendingWriters := 0
      writeWaiters := []
      readWaiters := []
      readers := s.raw.readers + s.raw.readWaiters.length }).wakeAll (some s.raw.readWaiters)).goto t .idle).Balanced := by
  have hwake : ((s.setRaw { s.raw with
      pendingWriters := 0
      writeWaiters := []
      readWaiters := []
      readers := s.raw.readers + s.raw.readWaiters.length }).wakeAll (some s.raw.readWaiters)).Balanced := by
    refine h.toReaders hwd hready rfl hw rfl (takes_wakeAll hwd (fun _ => rfl) hready) fun u => ?_
    rintro (hu | hu)
    · exact h.no_writer hw u (.inl hu)
    · exact h.no_writer hw u (.inr ((takes_wakeAll_other hwd (fun _ => rfl) (by simp) hready u).1 hu))
  exact hwake.goto hwd.owner_of_awaited (by simp [awaited, wakeAll, hpc]) rfl

/-- A reader leaves, with nobody to hand the lock to. -/
theorem Balanced.exitRead (h : s.Balanced) {t : Task} (hpc : s.pc t = .idle) (hd : s.readerDepth t = 1) :
    ((s.setRaw { s.raw with readers := s.raw.readers - 1 }).setDepth t 0).Balanced := by
  have hn : ¬ s.TakesRead t := (not_takes_of_fut? (by simp [awaited, hpc])).1
  refine h.loseRead (t := t) (.inl (by omega)) rfl rfl (fun u => ?_) fun u => .rfl
  by_cases hu : u = t
  · subst hu
    refine iff_of_false ?_ (by simp)
    rintro (hu | hu)
    · simp at hu
    · exact hn hu
  · exact (or_congr_left (by simp [hu])).trans (and_iff_left hu).symm

/-- The last reader leaves: the lock goes to the next writer. -/
theorem Balanced.exitLastRead (h : s.Balanced) (hwd : s.Wired) {t : Task} {w : Waiter Loop (Fut Task)}
    {ws : List (Waiter Loop (Fut Task))} (hpc : s.pc t = .idle) (hd : s.readerDepth t = 1)
    (hr : s.raw.readers ≤ 1) (hready : s.Ready .writeAwait [w]) :
    (((s.setRaw { s.raw with
      readers := 0
      writer := true
      pendingWriters := ws.length
      writeWaiters := ws }).setDepth t 0).wakeAll (some [w])).Balanced := by
  have ht : s.ReadPermit t := .inl (by omega)
  have hone : ∀ u, s.ReadPermit u → u = t := by
    have hle : {u | s.ReadPermit u}.encard ≤ 1 := by
      rw [← h.readers]
      exact_mod_cast hr
    exact fun u hu => Set.encard_le_one_iff.1 hle u t hu ht
  refine balanced_toWriter (v := w.2.owner) rfl rfl (fun u => ?_) fun u => ?_
  · rintro (hu | hu)
    · have hut : u ≠ t := by
        rintro rfl
        simp [wakeAll] at hu
      exact hut (hone u (.inl (by simpa [wakeAll, hut] using hu)))
    · have htakes : s.TakesRead u := (takes_wakeAll_other hwd (fun _ => rfl) (by simp) hready u).1 hu
      obtain rfl := hone u (.inr htakes)
      exact (not_takes_of_fut? (by simp [awaited, hpc])).1 htakes
  · have hnone : ∀ u, ¬ s.WritePermit u := fun u hu => h.no_reader hu t ht
    refine (or_congr_right (takes_wakeAll hwd (fun _ => rfl) hready u)).trans ⟨?_, fun hu => ?_⟩
    · rintro (hu | hu | hu)
      · exact absurd (.inl hu) (hnone u)
      · exact absurd (.inr hu) (hnone u)
      · exact (List.mem_singleton.1 hu).symm
    · exact .inr (.inr (by simp [hu]))

omit [DecidableEq Task] in
/-- The writer leaves, with nobody to hand the lock to. -/
theorem Balanced.exitWrite (h : s.Balanced) {t : Task} (hpc : s.pc t = .idle) (ht : s.writerTask = some t) :
    ({ s with raw := { s.raw with writer := false }, writerTask := none } : Sys Loop Task).Balanced := by
  refine ⟨h.readers, ⟨none, rfl, fun u => iff_of_false ?_ (by simp)⟩, by simp⟩
  rintro (hu | hu)
  · cases hu
  · exact h.no_takesWrite ht hpc u hu

omit [DecidableEq Task] in
/-- The writer leaves: the lock goes to the next one. -/
theorem Balanced.exitToWriter (h : s.Balanced) (hwd : s.Wired) {t : Task} {w : Waiter Loop (Fut Task)}
    {ws : List (Waiter Loop (Fut Task))} (hpc : s.pc t = .idle) (ht : s.writerTask = some t)
    (hready : s.Ready .writeAwait [w]) :
    (({ s with
      raw := { s.raw with writer := true, pendingWriters := ws.length, writeWaiters := ws }
      writerTask := none } : Sys Loop Task).wakeAll (some [w])).Balanced := by
  refine balanced_toWriter (v := w.2.owner) (h.exclusive (h.writer_of_permit (.inl ht))) rfl (fun u => ?_)
    fun u => ?_
  · rintro (hu | hu)
    · exact h.no_reader (.inl ht) u (.inl hu)
    · exact h.no_reader (.inl ht) u (.inr ((takes_wakeAll_other hwd (fun _ => rfl) (by simp) hready u).1 hu))
  · refine (or_congr_right (takes_wakeAll hwd (fun _ => rfl) hready u)).trans ⟨?_, fun hu => ?_⟩
    · rintro (hu | hu | hu)
      · cases hu
      · exact absurd hu (h.no_takesWrite ht hpc u)
      · exact (List.mem_singleton.1 hu).symm
    · exact .inr (.inr (by simp [hu]))

omit [DecidableEq Task] in
/-- The writer leaves: the lock goes to the queued readers. -/
theorem Balanced.exitToReaders (h : s.Balanced) (hwd : s.Wired) {t : Task} (hpc : s.pc t = .idle)
    (ht : s.writerTask = some t) (hready : s.Ready .readAwait s.raw.readWaiters) :
    (({ s with
      raw := { s.raw with
        writer := false
        readWaiters := []
        readers := s.raw.readers + s.raw.readWaiters.length }
      writerTask := none } : Sys Loop Task).wakeAll (some s.raw.readWaiters)).Balanced := by
  refine h.toReaders hwd hready rfl rfl rfl (takes_wakeAll hwd (fun _ => rfl) hready) fun u => ?_
  rintro (hu | hu)
  · cases hu
  · exact h.no_takesWrite ht hpc u ((takes_wakeAll_other hwd (fun _ => rfl) (by simp) hready u).1 hu)

/-- A future is cancelled that is queued still. -/
theorem Balanced.cancelFut (h : s.Balanced) (hwd : s.Wired) {t : Task} {f : Fut Task}
    (hwd' : (s.withFut f .cancelled).Wired) (hf : s.awaited t = some f) (hq : f ∈ s.queue.map Prod.snd) :
    (s.withFut f .cancelled).Balanced := by
  refine h.alone (t := t) hwd.owner_of_awaited rfl rfl rfl rfl (fun u _ => ⟨rfl, rfl⟩) (fun g hg => ?_)
    (fun g hg hh => ?_) fun g hg hh => ?_
  · have hne : g ≠ f := by
      rintro rfl
      exact hg (hwd.owner_of_awaited t g hf)
    simp [InFlight, hne]
  · obtain rfl := Option.some.inj (hf.symm.trans hg)
    exact hwd.not_inFlight hq hh.1
  · obtain rfl := Option.some.inj (hf.symm.trans hg)
    exact hwd'.not_inFlight hq hh.1

/-- A task is to be cancelled when it runs again. -/
theorem Balanced.cancelTask (h : s.Balanced) (hwd : s.Wired) {t : Task}
    (hok : ∀ f, s.awaited t = some f → f ∈ s.queue.map Prod.snd ∨ s.futs f = .cancelled) :
    ({ s with mustCancel := Function.update s.mustCancel t true } : Sys Loop Task).Balanced := by
  refine h.alone (t := t) hwd.owner_of_awaited rfl rfl rfl rfl (fun u hu => by simp [hu]) (fun g _ => .rfl)
    (fun g hg hh => ?_) fun g hg hh => by simp [Handed] at hh
  rcases hok g hg with hq | hc
  · exact hwd.not_inFlight hq hh.1
  · rcases hh.1 with ⟨hp, -⟩ | hr <;> simp [hc] at *

/-- Every step that meets the condition keeps the balance. -/
theorem Move.balanced {a : Action Task} (hm : Move home s a s') (hwd : s.Wired) (h : s.Balanced)
    (hok : s.Ok a) : s'.Balanced := by
  have hwd' := hm.wired hwd
  have ho := hwd.owner_of_awaited
  have hdepth : ∀ {t : Task} {d : Nat}, (0 < d ↔ 0 < s.readerDepth t) → (s.setDepth t d).Balanced := by
    intro t d hd
    refine h.same rfl rfl (fun u => ?_) rfl fun u => takes_congr rfl fun f _ => .rfl
    by_cases hu : u = t
    · subst hu
      simp [hd]
    · simp [hu]
  cases hm with
  | enter hpc hd hp =>
    refine h.goto ho (by simp [awaited, hpc]) ?_
    rcases hp with rfl | rfl <;> rfl
  | again hpc hd => exact hdepth (by omega)
  | refuse => exact h
  | @acquireRead t s₁ hpc hw =>
    rcases hpc with ⟨hpc, rfl⟩ | ⟨hpc, rfl⟩
    all_goals
      exact h.enterRead hwd (t := t) (by simp [hpc]) (by simp [hpc, Pc.fut?]) hw rfl rfl rfl rfl rfl rfl fun f => .rfl
  | readBusy hpc => exact h.goto ho (by simp [awaited, hpc]) rfl
  | registerRead hpc => exact h.register hwd (by simp [hpc, Pc.fut?]) rfl rfl (.inl rfl) hwd' (by simp)
  | @removeRead t f hpc =>
    have hset : (s.setRaw { s.raw with readWaiters := retain f s.raw.readWaiters }).Balanced :=
      h.same rfl rfl (fun u => .rfl) rfl fun u => takes_congr rfl fun f _ => .rfl
    exact hset.goto ho (by simp [awaited, hpc]) rfl
  | @acquireWrite t s₁ hpc hw hr =>
    rcases hpc with ⟨hpc, rfl⟩ | ⟨hpc, rfl⟩
    all_goals
      exact h.enterWrite (t := t) (by simp [hpc, Pc.fut?]) hw hr rfl rfl rfl rfl rfl rfl fun f => .rfl
  | writeBusy hpc => exact h.goto ho (by simp [awaited, hpc]) rfl
  | registerWrite hpc => exact h.register hwd (by simp [hpc, Pc.fut?]) rfl rfl (.inr rfl) hwd' (by simp)
  | @removeWrite t f hpc =>
    have hset : (s.setRaw { s.raw with
        pendingWriters := (retain f s.raw.writeWaiters).length
        writeWaiters := retain f s.raw.writeWaiters }).Balanced :=
      h.same rfl rfl (fun u => .rfl) rfl fun u => takes_congr rfl fun f _ => .rfl
    exact hset.goto ho (by simp [awaited, hpc]) rfl
  | removeLastWrite hpc hf hw => exact h.removeLastWrite hwd hpc hw (hwd.ready_readers (hok _ hpc hf hw))
  | takeRead hpc hf hm => exact h.takeRead hpc hf hm
  | takeWrite hpc hf hm => exact h.takeWrite hpc hf hm
  | raise hpc hf hm => exact h.raise hwd hpc hf hm
  | exitInner hpc hd hpos => exact hdepth (by omega)
  | exitRead hpc hd => exact h.exitRead hpc hd
  | @exitLastRead t w ws hpc hd hw hr =>
    exact h.exitLastRead hwd hpc hd hr (hwd.ready_writer (by simp [hw]) (hok hd hr w (by simp [hw])))
  | exitWrite hpc ht => exact h.exitWrite hpc ht
  | @exitToWriter t w ws hpc ht hw =>
    exact h.exitToWriter hwd hpc ht (hwd.ready_writer (by simp [hw]) (hok.1 w (by simp [hw])))
  | exitToReaders hpc ht hw => exact h.exitToReaders hwd hpc ht (hwd.ready_readers (hok.2 hw))
  | @cancelFut t f hf hp => exact h.cancelFut hwd hwd' hf ((hok f hf).resolve_right (by simp [hp]))
  | cancelTask => exact h.cancelTask hwd hok
  | wake hi hp =>
    exact h.same rfl rfl (fun u => .rfl) rfl fun u => takes_congr rfl fun g _ =>
      and_congr_left fun _ => inFlight_wake hi hp g
  | skip hi hp =>
    exact h.same rfl rfl (fun u => .rfl) rfl fun u => takes_congr rfl fun g _ =>
      and_congr_left fun _ => inFlight_skip hi hp g

end Steps

end Sys

/-! ## Every run -/

section Runs

variable [DecidableEq Task] {home : Task → Loop} {s : Sys Loop Task}

theorem balanced_of_reachable (h : (tasks home).ReachableWhen (fun s => s.Ok) s) : s.Wired ∧ s.Balanced := by
  refine h.inv (I := fun s => s.Wired ∧ s.Balanced) (fun s hs => ?_) fun s a s' ⟨hw, hb⟩ hok hst => ?_
  · obtain rfl : s = Sys.new := hs
    exact ⟨Sys.wired_new, Sys.balanced_new⟩
  · have hm := Sys.move_of_step hw.pendingWriters hst
    exact ⟨hm.wired hw, hm.balanced hw hb hok⟩

/-- In every run that hands nothing to a cancelled future, and cancels no task
with a hand-off in flight to it: the readers counted are the tasks that hold a
read permit and the hand-offs in flight to tasks that will take them, and the
writer flag is set exactly when a task holds the write permit or a hand-off of
it is in flight. -/
theorem permits_accounted_for (h : (tasks home).ReachableWhen (fun s => s.Ok) s) :
    (s.raw.readers : ℕ∞) = {t | 0 < s.readerDepth t}.encard + {t | s.TakesRead t}.encard ∧
    (s.raw.writer = true ↔ ∃ t, s.writerTask = some t ∨ s.TakesWrite t) := by
  obtain ⟨hw, hb⟩ := balanced_of_reachable h
  refine ⟨?_, ?_⟩
  · have hd : Disjoint {t | 0 < s.readerDepth t} {t | s.TakesRead t} := by
      refine Set.disjoint_left.2 ?_
      rintro t ht ⟨f, hpc, -⟩
      have hzero := hw.depth t (by simp [hpc])
      simp [hzero] at ht
    rw [← Set.encard_union_eq hd]
    exact hb.readers
  · obtain ⟨o, ho, hown⟩ := hb.writer
    rw [ho, Option.isSome_iff_exists]
    exact exists_congr fun t => (hown t).symm

end Runs

/-- A reader that is cancelled while it is queued leaves no trace: the writer
leaves, and the other reader is handed the lock. -/
theorem permits_accounted_for_cancelled : ∃ s : Sys Unit (Fin 3),
    s.raw.readers = 1 ∧ s.pc 1 = .readAwait ⟨1, 0, false⟩ ∧
    (s.raw.readers : ℕ∞) = {t | 0 < s.readerDepth t}.encard + {t | s.TakesRead t}.encard ∧
    (s.raw.writer = true ↔ ∃ t, s.writerTask = some t ∨ s.TakesWrite t) := by
  have h : (tasks (fun _ => ())).ReachableWhen (fun s => s.Ok) (Sys.new : Sys Unit (Fin 3)) := .init rfl
  have h := h.next (.writer 0) trivial rfl
  have h := h.next (.advance 0) (fun f hpc => by cases hpc) rfl
  have h := h.next (.reader 1) trivial rfl
  have h := h.next (.advance 1) (fun f hpc => by cases hpc) rfl
  have h := h.next (.advance 1) (fun f hpc => by cases hpc) rfl
  have h := h.next (.reader 2) trivial rfl
  have h := h.next (.advance 2) (fun f hpc => by cases hpc) rfl
  have h := h.next (.advance 2) (fun f hpc => by cases hpc) rfl
  have h := h.next (.cancel 2) (fun f hf => by cases hf; exact .inl (by decide)) rfl
  have h := h.next (.resume 2) trivial rfl
  have h := h.next (.advance 2) (fun f hpc => by cases hpc) rfl
  have h := h.next (.exitWriter 0) ⟨by decide, by decide⟩ rfl
  exact ⟨_, rfl, rfl, permits_accounted_for h⟩

/-- Task `0` writes, task `1` waits to read; task `0` leaves and hands task `1`
the lock, and task `1` is cancelled before its wake runs. It leaves with a
`CancelledError`, and counts as a reader for ever. -/
theorem cancelled_reader_stays_counted : ∃ s : Sys Unit (Fin 2),
    (tasks (fun _ => ())).Reachable s ∧ (∀ t, s.pc t = .idle) ∧
      (s.raw.readers : ℕ∞) ≠ {t | 0 < s.readerDepth t}.encard + {t | s.TakesRead t}.encard := by
  obtain ⟨s, hr, hone, hall⟩ : ∃ s : Sys Unit (Fin 2), (tasks (fun _ => ())).Reachable s ∧
      s.raw.readers = 1 ∧ ∀ t, s.pc t = .idle ∧ s.readerDepth t = 0 :=
    System.exists_reachable_of_run [.writer 0, .advance 0, .reader 1, .advance 1, .advance 1,
      .exitWriter 0, .cancel 1, .resume 1, .advance 1, .wake 0] (s := Sys.new) rfl (by decide +kernel)
  refine ⟨s, hr, fun t => (hall t).1, ?_⟩
  have htakes : ∀ t, ¬ s.TakesRead t := fun t ⟨f, hpc, _⟩ => by simp [(hall t).1] at hpc
  simp [hone, htakes, fun t => (hall t).2]

end Multiloop.RWLock
