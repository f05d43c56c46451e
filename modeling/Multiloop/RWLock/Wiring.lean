import Multiloop.RWLock.Moves

/-!
# How futures, queues and tasks hang together

`Wired` holds in every state of every run of tasks over a lock: a queued
future is known to no scheduled callback, and is either cancelled, or pending
and awaited by its owner, which is not about to be cancelled.
-/

namespace Multiloop.RWLock

variable {Loop Task : Type}

/-- The future of a task's call. -/
def Pc.fut? : Pc Task → Option (Fut Task)
  | .readAwait f | .readRemove f | .writeAwait f | .writeRemove f => some f
  | _ => none

/-- The future a reader may have queued. -/
def Pc.reading? : Pc Task → Option (Fut Task)
  | .readAwait f | .readRemove f => some f
  | _ => none

/-- The future of a task that is queued for writing, or was. -/
def Pc.writing? : Pc Task → Option (Fut Task)
  | .writeAwait f | .writeRemove f => some f
  | _ => none

namespace Sys

open RWMutexInner

variable {s s' : Sys Loop Task} {home : Task → Loop}

/-- The registered waiters. -/
def queue (s : Sys Loop Task) : List (Waiter Loop (Fut Task)) := s.raw.readWaiters ++ s.raw.writeWaiters

/-- A queued future that is not to be woken: cancelled, or pending and awaited. -/
def Attached (s : Sys Loop Task) (f : Fut Task) : Prop :=
  f ∉ s.scheduled ∧ (s.futs f = .cancelled ∨
    s.futs f = .pending ∧ s.awaited f.owner = some f ∧ s.mustCancel f.owner = false)

/-- The queues, the futures and the places of the tasks agree. -/
structure Wired (s : Sys Loop Task) : Prop where
  pendingWriters : s.raw.pendingWriters = s.raw.writeWaiters.length
  nodup : (s.queue.map Prod.snd).Nodup
  reading : ∀ w ∈ s.raw.readWaiters, (s.pc w.2.owner).reading? = some w.2
  writing : ∀ w ∈ s.raw.writeWaiters, (s.pc w.2.owner).writing? = some w.2
  attached : ∀ w ∈ s.queue, s.Attached w.2
  owner : ∀ t f, (s.pc t).fut? = some f → f.owner = t ∧ f.serial < s.created t
  fresh : ∀ f, s.created f.owner ≤ f.serial → s.futs f = .pending ∧ f ∉ s.scheduled ∧ f ∉ s.queue.map Prod.snd
  depth : ∀ t, s.pc t ≠ .idle → s.readerDepth t = 0

theorem wired_new : Wired (Sys.new : Sys Loop Task) where
  pendingWriters := rfl
  nodup := by simp [queue, Sys.new, RWLock.new]
  reading := by simp [Sys.new, RWLock.new]
  writing := by simp [Sys.new, RWLock.new]
  attached := by simp [queue, Sys.new, RWLock.new]
  owner := by simp [Sys.new, Pc.fut?]
  fresh := by simp [queue, Sys.new, RWLock.new]
  depth := by simp [Sys.new]

theorem awaited_eq_some {t : Task} {f : Fut Task} :
    s.awaited t = some f ↔ s.pc t = .readAwait f ∨ s.pc t = .writeAwait f := by
  unfold awaited
  split <;> simp_all

theorem awaited_fut? {t : Task} {f : Fut Task} (h : s.awaited t = some f) : (s.pc t).fut? = some f := by
  rcases awaited_eq_some.1 h with hpc | hpc <;> simp [hpc, Pc.fut?]

/-- A queued future belongs to a reader or a writer that waits for it. -/
theorem Wired.queued_owner (h : s.Wired) {w : Waiter Loop (Fut Task)} (hw : w ∈ s.queue) :
    (s.pc w.2.owner).fut? = some w.2 := by
  rcases List.mem_append.1 hw with hw | hw
  · have hr := h.reading w hw
    cases hpc : s.pc w.2.owner <;> simp_all [Pc.reading?, Pc.fut?]
  · have hr := h.writing w hw
    cases hpc : s.pc w.2.owner <;> simp_all [Pc.writing?, Pc.fut?]

/-- A future that a task does not write with is not among the queued writers'. -/
theorem Wired.ne_of_writing (h : s.Wired) {w : Waiter Loop (Fut Task)} (hw : w ∈ s.raw.writeWaiters)
    {t : Task} {f : Fut Task} (hf : (s.pc t).fut? = some f) (hn : (s.pc t).writing? = none) : w.2 ≠ f := by
  rintro rfl
  obtain ⟨rfl, -⟩ := h.owner t _ hf
  simp [h.writing w hw] at hn

theorem Wired.ne_of_reading (h : s.Wired) {w : Waiter Loop (Fut Task)} (hw : w ∈ s.raw.readWaiters)
    {t : Task} {f : Fut Task} (hf : (s.pc t).fut? = some f) (hn : (s.pc t).reading? = none) : w.2 ≠ f := by
  rintro rfl
  obtain ⟨rfl, -⟩ := h.owner t _ hf
  simp [h.reading w hw] at hn

theorem Wired.not_queued_of_result (h : s.Wired) {t : Task} {f : Fut Task} (hf : (s.pc t).fut? = some f)
    (hr : s.futs f = .result ()) : ∀ w ∈ s.queue, w.2.owner ≠ t := by
  rintro w hm rfl
  have ho := h.queued_owner hm
  rw [hf] at ho
  cases ho
  rcases (h.attached w hm).2 with hc | ⟨hp, -⟩ <;> simp [hr] at *

theorem not_pending_of_awaited {t : Task} {f : Fut Task} (hf : (s.pc t).fut? = some f)
    (hp : s.futs f ≠ .pending) : ∀ g, s.awaited t = some g → s.futs g ≠ .pending := by
  intro g hg
  have hg' := awaited_fut? hg
  rw [hf] at hg'
  cases hg'
  exact hp

/-- The next writer is no longer queued once it is taken off. -/
theorem Wired.head_writer (h : s.Wired) {w : Waiter Loop (Fut Task)} {ws : List (Waiter Loop (Fut Task))}
    (hw : s.raw.writeWaiters = w :: ws) :
    ∀ v ∈ [w], v ∈ s.queue ∧ v.2 ∉ (s.raw.readWaiters ++ ws).map Prod.snd := by
  intro v hv
  obtain rfl := List.mem_singleton.1 hv
  have hnd := h.nodup
  rw [queue, hw, (List.perm_middle.map _).nodup_iff] at hnd
  exact ⟨List.mem_append_right _ (by simp [hw]), (List.nodup_cons.1 hnd).1⟩

/-! ## The updates of a step -/

/-- A Rust call that registers nobody: `ws` are taken off the queues and woken. -/
theorem Wired.release (h : s.Wired) (raw : RWMutexInner Loop (Fut Task)) {ws : List (Waiter Loop (Fut Task))}
    (hp : raw.pendingWriters = raw.writeWaiters.length)
    (hr : raw.readWaiters.Sublist s.raw.readWaiters) (hw : raw.writeWaiters.Sublist s.raw.writeWaiters)
    (hq : ∀ w ∈ ws, w ∈ s.queue ∧ w.2 ∉ (raw.readWaiters ++ raw.writeWaiters).map Prod.snd) :
    (wakeAll { s with raw } (some ws)).Wired := by
  have hsub : (raw.readWaiters ++ raw.writeWaiters).Sublist s.queue := hr.append hw
  have hsched : ∀ f, f ∈ (wakeAll { s with raw } (some ws)).scheduled →
      f ∈ s.scheduled ∨ ∃ w ∈ ws, w.2 = f := by
    intro f hf
    rcases List.mem_append.1 hf with hf | hf
    · exact .inl hf
    · obtain ⟨w, hw, he⟩ := List.mem_filterMap.1 hf
      split at he <;> cases he
      exact .inr ⟨w, hw, rfl⟩
  refine ⟨hp, h.nodup.sublist (hsub.map _), fun w hm => h.reading w (hr.subset hm),
    fun w hm => h.writing w (hw.subset hm), fun w hm => ?_, h.owner, fun f hf => ?_, h.depth⟩
  · obtain ⟨hs, ha⟩ := h.attached w (hsub.subset hm)
    refine ⟨fun hf => ?_, ha⟩
    rcases hsched _ hf with hf | ⟨v, hv, e⟩
    · exact hs hf
    · exact (hq v hv).2 (List.mem_map.2 ⟨w, hm, e.symm⟩)
  · obtain ⟨hp, hs, hq'⟩ := h.fresh f hf
    refine ⟨hp, fun hf' => ?_, fun hf' => hq' ((hsub.map _).subset hf')⟩
    rcases hsched _ hf' with hf' | ⟨v, hv, e⟩
    · exact hs hf'
    · exact hq' (List.mem_map.2 ⟨v, (hq v hv).1, e⟩)

/-- A Rust call that wakes and registers nobody. -/
theorem Wired.setRaw (h : s.Wired) (raw : RWMutexInner Loop (Fut Task))
    (hp : raw.pendingWriters = raw.writeWaiters.length)
    (hr : raw.readWaiters.Sublist s.raw.readWaiters) (hw : raw.writeWaiters.Sublist s.raw.writeWaiters) :
    Wired { s with raw } := by
  have hrel := h.release raw hp hr hw fun w (hm : w ∈ ([] : List (Waiter Loop (Fut Task)))) => by cases hm
  simpa [wakeAll] using hrel

theorem Wired.writerTask (h : s.Wired) (wt : Option Task) : Wired { s with writerTask := wt } :=
  ⟨h.1, h.2, h.3, h.4, h.5, h.6, h.7, h.8⟩

variable [DecidableEq Task]

theorem Wired.setDepth (h : s.Wired) {t : Task} {d : Nat} (hd : s.pc t = .idle ∨ d = s.readerDepth t) :
    (s.setDepth t d).Wired := by
  refine ⟨h.1, h.2, h.3, h.4, h.5, h.6, h.7, fun u hu => ?_⟩
  by_cases ht : u = t
  · subst ht
    rcases hd with hd | rfl
    · exact absurd hd hu
    · simpa using h.depth u hu
  · simpa [ht] using h.depth u hu

/-- Task `t` goes on, and keeps what it may have queued. -/
theorem Wired.setPc (h : s.Wired) {t : Task} {p : Pc Task} {b : Bool} {d : Nat}
    (ha : ∀ f, s.awaited t = some f → s.futs f ≠ .pending)
    (hr : ∀ w ∈ s.raw.readWaiters, w.2.owner = t → p.reading? = some w.2)
    (hw : ∀ w ∈ s.raw.writeWaiters, w.2.owner = t → p.writing? = some w.2)
    (ho : ∀ f, p.fut? = some f → f.owner = t ∧ f.serial < s.created t) (hd : p ≠ .idle → d = 0) :
    Wired { s with
      pc := Function.update s.pc t p
      mustCancel := Function.update s.mustCancel t b
      readerDepth := Function.update s.readerDepth t d } where
  pendingWriters := h.pendingWriters
  nodup := h.nodup
  reading w hm := by
    by_cases ht : w.2.owner = t
    · simpa [ht] using hr w hm ht
    · simpa [ht] using h.reading w hm
  writing w hm := by
    by_cases ht : w.2.owner = t
    · simpa [ht] using hw w hm ht
    · simpa [ht] using h.writing w hm
  attached w hm := by
    refine (h.attached w hm).imp_right (Or.imp_right fun ⟨hp, haw, hmc⟩ => ?_)
    have ht : w.2.owner ≠ t := by
      rintro rfl
      exact ha _ haw hp
    exact ⟨hp, by simpa [awaited, ht] using haw, by simpa [ht] using hmc⟩
  owner u f hf := by
    by_cases hu : u = t
    · subst hu
      exact ho f (by simpa using hf)
    · exact h.owner u f (by simpa [hu] using hf)
  fresh := h.fresh
  depth u hu := by
    by_cases ht : u = t
    · subst ht
      simpa using hd (by simpa using hu)
    · simpa [ht] using h.depth u (by simpa [ht] using hu)

/-- A task with no future queued goes on. -/
theorem Wired.leave (h : s.Wired) {t : Task} {p : Pc Task} {b : Bool} {d : Nat}
    (hn : ∀ w ∈ s.queue, w.2.owner ≠ t) (ha : ∀ f, s.awaited t = some f → s.futs f ≠ .pending)
    (ho : ∀ f, p.fut? = some f → f.owner = t ∧ f.serial < s.created t) (hd : p ≠ .idle → d = 0) :
    Wired { s with
      pc := Function.update s.pc t p
      mustCancel := Function.update s.mustCancel t b
      readerDepth := Function.update s.readerDepth t d } :=
  h.setPc ha (fun w hm e => absurd e (hn w (List.mem_append_left _ hm)))
    (fun w hm e => absurd e (hn w (List.mem_append_right _ hm))) ho hd

omit [DecidableEq Task] in
theorem Wired.not_queued (h : s.Wired) {t : Task} (hf : (s.pc t).fut? = none) :
    ∀ w ∈ s.queue, w.2.owner ≠ t := by
  rintro w hm rfl
  simp [h.queued_owner hm] at hf

omit [DecidableEq Task] in
theorem not_awaited_of_fut? {t : Task} (hf : (s.pc t).fut? = none) :
    ∀ f, s.awaited t = some f → s.futs f ≠ .pending := by
  intro f haw
  simp [awaited_fut? haw] at hf

/-- A task goes on and awaits nothing. -/
theorem Wired.proceed (h : s.Wired) {t : Task} {p : Pc Task} (hn : ∀ w ∈ s.queue, w.2.owner ≠ t)
    (ha : ∀ f, s.awaited t = some f → s.futs f ≠ .pending) (hp : p.fut? = none)
    (hd : p ≠ .idle → s.readerDepth t = 0) : (s.goto t p).Wired := by
  simpa [Sys.goto] using h.leave (b := s.mustCancel t) (d := s.readerDepth t) hn ha (by simp [hp]) hd

/-- A task without a future goes on. -/
theorem Wired.goto (h : s.Wired) {t : Task} {p : Pc Task} (hf : (s.pc t).fut? = none)
    (hp : p.fut? = none) (hd : p ≠ .idle → s.readerDepth t = 0) : (s.goto t p).Wired :=
  h.proceed (h.not_queued hf) (not_awaited_of_fut? hf) hp hd

theorem Wired.createFuture (h : s.Wired) (t : Task) : (s.createFuture t).2.Wired := by
  have hle : ∀ u, s.created u ≤ (s.createFuture t).2.created u := fun u => by
    by_cases hu : u = t <;> simp [Sys.createFuture, hu]
  exact ⟨h.1, h.2, h.3, h.4, h.5, fun u f hf => ⟨(h.owner u f hf).1,
    Nat.lt_of_lt_of_le (h.owner u f hf).2 (hle u)⟩, fun f hf => h.fresh f (Nat.le_trans (hle _) hf), h.8⟩

/-- Task `t` starts to await a future that is not queued. -/
theorem Wired.await (h : s.Wired) {t : Task} {f : Fut Task} {p : Pc Task} (hn : (s.pc t).fut? = none)
    (hq : f ∉ s.queue.map Prod.snd) (ho : f.owner = t ∧ f.serial < s.created t)
    (hp : p = .readAwait f ∨ p = .writeAwait f) (hd : s.readerDepth t = 0) : (s.await t f p).Wired := by
  have hfut : p.fut? = some f := by rcases hp with rfl | rfl <;> rfl
  have hpc : Wired { s with
      pc := Function.update s.pc t p, mustCancel := Function.update s.mustCancel t false } := by
    have hset := h.leave (p := p) (b := false) (d := s.readerDepth t) (h.not_queued hn)
      (not_awaited_of_fut? hn) (fun g hg => by rw [hfut] at hg; cases hg; exact ho) fun _ => hd
    simpa using hset
  by_cases hm : s.mustCancel t = true
  · have hne : ∀ w ∈ s.queue, w.2 ≠ f := fun w hw e => hq (List.mem_map.2 ⟨w, hw, e⟩)
    have e : s.await t f p = ({ s with
        pc := Function.update s.pc t p, mustCancel := Function.update s.mustCancel t false } :
          Sys Loop Task).withFut f .cancelled := by simp [Sys.await, hm]
    rw [e]
    refine ⟨hpc.1, hpc.2, hpc.3, hpc.4, fun w hw => ?_, hpc.6, fun g hg => ?_, hpc.8⟩
    · simpa [Attached, awaited, hne w hw] using hpc.attached w hw
    · have hgf : g ≠ f := by
        rintro rfl
        have : s.created g.owner ≤ g.serial := hg
        rw [ho.1] at this
        omega
      simpa [queue, hgf] using hpc.fresh g hg
  · simpa [Sys.await, hm] using hpc

/-- What a task starts to await is attached to it. -/
theorem attached_await {t : Task} {f : Fut Task} {p : Pc Task} (ho : f.owner = t)
    (hs : f ∉ s.scheduled) (hf : s.futs f = .pending) (hp : p = .readAwait f ∨ p = .writeAwait f) :
    (s.await t f p).Attached f := by
  refine ⟨hs, ?_⟩
  by_cases hm : s.mustCancel t = true
  · exact .inl (by simp [Sys.await, hm])
  · refine .inr ⟨by simpa [Sys.await, hm] using hf, awaited_eq_some.2 ?_, by simp [Sys.await, ho]⟩
    simpa [Sys.await, ho] using hp

/-- A pending future is completed or cancelled; it is queued only if cancelled. -/
theorem Wired.withFut (h : s.Wired) {f : Fut Task} {st : FutState Unit}
    (hq : f ∈ s.queue.map Prod.snd → st = .cancelled) (hc : f.serial < s.created f.owner) :
    (s.withFut f st).Wired := by
  refine ⟨h.1, h.2, h.3, h.4, fun w hw => ?_, h.6, fun g hg => ?_, h.8⟩
  · by_cases e : w.2 = f
    · refine ⟨(h.attached w hw).1, .inl ?_⟩
      simpa [e] using hq (List.mem_map.2 ⟨w, hw, e⟩)
    · simpa [Attached, awaited, e] using h.attached w hw
  · have hgf : g ≠ f := by
      rintro rfl
      exact absurd hg (Nat.not_le.2 hc)
    simpa [queue, hgf] using h.fresh g hg

omit [DecidableEq Task] in
theorem Wired.created_of_scheduled (h : s.Wired) {f : Fut Task} (hf : f ∈ s.scheduled) :
    f.serial < s.created f.owner := by
  by_contra hlt
  exact (h.fresh f (Nat.not_lt.1 hlt)).2.1 hf

omit [DecidableEq Task] in
theorem Wired.unschedule (h : s.Wired) (i : Nat) : (s.unscheduled i).Wired :=
  ⟨h.1, h.2, h.3, h.4, fun w hw => ⟨fun hm => (h.attached w hw).1 (List.mem_of_mem_eraseIdx hm),
    (h.attached w hw).2⟩, h.6, fun f hf => ⟨(h.fresh f hf).1,
    fun hm => (h.fresh f hf).2.1 (List.mem_of_mem_eraseIdx hm), (h.fresh f hf).2.2⟩, h.8⟩

/-! ## Every step -/

/-- The lock is taken at once. -/
theorem Wired.acquire (h : s.Wired) {t : Task} {r : RWMutexInner Loop (Fut Task)} (d : Nat)
    (hf : (s.pc t).fut? = none) (hp : r.pendingWriters = r.writeWaiters.length)
    (hr : r.readWaiters.Sublist s.raw.readWaiters)
    (hw : r.writeWaiters.Sublist s.raw.writeWaiters) :
    Wired { s with
      raw := r
      pc := Function.update s.pc t .idle
      readerDepth := Function.update s.readerDepth t d } := by
  have h' := h.setRaw r hp hr hw
  simpa using h'.leave (b := s.mustCancel t) (d := d) (h'.not_queued hf) (not_awaited_of_fut? hf)
    (p := .idle) (by simp [Pc.fut?]) (by simp)

/-- A task queues a new future and awaits it. -/
theorem Wired.register (h : s.Wired) {t : Task} {p : Pc Task} {raw : RWMutexInner Loop (Fut Task)}
    (hn : (s.pc t).fut? = none) (hi : s.pc t ≠ .idle)
    (hpw : raw.pendingWriters = raw.writeWaiters.length)
    (hp : p = .readAwait (s.createFuture t).1 ∨ p = .writeAwait (s.createFuture t).1)
    (hq : ((raw.readWaiters ++ raw.writeWaiters).map Prod.snd).Perm
      ((s.createFuture t).1 :: s.queue.map Prod.snd))
    (hr : ∀ w ∈ raw.readWaiters, w ∈ s.raw.readWaiters ∨ w.2 = (s.createFuture t).1 ∧ p.reading? = some w.2)
    (hw : ∀ w ∈ raw.writeWaiters, w ∈ s.raw.writeWaiters ∨
      w.2 = (s.createFuture t).1 ∧ p.writing? = some w.2) :
    (((s.createFuture t).2.setRaw raw).await t (s.createFuture t).1 p).Wired := by
  set f := (s.createFuture t).1
  obtain ⟨hf, hs, hnq⟩ := h.fresh f (Nat.le_refl _)
  have haw : ((s.createFuture t).2.await t f p).Wired :=
    (h.createFuture t).await hn hnq ⟨rfl, by simp [f, Sys.createFuture]⟩ hp (h.depth t hi)
  have hatt : ((s.createFuture t).2.await t f p).Attached f := attached_await rfl hs hf hp
  have hpc : ((s.createFuture t).2.await t f p).pc f.owner = p := by
    simp [Sys.await, f, Sys.createFuture]
  have hmem : ∀ g, g ∈ (raw.readWaiters ++ raw.writeWaiters).map Prod.snd →
      g = f ∨ ∃ w ∈ s.queue, w.2 = g := fun g hg =>
    (List.mem_cons.1 (hq.subset hg)).imp_right List.mem_map.1
  refine ⟨hpw, hq.nodup_iff.2 (List.nodup_cons.2 ⟨hnq, h.nodup⟩), fun w hm => ?_, fun w hm => ?_,
    fun w hm => ?_, haw.6, fun g hg => ?_, haw.8⟩
  · rcases hr w hm with hm | ⟨e, hpr⟩
    · exact haw.reading w hm
    · rw [e] at hpr ⊢
      exact (congrArg Pc.reading? hpc).trans hpr
  · rcases hw w hm with hm | ⟨e, hpr⟩
    · exact haw.writing w hm
    · rw [e] at hpr ⊢
      exact (congrArg Pc.writing? hpc).trans hpr
  · rcases hmem w.2 (List.mem_map_of_mem hm) with e | ⟨v, hv, e⟩
    · exact e ▸ hatt
    · exact e ▸ haw.attached v hv
  · obtain ⟨hp', hs', hq'⟩ := haw.fresh g hg
    refine ⟨hp', hs', fun hm => ?_⟩
    rcases hmem g hm with rfl | ⟨v, hv, e⟩
    · exact absurd hg (by simp [f, Sys.await, Sys.createFuture])
    · exact hq' (List.mem_map.2 ⟨v, hv, e⟩)

/-- A cancelled waiter takes its future off the queues, if it is there. -/
theorem Wired.remove (h : s.Wired) {t : Task} {f : Fut Task} {raw : RWMutexInner Loop (Fut Task)}
    {ws : List (Waiter Loop (Fut Task))} (hf : (s.pc t).fut? = some f) (ha : ∀ f, s.awaited t ≠ some f)
    (hp : raw.pendingWriters = raw.writeWaiters.length)
    (hr : raw.readWaiters.Sublist s.raw.readWaiters) (hw : raw.writeWaiters.Sublist s.raw.writeWaiters)
    (hq : ∀ w ∈ ws, w ∈ s.queue ∧ w.2 ∉ (raw.readWaiters ++ raw.writeWaiters).map Prod.snd)
    (hn : ∀ w ∈ raw.readWaiters ++ raw.writeWaiters, w.2 ≠ f) :
    ((wakeAll (s.setRaw raw) (some ws)).goto t .idle).Wired := by
  refine (h.release raw hp hr hw hq).proceed (fun w hm ht => hn w hm ?_) (fun g hg => absurd hg (ha g)) rfl
    (by simp)
  have ho := h.queued_owner ((hr.append hw).subset hm)
  rw [ht, hf] at ho
  exact (Option.some.inj ho).symm

/-- Every step keeps `Wired`. -/
theorem Move.wired {a : Action Task} (hm : Move home s a s') (h : s.Wired) : s'.Wired := by
  cases hm with
  | enter hpc hd hp =>
    refine h.goto (by simp [hpc, Pc.fut?]) ?_ fun _ => hd
    rcases hp with rfl | rfl <;> rfl
  | again hpc => exact h.setDepth (.inl hpc)
  | refuse => exact h
  | @acquireRead t s₁ hpc hw =>
    rcases hpc with ⟨hpc, rfl⟩ | ⟨hpc, rfl⟩
    · exact h.acquire 1 (by simp [hpc, Pc.fut?]) h.pendingWriters (.refl _) (.refl _)
    · exact (h.createFuture t).acquire 1 (by simp [Sys.createFuture, hpc, Pc.fut?]) h.pendingWriters
        (.refl _) (.refl _)
  | @readBusy t hpc => exact h.goto (by simp [hpc, Pc.fut?]) rfl fun _ => h.depth t (by simp [hpc])
  | @registerRead t hpc =>
    refine h.register (by simp [hpc, Pc.fut?]) (by simp [hpc]) h.pendingWriters (.inl rfl) ?_
      (fun w hm => ?_) fun w hm => .inl hm
    · simp [queue]
    · rcases List.mem_append.1 hm with hm | hm
      · exact .inl hm
      · obtain rfl := List.mem_singleton.1 hm
        exact .inr ⟨rfl, rfl⟩
  | @removeRead t f hpc =>
    rw [← wakeAll_none (s := s.setRaw _)]
    refine h.remove (f := f) (by simp [hpc, Pc.fut?]) (by simp [awaited, hpc]) h.pendingWriters
      List.filter_sublist (.refl _) (fun w hm => by cases hm) fun w hm => ?_
    rcases List.mem_append.1 hm with hm | hm
    · simpa using (List.mem_filter.1 hm).2
    · exact h.ne_of_writing hm (t := t) (by simp [hpc, Pc.fut?]) (by simp [hpc, Pc.writing?])
  | @acquireWrite t s₁ hpc hw hr =>
    rcases hpc with ⟨hpc, rfl⟩ | ⟨hpc, rfl⟩
    · have hacq := h.acquire (t := t) (r := { s₁.raw with writer := true }) (s₁.readerDepth t)
        (by simp [hpc, Pc.fut?]) h.pendingWriters (.refl _) (.refl _)
      simpa [enterWriter] using hacq.writerTask (some t)
    · have hacq := (h.createFuture t).acquire (t := t) (r := { s.raw with writer := true }) (s.readerDepth t)
        (by simp [Sys.createFuture, hpc, Pc.fut?]) h.pendingWriters (.refl _) (.refl _)
      simpa [enterWriter, Sys.createFuture] using hacq.writerTask (some t)
  | @writeBusy t hpc => exact h.goto (by simp [hpc, Pc.fut?]) rfl fun _ => h.depth t (by simp [hpc])
  | @registerWrite t hpc =>
    refine h.register (by simp [hpc, Pc.fut?]) (by simp [hpc]) (by simp [h.pendingWriters])
      (.inr rfl) ?_ (fun w hm => .inl hm) fun w hm => ?_
    · simp only [queue, List.map_append, ← List.append_assoc]
      exact List.perm_append_singleton _ _
    · rcases List.mem_append.1 hm with hm | hm
      · exact .inl hm
      · obtain rfl := List.mem_singleton.1 hm
        exact .inr ⟨rfl, rfl⟩
  | @removeWrite t f hpc =>
    rw [← wakeAll_none (s := s.setRaw _)]
    refine h.remove (f := f) (by simp [hpc, Pc.fut?]) (by simp [awaited, hpc]) rfl
      (.refl _) List.filter_sublist (fun w hm => by cases hm) fun w hm => ?_
    rcases List.mem_append.1 hm with hm | hm
    · exact h.ne_of_reading hm (t := t) (by simp [hpc, Pc.fut?]) (by simp [hpc, Pc.reading?])
    · simpa using (List.mem_filter.1 hm).2
  | @removeLastWrite t f hpc hf hw =>
    refine h.remove (f := f) (by simp [hpc, Pc.fut?]) (by simp [awaited, hpc]) rfl
      (List.nil_sublist _) (List.nil_sublist _) (fun w hm => ?_) (by simp)
    exact ⟨List.mem_append_left _ hm, by simp⟩
  | @takeRead t f hpc hf hm =>
    have htake := h.leave (b := s.mustCancel t) (d := 1) (h.not_queued_of_result (t := t) (by simp [hpc, Pc.fut?]) hf)
      (not_pending_of_awaited (f := f) (by simp [hpc, Pc.fut?]) (by simp [hf])) (p := .idle) (by simp [Pc.fut?]) (by simp)
    simpa [enterReader] using htake
  | @takeWrite t f hpc hf hm =>
    have htake := h.proceed (h.not_queued_of_result (t := t) (by simp [hpc, Pc.fut?]) hf)
      (not_pending_of_awaited (f := f) (by simp [hpc, Pc.fut?]) (by simp [hf])) (p := .idle) rfl (by simp)
    exact htake.writerTask (some t)
  | @raise t f p hpc hf hm =>
    have hfut : (s.pc t).fut? = some f ∧ p.fut? = some f ∧ p.reading? = (s.pc t).reading? ∧
        p.writing? = (s.pc t).writing? := by
      rcases hpc with ⟨hpc, rfl⟩ | ⟨hpc, rfl⟩ <;> simp [hpc, Pc.fut?, Pc.reading?, Pc.writing?]
    obtain ⟨hold, hnew, hread, hwrite⟩ := hfut
    have hi : s.pc t ≠ .idle := by
      intro hidle
      simp [hidle, Pc.fut?] at hold
    have hset := h.setPc (t := t) (p := p) (b := false) (d := s.readerDepth t) (not_pending_of_awaited hold hf)
      (fun w hw e => by rw [hread, ← e]; exact h.reading w hw)
      (fun w hw e => by rw [hwrite, ← e]; exact h.writing w hw)
      (fun g hg => by rw [hnew] at hg; cases hg; exact h.owner t _ hold) fun _ => h.depth t hi
    simpa [Sys.raise] using hset
  | exitInner hpc hd hpos => exact h.setDepth (.inl hpc)
  | exitRead hpc hd =>
    exact Wired.setDepth (h.setRaw { s.raw with readers := s.raw.readers - 1 } h.pendingWriters (.refl _)
      (.refl _)) (.inl hpc)
  | @exitLastRead t w ws hpc hd hw hr =>
    have hrel := h.release
      { s.raw with readers := 0, writer := true, pendingWriters := ws.length, writeWaiters := ws } rfl (.refl _)
      (hw ▸ List.sublist_cons_self w ws) (h.head_writer hw)
    exact Wired.setDepth hrel (.inl hpc)
  | exitWrite hpc ht =>
    exact (h.setRaw { s.raw with writer := false } h.pendingWriters (.refl _) (.refl _)).writerTask none
  | @exitToWriter t w ws hpc ht hw =>
    have hrel := h.release
      { s.raw with writer := true, pendingWriters := ws.length, writeWaiters := ws } rfl (.refl _)
      (hw ▸ List.sublist_cons_self w ws) (h.head_writer hw)
    exact hrel.writerTask none
  | exitToReaders hpc ht hw =>
    have hrel := h.release { s.raw with
        writer := false
        readWaiters := []
        readers := s.raw.readers + s.raw.readWaiters.length } h.pendingWriters (List.nil_sublist _) (.refl _)
      fun w hm => ⟨List.mem_append_left _ hm, by simp [hw]⟩
    exact hrel.writerTask none
  | @cancelFut t f hf hp =>
    obtain ⟨rfl, hc⟩ := h.owner t f (awaited_fut? hf)
    exact h.withFut (fun _ => rfl) hc
  | @cancelTask t ha =>
    have hset := h.setPc (t := t) (p := s.pc t) (b := true) (d := s.readerDepth t) ha
      (fun w hw e => e ▸ h.reading w hw) (fun w hw e => e ▸ h.writing w hw) (h.owner t) (h.depth t)
    simpa using hset
  | @wake i f hi hp =>
    have hmem := List.mem_of_getElem? hi
    refine (h.unschedule i).withFut (fun hq => ?_) (h.created_of_scheduled hmem)
    obtain ⟨w, hw, rfl⟩ := List.mem_map.1 hq
    exact absurd hmem (h.attached w hw).1
  | skip hi hp => exact h.unschedule _

end Sys

end Multiloop.RWLock
