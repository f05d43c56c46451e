import Multiloop.RWLock.Tasks

/-!
# What a step of a task can do

`Move` lists the steps of tasks over a lock, one constructor for each way a
call can go. `move_of_step` is the one place that takes the steps of
`Tasks.lean` apart; it needs that `pending_writers` counts the queued writers.
-/

namespace Multiloop.RWLock

variable {Loop Task : Type}

/-! ## The branches of the Rust methods -/

namespace RWMutexInner

variable {Fut : Type} {s : RWMutexInner Loop Fut}

theorem tryAcquireRead_cases :
    (s.writer = false ∧ s.tryAcquireRead = (true, { s with readers := s.readers + 1 })) ∨
    s.tryAcquireRead = (false, s) := by
  unfold tryAcquireRead
  split
  · rename_i h
    exact .inl ⟨by simpa using h.1, rfl⟩
  · exact .inr rfl

theorem acquireReadOrRegister_cases (l : Loop) (f : Fut) :
    (s.writer = false ∧ s.acquireReadOrRegister l f = (true, { s with readers := s.readers + 1 })) ∨
    s.acquireReadOrRegister l f = (false, { s with readWaiters := s.readWaiters ++ [(l, f)] }) := by
  unfold acquireReadOrRegister
  split
  · rename_i h
    exact .inl ⟨by simpa using h.1, rfl⟩
  · exact .inr rfl

theorem tryAcquireWrite_cases :
    (s.writer = false ∧ s.readers = 0 ∧ s.tryAcquireWrite = (true, { s with writer := true })) ∨
    s.tryAcquireWrite = (false, s) := by
  unfold tryAcquireWrite
  split
  · rename_i h
    exact .inl ⟨by simpa using h.1, h.2.1, rfl⟩
  · exact .inr rfl

theorem acquireWriteOrRegister_cases (l : Loop) (f : Fut) :
    (s.writer = false ∧ s.readers = 0 ∧ s.acquireWriteOrRegister l f = (true, { s with writer := true })) ∨
    s.acquireWriteOrRegister l f = (false, { s with
      pendingWriters := s.pendingWriters + 1, writeWaiters := s.writeWaiters ++ [(l, f)] }) := by
  unfold acquireWriteOrRegister
  split
  · rename_i h
    exact .inl ⟨by simpa using h.1, h.2.1, rfl⟩
  · exact .inr rfl

theorem releaseRead_cases (hp : s.pendingWriters = s.writeWaiters.length) :
    (∃ w ws, s.writeWaiters = w :: ws ∧ s.readers ≤ 1 ∧ s.releaseRead = (some [w],
      { s with readers := 0, writer := true, pendingWriters := ws.length, writeWaiters := ws })) ∨
    (s.releaseRead = (none, { s with readers := s.readers - 1 })) := by
  unfold releaseRead
  have hr : (if s.readers > 0 then s.readers - 1 else s.readers) = s.readers - 1 := by
    split <;> omega
  rw [hr]
  rcases hw : s.writeWaiters with _ | ⟨w, ws⟩
  · right
    cases s.readers - 1 <;> rfl
  · rcases hn : s.readers - 1 with _ | n
    · refine .inl ⟨w, ws, rfl, by omega, ?_⟩
      simp [hp, hw]
    · exact .inr rfl

theorem releaseWrite_cases (hp : s.pendingWriters = s.writeWaiters.length) :
    (∃ w ws, s.writeWaiters = w :: ws ∧ s.releaseWrite = (some [w],
      { s with writer := true, pendingWriters := ws.length, writeWaiters := ws })) ∨
    (s.writeWaiters = [] ∧ s.releaseWrite = (some s.readWaiters,
      { s with writer := false, readWaiters := [], readers := s.readers + s.readWaiters.length })) ∨
    (s.writeWaiters = [] ∧ s.readWaiters = [] ∧ s.releaseWrite = (none, { s with writer := false })) := by
  unfold releaseWrite
  rcases hw : s.writeWaiters with _ | ⟨w, ws⟩
  · rcases hr : s.readWaiters with _ | ⟨r, rs⟩
    · exact .inr (.inr ⟨rfl, rfl, rfl⟩)
    · exact .inr (.inl ⟨rfl, rfl⟩)
  · exact .inl ⟨w, ws, rfl, by simp [hp, hw]⟩

variable [DecidableEq Fut]

/-- Waking no readers and waking none of them is the same. -/
theorem removeWaiter_cases (hp : s.pendingWriters = s.writeWaiters.length) (f : Fut) :
    (retain f s.writeWaiters = [] ∧ s.writer = false ∧ s.removeWaiter f true = (some s.readWaiters,
      { s with pendingWriters := 0, writeWaiters := [], readWaiters := [],
               readers := s.readers + s.readWaiters.length })) ∨
    (s.removeWaiter f true = (none,
      { s with pendingWriters := (retain f s.writeWaiters).length,
               writeWaiters := retain f s.writeWaiters })) := by
  have hle : (retain f s.writeWaiters).length ≤ s.writeWaiters.length := List.length_filter_le _ _
  have hpend : (if s.writeWaiters.length - (retain f s.writeWaiters).length > 0 ∧
      s.pendingWriters ≥ s.writeWaiters.length - (retain f s.writeWaiters).length then
      s.pendingWriters - (s.writeWaiters.length - (retain f s.writeWaiters).length)
      else s.pendingWriters) = (retain f s.writeWaiters).length := by
    split <;> omega
  unfold removeWaiter
  simp only [if_true]
  rw [hpend]
  rcases hr : s.readWaiters with _ | ⟨r, rs⟩
  · exact .inr rfl
  · by_cases hc : (retain f s.writeWaiters).length = 0 ∧ s.writer = false
    · obtain ⟨hlen, hw⟩ := hc
      have hnil := List.length_eq_zero_iff.1 hlen
      exact .inl ⟨hnil, hw, by simp [hnil, hw]⟩
    · refine .inr ?_
      have hc' : ¬ ((retain f s.writeWaiters).length = 0 ∧ ¬ s.writer = true) := by simpa using hc
      simp only [hc', if_false, ← hr]

end RWMutexInner

namespace Sys

open RWMutexInner

variable [DecidableEq Task]

/-- What the Rust call leaves behind. -/
abbrev setRaw (s : Sys Loop Task) (raw : RWMutexInner Loop (Fut Task)) : Sys Loop Task := { s with raw }

/-- `_reader_depth` of a task. -/
abbrev setDepth (s : Sys Loop Task) (t : Task) (d : Nat) : Sys Loop Task :=
  { s with readerDepth := Function.update s.readerDepth t d }

/-- A future is done. -/
abbrev withFut (s : Sys Loop Task) (f : Fut Task) (st : FutState Unit) : Sys Loop Task :=
  { s with futs := Function.update s.futs f st }

/-- An event loop takes the `i`-th scheduled `_do`. -/
abbrev unscheduled (s : Sys Loop Task) (i : Nat) : Sys Loop Task :=
  { s with scheduled := s.scheduled.eraseIdx i }

/-- What the steps do, by the case that a call of the Rust object falls into. -/
inductive Move (home : Task → Loop) (s : Sys Loop Task) : Action Task → Sys Loop Task → Prop
  /-- `reader` or `writer` by a task that holds nothing for reading. -/
  | enter {a : Action Task} {t : Task} {p : Pc Task} (hpc : s.pc t = .idle) (hd : s.readerDepth t = 0)
    (hp : p = .readTry ∨ p = .writeTry) : Move home s a (s.goto t p)
  | again {t : Task} (hpc : s.pc t = .idle) (hd : 0 < s.readerDepth t) :
    Move home s (.reader t) (s.setDepth t (s.readerDepth t + 1))
  | refuse {a : Action Task} : Move home s a s
  | acquireRead {t : Task} {s₁ : Sys Loop Task}
    (hpc : s.pc t = .readTry ∧ s₁ = s ∨ s.pc t = .readRegister ∧ s₁ = (s.createFuture t).2)
    (hw : s.raw.writer = false) :
    Move home s (.advance t) ((s₁.setRaw { s.raw with readers := s.raw.readers + 1 }).enterReader t)
  | readBusy {t : Task} (hpc : s.pc t = .readTry) : Move home s (.advance t) (s.goto t .readRegister)
  | registerRead {t : Task} (hpc : s.pc t = .readRegister) :
    Move home s (.advance t) (((s.createFuture t).2.setRaw { s.raw with
      readWaiters := s.raw.readWaiters ++ [(home t, (s.createFuture t).1)] }).await t
        (s.createFuture t).1 (.readAwait (s.createFuture t).1))
  | removeRead {t : Task} {f : Fut Task} (hpc : s.pc t = .readRemove f) :
    Move home s (.advance t)
      ((s.setRaw { s.raw with readWaiters := retain f s.raw.readWaiters }).goto t .idle)
  | acquireWrite {t : Task} {s₁ : Sys Loop Task}
    (hpc : s.pc t = .writeTry ∧ s₁ = s ∨ s.pc t = .writeRegister ∧ s₁ = (s.createFuture t).2)
    (hw : s.raw.writer = false) (hr : s.raw.readers = 0) :
    Move home s (.advance t) ((s₁.setRaw { s.raw with writer := true }).enterWriter t)
  | writeBusy {t : Task} (hpc : s.pc t = .writeTry) : Move home s (.advance t) (s.goto t .writeRegister)
  | registerWrite {t : Task} (hpc : s.pc t = .writeRegister) :
    Move home s (.advance t) (((s.createFuture t).2.setRaw { s.raw with
      pendingWriters := s.raw.pendingWriters + 1
      writeWaiters := s.raw.writeWaiters ++ [(home t, (s.createFuture t).1)] }).await t
        (s.createFuture t).1 (.writeAwait (s.createFuture t).1))
  | removeWrite {t : Task} {f : Fut Task} (hpc : s.pc t = .writeRemove f) :
    Move home s (.advance t) ((s.setRaw { s.raw with
      pendingWriters := (retain f s.raw.writeWaiters).length
      writeWaiters := retain f s.raw.writeWaiters }).goto t .idle)
  /-- The last queued writer leaves: the lock goes to the queued readers. -/
  | removeLastWrite {t : Task} {f : Fut Task} (hpc : s.pc t = .writeRemove f)
    (hf : retain f s.raw.writeWaiters = []) (hw : s.raw.writer = false) :
    Move home s (.advance t) (((s.setRaw { s.raw with
      pendingWriters := 0
      writeWaiters := []
      readWaiters := []
      readers := s.raw.readers + s.raw.readWaiters.length }).wakeAll (some s.raw.readWaiters)).goto t .idle)
  | takeRead {t : Task} {f : Fut Task} (hpc : s.pc t = .readAwait f) (hf : s.futs f = .result ())
    (hm : s.mustCancel t = false) : Move home s (.resume t) (s.enterReader t)
  | takeWrite {t : Task} {f : Fut Task} (hpc : s.pc t = .writeAwait f) (hf : s.futs f = .result ())
    (hm : s.mustCancel t = false) : Move home s (.resume t) (s.enterWriter t)
  | raise {t : Task} {f : Fut Task} {p : Pc Task}
    (hpc : s.pc t = .readAwait f ∧ p = .readRemove f ∨ s.pc t = .writeAwait f ∧ p = .writeRemove f)
    (hf : s.futs f ≠ .pending) (hm : s.futs f = .result () → s.mustCancel t = true) :
    Move home s (.resume t) (s.raise t p)
  | exitInner {t : Task} {d : Nat} (hpc : s.pc t = .idle) (hd : s.readerDepth t = d + 1) (hpos : 0 < d) :
    Move home s (.exitReader t) (s.setDepth t d)
  | exitRead {t : Task} (hpc : s.pc t = .idle) (hd : s.readerDepth t = 1) :
    Move home s (.exitReader t) ((s.setRaw { s.raw with readers := s.raw.readers - 1 }).setDepth t 0)
  /-- The last reader leaves: the lock goes to the next writer. -/
  | exitLastRead {t : Task} {w : Waiter Loop (Fut Task)} {ws : List (Waiter Loop (Fut Task))}
    (hpc : s.pc t = .idle) (hd : s.readerDepth t = 1) (hw : s.raw.writeWaiters = w :: ws)
    (hr : s.raw.readers ≤ 1) :
    Move home s (.exitReader t) (((s.setRaw { s.raw with
      readers := 0
      writer := true
      pendingWriters := ws.length
      writeWaiters := ws }).setDepth t 0).wakeAll (some [w]))
  | exitWrite {t : Task} (hpc : s.pc t = .idle) (ht : s.writerTask = some t) :
    Move home s (.exitWriter t)
      ({ s with raw := { s.raw with writer := false }, writerTask := none } : Sys Loop Task)
  | exitToWriter {t : Task} {w : Waiter Loop (Fut Task)} {ws : List (Waiter Loop (Fut Task))}
    (hpc : s.pc t = .idle) (ht : s.writerTask = some t) (hw : s.raw.writeWaiters = w :: ws) :
    Move home s (.exitWriter t) (({ s with
      raw := { s.raw with writer := true, pendingWriters := ws.length, writeWaiters := ws }
      writerTask := none } : Sys Loop Task).wakeAll (some [w]))
  | exitToReaders {t : Task} (hpc : s.pc t = .idle) (ht : s.writerTask = some t)
    (hw : s.raw.writeWaiters = []) :
    Move home s (.exitWriter t) (({ s with
      raw := { s.raw with
        writer := false
        readWaiters := []
        readers := s.raw.readers + s.raw.readWaiters.length }
      writerTask := none } : Sys Loop Task).wakeAll (some s.raw.readWaiters))
  | cancelFut {t : Task} {f : Fut Task} (hf : s.awaited t = some f) (hp : s.futs f = .pending) :
    Move home s (.cancel t) (s.withFut f .cancelled)
  | cancelTask {t : Task} (ha : ∀ f, s.awaited t = some f → s.futs f ≠ .pending) :
    Move home s (.cancel t) { s with mustCancel := Function.update s.mustCancel t true }
  | wake {i : Nat} {f : Fut Task} (hi : s.scheduled[i]? = some f) (hp : s.futs f = .pending) :
    Move home s (.wake i) ((s.unscheduled i).withFut f (.result ()))
  | skip {i : Nat} {f : Fut Task} (hi : s.scheduled[i]? = some f) (hp : s.futs f ≠ .pending) :
    Move home s (.wake i) (s.unscheduled i)

variable {s s' : Sys Loop Task} {home : Task → Loop}

omit [DecidableEq Task] in
theorem wakeAll_none : s.wakeAll none = s := by
  simp [wakeAll]

theorem move_of_advance (hp : s.raw.pendingWriters = s.raw.writeWaiters.length) {t : Task}
    (hs : s.advance home t = some s') : Move home s (.advance t) s' := by
  unfold Sys.advance at hs
  split at hs
  · rename_i hpc
    rcases tryAcquireRead_cases (s := s.raw) with ⟨hw, e⟩ | e <;> rw [e] at hs <;> cases hs
    · exact .acquireRead (.inl ⟨hpc, rfl⟩) hw
    · exact .readBusy hpc
  · rename_i hpc
    dsimp only at hs
    rcases acquireReadOrRegister_cases (s := (s.createFuture t).2.raw) (home t) (s.createFuture t).1 with
      ⟨hw, e⟩ | e <;> rw [e] at hs <;> cases hs
    · exact .acquireRead (.inr ⟨hpc, rfl⟩) hw
    · exact .registerRead hpc
  · rename_i f hpc
    cases hs
    rw [wakeAll_none]
    exact .removeRead hpc
  · rename_i hpc
    rcases tryAcquireWrite_cases (s := s.raw) with ⟨hw, hr, e⟩ | e <;> rw [e] at hs <;> cases hs
    · exact .acquireWrite (.inl ⟨hpc, rfl⟩) hw hr
    · exact .writeBusy hpc
  · rename_i hpc
    dsimp only at hs
    rcases acquireWriteOrRegister_cases (s := (s.createFuture t).2.raw) (home t) (s.createFuture t).1 with
      ⟨hw, hr, e⟩ | e <;> rw [e] at hs <;> cases hs
    · exact .acquireWrite (.inr ⟨hpc, rfl⟩) hw hr
    · exact .registerWrite hpc
  · rename_i f hpc
    rcases removeWaiter_cases hp f with ⟨hf, hw, e⟩ | e <;> rw [e] at hs <;> cases hs
    · exact .removeLastWrite hpc hf hw
    · rw [wakeAll_none]
      exact .removeWrite hpc
  all_goals cases hs

theorem move_of_resume {t : Task} (hs : s.resume t = some s') : Move home s (.resume t) s' := by
  unfold Sys.resume at hs
  split at hs
  · rename_i f hpc
    split at hs
    · cases hs
    · rename_i hf
      split at hs <;> rename_i hm <;> cases hs
      · exact .raise (.inl ⟨hpc, rfl⟩) (by simp [hf]) fun _ => hm
      · exact .takeRead hpc hf (by simpa using hm)
    all_goals
      rename_i hf
      cases hs
      exact .raise (.inl ⟨hpc, rfl⟩) (by simp [hf]) (by simp [hf])
  · rename_i f hpc
    split at hs
    · cases hs
    · rename_i hf
      split at hs <;> rename_i hm <;> cases hs
      · exact .raise (.inr ⟨hpc, rfl⟩) (by simp [hf]) fun _ => hm
      · exact .takeWrite hpc hf (by simpa using hm)
    all_goals
      rename_i hf
      cases hs
      exact .raise (.inr ⟨hpc, rfl⟩) (by simp [hf]) (by simp [hf])
  · cases hs

/-- Every step is a `Move`. -/
theorem move_of_step (hp : s.raw.pendingWriters = s.raw.writeWaiters.length) {a : Action Task}
    (hs : s.step home a = some s') : Move home s a s' := by
  cases a with
  | reader t =>
    simp only [Sys.step] at hs
    split at hs
    · rename_i hpc
      split at hs
      · cases hs
        exact .refuse
      · split at hs <;> rename_i hd <;> cases hs
        · exact .again hpc hd
        · exact .enter hpc (by omega) (.inl rfl)
    · cases hs
  | writer t =>
    simp only [Sys.step] at hs
    split at hs
    · rename_i hpc
      split at hs <;> rename_i hd <;> cases hs
      · exact .refuse
      · exact .enter hpc (by omega) (.inr rfl)
    · cases hs
  | advance t => exact move_of_advance hp hs
  | resume t => exact move_of_resume hs
  | exitReader t =>
    simp only [Sys.step] at hs
    split at hs
    · rename_i d hpc hd
      split at hs
      · cases hs
        exact .exitInner hpc hd (by omega)
      · obtain rfl : d = 0 := by omega
        rcases releaseRead_cases hp with ⟨w, ws, hw, hr, e⟩ | e <;> rw [e] at hs <;> cases hs
        · exact .exitLastRead hpc hd hw hr
        · rw [wakeAll_none]
          exact .exitRead hpc hd
    · cases hs
  | exitWriter t =>
    simp only [Sys.step] at hs
    split at hs
    · rename_i hpc
      split at hs
      · rename_i ht
        rcases releaseWrite_cases hp with ⟨w, ws, hw, e⟩ | ⟨hw, e⟩ | ⟨hw, -, e⟩ <;> rw [e] at hs <;> cases hs
        · exact .exitToWriter hpc ht hw
        · exact .exitToReaders hpc ht hw
        · rw [wakeAll_none]
          exact .exitWrite hpc ht
      · cases hs
    · cases hs
  | cancel t =>
    cases hs
    unfold Sys.cancel
    split
    · rename_i f hf
      split
      · rename_i hpend
        exact .cancelFut hf hpend
      · rename_i hpend
        refine .cancelTask fun g hg => ?_
        rw [hf] at hg
        cases hg
        exact hpend
    · rename_i hn
      exact .cancelTask fun g hg => by simp [hn] at hg
  | wake i =>
    simp only [Sys.step] at hs
    split at hs <;> cases hs
    rename_i f hi
    unfold Sys.setResult
    split
    · rename_i hpend
      exact .wake hi hpend
    · rename_i hpend
      exact .skip hi hpend

end Sys

end Multiloop.RWLock
