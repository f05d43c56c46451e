import Multiloop.Pool.Places

/-!
# Affinity

Where the task of a `push_local(i, ..)` can end up. As long as queue `i` has
room the task goes through queue `i` and nowhere else: only `pop_work(i)`
takes from it, and in order. A full queue does not make the caller wait: the
task goes to the global queue like any other, and whichever worker pulls it
first runs it.
-/

namespace Multiloop.NativeWorkerPool

variable {Thread τ : Type} {n : Nat} {s : Sys Thread n τ} {j k : Job Thread τ} {i l : Fin n}

theorem mem_poppedAt : j ∈ s.poppedAt i ↔ (i, j) ∈ s.popped := by
  rw [Sys.poppedAt, List.mem_map]
  constructor
  · rintro ⟨⟨l, x⟩, hf, rfl⟩
    obtain ⟨hp, hl⟩ := List.mem_filter.1 hf
    have hli : l = i := of_decide_eq_true hl
    exact hli ▸ hp
  · exact fun hp => ⟨(i, j), List.mem_filter.2 ⟨hp, decide_eq_true rfl⟩, rfl⟩

/-- The results of `pop_work` are of different jobs. -/
theorem Sound.popped_nodup (h : Sound s) : (s.popped.map (·.2)).Nodup :=
  Multiset.coe_nodup.1 (Multiset.nodup_add.1 h.places_nodup).2.1

/-- No job is in a local queue and popped. -/
theorem Sound.queued_not_popped (h : Sound s) (hq : j ∈ s.pool.localQueue i) : (l, j) ∉ s.popped := by
  intro hp
  have hdisjoint := (Multiset.nodup_add.1 h.places_nodup).2.2
  refine Multiset.disjoint_left.1 hdisjoint ?_ (List.mem_map.2 ⟨(l, j), hp, rfl⟩)
  refine Multiset.mem_add.2 (.inl (Multiset.mem_add.2 (.inr ?_)))
  exact Bins.mem_total.2 ⟨i, hq⟩

/-- A pinned job that was popped was popped by its worker. -/
theorem Sound.popped_pinned (h : Sound s) (hj : j ∈ s.pinned i) (hp : (l, j) ∈ s.popped) : l = i := by
  obtain ⟨done, hd, hsub⟩ := h.store.pinned i
  rw [hd, List.mem_append] at hj
  rcases hj with hj | hj
  · have hi := mem_poppedAt.1 (hsub.subset hj)
    exact congrArg Prod.fst (List.inj_on_of_nodup_map h.popped_nodup hp hi rfl)
  · exact absurd hp (h.queued_not_popped hj)

/-- A worker pops what was pinned to it in the order it was pinned. -/
theorem Sound.popped_in_order (h : Sound s) (hjk : [j, k].Sublist (s.pinned i)) (hp : (i, k) ∈ s.popped) :
    [j, k].Sublist (s.poppedAt i) := by
  obtain ⟨done, hd, hsub⟩ := h.store.pinned i
  rw [hd] at hjk
  obtain ⟨l₁, l₂, hl, h₁, h₂⟩ := List.sublist_append_iff.1 hjk
  -- the queue holds nothing of the pair, since its last job was popped
  have hnil : l₂ = [] := by
    rcases List.eq_nil_or_concat l₂ with hn | ⟨m, x, hm⟩
    · exact hn
    · rw [List.concat_eq_append] at hm
      have hx : k = x := by
        have hlast := congrArg List.getLast? hl
        rw [hm, ← List.append_assoc, List.getLast?_append] at hlast
        simpa using hlast
      refine absurd hp (h.queued_not_popped (h₂.subset ?_))
      rw [hm, hx]
      exact List.mem_append_right _ List.mem_cons_self
  rw [hnil, List.append_nil] at hl
  rw [hl]
  exact h₁.trans hsub

variable [DecidableEq Thread]

/-- In every run: a task that `push_local(i, ..)` put into queue `i` is
returned by `pop_work(i)` only; such tasks are popped in the order they were
pushed; and an accepted `push_local(i, ..)` put its task there unless it found
256 tasks in the queue. -/
theorem pinned_stay (hs : (system Thread n τ).Reachable s) :
    (∀ i, ∀ j ∈ s.pinned i, ∀ l, (l, j) ∈ s.popped → l = i) ∧
      (∀ i j k, [j, k].Sublist (s.pinned i) → (i, k) ∈ s.popped → [j, k].Sublist (s.poppedAt i)) ∧
      ∀ j ∈ s.accepted, ∀ i, j.target = some i →
        (∃ h : i < n, j ∈ s.pinned ⟨i, h⟩) ∨ ∃ len, localQueueCapacity ≤ len ∧ (j, len) ∈ s.spilled := by
  have h := sound_of_reachable hs
  refine ⟨fun i j hj l hp => h.popped_pinned hj hp, fun i j k hjk hp => h.popped_in_order hjk hp,
    fun j hj i hi => ?_⟩
  rcases (h.store.accepted j hj).2 i hi with hp | ⟨len, hsp⟩
  · exact .inl hp
  · exact .inr ⟨len, h.store.spilled _ hsp, hsp⟩

theorem pinned_stay_one : ∃ s : Sys Unit 2 Nat, (system Unit 2 Nat).Reachable s ∧
    (1, ⟨(), 0, some 1, 5⟩) ∈ s.popped ∧ ∀ l, (l, ⟨(), 0, some 1, 5⟩) ∈ s.popped → l = 1 := by
  have hrun := System.exists_reachable_of_run (M := system Unit 2 Nat) (s := .new)
    (.pushLocal () 1 (some 5) :: List.replicate 4 (.advance ()) ++ .popWork () 1 :: List.replicate 7 (.advance ()))
    (p := fun s => ⟨(), 0, some 1, 5⟩ ∈ s.pinned 1 ∧ (1, ⟨(), 0, some 1, 5⟩) ∈ s.popped) rfl (by decide)
  obtain ⟨s, hs, hpin, hpop⟩ := hrun
  exact ⟨s, hs, hpop, fun l hl => (pinned_stay hs).1 1 _ hpin l hl⟩

/-! ## A full queue -/

/-- A pool of two workers between two calls, which has received nothing but
tasks for worker 0. -/
def filled (q : Fin 2 → List (Job Unit Nat)) (pushes : Unit → Nat) (acc sent : List (Job Unit Nat))
    (pin : Fin 2 → List (Job Unit Nat)) : Sys Unit 2 Nat :=
  { (Sys.new : Sys Unit 2 Nat) with
    pool := { (.new : Pool Unit 2 Nat) with localQueue := q }
    pushes := pushes, accepted := acc, sent := sent, pinned := pin }

/-- One whole `push_local(0, x)`. -/
def pushCall (x : Nat) : List (Action Unit Nat) := .pushLocal () 0 (some x) :: List.replicate 4 (.advance ())

theorem update_unit {A : Type} (f : Unit → A) (a : A) : Function.update f () a = fun _ => a :=
  funext fun _ => Function.update_self ..

theorem filled_push (q : Fin 2 → List (Job Unit Nat)) (pushes : Unit → Nat) (acc sent : List (Job Unit Nat))
    (pin : Fin 2 → List (Job Unit Nat)) (x : Nat) (hroom : (q 0).length < localQueueCapacity) :
    let j : Job Unit Nat := ⟨(), pushes (), some 0, x⟩
    (system Unit 2 Nat).run (filled q pushes acc sent pin) (pushCall x) =
      some (filled (Function.update q 0 (q 0 ++ [j])) (Function.update pushes () (pushes () + 1)) (acc ++ [j])
        (sent ++ [j]) (Function.update pin 0 (pin 0 ++ [j]))) := by
  intro j
  have hsend : ∀ s : Sys Unit 2 Nat, s.pool.localSenders = List.finRange 2 → s.pool.localQueue = q →
      s.trySendStep () 0 j = (s.sendLocal 0 j).goto () (.localReturn j (.ok ())) := by
    intro s hl hq
    rw [Sys.trySendStep, hl, hq]
    exact if_pos hroom
  simp only [pushCall, List.replicate, System.run, system, Option.bind]
  simp [Sys.step, Sys.isIdle, filled, Sys.call, Sys.goto, Sys.advance, update_unit, Sys.new, Pool.new]
  rw [hsend _ rfl rfl]
  simp [Sys.sendLocal, Sys.goto, Sys.answer, update_unit, j]

/-- However many tasks worker 0 has been given, up to 256. -/
theorem exists_filled (k : Nat) (hk : k ≤ localQueueCapacity) : ∃ q pushes acc sent pin,
    (q 0).length = k ∧ (system Unit 2 Nat).Reachable (filled q pushes acc sent pin) := by
  induction k with
  | zero => exact ⟨fun _ => [], fun _ => 0, [], [], fun _ => [], rfl, .init rfl⟩
  | succ k ih =>
    obtain ⟨q, pushes, acc, sent, pin, hq, hreach⟩ := ih (Nat.le_of_succ_le hk)
    have hrun := filled_push q pushes acc sent pin k (hq ▸ hk)
    refine ⟨_, _, _, _, _, ?_, System.ReachableWhen.run (fun _ _ => trivial) hreach hrun⟩
    rw [Function.update_self, List.length_append, hq]
    rfl

/-- One more `push_local(0, 7)` and a `pop_work(1)`. -/
def overflowRun : List (Action Unit Nat) :=
  .pushLocal () 0 (some 7) :: List.replicate 8 (.advance ()) ++ .popWork () 1 :: List.replicate 8 (.advance ())

theorem filled_overflow (q : Fin 2 → List (Job Unit Nat)) (pushes : Unit → Nat) (acc sent : List (Job Unit Nat))
    (pin : Fin 2 → List (Job Unit Nat)) (hfull : ¬ (q 0).length < localQueueCapacity) :
    let j : Job Unit Nat := ⟨(), pushes (), some 0, 7⟩
    ∃ s, (system Unit 2 Nat).run (filled q pushes acc sent pin) overflowRun = some s ∧ j ∈ s.accepted ∧
      (1, j) ∈ s.popped := by
  intro j
  have hsend : ∀ s : Sys Unit 2 Nat, s.pool.localSenders = List.finRange 2 → s.pool.localQueue = q →
      s.trySendStep () 0 j = (s.spill 0 j).goto () (.localFull j) := by
    intro s hl hq
    rw [Sys.trySendStep, hl, hq]
    exact if_neg hfull
  simp only [overflowRun, List.replicate, System.run, system, Option.bind, List.cons_append, List.nil_append]
  simp [Sys.step, Sys.isIdle, filled, Sys.call, Sys.goto, Sys.advance, update_unit, Sys.new, Pool.new]
  rw [hsend _ rfl rfl]
  simp [Sys.spill, Sys.goto, Sys.answer, Sys.sendStep, Sys.sendGlobal, Sys.popStep, Sys.drainStep, Sys.pollerStep,
    Sys.lenStep, Sys.pullStep, Sys.pullOne, Sys.takeStep, Sys.popBuffer, Sys.leaveBuffer, Pool.maxPollers,
    Pool.batchSize, update_unit, j]

/-- The 257th task pushed to worker 0 is run by worker 1. -/
theorem pinned_task_leaves : ∃ s : Sys Unit 2 Nat, (system Unit 2 Nat).Reachable s ∧
    ∃ j ∈ s.accepted, j.target = some 0 ∧ (1, j) ∈ s.popped := by
  obtain ⟨q, pushes, acc, sent, pin, hq, hreach⟩ := exists_filled localQueueCapacity (Nat.le_refl _)
  obtain ⟨s, hrun, ha, hp⟩ := filled_overflow q pushes acc sent pin (hq ▸ Nat.lt_irrefl _)
  exact ⟨s, System.ReachableWhen.run (fun _ _ => trivial) hreach hrun, _, ha, rfl, hp⟩

end Multiloop.NativeWorkerPool
