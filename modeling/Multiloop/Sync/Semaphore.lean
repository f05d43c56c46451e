import Multiloop.Sync.Pool

/-!
# `Semaphore`

The semaphore of `_sync.py`, and its permits over every run of tasks: the
available ones, the ones held and the ones in flight are `max_value`.
-/

namespace Multiloop.Sync

variable {Loop Task : Type}

/-- `Semaphore`. -/
structure Semaphore (Loop Task : Type) where
  value : Nat
  maxValue : Nat
  waiters : List (Waiter Loop Task)

namespace Semaphore

/-- `Semaphore.__init__`. -/
def new (maxValue : Nat) : Semaphore Loop Task := { value := maxValue, maxValue, waiters := [] }

variable (isOpen : Loop → Bool) (s : Semaphore Loop Task)

/-- `acquire`, up to the wait: whether a permit is taken. -/
def acquire (w : Waiter Loop Task) : Bool × Semaphore Loop Task :=
  if s.value > 0 then (true, { s with value := s.value - 1 })
  else (false, { s with waiters := s.waiters ++ [w] })

/-- Wake the next waiter, or make the permit available again. -/
def passOn : List (Fut Task) × Semaphore Loop Task :=
  match wakeNext isOpen s.waiters with
  | (some event, waiters) => ([event], { s with waiters })
  | (none, waiters) => ([], { s with waiters, value := s.value + 1 })

/-- `_cancel_waiter`: a permit that came too late goes to the next waiter. -/
def cancelWaiter [DecidableEq Task] (event : Fut Task) : List (Fut Task) × Semaphore Loop Task :=
  if event ∈ s.waiters.map Prod.fst then
    ([], { s with waiters := s.waiters.filter fun w => w.1 ≠ event })
  else s.passOn isOpen

/-- `none` is the `ValueError`. -/
def release : Option (List (Fut Task) × Semaphore Loop Task) :=
  if s.waiters ≠ [] then some (s.passOn isOpen)
  else if s.value ≥ s.maxValue then none
  else some ([], { s with value := s.value + 1 })

/-- A semaphore as a pool of permits, which nothing adjusts. -/
def pool [DecidableEq Task] : Pool Loop Task (Semaphore Loop Task) Empty where
  waiters s := s.waiters
  used s := s.maxValue - s.value
  acquire w s := s.acquire w
  cancelWaiter isOpen event s := s.cancelWaiter isOpen event
  release isOpen s := s.release isOpen
  adjust _ a _ := a.elim

/-- The runs of tasks over a fresh semaphore. -/
def tasks [DecidableEq Task] [DecidableEq Loop] (maxValue : Nat) (home : Task → Loop) :
    System (Sys Loop Task (Semaphore Loop Task)) (Action Loop Task Empty) :=
  Sync.tasks pool home fun s => s = new maxValue

/-- A permit that is passed on goes to the next waiter whose loop is open. -/
theorem passOn_cases :
    (∃ event, (wakeNext isOpen s.waiters).1 = some event ∧
      s.passOn isOpen = ([event], { s with waiters := (wakeNext isOpen s.waiters).2 })) ∨
    ((wakeNext isOpen s.waiters).1 = none ∧
      s.passOn isOpen = ([], { s with waiters := [], value := s.value + 1 })) := by
  unfold passOn
  rcases hw : wakeNext isOpen s.waiters with ⟨_ | event, ws⟩
  · have hnil : (wakeNext isOpen s.waiters).2 = [] := wakeNext_none (by rw [hw])
    rw [hw] at hnil
    exact .inr ⟨rfl, by rw [show ws = [] from hnil]⟩
  · exact .inl ⟨event, rfl, rfl⟩

variable {isOpen s}

theorem passOn_handOff {woken : List (Fut Task)} {s' : Semaphore Loop Task} (h : s.passOn isOpen = (woken, s')) :
    HandOff isOpen s.waiters woken s'.waiters ∧
      (s'.maxValue : Int) - s'.value + 1 = s.maxValue - s.value + woken.length := by
  have hand := handOff_wakeNext isOpen s.waiters
  rcases passOn_cases isOpen s with ⟨event, hw, hp⟩ | ⟨hw, hp⟩
  · rw [hp] at h
    cases h
    rw [hw] at hand
    refine ⟨hand, ?_⟩
    simp
  · rw [hp] at h
    cases h
    rw [hw, wakeNext_none hw] at hand
    refine ⟨hand, ?_⟩
    simp only [Nat.cast_add, Nat.cast_one, List.length_nil, Nat.cast_zero]
    omega

variable [DecidableEq Task]

theorem pool_lawful : (pool : Pool Loop Task _ _).Lawful where
  acquired w s s' h := by
    simp only [pool, acquire] at h ⊢
    split at h
    · cases h
      refine ⟨rfl, ?_⟩
      show (s.maxValue : Int) - (s.value - 1 : Nat) = _
      omega
    · cases h
  enlisted w s s' h := by
    simp only [pool, acquire] at h ⊢
    split at h
    · cases h
    · cases h
      exact ⟨rfl, rfl⟩
  withdrawn isOpen e s woken s' he h := by
    simp only [pool, cancelWaiter] at he h ⊢
    rw [if_pos he] at h
    cases h
    exact ⟨rfl, rfl, rfl⟩
  passedOn isOpen e s woken s' he h := by
    simp only [pool, cancelWaiter] at he h ⊢
    rw [if_neg he] at h
    exact passOn_handOff h
  released isOpen s woken s' h := by
    simp only [pool, release] at h ⊢
    split at h
    · exact passOn_handOff (Option.some.inj h)
    · split at h
      · cases h
      · cases h
        refine ⟨.refl _ _, ?_⟩
        simp only [Nat.cast_add, Nat.cast_one, List.length_nil, Nat.cast_zero]
        omega
  adjusted _ a := a.elim

/-- Tasks wait only while no permit is available. -/
structure Exhausted (maxValue : Nat) (s : Semaphore Loop Task) : Prop where
  maxValue : s.maxValue = maxValue
  waiters : s.waiters ≠ [] → s.value = 0

omit [DecidableEq Task] in
theorem Exhausted.passOn {maxValue : Nat} (h : s.Exhausted maxValue) :
    (s.passOn isOpen).2.Exhausted maxValue := by
  rcases passOn_cases isOpen s with ⟨event, hw, hp⟩ | ⟨-, hp⟩ <;> rw [hp]
  · refine ⟨h.maxValue, fun _ => h.waiters fun hnil => ?_⟩
    rw [hnil] at hw
    simp [wakeNext] at hw
  · exact ⟨h.maxValue, fun hne => absurd rfl hne⟩

theorem keeps_exhausted (maxValue : Nat) : (pool : Pool Loop Task _ _).Keeps (Exhausted maxValue) where
  acquire w s h := by
    simp only [pool, acquire]
    split
    · refine ⟨h.maxValue, fun hne => ?_⟩
      have hzero := h.waiters hne
      omega
    · exact ⟨h.maxValue, fun _ => by show s.value = 0; omega⟩
  cancelWaiter isOpen e s h := by
    simp only [pool, cancelWaiter]
    split
    · refine ⟨h.maxValue, fun hne => h.waiters fun hnil => hne ?_⟩
      show s.waiters.filter _ = []
      rw [hnil]
      rfl
    · exact h.passOn
  release isOpen s woken s' h hr := by
    simp only [pool, release] at hr
    split at hr
    · have hpass : (s.passOn isOpen).2.Exhausted maxValue := h.passOn
      rwa [Option.some.inj hr] at hpass
    · rename_i hnil
      split at hr
      · cases hr
      · cases hr
        exact ⟨h.maxValue, fun hne => absurd hne hnil⟩
  adjust _ a := a.elim

variable [DecidableEq Loop] [Fintype Task] {home : Task → Loop} {maxValue : Nat}
  {r : Sys Loop Task (Semaphore Loop Task)}

/-- In every state of every run of tasks over a semaphore: the available
permits, the ones held and the ones in flight to woken waiters are
`max_value`; tasks wait only while none is available; a task that holds a
permit can release it; permits went to waiters in the order of registration,
and passed over only waiters whose loops are closed. -/
theorem permits_conserved (h : (tasks maxValue home).Reachable r) :
    r.prim.value + ∑ t, (r.held t + (r.inFlight t).toNat) = maxValue ∧
    (r.prim.waiters ≠ [] → r.prim.value = 0) ∧
    (∀ t, 0 < r.held t → r.prim.release r.isOpen ≠ none) ∧
    r.ledger.Fair r.prim.waiters ∧ ∀ w ∈ r.ledger.skipped, r.host.closed w.2 = true := by
  have hsound : r.Sound pool home := by
    apply Sys.sound_of_reachable pool_lawful _ h
    intro prim hprim
    rw [hprim]
    exact ⟨rfl, Int.sub_self _⟩
  have hex : r.prim.Exhausted maxValue := by
    apply Sys.prim_of_reachable (keeps_exhausted maxValue) _ h
    intro prim hprim
    rw [hprim]
    exact ⟨rfl, fun hne => absurd rfl hne⟩
  have haccount : (r.prim.maxValue : Int) - r.prim.value = r.taken := hsound.account
  have hmax := hex.maxValue
  refine ⟨?_, hex.waiters, fun t ht hnone => ?_, hsound.linked.fair, hsound.linked.skipped⟩
  · show r.prim.value + r.taken = maxValue
    omega
  · -- The permit that the task holds is not available.
    have hone : r.held t ≤ r.taken := Sys.held_le_taken t
    unfold release at hnone
    split at hnone
    · cases hnone
    · split at hnone
      · omega
      · cases hnone

/-- A permit is handed to a task that was cancelled meanwhile, which gives it
back. -/
theorem permits_conserved_cancelled : ∃ r : Sys Unit Bool (Semaphore Unit Bool), r.prim.value = 0 ∧
    r.prim.value + ∑ t, (r.held t + (r.inFlight t).toNat) = 1 := by
  have hrun : (tasks 1 fun _ => ()).run (Sys.new (new 1))
      [.acquire false, .acquire true, .cancel true, .release false, .resume true] = some _ := rfl
  exact ⟨_, rfl, (permits_conserved (System.reachable_of_run ⟨_, rfl, rfl⟩ hrun)).1⟩

end Semaphore

end Multiloop.Sync
