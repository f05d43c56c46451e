import Mathlib.Data.Rat.Floor
import Multiloop.Sync.Pool

/-!
# `CapacityLimiter`

The limiter of `_sync.py`, whose budget of tokens is assigned while tasks
borrow from it. `total_tokens` is a positive rational number, and the capacity
its integer part.
-/

namespace Multiloop.Sync

variable {Loop Task : Type}

/-- `CapacityLimiter`; its `total_tokens` is a rational number. -/
structure CapacityLimiter (Loop Task : Type) where
  totalTokens : ℚ
  borrowed : Int
  waiters : List (Waiter Loop Task)

namespace CapacityLimiter

/-- `none` is the `ValueError`. -/
def new (totalTokens : ℚ) : Option (CapacityLimiter Loop Task) :=
  if totalTokens ≤ 0 then none else some { totalTokens, borrowed := 0, waiters := [] }

/-- The loop of the setter that grants tokens: the events it sets, the tokens
borrowed, and the waiters left. -/
def grantWhile (isOpen : Loop → Bool) (capacity borrowed : Int) :
    List (Waiter Loop Task) → List (Fut Task) × Int × List (Waiter Loop Task)
  | [] => ([], borrowed, [])
  | (event, loop) :: waiters =>
    if borrowed < capacity then
      if isOpen loop then
        let (woken, total, rest) := grantWhile isOpen capacity (borrowed + 1) waiters
        (event :: woken, total, rest)
      else grantWhile isOpen capacity borrowed waiters
    else ([], borrowed, (event, loop) :: waiters)

variable (isOpen : Loop → Bool) (s : CapacityLimiter Loop Task)

/-- `int(self._total_tokens)`. -/
def capacity : Int := s.totalTokens.floor

/-- The setter of `total_tokens`, which refuses a value that is not positive. -/
def setTotalTokens (value : ℚ) : List (Fut Task) × CapacityLimiter Loop Task :=
  if value ≤ 0 then ([], s)
  else
    let (woken, borrowed, waiters) := grantWhile isOpen value.floor s.borrowed s.waiters
    (woken, { totalTokens := value, borrowed, waiters })

/-- `acquire`, up to the wait: whether a token is borrowed. -/
def acquire (w : Waiter Loop Task) : Bool × CapacityLimiter Loop Task :=
  if s.borrowed < s.capacity then (true, { s with borrowed := s.borrowed + 1 })
  else (false, { s with waiters := s.waiters ++ [w] })

/-- `_cancel_waiter`: a token that came too late goes to the next waiter. -/
def cancelWaiter [DecidableEq Task] (event : Fut Task) : List (Fut Task) × CapacityLimiter Loop Task :=
  if event ∈ s.waiters.map Prod.fst then
    ([], { s with waiters := s.waiters.filter fun w => w.1 ≠ event })
  else
    match if s.borrowed ≤ s.capacity then wakeNext isOpen s.waiters else (none, s.waiters) with
    | (some next, waiters) => ([next], { s with waiters })
    | (none, waiters) => ([], { s with waiters, borrowed := s.borrowed - 1 })

/-- `none` is the `ValueError`. -/
def release : Option (List (Fut Task) × CapacityLimiter Loop Task) :=
  if s.borrowed ≤ 0 then none
  else
    match if s.borrowed - 1 < s.capacity then wakeNext isOpen s.waiters else (none, s.waiters) with
    | (some event, waiters) => some ([event], { s with waiters, borrowed := s.borrowed - 1 + 1 })
    | (none, waiters) => some ([], { s with waiters, borrowed := s.borrowed - 1 })

/-- A limiter as a pool of permits, adjusted by the setter of `total_tokens`. -/
def pool [DecidableEq Task] : Pool Loop Task (CapacityLimiter Loop Task) ℚ where
  waiters s := s.waiters
  used s := s.borrowed
  acquire w s := s.acquire w
  cancelWaiter isOpen event s := s.cancelWaiter isOpen event
  release isOpen s := s.release isOpen
  adjust isOpen value s := s.setTotalTokens isOpen value

/-- The runs of tasks over a fresh limiter. -/
def tasks [DecidableEq Task] [DecidableEq Loop] (home : Task → Loop) :
    System (Sys Loop Task (CapacityLimiter Loop Task)) (Action Loop Task ℚ) :=
  Sync.tasks pool home fun s => ∃ totalTokens, new totalTokens = some s

variable {isOpen s}

/-- A scan that is only made under a condition. -/
theorem scan_cases (c : Prop) [Decidable c] (isOpen : Loop → Bool) (ws : List (Waiter Loop Task)) :
    (c ∧ ∃ event rest, (if c then wakeNext isOpen ws else (none, ws)) = (some event, rest) ∧
      HandOff isOpen ws [event] rest ∧ ws ≠ []) ∨
    (∃ rest, (if c then wakeNext isOpen ws else (none, ws)) = (none, rest) ∧ HandOff isOpen ws [] rest ∧
      (c → rest = []) ∧ (¬ c → rest = ws)) := by
  have hand := handOff_wakeNext isOpen ws
  by_cases hc : c
  · rcases hw : wakeNext isOpen ws with ⟨_ | event, rest⟩
    · have hnil : (wakeNext isOpen ws).2 = [] := wakeNext_none (by rw [hw])
      rw [hw] at hnil hand
      exact .inr ⟨rest, if_pos hc, hand, fun _ => hnil, fun hn => absurd hc hn⟩
    · rw [hw] at hand
      refine .inl ⟨hc, event, rest, if_pos hc, hand, fun hnil => ?_⟩
      rw [hnil] at hw
      simp [wakeNext] at hw
  · exact .inr ⟨ws, if_neg hc, .refl _ _, fun h => absurd h hc, fun _ => rfl⟩

/-- What the setter's loop does: it stops at the capacity, or with no waiter
left. -/
theorem grantWhile_spec (isOpen : Loop → Bool) (capacity borrowed : Int) (ws : List (Waiter Loop Task)) :
    let r := grantWhile isOpen capacity borrowed ws
    HandOff isOpen ws r.1 r.2.2 ∧ r.2.1 = borrowed + r.1.length ∧
      (r.2.2 ≠ [] → capacity ≤ r.2.1) ∧ (r.1 ≠ [] → r.2.1 ≤ capacity) := by
  induction ws generalizing borrowed with
  | nil => exact ⟨.refl _ _, by simp [grantWhile], fun hne => absurd rfl hne, fun hne => absurd rfl hne⟩
  | cons w ws ih =>
    obtain ⟨event, loop⟩ := w
    unfold grantWhile
    by_cases hlt : borrowed < capacity
    · cases ho : isOpen loop with
      | true =>
        simp only [hlt, if_true]
        obtain ⟨⟨popped, hq, hwoken⟩, hborrowed, hrest, hle⟩ := ih (borrowed + 1)
        refine ⟨⟨(event, loop) :: popped, by simpa using hq, by simpa [ho] using hwoken⟩, ?_, hrest, fun _ => ?_⟩
        · rw [hborrowed]
          simp only [List.length_cons, Nat.cast_add, Nat.cast_one]
          omega
        · by_cases hnil : (grantWhile isOpen capacity (borrowed + 1) ws).1 = []
          · rw [hborrowed, hnil]
            simp only [List.length_nil, Nat.cast_zero]
            omega
          · exact hle hnil
      | false =>
        simp only [hlt, if_true, Bool.false_eq_true, if_false]
        obtain ⟨⟨popped, hq, hwoken⟩, hborrowed, hrest, hle⟩ := ih borrowed
        exact ⟨⟨(event, loop) :: popped, by simpa using hq, by simpa [ho] using hwoken⟩, hborrowed, hrest, hle⟩
    · simp only [hlt, if_false]
      exact ⟨.refl _ _, by simp, fun _ => by omega, fun hne => absurd rfl hne⟩

variable [DecidableEq Task]

theorem pool_lawful : (pool : Pool Loop Task _ _).Lawful where
  acquired w s s' h := by
    simp only [pool, acquire] at h ⊢
    split at h
    · cases h
      exact ⟨rfl, rfl⟩
    · cases h
  enlisted w s s' h := by
    simp only [pool, acquire] at h ⊢
    split at h
    · cases h
    · cases h
      exact ⟨rfl, rfl⟩
  withdrawn isOpen e s woken s' he h := by
    simp only [pool, cancelWaiter] at he h ⊢
    rw [if_pos he] at h
    cases h
    exact ⟨rfl, rfl, rfl⟩
  passedOn isOpen e s woken s' he h := by
    simp only [pool, cancelWaiter] at he h ⊢
    rw [if_neg he] at h
    rcases scan_cases (s.borrowed ≤ s.capacity) isOpen s.waiters with ⟨-, event, rest, hscan, hand, -⟩ |
      ⟨rest, hscan, hand, -, -⟩
    · rw [hscan] at h
      cases h
      exact ⟨hand, rfl⟩
    · rw [hscan] at h
      cases h
      refine ⟨hand, ?_⟩
      simp
  released isOpen s woken s' h := by
    simp only [pool, release] at h ⊢
    split at h
    · cases h
    · rcases scan_cases (s.borrowed - 1 < s.capacity) isOpen s.waiters with ⟨-, event, rest, hscan, hand, -⟩ |
        ⟨rest, hscan, hand, -, -⟩
      · rw [hscan] at h
        cases h
        refine ⟨hand, ?_⟩
        simp
      · rw [hscan] at h
        cases h
        refine ⟨hand, ?_⟩
        simp
  adjusted isOpen value s woken s' h := by
    simp only [pool, setTotalTokens] at h ⊢
    split at h
    · cases h
      exact ⟨.refl _ _, by simp⟩
    · obtain ⟨hand, hborrowed, -, -⟩ := grantWhile_spec isOpen value.floor s.borrowed s.waiters
      cases h
      exact ⟨hand, hborrowed⟩

/-- Tasks wait only while every token is borrowed. -/
def Full (s : CapacityLimiter Loop Task) : Prop := s.waiters ≠ [] → s.capacity ≤ s.borrowed

theorem keeps_full : (pool : Pool Loop Task _ _).Keeps Full where
  acquire w s h := by
    simp only [pool, acquire]
    split
    · intro hne
      have hle : s.capacity ≤ s.borrowed := h hne
      omega
    · intro _
      show s.capacity ≤ s.borrowed
      omega
  cancelWaiter isOpen e s h := by
    simp only [pool, cancelWaiter]
    split
    · intro hne
      apply h
      intro hnil
      apply hne
      show s.waiters.filter _ = []
      rw [hnil]
      rfl
    · rcases scan_cases (s.borrowed ≤ s.capacity) isOpen s.waiters with ⟨-, event, rest, hscan, -, hne⟩ |
        ⟨rest, hscan, -, hnil, -⟩
      · rw [hscan]
        exact fun _ => h hne
      · rw [hscan]
        intro hne
        have hgt : ¬ s.borrowed ≤ s.capacity := fun hle => hne (hnil hle)
        show s.capacity ≤ s.borrowed - 1
        omega
  release isOpen s woken s' h hr := by
    simp only [pool, release] at hr
    split at hr
    · cases hr
    · rcases scan_cases (s.borrowed - 1 < s.capacity) isOpen s.waiters with ⟨-, event, rest, hscan, -, hne⟩ |
        ⟨rest, hscan, -, hnil, -⟩
      · rw [hscan] at hr
        cases hr
        intro _
        have hle := h hne
        show s.capacity ≤ s.borrowed - 1 + 1
        omega
      · rw [hscan] at hr
        cases hr
        intro hne
        have hge : ¬ s.borrowed - 1 < s.capacity := fun hlt => hne (hnil hlt)
        show s.capacity ≤ s.borrowed - 1
        omega
  adjust isOpen value s h := by
    simp only [pool, setTotalTokens]
    split
    · exact h
    · exact (grantWhile_spec isOpen value.floor s.borrowed s.waiters).2.2.1

/-- Tokens are given out up to the capacity. -/
theorem gives_within : (pool : Pool Loop Task _ _).GivesWithin fun s => s.borrowed ≤ s.capacity where
  acquire w s s' h := by
    simp only [pool, acquire] at h
    split at h
    · rename_i hlt
      cases h
      show s.borrowed + 1 ≤ s.capacity
      omega
    · cases h
  cancelWaiter isOpen e s woken s' h hne := by
    simp only [pool, cancelWaiter] at h
    split at h
    · cases h
      exact absurd rfl hne
    · rcases scan_cases (s.borrowed ≤ s.capacity) isOpen s.waiters with ⟨hle, event, rest, hscan, -, -⟩ |
        ⟨rest, hscan, -, -, -⟩
      · rw [hscan] at h
        cases h
        exact hle
      · rw [hscan] at h
        cases h
        exact absurd rfl hne
  release isOpen s woken s' h hne := by
    simp only [pool, release] at h
    split at h
    · cases h
    · rcases scan_cases (s.borrowed - 1 < s.capacity) isOpen s.waiters with ⟨hlt, event, rest, hscan, -, -⟩ |
        ⟨rest, hscan, -, -, -⟩
      · rw [hscan] at h
        cases h
        show s.borrowed - 1 + 1 ≤ s.capacity
        omega
      · rw [hscan] at h
        cases h
        exact absurd rfl hne
  adjust isOpen value s woken s' h hne := by
    simp only [pool, setTotalTokens] at h
    split at h
    · cases h
      exact absurd rfl hne
    · have hle := (grantWhile_spec isOpen value.floor s.borrowed s.waiters).2.2.2
      cases h
      exact hle hne

variable [DecidableEq Loop] [Fintype Task] {home : Task → Loop} {r : Sys Loop Task (CapacityLimiter Loop Task)}

/-- In every state of every run of tasks over a limiter: the borrowed tokens
are the ones held and the ones in flight to woken waiters; tasks wait only
while the capacity is borrowed; a step that gives tokens to tasks ends within
the capacity; and a task that holds a token can release it. -/
theorem tokens_accounted_for (h : (tasks home).Reachable r) :
    r.prim.borrowed = (∑ t, (r.held t + (r.inFlight t).toNat) : Nat) ∧
    (r.prim.waiters ≠ [] → r.prim.capacity ≤ r.prim.borrowed) ∧
    (∀ a r', r.step pool home a = some r' → r.Gives r' a → r'.prim.borrowed ≤ r'.prim.capacity) ∧
    ∀ t, 0 < r.held t → r.prim.release r.isOpen ≠ none := by
  have hsound : r.Sound pool home := by
    apply Sys.sound_of_reachable pool_lawful _ h
    intro prim hprim
    obtain ⟨totalTokens, hnew⟩ := hprim
    unfold new at hnew
    split at hnew
    · cases hnew
    · cases hnew
      exact ⟨rfl, rfl⟩
  have hfull : r.prim.Full := by
    apply Sys.prim_of_reachable keeps_full _ h
    intro prim hprim
    obtain ⟨totalTokens, hnew⟩ := hprim
    unfold new at hnew
    split at hnew
    · cases hnew
    · cases hnew
      exact fun hne => absurd rfl hne
  have haccount : r.prim.borrowed = r.taken := hsound.account
  refine ⟨haccount, hfull, fun a r' hst hgive => Sys.prim_of_gives pool_lawful gives_within hst hgive,
    fun t ht hnone => ?_⟩
  have hone : r.held t ≤ r.taken := Sys.held_le_taken t
  unfold release at hnone
  split at hnone
  · omega
  · split at hnone <;> cases hnone

/-- A token is in flight to a cancelled waiter when the capacity is raised. -/
theorem tokens_accounted_for_raised : ∃ r : Sys Unit Bool (CapacityLimiter Unit Bool), r.prim.capacity = 2 ∧
    r.prim.borrowed = (∑ t, (r.held t + (r.inFlight t).toNat) : Nat) := by
  have hrun : (tasks fun _ => ()).run (Sys.new ⟨1, 0, []⟩)
      [.acquire false, .acquire true, .cancel true, .adjust (5 / 2), .resume true] = some _ := rfl
  exact ⟨_, by decide +kernel, (tokens_accounted_for (System.reachable_of_run ⟨_, ⟨1, rfl⟩, rfl⟩ hrun)).1⟩

end CapacityLimiter

end Multiloop.Sync
