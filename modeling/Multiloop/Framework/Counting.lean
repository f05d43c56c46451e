import Mathlib.Algebra.BigOperators.Group.Finset.Piecewise
import Mathlib.Tactic.Abel

/-!
# Sums over tasks

A step of a system of tasks changes what one task contributes to a sum over
all of them. `sum_step` compares the two sums by that task's contributions;
`sum_mark` counts tasks by marks.
-/

namespace Multiloop

variable {Task A : Type} [Fintype Task] [AddCommMonoid A]

/-- Two sums that differ at most in the contribution of `t`. -/
theorem sum_step {f g : Task → A} (t : Task) (h : ∀ u, u ≠ t → g u = f u) :
    ∑ u, g u + f t = ∑ u, f u + g t := by
  classical
  rw [← Finset.add_sum_erase _ g (Finset.mem_univ t), ← Finset.add_sum_erase _ f (Finset.mem_univ t),
    Finset.sum_congr rfl fun u hu => h u (Finset.ne_of_mem_erase hu)]
  abel

/-- Setting the marks of some tasks that had none adds one for each. -/
theorem sum_mark [DecidableEq Task] {f : Task → Bool} {ts : List Task} (hnd : ts.Nodup) (hf : ∀ t ∈ ts, f t = false) :
    ∑ t, (f t || decide (t ∈ ts)).toNat = ∑ t, (f t).toNat + ts.length := by
  have hsplit : ∀ t, (f t || decide (t ∈ ts)).toNat = (f t).toNat + if t ∈ ts.toFinset then 1 else 0 := by
    intro t
    by_cases hm : t ∈ ts
    · simp [hf t hm, hm]
    · simp [hm]
  rw [Finset.sum_congr rfl fun t _ => hsplit t, Finset.sum_add_distrib, ← Finset.card_filter, Finset.filter_univ_mem,
    List.toFinset_card_of_nodup hnd]

theorem sum_same {f g : Task → A} (h : ∀ u, g u = f u) : ∑ u, g u = ∑ u, f u :=
  Finset.sum_congr rfl fun u _ => h u

/-- Changing the mark of one task. -/
theorem sum_update_mark [DecidableEq Task] (f : Task → Bool) (t : Task) (b : Bool) :
    ∑ u, (Function.update f t b u).toNat + (f t).toNat = ∑ u, (f u).toNat + b.toNat := by
  have hstep := sum_step (f := fun u => (f u).toNat) (g := fun u => (Function.update f t b u).toNat) t
    fun u hu => congrArg Bool.toNat (Function.update_of_ne hu ..)
  rw [Function.update_self] at hstep
  exact hstep

end Multiloop
