import Mathlib.Algebra.BigOperators.Group.Multiset.Basic
import Multiloop.Framework.Counting

/-!
# Bins

Finitely many queues and what is in all of them together, counted with
multiplicity: an item put at the back of one queue is one item more, an item
taken from the front one less, whichever queue it is.
-/

namespace Multiloop.Bins

variable {ι A : Type} [Fintype ι]

/-- The items of all queues. -/
def total (q : ι → List A) : Multiset A := ∑ i, (q i : Multiset A)

theorem mem_total {q : ι → List A} {x : A} : x ∈ total q ↔ ∃ i, x ∈ q i := by
  simp only [total, Multiset.mem_sum, Finset.mem_univ, true_and, Multiset.mem_coe]

theorem total_nil : total (fun _ : ι => ([] : List A)) = 0 := by
  simp only [total, Multiset.coe_nil, Finset.sum_const_zero]

variable [DecidableEq ι]

/-- Replacing one queue exchanges its items. -/
theorem total_update (q : ι → List A) (i : ι) (l : List A) :
    total (Function.update q i l) + (q i : Multiset A) = total q + (l : Multiset A) := by
  have h := sum_step (f := fun k => (q k : Multiset A))
    (g := fun k => (Function.update q i l k : Multiset A)) i fun k hk => by rw [Function.update_of_ne hk]
  rw [Function.update_self] at h
  exact h

theorem total_push (q : ι → List A) (i : ι) (x : A) :
    total (Function.update q i (q i ++ [x])) = x ::ₘ total q := by
  have h := total_update q i (q i ++ [x])
  rw [← Multiset.coe_add, ← add_assoc, add_right_comm] at h
  rw [add_right_cancel h, Multiset.coe_singleton, add_comm, Multiset.singleton_add]

theorem total_pop {q : ι → List A} {i : ι} {x : A} {rest : List A} (hq : q i = x :: rest) :
    total q = x ::ₘ total (Function.update q i rest) := by
  have h := total_update q i rest
  rw [hq, ← Multiset.cons_coe, Multiset.add_cons, ← Multiset.cons_add] at h
  exact (add_right_cancel h).symm

end Multiloop.Bins
