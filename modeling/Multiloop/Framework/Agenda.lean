import Mathlib.Data.List.Basic
import Multiloop.Framework.Transition

/-!
# Threads with agendas

Threads over one shared state, each with a list of items it has still to
perform. Performing an item is one atomic step: it changes the shared state
and puts the items it leads to in front of the rest, so that a call made in
the middle of another is done before the caller goes on. A thread waits where
its first item cannot be performed yet.

An invariant `I pend m` speaks of the shared state `m` and of what is still to
be performed, by any thread (`pend`). `inv_advance` reduces it to one item:
what held while `x` was pending holds when the items it left are pending in
its place.
-/

namespace Multiloop

structure Agenda (Thread M Item : Type) where
  shared : M
  todo : Thread → List Item

namespace Agenda

variable {Thread M Item C : Type} (s : Agenda Thread M Item)

/-- Some thread has still to perform `x`. -/
def Pending (x : Item) : Prop := ∃ t, x ∈ s.todo t

/-- No thread is in a call. -/
def AtRest : Prop := ∀ t, s.todo t = []

variable {s} in
theorem AtRest.not_pending (h : s.AtRest) (x : Item) : ¬ s.Pending x := by
  rintro ⟨t, ht⟩
  rw [h t] at ht
  exact absurd ht List.not_mem_nil

variable [DecidableEq Thread]

/-- Thread `t` starts a call. -/
def start (t : Thread) (m : M) (items : List Item) : Agenda Thread M Item :=
  ⟨m, Function.update s.todo t items⟩

/-- Thread `t` performs its next item; `c` is what the item leaves open. -/
def advance (perform : Thread → C → Item → M → Option (M × List Item)) (t : Thread) (c : C) :
    Option (Agenda Thread M Item) :=
  match s.todo t with
  | [] => none
  | x :: rest => (perform t c x s.shared).map fun r => ⟨r.1, Function.update s.todo t (r.2 ++ rest)⟩

variable {s}

/-- What is pending is on the agenda of `t` or of another thread. -/
theorem pending_iff (t : Thread) (y : Item) : s.Pending y ↔ y ∈ s.todo t ∨ ∃ u, u ≠ t ∧ y ∈ s.todo u := by
  constructor
  · rintro ⟨u, hu⟩
    by_cases hut : u = t
    · exact .inl (hut ▸ hu)
    · exact .inr ⟨u, hut, hu⟩
  · rintro (h | ⟨u, _, hu⟩)
    · exact ⟨t, h⟩
    · exact ⟨u, hu⟩

theorem pending_update (t : Thread) (m : M) (items : List Item) (y : Item) :
    Pending ⟨m, Function.update s.todo t items⟩ y ↔ y ∈ items ∨ ∃ u, u ≠ t ∧ y ∈ s.todo u := by
  rw [pending_iff t]
  refine or_congr ?_ (exists_congr fun u => and_congr_right fun hut => ?_)
  · show y ∈ Function.update s.todo t items t ↔ _
    rw [Function.update_self]
  · show y ∈ Function.update s.todo t items u ↔ _
    rw [Function.update_of_ne hut]

variable {I : (Item → Prop) → M → Prop}

theorem inv_start {t : Thread} {m : M} {items : List Item} (hidle : s.todo t = [])
    (hi : I (fun x => x ∈ items ∨ s.Pending x) m) : I (s.start t m items).Pending m := by
  have hpending : (s.start t m items).Pending = fun x => x ∈ items ∨ s.Pending x := by
    funext y
    refine propext ((pending_update t m items y).trans (or_congr_right ?_))
    rw [pending_iff t, hidle]
    exact ⟨.inr, fun h => h.resolve_left List.not_mem_nil⟩
  rw [hpending]
  exact hi

theorem inv_advance (perform : Thread → C → Item → M → Option (M × List Item))
    (hperform : ∀ (p : Item → Prop) t c x m m' new, I (fun y => y = x ∨ p y) m → perform t c x m = some (m', new) →
      I (fun y => y ∈ new ∨ p y) m')
    {t : Thread} {c : C} {s' : Agenda Thread M Item} (hi : I s.Pending s.shared)
    (hst : s.advance perform t c = some s') : I s'.Pending s'.shared := by
  rw [advance] at hst
  split at hst
  · cases hst
  · rename_i x rest htodo
    obtain ⟨⟨m', new⟩, hp, rfl⟩ := Option.map_eq_some_iff.1 hst
    -- what is pending besides `x`
    let others : Item → Prop := fun y => y ∈ rest ∨ ∃ u, u ≠ t ∧ y ∈ s.todo u
    have hbefore : s.Pending = fun y => y = x ∨ others y := by
      funext y
      refine propext ((pending_iff t y).trans ?_)
      rw [htodo, List.mem_cons, or_assoc]
    have hafter : Pending ⟨m', Function.update s.todo t (new ++ rest)⟩ = fun y => y ∈ new ∨ others y := by
      funext y
      refine propext ((pending_update t m' _ y).trans ?_)
      rw [List.mem_append, or_assoc]
    rw [hafter]
    rw [hbefore] at hi
    exact hperform others t c x s.shared m' new hi hp

end Agenda

end Multiloop
