import Multiloop.Nursery.Exit

/-!
# What `_wait_children` collects

Between two calls of `asyncio.wait` the host looks at children that are done:
those that `asyncio.wait` returned, and those that `absorb` finds. `Advance`
says what that changes: `new` are the tasks looked at, and the exceptions are
those that `collect_one` reports of them. Tasks that are done are not cancelled
any more, so what it reports of a task does not depend on the ones before.
-/

namespace Multiloop.Nursery

variable {Loop E : Type}

namespace TaskGroup

/-- The host looks at the tasks `new`, all done, and cancels tasks that are
not. -/
structure Advance (g : TaskGroup Loop E) (w : Wait E) (new : List Nat) (g' : TaskGroup Loop E) (w' : Wait E) :
    Prop where
  keeps : Keeps g g'
  consumed : g'.consumed = g.consumed
  settled : ∀ t, g.tasks.done t = true → g'.tasks.cancelling t = g.tasks.cancelling t
  mono : ∀ t, g.tasks.cancelling t ≤ g'.tasks.cancelling t
  byScope : ∀ t ∈ w'.cancelledByScope, t ∈ w.cancelledByScope ∨
    g.tasks.done t = false ∧ g.tasks.cancelling t < g'.tasks.cancelling t
  more : ∀ t ∈ w.cancelledByScope, t ∈ w'.cancelledByScope
  exceptions : w'.exceptions = w.exceptions ++ new.filterMap (g.failure w)
  undone : (∀ t ∈ w.pending, g.tasks.done t = false) → ∀ t ∈ w'.pending, g.tasks.done t = false

variable {g g' g'' : TaskGroup Loop E} {w w' w'' : Wait E} {new new' : List Nat} {t : Nat}

theorem Advance.refl (g : TaskGroup Loop E) (w : Wait E) : Advance g w [] g w where
  keeps := .refl g
  consumed := rfl
  settled _ _ := rfl
  mono _ := Nat.le_refl _
  byScope _ ht := .inl ht
  more _ ht := ht
  exceptions := (List.append_nil _).symm
  undone h := h

/-- What is reported of a task that is done stays the same. -/
theorem Advance.failure (h : Advance g w new g' w') (ht : g.tasks.done t = true) :
    g'.failure w' t = g.failure w t := by
  have hscope : t ∈ w'.cancelledByScope ↔ t ∈ w.cancelledByScope := by
    refine ⟨fun hmem => (h.byScope t hmem).resolve_right fun hnot => ?_, h.more t⟩
    rw [ht] at hnot
    cases hnot.1
  unfold TaskGroup.failure
  rw [h.consumed, h.keeps.outcome, h.settled t ht]
  simp only [hscope]

theorem Advance.trans (h : Advance g w new g' w') (h' : Advance g' w' new' g'' w'')
    (hnew : ∀ t ∈ new', g.tasks.done t = true) : Advance g w (new ++ new') g'' w'' where
  keeps := h.keeps.trans h'.keeps
  consumed := h'.consumed.trans h.consumed
  settled t ht := (h'.settled t ((h.keeps.done t).trans ht)).trans (h.settled t ht)
  mono t := Nat.le_trans (h.mono t) (h'.mono t)
  byScope t ht := by
    rcases h'.byScope t ht with hbefore | ⟨hdone, hlt⟩
    · rcases h.byScope t hbefore with hstart | ⟨hdone, hlt⟩
      · exact .inl hstart
      · exact .inr ⟨hdone, Nat.lt_of_lt_of_le hlt (h'.mono t)⟩
    · exact .inr ⟨(h.keeps.done t).symm.trans hdone, Nat.lt_of_le_of_lt (h.mono t) hlt⟩
  more t ht := h'.more t (h.more t ht)
  exceptions := by
    have hsame : new'.filterMap (g'.failure w') = new'.filterMap (g.failure w) :=
      List.filterMap_congr fun t ht => h.failure (hnew t ht)
    rw [h'.exceptions, h.exceptions, hsame, List.filterMap_append, List.append_assoc]
  undone hw t ht := by
    rw [← h.keeps.done t]
    refine h'.undone (fun u hu => ?_) t ht
    rw [h.keeps.done u]
    exact h.undone hw u hu

theorem cancelling_cancel (g : TaskGroup Loop E) (t u : Nat) :
    (g.tasks.done u = true → (g.cancel t).tasks.cancelling u = g.tasks.cancelling u) ∧
      g.tasks.cancelling u ≤ (g.cancel t).tasks.cancelling u ∧
      (g.tasks.done t = false → g.tasks.cancelling t < (g.cancel t).tasks.cancelling t) := by
  show (_ → (g.tasks.cancel t).cancelling u = _) ∧ _ ≤ (g.tasks.cancel t).cancelling u ∧
    (_ → _ < (g.tasks.cancel t).cancelling t)
  unfold Tasks.cancel
  split
  · rename_i hdone
    refine ⟨fun _ => rfl, Nat.le_refl _, fun hnot => ?_⟩
    rw [hdone] at hnot
    cases hnot
  · rename_i hopen
    dsimp only
    by_cases hut : u = t
    · subst hut
      rw [Function.update_self]
      exact ⟨fun hdone => absurd hdone hopen, Nat.le_succ _, fun _ => Nat.lt_succ_self _⟩
    · rw [Function.update_of_ne hut, Function.update_self]
      exact ⟨fun _ => rfl, Nat.le_refl _, fun _ => Nat.lt_succ_self _⟩

theorem consumed_cancelEach (ts : List Nat) (g : TaskGroup Loop E) : (g.cancelEach ts).consumed = g.consumed := by
  induction ts generalizing g with
  | nil => rfl
  | cons t ts ih => exact (ih (g.cancel t)).trans rfl

theorem cancelling_cancelEach (ts : List Nat) (g : TaskGroup Loop E) (u : Nat) :
    (g.tasks.done u = true → (g.cancelEach ts).tasks.cancelling u = g.tasks.cancelling u) ∧
      g.tasks.cancelling u ≤ (g.cancelEach ts).tasks.cancelling u ∧
      (u ∈ ts → g.tasks.done u = false → g.tasks.cancelling u < (g.cancelEach ts).tasks.cancelling u) := by
  induction ts generalizing g with
  | nil => exact ⟨fun _ => rfl, Nat.le_refl _, fun hu => by cases hu⟩
  | cons t ts ih =>
    obtain ⟨hsame, hle, -⟩ := cancelling_cancel g t u
    obtain ⟨hsame', hle', hlt'⟩ := ih (g.cancel t)
    have hdone : (g.cancel t).tasks.done u = g.tasks.done u := (keeps_cancel g t).done u
    refine ⟨fun hd => (hsame' (hdone.trans hd)).trans (hsame hd), Nat.le_trans hle hle', fun hu hopen => ?_⟩
    rcases List.mem_cons.1 hu with rfl | hu
    · exact Nat.lt_of_lt_of_le ((cancelling_cancel g u u).2.2 hopen) hle'
    · exact Nat.lt_of_le_of_lt hle (hlt' hu (hdone.trans hopen))

/-- One task that is done. -/
theorem collectOne_advance (hw : ∀ u ∈ w.pending, g.tasks.done u = false) (t : Nat) :
    Advance g w [t] (g.collectOne w t).2 (g.collectOne w t).1 := by
  unfold collectOne
  split
  · rename_i e he
    have hone : w.exceptions ++ [e] = w.exceptions ++ [t].filterMap (g.failure w) := by
      rw [List.filterMap_cons, he]
      rfl
    dsimp only
    split
    · exact { Advance.refl g w with exceptions := hone }
    · have hkeeps := keeps_cancelEach w.pending g
      refine {
        keeps := ⟨hkeeps.created, hkeeps.outcome, hkeeps.children, hkeeps.exited, hkeeps.loop⟩
        consumed := consumed_cancelEach w.pending g
        settled := fun u hu => (cancelling_cancelEach w.pending g u).1 hu
        mono := fun u => (cancelling_cancelEach w.pending g u).2.1
        byScope := fun u hu => ?_
        more := fun u hu => List.mem_append_left _ hu
        exceptions := hone
        undone := fun h => h }
      rcases List.mem_append.1 hu with hu | hu
      · exact .inl hu
      · exact .inr ⟨hw u hu, (cancelling_cancelEach w.pending g u).2.2 hu (hw u hu)⟩
  · rename_i hnone
    refine { Advance.refl g w with exceptions := ?_ }
    rw [List.filterMap_cons, hnone]
    exact (List.append_nil _).symm

/-- What the host keeps of the tasks it looked at is no part of the rest. -/
theorem Advance.processed (h : Advance g w new g' w') (before after : List Nat) :
    Advance g { w with processed := before } new g' { w' with processed := after } :=
  ⟨h.keeps, h.consumed, h.settled, h.mono, h.byScope, h.more, h.exceptions, h.undone⟩

theorem collect_advance (ts : List Nat) (hts : ∀ t ∈ ts, g.tasks.done t = true)
    (hw : ∀ u ∈ w.pending, g.tasks.done u = false) :
    Advance g w ts (g.collect w ts).2 (g.collect w ts).1 ∧
      (g.collect w ts).1.processed = w.processed ++ ts ∧ (g.collect w ts).1.pending = w.pending := by
  induction ts generalizing g w with
  | nil => exact ⟨.refl g w, (List.append_nil _).symm, rfl⟩
  | cons t ts ih =>
    have hone := collectOne_advance (w := { w with processed := w.processed ++ [t] }) hw t
    obtain ⟨-, hprocessed, hpending⟩ := collectOne_spec g { w with processed := w.processed ++ [t] } t
    obtain ⟨hrest, hprocessed', hpending'⟩ := ih
      (g := (g.collectOne { w with processed := w.processed ++ [t] } t).2)
      (w := (g.collectOne { w with processed := w.processed ++ [t] } t).1)
      (fun u hu => (hone.keeps.done u).trans (hts u (.tail _ hu)))
      (fun u hu => (hone.keeps.done u).trans (hone.undone hw u hu))
    refine ⟨(hone.processed w.processed _).trans hrest fun u hu => hts u (.tail _ hu), ?_, hpending'.trans hpending⟩
    refine hprocessed'.trans ?_
    rw [hprocessed, List.append_assoc]
    rfl

/-- The children that are cancelled before they are awaited. -/
theorem preCancel_advance (g : TaskGroup Loop E) (exc : Option (Exc E)) (w : Wait E) :
    Advance g { w with cancelledByScope := [] } [] (g.preCancel exc).2
      { w with cancelledByScope := (g.preCancel exc).1 } := by
  unfold preCancel
  split
  · exact {
      keeps := keeps_cancelEach g.remaining g
      consumed := consumed_cancelEach g.remaining g
      settled := fun t ht => (cancelling_cancelEach g.remaining g t).1 ht
      mono := fun t => (cancelling_cancelEach g.remaining g t).2.1
      byScope := fun t ht => by
        have hopen : g.tasks.done t = false := by simpa using (List.mem_filter.1 ht).2
        exact .inr ⟨hopen, (cancelling_cancelEach g.remaining g t).2.2 ht hopen⟩
      more := fun t ht => by cases ht
      exceptions := (List.append_nil _).symm
      undone := fun h => h }
  · exact .refl g _

/-- The tasks that `absorb` looks at, of those in `order`. -/
def unseen (g : TaskGroup Loop E) (w : Wait E) (done : Bool) (order : List Nat) : List Nat :=
  order.filter fun t => decide (t ∉ w.processed ∧ t ∉ w.pending) && (g.tasks.done t == done)

theorem absorbOne_advance (hw : ∀ u ∈ w.pending, g.tasks.done u = false) (t : Nat) :
    Advance g w (g.unseen w true [t]) (g.absorbOne w t).2 (g.absorbOne w t).1 ∧
      (g.absorbOne w t).1.processed = w.processed ++ g.unseen w true [t] ∧
      (g.absorbOne w t).1.pending = w.pending ++ g.unseen w false [t] := by
  unfold absorbOne
  split
  · rename_i hseen
    have hnone (b : Bool) : g.unseen w b [t] = [] := by
      unfold unseen
      rw [List.filter_eq_nil_iff]
      intro u hu
      rw [List.mem_singleton.1 hu]
      have hnot : ¬ (t ∉ w.processed ∧ t ∉ w.pending) := fun h => hseen.elim h.1 h.2
      simp [hnot]
    rw [hnone, hnone]
    exact ⟨.refl g w, (List.append_nil _).symm, (List.append_nil _).symm⟩
  · rename_i hseen
    have hnew : t ∉ w.processed ∧ t ∉ w.pending := not_or.1 hseen
    split
    · rename_i hdone
      have hlook : g.unseen w true [t] = [t] ∧ g.unseen w false [t] = [] := by
        unfold unseen
        simp [hnew, hdone]
      rw [hlook.1, hlook.2, List.append_nil]
      obtain ⟨-, hprocessed, hpending⟩ := collectOne_spec g w t
      refine ⟨(collectOne_advance hw t).processed w.processed _, ?_, hpending⟩
      show (g.collectOne w t).1.processed ++ [t] = w.processed ++ [t]
      rw [hprocessed]
    · rename_i hopen
      have hopen : g.tasks.done t = false := eq_false_of_ne_true hopen
      have hlook : g.unseen w true [t] = [] ∧ g.unseen w false [t] = [t] := by
        unfold unseen
        simp [hnew, hopen]
      have hundone : (∀ u ∈ w.pending, g.tasks.done u = false) → ∀ u ∈ w.pending ++ [t], g.tasks.done u = false := by
        intro h u hu
        rcases List.mem_append.1 hu with hu | hu
        · exact h u hu
        · exact List.mem_singleton.1 hu ▸ hopen
      rw [hlook.1, hlook.2, List.append_nil]
      split
      · refine ⟨{
          keeps := keeps_cancel g t
          consumed := rfl
          settled := fun u hu => (cancelling_cancel g t u).1 hu
          mono := fun u => (cancelling_cancel g t u).2.1
          byScope := fun u hu => ?_
          more := fun u hu => List.mem_append_left _ hu
          exceptions := (List.append_nil _).symm
          undone := hundone }, rfl, rfl⟩
        rcases List.mem_append.1 hu with hu | hu
        · exact .inl hu
        · rw [List.mem_singleton.1 hu]
          exact .inr ⟨hopen, (cancelling_cancel g t t).2.2 hopen⟩
      · exact ⟨{ Advance.refl g w with undone := hundone }, rfl, rfl⟩

/-- What `absorb` looks at, and what it waits for. -/
theorem absorb_advance {order : List Nat} (horder : order.Nodup) (hw : ∀ u ∈ w.pending, g.tasks.done u = false) :
    Advance g w (g.unseen w true order) (g.absorb w order).2 (g.absorb w order).1 ∧
      (g.absorb w order).1.processed = w.processed ++ g.unseen w true order ∧
      (g.absorb w order).1.pending = w.pending ++ g.unseen w false order := by
  induction order generalizing g w with
  | nil => exact ⟨.refl g w, (List.append_nil _).symm, (List.append_nil _).symm⟩
  | cons t order ih =>
    obtain ⟨ht, horder⟩ := List.nodup_cons.1 horder
    obtain ⟨hone, hprocessed, hpending⟩ := absorbOne_advance hw t
    obtain ⟨hrest, hprocessed', hpending'⟩ := ih horder (g := (g.absorbOne w t).2) (w := (g.absorbOne w t).1)
      (fun u hu => (hone.keeps.done u).trans (hone.undone hw u hu))
    -- The rest of the order is looked at as if `t` had not been.
    have hsame (b : Bool) : (g.absorbOne w t).2.unseen (g.absorbOne w t).1 b order = g.unseen w b order := by
      refine List.filter_congr fun u hu => ?_
      have hut : u ≠ t := fun h => ht (h ▸ hu)
      have hnew (b : Bool) : u ∉ g.unseen w b [t] := fun h => hut (List.mem_singleton.1 (List.mem_of_mem_filter h))
      rw [hone.keeps.done u, hprocessed, hpending]
      simp only [List.mem_append, hnew, or_false]
    have hcons (b : Bool) : g.unseen w b (t :: order) = g.unseen w b [t] ++ g.unseen w b order :=
      List.filter_append [t] order
    have hdone : ∀ u ∈ g.unseen w true order, g.tasks.done u = true := by
      intro u hu
      have htest := (List.mem_filter.1 hu).2
      simp only [Bool.and_eq_true, beq_iff_eq] at htest
      exact htest.2
    rw [hsame] at hrest hprocessed' hpending'
    rw [hcons, hcons]
    refine ⟨hone.trans hrest hdone, ?_, ?_⟩
    · exact hprocessed'.trans (by rw [hprocessed, List.append_assoc])
    · exact hpending'.trans (by rw [hpending, List.append_assoc])

end TaskGroup

end Multiloop.Nursery
