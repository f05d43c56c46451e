import Mathlib.Data.List.Perm.Basic

/-!
# First come, first served

What happened to the waiters of a queue: a ledger of the waiters that
registered, of those that were granted what they wait for, of those that left,
and of those that were passed over, each in order. `Fair` says of a ledger and
the waiters still queued that grants came in the order of registration, and
that a registration left the queue at most once.
-/

namespace Multiloop

structure Ledger (W : Type) where
  registered : List W := []
  granted : List W := []
  left : List W := []
  skipped : List W := []

namespace Ledger

variable {W : Type} (l : Ledger W)

def register (w : W) : Ledger W := { l with registered := l.registered ++ [w] }
def grant (ws : List W) : Ledger W := { l with granted := l.granted ++ ws }
def leave (ws : List W) : Ledger W := { l with left := l.left ++ ws }

/-- The waiters `popped` are granted if they meet `p`, and else passed over. -/
def handOff (p : W → Bool) (popped : List W) : Ledger W :=
  { l with
    granted := l.granted ++ popped.filter p
    skipped := l.skipped ++ popped.filter fun w => ! p w }

/-- The granted waiters, then the queued ones, came in this order; and each of
the registered waiters was granted once, left once, was passed over once, or is
queued. -/
structure Fair (l : Ledger W) (queue : List W) : Prop where
  order : (l.granted ++ queue).Sublist l.registered
  once : (l.granted ++ l.left ++ l.skipped ++ queue).Perm l.registered

variable {l} {queue : List W}

theorem fair_new : Fair ({} : Ledger W) [] := ⟨.refl _, .refl _⟩

theorem Fair.register (h : l.Fair queue) (w : W) : (l.register w).Fair (queue ++ [w]) := by
  constructor
  · show (l.granted ++ (queue ++ [w])).Sublist (l.registered ++ [w])
    rw [← List.append_assoc]
    exact h.order.append (.refl _)
  · show (l.granted ++ l.left ++ l.skipped ++ (queue ++ [w])).Perm (l.registered ++ [w])
    rw [← List.append_assoc]
    exact h.once.append_right _

/-- The first waiters leave the queue, granted or passed over. -/
theorem Fair.handOff {popped : List W} (h : l.Fair (popped ++ queue)) (p : W → Bool) :
    (l.handOff p popped).Fair queue := by
  constructor
  · show (l.granted ++ popped.filter p ++ queue).Sublist l.registered
    rw [List.append_assoc]
    exact ((List.filter_sublist.append_right queue).append_left l.granted).trans h.order
  · refine List.Perm.trans ?_ h.once
    classical
    refine List.perm_iff_count.2 fun w => ?_
    have hcount := (List.filter_append_perm p popped).count_eq w
    simp only [Ledger.handOff, List.count_append] at hcount ⊢
    omega

/-- The first waiters are granted. -/
theorem Fair.grant {p : List W} (h : l.Fair (p ++ queue)) : (l.grant p).Fair queue := by
  have hall := h.handOff fun _ => true
  have hgrant : l.handOff (fun _ => true) p = l.grant p := by
    simp [Ledger.handOff, Ledger.grant]
  rwa [hgrant] at hall

/-- The waiters that meet `p` leave, the others stay in order. -/
theorem Fair.leave (h : l.Fair queue) (p : W → Bool) :
    (l.leave (queue.filter p)).Fair (queue.filter fun w => ! p w) := by
  constructor
  · show (l.granted ++ queue.filter fun w => ! p w).Sublist l.registered
    exact (List.filter_sublist.append_left l.granted).trans h.order
  · refine List.Perm.trans ?_ h.once
    classical
    refine List.perm_iff_count.2 fun w => ?_
    have hcount := (List.filter_append_perm p queue).count_eq w
    simp only [Ledger.leave, List.count_append] at hcount ⊢
    omega

end Ledger

end Multiloop
