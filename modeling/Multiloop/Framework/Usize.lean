import Mathlib.Algebra.Order.Ring.Int

/-!
# 64-bit `usize`

A `usize` is a natural number below `2 ^ 64`. Addition and subtraction are
computed in one of two modes: `release` wraps around, as a release build does,
and `checked` faults on a result that does not fit, so that a computation that
does not fault in `checked` is one in which nothing wraps around. A slice that
is out of range, or ends before it begins, faults in both.
-/

namespace Multiloop

inductive Fault
  /-- A sum or a difference that is no `usize`. -/
  | overflow
  /-- A slice or an index out of range, or a slice that ends before it begins. -/
  | range
  /-- A loop that was given too few rounds. -/
  | unfinished
deriving DecidableEq

inductive Arith
  | checked
  | release
deriving DecidableEq

theorem ok_bind {ε α β : Type} (a : α) (f : α → Except ε β) : (Except.ok a >>= f) = f a := rfl

/-- One more than the largest `usize`. -/
abbrev usizeEnd : Nat := 2 ^ 64

namespace Arith

variable {m : Arith} {a b : Nat}

def add (m : Arith) (a b : Nat) : Except Fault Nat :=
  if a + b < usizeEnd then .ok (a + b)
  else match m with
    | .checked => .error .overflow
    | .release => .ok ((a + b) % usizeEnd)

def sub (m : Arith) (a b : Nat) : Except Fault Nat :=
  if b ≤ a then .ok (a - b)
  else match m with
    | .checked => .error .overflow
    | .release => .ok ((a + usizeEnd - b) % usizeEnd)

theorem add_of_lt (h : a + b < usizeEnd) : m.add a b = .ok (a + b) := by
  simp only [add, h, if_true]

theorem sub_of_le (h : b ≤ a) : m.sub a b = .ok (a - b) := by
  simp only [sub, h, if_true]

theorem add_checked_of_le (h : usizeEnd ≤ a + b) : checked.add a b = .error .overflow := by
  simp only [add, Nat.not_lt.2 h, if_false]

theorem add_release : release.add a b = .ok ((a + b) % usizeEnd) := by
  unfold add
  split
  · rename_i h
    rw [Nat.mod_eq_of_lt h]
  · rfl

end Arith

/-- `&buf[i..j]`. -/
def slice {α : Type} (buf : List α) (i j : Nat) : Except Fault (List α) :=
  if i ≤ j ∧ j ≤ buf.length then .ok ((buf.take j).drop i) else .error .range

/-- `buf[i]`. -/
def index {α : Type} (buf : List α) (i : Nat) : Except Fault α :=
  match buf[i]? with
  | some b => .ok b
  | none => .error .range

section Slices

variable {α : Type} {buf : List α} {i j n : Nat}

theorem slice_of_le (h : i ≤ j) (hj : j ≤ buf.length) : slice buf i j = .ok ((buf.take j).drop i) := by
  simp only [slice, h, hj, and_self, if_true]

/-- The rest of a buffer. -/
theorem slice_rest (h : i ≤ buf.length) : slice buf i buf.length = .ok (buf.drop i) := by
  rw [slice_of_le h (Nat.le_refl _), List.take_length]

/-- The next `n` elements of a buffer. -/
theorem slice_next (h : n ≤ (buf.drop i).length) (hi : i ≤ buf.length) :
    slice buf i (i + n) = .ok ((buf.drop i).take n) := by
  rw [List.length_drop] at h
  rw [slice_of_le (by omega) (by omega), List.drop_take]
  congr 2
  omega

theorem slice_inverted (h : j < i) : slice buf i j = .error .range := by
  simp only [slice, Nat.not_le.2 h, false_and, if_false]

end Slices

end Multiloop
