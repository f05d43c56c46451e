import Multiloop.Framework.Usize

/-!
# Preallocated buffers

A buffer of a length that is fixed before anything is written, as cells that are
`none` until they are written. A copy that is out of range, or of another length
than its range, faults. Writers that go from the front to the back keep
`written total done`: the elements `done` first, and then cells that nothing was
written to (`copyTo_written`). So copies one after another (`copies`) fill the
buffer exactly if their lengths add up to its length (`copies_exact`), and a loop
over blocks of one length writes as far as whole blocks go (`strided_inv`).
-/

namespace Multiloop

/-- The cells of a buffer. -/
abbrev Cells (α : Type) : Type := List (Option α)

section

variable {α : Type}

/-- `buf[i..j].copy_from_slice(src)`. -/
def copyTo (buf : Cells α) (i j : Nat) (src : List α) : Except Fault (Cells α) :=
  if i ≤ j ∧ j ≤ buf.length ∧ src.length = j - i then .ok (buf.take i ++ (src.map some ++ buf.drop j))
  else .error .range

/-- A buffer of `total` cells, of which the first ones have `done`. -/
def written (total : Nat) (done : List α) : Cells α := done.map some ++ List.replicate (total - done.length) none

variable {total : Nat} {done src : List α}

theorem written_nil (total : Nat) : written total ([] : List α) = List.replicate total none := rfl

theorem written_all (done : List α) : written done.length done = done.map some := by
  unfold written
  rw [Nat.sub_self, List.replicate_zero, List.append_nil]

theorem length_written (h : done.length ≤ total) : (written total done).length = total := by
  unfold written
  rw [List.length_append, List.length_map, List.length_replicate]
  omega

theorem copyTo_written (h : done.length + src.length ≤ total) :
    copyTo (written total done) done.length (done.length + src.length) src = .ok (written total (done ++ src)) := by
  have hlen : (done.map some).length = done.length := List.length_map _
  have htake : (written total done).take done.length = done.map some := by
    unfold written
    rw [← hlen, List.take_left]
  have hdrop : (written total done).drop (done.length + src.length) =
      List.replicate (total - (done ++ src).length) none := by
    unfold written
    rw [← List.drop_drop, ← hlen, List.drop_left, List.drop_replicate, hlen, List.length_append]
    congr 1
    omega
  unfold copyTo
  rw [if_pos ⟨by omega, by rw [length_written (by omega)]; exact h, by omega⟩, htake, hdrop]
  unfold written
  rw [List.map_append, List.append_assoc]

/-- Copies one after another, from a cursor on. -/
def copies (m : Arith) : List (List α) → Nat → Cells α → Except Fault (Nat × Cells α)
  | [], cursor, buf => .ok (cursor, buf)
  | src :: srcs, cursor, buf => do
    let next ← m.add cursor src.length
    let buf ← copyTo buf cursor next src
    copies m srcs next buf

theorem copies_written (m : Arith) {srcs : List (List α)} (h : done.length + srcs.flatten.length ≤ total)
    (htotal : total < usizeEnd) :
    copies m srcs done.length (written total done) =
      .ok (done.length + srcs.flatten.length, written total (done ++ srcs.flatten)) := by
  induction srcs generalizing done with
  | nil =>
    rw [List.flatten_nil, List.append_nil]
    rfl
  | cons src srcs ih =>
    rw [List.flatten_cons, List.length_append] at h ⊢
    have hlen : (done ++ src).length = done.length + src.length := List.length_append
    have hrest := @ih (done ++ src) (by rw [hlen]; omega)
    rw [hlen, List.append_assoc, Nat.add_assoc] at hrest
    unfold copies
    rw [Arith.add_of_lt (by omega), ok_bind, copyTo_written (by omega), ok_bind]
    exact hrest

/-- Copies whose lengths add up to the length of the buffer write each of its
cells. -/
theorem copies_exact (m : Arith) {srcs : List (List α)} (h : srcs.flatten.length < usizeEnd) :
    copies m srcs 0 (List.replicate srcs.flatten.length none) = .ok (srcs.flatten.length, srcs.flatten.map some) := by
  have hall := @copies_written α _ [] m srcs (Nat.le_of_eq (Nat.zero_add _)) h
  rw [written_nil, List.nil_append, List.length_nil, Nat.zero_add, written_all] at hall
  exact hall

end

/-! ## Sums -/

/-- A sum of lengths, added up from the left. -/
def addAll (m : Arith) (ns : List Nat) (acc : Nat) : Except Fault Nat := ns.foldlM m.add acc

theorem addAll_of_lt (m : Arith) {ns : List Nat} {acc : Nat} (h : acc + ns.sum < usizeEnd) :
    addAll m ns acc = .ok (acc + ns.sum) := by
  induction ns generalizing acc with
  | nil => rfl
  | cons n ns ih =>
    rw [List.sum_cons, ← Nat.add_assoc] at h ⊢
    unfold addAll
    rw [List.foldlM_cons, Arith.add_of_lt (by omega)]
    exact ih h

/-! ## Loops over blocks -/

section Strided

variable {σ ε : Type} {k len i : Nat}

/-- `while i + k <= len { body; i += k }`. -/
def strided (k len : Nat) (body : Nat → σ → Except ε σ) (i : Nat) (s : σ) : Except ε (Nat × σ) :=
  if 0 < k ∧ i + k ≤ len then (body i s).bind fun s => strided k len body (i + k) s
  else .ok (i, s)
termination_by len - i
decreasing_by omega

/-- What each pass keeps holds when less than a block is left. -/
theorem strided_inv {body : Nat → σ → Except ε σ} {P : Nat → σ → Prop} (hk : 0 < k)
    (hbody : ∀ i s, P i s → i + k ≤ len → ∃ s', body i s = .ok s' ∧ P (i + k) s') {s : σ} (h : P i s) (hi : i ≤ len) :
    ∃ i' s', strided k len body i s = .ok (i', s') ∧ P i' s' ∧ i' ≤ len ∧ len < i' + k := by
  induction hn : len - i using Nat.strong_induction_on generalizing i s with
  | _ n ih =>
    unfold strided
    split
    · rename_i hmore
      obtain ⟨s', hs', hnext⟩ := hbody i s h hmore.2
      rw [hs']
      exact ih (len - (i + k)) (by omega) hnext hmore.2 rfl
    · exact ⟨i, s, rfl, h, hi, by omega⟩

end Strided

end Multiloop
