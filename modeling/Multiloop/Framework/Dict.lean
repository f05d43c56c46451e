import Mathlib.Data.List.AList
import Mathlib.Data.List.Induction

/-!
# Dictionaries

A dictionary whose values are gathered from pairs, and one that is updated from
another. The order of the keys is not kept.
-/

namespace Multiloop

universe u v w

/-- A `dict` with values of one type. -/
abbrev Dict (κ : Type u) (α : Type v) : Type (max u v) := AList fun _ : κ => α

namespace Dict

variable {κ : Type u} {α : Type v} {β : Type w} [DecidableEq κ]

/-- `d.setdefault(k, []).append(v)`. -/
def append (d : Dict κ (List α)) (k : κ) (v : α) : Dict κ (List α) := d.insert k ((d.lookup k).getD [] ++ [v])

/-- The values that pairs have for a key, in order. -/
def values (pairs : List (κ × α)) (k : κ) : List α := (pairs.filter (·.1 = k)).map Prod.snd

/-- A key for each value, in the order of the pairs. -/
def group (pairs : List (κ × α)) : Dict κ (List α) := pairs.foldl (fun d p => append d p.1 p.2) ∅

/-- `for k, v in m.items(): d[k] = f(v)`. -/
def assign (f : α → β) (d : Dict κ β) (m : Dict κ α) : Dict κ β := m.foldl (fun d k v => d.insert k (f v)) d

variable {d : Dict κ (List α)} {pairs : List (κ × α)} {k : κ}

theorem lookup_append (d : Dict κ (List α)) (k : κ) (v : α) (k' : κ) : (append d k v).lookup k' =
    if k' = k then some ((d.lookup k).getD [] ++ [v]) else d.lookup k' := by
  unfold append
  split
  · rename_i h
    rw [h, AList.lookup_insert]
  · rename_i h
    rw [AList.lookup_insert_ne h]

theorem values_append (pairs : List (κ × α)) (p : κ × α) (k : κ) : values (pairs ++ [p]) k =
    if k = p.1 then values pairs k ++ [p.2] else values pairs k := by
  unfold values
  rw [List.filter_append, List.map_append]
  split
  · rename_i h
    rw [List.filter_cons_of_pos (by simpa using h.symm)]
    rfl
  · rename_i h
    rw [List.filter_cons_of_neg (by simpa using Ne.symm h)]
    exact List.append_nil _

theorem group_append (pairs : List (κ × α)) (p : κ × α) : group (pairs ++ [p]) = append (group pairs) p.1 p.2 := by
  unfold group
  rw [List.foldl_append]
  rfl

/-- A key is there if it has a value, and then with all of its values. -/
theorem lookup_group (pairs : List (κ × α)) (k : κ) : (group pairs).lookup k =
    if values pairs k = [] then none else some (values pairs k) := by
  induction pairs using List.reverseRecOn with
  | nil => rfl
  | append_singleton pairs p ih =>
    rw [group_append, lookup_append, values_append]
    by_cases hk : k = p.1
    · subst hk
      rw [if_pos rfl, if_pos rfl, ih, if_neg (List.append_ne_nil_of_right_ne_nil _ (List.cons_ne_nil _ _))]
      by_cases hnil : values pairs p.1 = []
      · rw [if_pos hnil, hnil]
        rfl
      · rw [if_neg hnil]
        rfl
    · rw [if_neg hk, if_neg hk, ih]

theorem lookup_foldl_insert (f : α → β) (entries : List (Σ _ : κ, α)) (hnodup : entries.NodupKeys) (d : Dict κ β)
    (k : κ) :
    (entries.foldl (fun d e => d.insert e.1 (f e.2)) d).lookup k = ((entries.dlookup k).map f).or (d.lookup k) := by
  induction entries generalizing d with
  | nil => rfl
  | cons e entries ih =>
    obtain ⟨k', v⟩ := e
    obtain ⟨hfresh, hnodup⟩ := List.nodupKeys_cons.1 hnodup
    rw [List.foldl_cons, ih hnodup]
    by_cases hk : k = k'
    · subst hk
      rw [List.dlookup_cons_eq, List.dlookup_eq_none.2 hfresh, AList.lookup_insert]
      rfl
    · rw [List.dlookup_cons_ne _ _ hk, AList.lookup_insert_ne hk]

/-- The keys of `m` get its values, and the others keep theirs. -/
theorem lookup_assign (f : α → β) (d : Dict κ β) (m : Dict κ α) (k : κ) : (assign f d m).lookup k =
    ((m.lookup k).map f).or (d.lookup k) :=
  lookup_foldl_insert f m.entries m.nodupKeys d k

end Dict

end Multiloop
