import Mathlib.Algebra.BigOperators.Group.Multiset.Basic

/-!
# A conveyor from producers to consumers

What a channel with direct hand-off is for, without its queues, futures or
event loops. Items wait in a buffer; an item handed to a consumer is in flight
until the consumer receives it; a consumer may give up while an item is in
flight to it (`none` in place of the consumer), and the item is then put back.

`r y x` says that `y` was sent before `x` by the producer of both. An item is
accepted only when it is the newest of its producer, and put back only when it
still is; then (`Conveyor.Inv`) every accepted item is in exactly one place,
and every consumer receives the items of every producer in order.
-/

namespace Multiloop

/-- Consumers `C`, items `P`. -/
structure Conveyor (C P : Type) where
  buffer : List P
  flight : Multiset (Option C × P)
  received : List (C × P)
  accepted : List P

namespace Conveyor

variable {C P : Type} {r : P → P → Prop} {k k' : Conveyor C P}

/-- Nothing is in flight to `t`. -/
def Free (F : Multiset (Option C × P)) (t : C) : Prop := ∀ x, (some t, x) ∉ F

inductive Step (r : P → P → Prop) (k : Conveyor C P) : Conveyor C P → Prop
  | accept {x : P} (hn : ∀ y ∈ k.accepted, r y x) :
    Step r k { k with buffer := k.buffer ++ [x], accepted := k.accepted ++ [x] }
  /-- Accept an item straight into a hand-off; its receiver may have given up. -/
  | handOver {o : Option C} {x : P} (hn : ∀ y ∈ k.accepted, r y x) (hb : k.buffer = [])
    (hf : ∀ t, o = some t → Free k.flight t) :
    Step r k { k with flight := (o, x) ::ₘ k.flight, accepted := k.accepted ++ [x] }
  | take {t : C} {x : P} {xs : List P} (hb : k.buffer = x :: xs) (hf : Free k.flight t) :
    Step r k { k with buffer := xs, received := k.received ++ [(t, x)] }
  | deliver {t : C} {x : P} {F : Multiset (Option C × P)} (hk : k.flight = (some t, x) ::ₘ F) :
    Step r k { k with flight := F, received := k.received ++ [(t, x)] }
  | abandon {t : C} {x : P} {F : Multiset (Option C × P)} (hk : k.flight = (some t, x) ::ₘ F) :
    Step r k { k with flight := (none, x) ::ₘ F }
  | requeue {x : P} {F : Multiset (Option C × P)} (hk : k.flight = (none, x) ::ₘ F)
    (hl : ∀ y ∈ k.accepted, y ≠ x → r y x) :
    Step r k { k with flight := F, buffer := k.buffer ++ [x] }
  | rehand {o : Option C} {x : P} {F : Multiset (Option C × P)} (hk : k.flight = (none, x) ::ₘ F)
    (hl : ∀ y ∈ k.accepted, y ≠ x → r y x) (hb : k.buffer = []) (hf : ∀ t, o = some t → Free F t) :
    Step r k { k with flight := (o, x) ::ₘ F }

/-- Each accepted item is in one place. -/
def Conserved (k : Conveyor C P) : Prop :=
  (k.buffer : Multiset P) + k.flight.map Prod.snd + (k.received.map Prod.snd : List P) = k.accepted

/-- Each consumer receives the items of each producer in order. -/
def InOrder (r : P → P → Prop) (k : Conveyor C P) : Prop :=
  k.received.Pairwise fun a b => a.1 = b.1 → r a.2 b.2

open Classical in
structure Inv (r : P → P → Prop) (k : Conveyor C P) : Prop where
  conserved : k.Conserved
  nodup : k.accepted.Nodup
  buffer : k.buffer.Pairwise r
  received_buffer : ∀ p ∈ k.received, ∀ y ∈ k.buffer, r p.2 y
  flight_buffer : ∀ t x, (some t, x) ∈ k.flight → ∀ y ∈ k.buffer, r x y
  single : ∀ t : C, k.flight.countP (·.1 = some t) ≤ 1
  received_flight : ∀ t x y, (t, y) ∈ k.received → (some t, x) ∈ k.flight → r y x
  inOrder : k.InOrder r

/-! ## Places -/

theorem coe_snoc (xs : List P) (x : P) : ((xs ++ [x] : List P) : Multiset P) = x ::ₘ (xs : Multiset P) := by
  rw [Multiset.cons_coe, Multiset.coe_eq_coe]
  exact List.perm_append_singleton x xs

theorem Conserved.buffer_mem (h : k.Conserved) {x : P} (hx : x ∈ k.buffer) : x ∈ k.accepted := by
  have : x ∈ (k.accepted : Multiset P) := h ▸ by simp [hx]
  simpa using this

theorem Conserved.flight_mem (h : k.Conserved) {o : Option C} {x : P} (hx : (o, x) ∈ k.flight) :
    x ∈ k.accepted := by
  have : x ∈ (k.accepted : Multiset P) := by
    rw [← h]
    simp only [Multiset.mem_add]
    exact .inl (.inr (Multiset.mem_map_of_mem Prod.snd hx))
  simpa using this

theorem Conserved.received_mem (h : k.Conserved) {t : C} {x : P} (hx : (t, x) ∈ k.received) :
    x ∈ k.accepted := by
  have : x ∈ (k.accepted : Multiset P) := by
    rw [← h]
    simp only [Multiset.mem_add]
    exact .inr (by simpa using ⟨t, hx⟩)
  simpa using this

/-- An item in flight is in no other place. -/
theorem Inv.alone (h : Inv r k) {o : Option C} {x : P} {F : Multiset (Option C × P)}
    (hk : k.flight = (o, x) ::ₘ F) :
    x ∉ k.buffer ∧ x ∉ F.map Prod.snd ∧ x ∉ k.received.map Prod.snd := by
  have hnd : (k.accepted : Multiset P).Nodup := by simpa using h.nodup
  rw [← h.conserved, hk, Multiset.map_cons, Multiset.add_cons, Multiset.cons_add,
    Multiset.nodup_cons] at hnd
  simpa [not_or, and_assoc] using hnd.1

theorem free_of_countP [DecidableEq C] {F : Multiset (Option C × P)} {t : C}
    (h : F.countP (·.1 = some t) = 0) : Free F t := fun _ hx =>
  Multiset.countP_eq_zero.1 h _ hx rfl

theorem Free.countP [DecidableEq C] {F : Multiset (Option C × P)} {t : C} (h : Free F t) :
    F.countP (·.1 = some t) = 0 := by
  rw [Multiset.countP_eq_zero]
  rintro ⟨o, x⟩ hx rfl
  exact h x hx

/-- At most one item is in flight to a consumer. -/
theorem Inv.free (h : Inv r k) {t : C} {x : P} {F : Multiset (Option C × P)}
    (hk : k.flight = (some t, x) ::ₘ F) : Free F t := by
  classical
  have := h.single t
  rw [hk, Multiset.countP_cons] at this
  exact free_of_countP (by simpa using this)

/-! ## One step -/

theorem Inv.step (hr : ∀ x, ¬ r x x) (h : Inv r k) (hs : Step r k k') : Inv r k' := by
  classical
  have hc := h.conserved
  cases hs with
  | @accept x hn =>
    refine ⟨?_, ?_, ?_, ?_, ?_, h.single, h.received_flight, h.inOrder⟩
    · simp only [Conserved, coe_snoc, Multiset.cons_add]
      rw [hc]
    · simpa using h.nodup.concat fun hx => hr x (hn x hx)
    · rw [List.pairwise_append]
      exact ⟨h.buffer, by simp, fun y hy z hz => by
        obtain rfl := List.mem_singleton.1 hz
        exact hn y (hc.buffer_mem hy)⟩
    · intro p hp y hy
      rcases List.mem_append.1 hy with hy | hy
      · exact h.received_buffer p hp y hy
      · obtain rfl := List.mem_singleton.1 hy
        exact hn _ (hc.received_mem hp)
    · intro t z hz y hy
      rcases List.mem_append.1 hy with hy | hy
      · exact h.flight_buffer t z hz y hy
      · obtain rfl := List.mem_singleton.1 hy
        exact hn _ (hc.flight_mem hz)
  | @handOver o x hn hb hf =>
    refine ⟨?_, ?_, h.buffer, h.received_buffer, ?_, ?_, ?_, h.inOrder⟩
    · simp only [Conserved, coe_snoc, Multiset.map_cons, Multiset.add_cons, Multiset.cons_add]
      rw [hc]
    · simpa using h.nodup.concat fun hx => hr x (hn x hx)
    · simp [hb]
    · intro t
      rw [Multiset.countP_cons]
      by_cases ht : o = some t
      · simp [ht, (hf t ht).countP]
      · simpa [ht] using h.single t
    · intro t z y hy hz
      rcases Multiset.mem_cons.1 hz with hz | hz
      · cases hz
        exact hn y (hc.received_mem hy)
      · exact h.received_flight t z y hy hz
  | @take t x xs hb hf =>
    have hbuf := h.buffer
    rw [hb, List.pairwise_cons] at hbuf
    have hmem : ∀ y ∈ xs, y ∈ k.buffer := fun y hy => hb ▸ List.mem_cons_of_mem _ hy
    refine ⟨?_, h.nodup, hbuf.2, ?_, fun u z hz y hy => h.flight_buffer u z hz y (hmem y hy), h.single, ?_, ?_⟩
    · rw [Conserved, hb, ← Multiset.cons_coe] at hc
      simpa only [Conserved, coe_snoc, List.map_append, List.map_cons, List.map_nil,
        Multiset.add_cons, Multiset.cons_add] using hc
    · intro p hp y hy
      rcases List.mem_append.1 hp with hp | hp
      · exact h.received_buffer p hp y (hmem y hy)
      · obtain rfl := List.mem_singleton.1 hp
        exact hbuf.1 y hy
    · intro u z y hy hz
      rcases List.mem_append.1 hy with hy | hy
      · exact h.received_flight u z y hy hz
      · obtain ⟨rfl, rfl⟩ := Prod.mk.inj (List.mem_singleton.1 hy)
        exact absurd hz (hf z)
    · rw [InOrder, List.pairwise_append]
      refine ⟨h.inOrder, by simp, fun p hp q hq _ => ?_⟩
      obtain rfl := List.mem_singleton.1 hq
      exact h.received_buffer p hp x (hb ▸ List.mem_cons_self)
  | @deliver t x F hk =>
    have hsub : ∀ p ∈ F, p ∈ k.flight := fun p hp => hk ▸ Multiset.mem_cons_of_mem hp
    have hx : (some t, x) ∈ k.flight := hk ▸ Multiset.mem_cons_self _ _
    refine ⟨?_, h.nodup, h.buffer, ?_, fun u z hz => h.flight_buffer u z (hsub _ hz), ?_, ?_, ?_⟩
    · rw [Conserved, hk] at hc
      simpa only [Conserved, coe_snoc, List.map_append, List.map_cons, List.map_nil, Multiset.map_cons,
        Multiset.add_cons, Multiset.cons_add] using hc
    · intro p hp y hy
      rcases List.mem_append.1 hp with hp | hp
      · exact h.received_buffer p hp y hy
      · obtain rfl := List.mem_singleton.1 hp
        exact h.flight_buffer t x hx y hy
    · intro u
      have := h.single u
      rw [hk, Multiset.countP_cons] at this
      exact le_trans (Nat.le_add_right _ _) this
    · intro u z y hy hz
      rcases List.mem_append.1 hy with hy | hy
      · exact h.received_flight u z y hy (hsub _ hz)
      · obtain ⟨rfl, rfl⟩ := Prod.mk.inj (List.mem_singleton.1 hy)
        exact absurd hz (h.free hk z)
    · rw [InOrder, List.pairwise_append]
      refine ⟨h.inOrder, by simp, fun p hp q hq hpq => ?_⟩
      obtain rfl := List.mem_singleton.1 hq
      obtain ⟨u, y⟩ := p
      obtain rfl : u = t := hpq
      exact h.received_flight u x y hp hx
  | @abandon t x F hk =>
    have hsub : ∀ u z, (some u, z) ∈ (none, x) ::ₘ F → (some u, z) ∈ k.flight := fun u z hz => by
      rcases Multiset.mem_cons.1 hz with hz | hz
      · cases hz
      · exact hk ▸ Multiset.mem_cons_of_mem hz
    refine ⟨?_, h.nodup, h.buffer, h.received_buffer, fun u z hz => h.flight_buffer u z (hsub u z hz), ?_,
      fun u z y hy hz => h.received_flight u z y hy (hsub u z hz), h.inOrder⟩
    · rw [Conserved, hk] at hc
      simpa only [Conserved, Multiset.map_cons] using hc
    · intro u
      have := h.single u
      rw [hk, Multiset.countP_cons] at this
      rw [Multiset.countP_cons]
      simpa using le_trans (Nat.le_add_right _ _) this
  | @requeue x F hk hl =>
    obtain ⟨hxb, hxF, hxr⟩ := h.alone hk
    have hsub : ∀ p ∈ F, p ∈ k.flight := fun p hp => hk ▸ Multiset.mem_cons_of_mem hp
    refine ⟨?_, h.nodup, ?_, ?_, ?_, ?_, fun u z y hy hz => h.received_flight u z y hy (hsub _ hz), h.inOrder⟩
    · rw [Conserved, hk] at hc
      simpa only [Conserved, coe_snoc, Multiset.map_cons, Multiset.add_cons, Multiset.cons_add] using hc
    · rw [List.pairwise_append]
      exact ⟨h.buffer, by simp, fun y hy z hz => by
        obtain rfl := List.mem_singleton.1 hz
        exact hl y (hc.buffer_mem hy) fun e => hxb (e ▸ hy)⟩
    · intro p hp y hy
      rcases List.mem_append.1 hy with hy | hy
      · exact h.received_buffer p hp y hy
      · obtain rfl := List.mem_singleton.1 hy
        exact hl _ (hc.received_mem hp) fun e => hxr (e ▸ List.mem_map_of_mem hp)
    · intro t z hz y hy
      rcases List.mem_append.1 hy with hy | hy
      · exact h.flight_buffer t z (hsub _ hz) y hy
      · obtain rfl := List.mem_singleton.1 hy
        exact hl _ (hc.flight_mem (hsub _ hz)) fun e => hxF (e ▸ Multiset.mem_map_of_mem Prod.snd hz)
    · intro u
      have := h.single u
      rw [hk, Multiset.countP_cons] at this
      exact le_trans (Nat.le_add_right _ _) this
  | @rehand o x F hk hl hb hf =>
    obtain ⟨hxb, hxF, hxr⟩ := h.alone hk
    refine ⟨?_, h.nodup, h.buffer, h.received_buffer, by simp [hb], ?_, ?_, h.inOrder⟩
    · rw [Conserved, hk] at hc
      simpa only [Conserved, Multiset.map_cons] using hc
    · intro u
      have := h.single u
      rw [hk, Multiset.countP_cons] at this
      rw [Multiset.countP_cons]
      by_cases hu : o = some u
      · simp [hu, (hf u hu).countP]
      · simpa [hu] using le_trans (Nat.le_add_right _ _) this
    · intro u z y hy hz
      rcases Multiset.mem_cons.1 hz with hz | hz
      · cases hz
        exact hl y (hc.received_mem hy) fun e => hxr (e ▸ List.mem_map_of_mem hy)
      · exact h.received_flight u z y hy (hk ▸ Multiset.mem_cons_of_mem hz)

theorem inv_empty : Inv r (⟨[], 0, [], []⟩ : Conveyor C P) := by
  refine ⟨by simp [Conserved], List.nodup_nil, by simp, by simp, by simp, by simp, by simp, ?_⟩
  simp [InOrder]

/-- Counted, each accepted item is in one place, and nothing else is anywhere. -/
theorem Inv.count [DecidableEq P] (h : Inv r k) (x : P) :
    k.buffer.count x + (k.flight.map Prod.snd).count x + (k.received.map Prod.snd).count x =
      if x ∈ k.accepted then 1 else 0 := by
  have hc := congrArg (Multiset.count x) h.conserved
  rw [Multiset.count_add, Multiset.count_add, Multiset.coe_count, Multiset.coe_count, Multiset.coe_count] at hc
  rw [hc]
  split
  · rename_i hx
    exact List.count_eq_one_of_mem h.nodup hx
  · rename_i hx
    exact List.count_eq_zero_of_not_mem hx

end Conveyor

end Multiloop
