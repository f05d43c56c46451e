import Mathlib.Data.List.Count
import Multiloop.Channel.Raw

/-!
# What one `RawAsyncChannel` method does

For each method, the branches of one call (`…_cases`), and that it keeps
`Consistent`: a receiver is queued only while the buffer is empty, and nothing
is queued on a closed channel. Runs of calls are put together from these in
`History.lean`, and the runs of tasks over a channel in `Tasks.lean`.
-/

namespace Multiloop.Channel

variable {Loop Fut Tok Item : Type}

/-- The items the wakes of a call hand over. -/
def Outcome.handed {β : Type} (o : Outcome Loop Fut Tok Item β) : List Item :=
  o.toWake.filterMap WakeTarget.item?

/-- The waiters a call wakes. -/
def Outcome.woken {β : Type} (o : Outcome Loop Fut Tok Item β) : List (ChannelWaiter Loop Fut Tok) :=
  o.toWake.map WakeTarget.target

/-- The item a receiving call returns. -/
def returned : Except ChannelError (Bool × Option Item) → List Item
  | .ok (true, some x) => [x]
  | _ => []

@[simp] theorem returned_some (x : Item) : returned (.ok (true, some x)) = [x] := rfl
@[simp] theorem returned_none : returned (.ok (false, none) : Except ChannelError (Bool × Option Item)) = [] := rfl
@[simp] theorem returned_error (e : ChannelError) :
    returned (.error e : Except ChannelError (Bool × Option Item)) = [] := rfl

theorem perm_snoc {β : Type} (xs ys : List β) (z : β) : (xs ++ [z] ++ ys).Perm (xs ++ ys ++ [z]) := by
  have h : ([z] ++ ys).Perm (ys ++ [z]) := List.perm_append_comm
  simpa using h.append_left xs

section Wakes

variable (w : ChannelWaiter Loop Fut Tok) (x : Item)

@[simp] theorem item?_getterWake : (w.getterWake x).item? = some x := rfl
@[simp] theorem item?_putterWake : (w.putterWake : WakeTarget Loop Fut Tok Item).item? = none := rfl
@[simp] theorem item?_selectWake : (w.selectWake : WakeTarget Loop Fut Tok Item).item? = none := rfl
@[simp] theorem item?_closeWake : (w.closeWake : WakeTarget Loop Fut Tok Item).item? = none := rfl
@[simp] theorem target_getterWake : (w.getterWake x).target = w := rfl
@[simp] theorem target_putterWake : (w.putterWake : WakeTarget Loop Fut Tok Item).target = w := rfl
@[simp] theorem target_selectWake : (w.selectWake : WakeTarget Loop Fut Tok Item).target = w := rfl
@[simp] theorem target_closeWake : (w.closeWake : WakeTarget Loop Fut Tok Item).target = w := rfl

theorem filterMap_item?_map {f : ChannelWaiter Loop Fut Tok → WakeTarget Loop Fut Tok Item}
    (hf : ∀ w, (f w).item? = none) (ws : List (ChannelWaiter Loop Fut Tok)) :
    (ws.map f).filterMap WakeTarget.item? = [] := by
  simp [List.filterMap_map, hf]

theorem map_target_map {f : ChannelWaiter Loop Fut Tok → WakeTarget Loop Fut Tok Item}
    (hf : ∀ w, (f w).target = w) (ws : List (ChannelWaiter Loop Fut Tok)) :
    (ws.map f).map WakeTarget.target = ws := by
  simp [Function.comp_def, hf]

end Wakes

namespace ChannelState

variable {s : ChannelState Loop Fut Tok Item}

/-- Receivers queue only on an empty buffer; on a closed channel nothing is
queued; senders queue only on a bounded channel. -/
structure Consistent (s : ChannelState Loop Fut Tok Item) : Prop where
  buffer_of_getters : s.getters ≠ [] → s.buffer = []
  of_closed : s.isClosed = true → s.getters = [] ∧ s.putters = [] ∧ s.selectWatchers = []
  putters_of_unbounded : s.maxsize = 0 → s.putters = []

/-- All registered waiters. -/
def queued (s : ChannelState Loop Fut Tok Item) : List (ChannelWaiter Loop Fut Tok) :=
  s.getters ++ s.putters ++ s.selectWatchers

theorem consistent_new (maxsize : Nat) :
    Consistent (Channel.new maxsize : ChannelState Loop Fut Tok Item) :=
  ⟨fun h => (h rfl).elim, fun h => by simp [Channel.new] at h, fun _ => rfl⟩

/-! ## The senders a call wakes -/

/-- With room every queued sender is popped, without room none. -/
theorem drainPutters_eq (len maxsize : Nat) (ps : List (ChannelWaiter Loop Fut Tok)) :
    drainPutters len maxsize ps = if len < maxsize then ([], ps) else (ps, []) := by
  induction ps with
  | nil => simp [drainPutters]
  | cons p ps ih =>
    by_cases h : len < maxsize
    · simp [drainPutters, ih, h]
    · simp [drainPutters, h]

theorem popPutter_handed : s.popPutter.2.filterMap WakeTarget.item? = [] := by
  unfold popPutter
  cases s.putters with
  | nil => rfl
  | cons p ps => by_cases h : s.maxsize > 0 <;> simp [h]

theorem popPutter_waiters : s.popPutter.2.map WakeTarget.target ++ s.popPutter.1 = s.putters := by
  unfold popPutter
  cases s.putters with
  | nil => rfl
  | cons p ps => by_cases h : s.maxsize > 0 <;> simp [h]

theorem popPutter_nil (h : s.putters = []) : s.popPutter = ([], []) := by
  simp [popPutter, h]

/-! ## `close` -/

theorem close_cases :
    (s.isClosed = true ∧ s.close = ⟨(), s, []⟩) ∨
    (s.isClosed = false ∧ s.close =
      ⟨(), { s with isClosed := true, getters := [], putters := [], selectWatchers := [] },
        s.getters.map ChannelWaiter.closeWake ++ s.putters.map ChannelWaiter.closeWake ++
          s.selectWatchers.map ChannelWaiter.selectWake⟩) := by
  cases h : s.isClosed <;> simp [close, h]

theorem close_consistent (hc : s.Consistent) : s.close.state.Consistent := by
  rcases close_cases (s := s) with ⟨-, h⟩ | ⟨-, h⟩ <;> rw [h]
  · exact hc
  · exact ⟨fun h => (h rfl).elim, fun _ => ⟨rfl, rfl, rfl⟩, fun _ => rfl⟩

theorem close_isClosed : s.close.state.isClosed = true := by
  rcases close_cases (s := s) with ⟨hcl, h⟩ | ⟨-, h⟩ <;> rw [h]
  exact hcl

theorem close_items : s.close.handed = [] ∧ s.close.state.buffer = s.buffer := by
  rcases close_cases (s := s) with ⟨-, h⟩ | ⟨-, h⟩ <;> rw [h]
  · exact ⟨rfl, rfl⟩
  · simp only [Outcome.handed, List.filterMap_append, List.append_nil, and_self,
      filterMap_item?_map item?_closeWake, filterMap_item?_map item?_selectWake]

theorem close_watchers (h : s.selectWatchers = []) : s.close.state.selectWatchers = [] := by
  rcases close_cases (s := s) with ⟨-, e⟩ | ⟨-, e⟩ <;> rw [e]
  exact h

theorem close_waiters : (s.close.woken ++ s.close.state.queued).Perm s.queued := by
  rcases close_cases (s := s) with ⟨-, h⟩ | ⟨-, h⟩ <;> rw [h]
  · exact .refl _
  · simp [Outcome.woken, queued, Function.comp_def]

/-! ## `try_send` -/

/-- The branches of `try_send` on a consistent channel. A receiver waits on an
empty buffer, so the hand-off to it pops every queued sender. -/
theorem trySend_cases (hc : s.Consistent) (x : Item) :
    (s.isClosed = true ∧ s.trySend x = ⟨.error .closed, s, []⟩) ∨
    (s.isClosed = false ∧ ∃ g gs, s.getters = g :: gs ∧ s.buffer = [] ∧ s.trySend x =
      ⟨.ok true, { s with getters := gs, putters := [] },
        g.getterWake x :: s.putters.map ChannelWaiter.putterWake⟩) ∨
    (s.isClosed = false ∧ s.getters = [] ∧ ∃ w ws, s.selectWatchers = w :: ws ∧ s.trySend x =
      ⟨.ok true, { s with buffer := s.buffer ++ [x], selectWatchers := ws }, [w.selectWake]⟩) ∨
    (s.isClosed = false ∧ s.getters = [] ∧ s.selectWatchers = [] ∧
      0 < s.maxsize ∧ s.maxsize ≤ s.buffer.length ∧ s.trySend x = ⟨.ok false, s, []⟩) ∨
    (s.isClosed = false ∧ s.getters = [] ∧ s.selectWatchers = [] ∧
      (s.maxsize = 0 ∨ s.buffer.length < s.maxsize) ∧
      s.trySend x = ⟨.ok true, { s with buffer := s.buffer ++ [x] }, []⟩) := by
  cases h : s.isClosed with
  | true => exact .inl ⟨rfl, by simp [trySend, h]⟩
  | false =>
    refine .inr ?_
    rcases hg : s.getters with _ | ⟨g, gs⟩
    · rcases hw : s.selectWatchers with _ | ⟨w, ws⟩
      · by_cases hf : 0 < s.maxsize ∧ s.maxsize ≤ s.buffer.length
        · exact .inr (.inr (.inl ⟨rfl, rfl, rfl, hf.1, hf.2, by simp [trySend, h, hg, hw, hf.1, hf.2]⟩))
        · exact .inr (.inr (.inr ⟨rfl, rfl, rfl, by omega, by simp [trySend, h, hg, hw, hf]⟩))
      · exact .inr (.inl ⟨rfl, rfl, w, ws, rfl, by simp [trySend, h, hg, hw]⟩)
    · have hb : s.buffer = [] := hc.buffer_of_getters (by simp [hg])
      refine .inl ⟨rfl, g, gs, rfl, hb, ?_⟩
      by_cases hm : 0 < s.maxsize
      · simp [trySend, h, hg, hm, drainPutters_eq, hb]
      · have hp := hc.putters_of_unbounded (by omega)
        simp [trySend, h, hg, hm, hp]

theorem trySend_consistent (hc : s.Consistent) (x : Item) : (s.trySend x).state.Consistent := by
  rcases trySend_cases hc x with ⟨-, h⟩ | ⟨ho, g, gs, hg, hb, h⟩ | ⟨ho, hg, w, ws, hw, h⟩ |
    ⟨-, -, -, -, -, h⟩ | ⟨ho, hg, hw, -, h⟩ <;> rw [h]
  · exact hc
  · exact ⟨fun _ => hb, fun hcl => by simp [ho] at hcl, fun _ => rfl⟩
  · exact ⟨fun hne => absurd hg hne, fun hcl => by simp [ho] at hcl, hc.putters_of_unbounded⟩
  · exact hc
  · exact ⟨fun hne => absurd hg hne, fun hcl => by simp [ho] at hcl, hc.putters_of_unbounded⟩

/-- `try_send` has a place for an item: a receiver waits, or the buffer has room. -/
def HasPlace (s : ChannelState Loop Fut Tok Item) : Prop :=
  s.isClosed = false ∧ (s.getters ≠ [] ∨ s.maxsize = 0 ∨ s.buffer.length < s.maxsize)

theorem trySend_of_hasPlace (hc : s.Consistent) (hp : s.HasPlace) (x : Item) :
    (s.trySend x).reply = .ok true := by
  obtain ⟨ho, hp⟩ := hp
  rcases trySend_cases hc x with ⟨hcl, -⟩ | ⟨-, g, gs, -, -, h⟩ | ⟨-, -, w, ws, -, h⟩ |
    ⟨-, hg, -, hm, hf, -⟩ | ⟨-, -, -, -, h⟩
  · simp [ho] at hcl
  · rw [h]
  · rw [h]
  · simp only [hg, ne_eq, not_true_eq_false, false_or] at hp
    omega
  · rw [h]

theorem trySend_maxsize (hc : s.Consistent) (x : Item) : (s.trySend x).state.maxsize = s.maxsize := by
  rcases trySend_cases hc x with ⟨-, h⟩ | ⟨-, g, gs, -, -, h⟩ | ⟨-, -, w, ws, -, h⟩ |
    ⟨-, -, -, -, -, h⟩ | ⟨-, -, -, -, h⟩ <;> rw [h]

theorem trySend_watchers (hc : s.Consistent) (h : s.selectWatchers = []) (x : Item) :
    (s.trySend x).state.selectWatchers = [] := by
  rcases trySend_cases hc x with ⟨-, e⟩ | ⟨-, g, gs, -, -, e⟩ | ⟨-, -, w, ws, hw, -⟩ |
    ⟨-, -, -, -, -, e⟩ | ⟨-, -, -, -, e⟩
  · rwa [e]
  · rwa [e]
  · simp [h] at hw
  · rwa [e]
  · rwa [e]

/-- What `try_send` accepts: the item, or nothing. -/
def accepted (x : Item) : Except ChannelError Bool → List Item
  | .ok true => [x]
  | _ => []

theorem trySend_items (hc : s.Consistent) (x : Item) :
    (s.trySend x).handed ++ (s.trySend x).state.buffer = s.buffer ++ accepted x (s.trySend x).reply := by
  rcases trySend_cases hc x with ⟨-, h⟩ | ⟨-, g, gs, hg, hb, h⟩ | ⟨-, -, w, ws, hw, h⟩ |
    ⟨-, -, -, -, -, h⟩ | ⟨-, -, -, -, h⟩ <;> rw [h]
  · simp [Outcome.handed, accepted]
  · simp [Outcome.handed, accepted, hb]
  · simp [Outcome.handed, accepted]
  · simp [Outcome.handed, accepted]
  · simp [Outcome.handed, accepted]

/-- Only queued receivers are handed items. -/
theorem trySend_handed (hc : s.Consistent) {x y : Item} {t : WakeTarget Loop Fut Tok Item}
    (ht : t ∈ (s.trySend x).toWake) (hy : t.item? = some y) : ∃ w ∈ s.getters, t = w.getterWake y := by
  rcases trySend_cases hc x with ⟨-, h⟩ | ⟨-, g, gs, hg, hb, h⟩ | ⟨-, hg, w, ws, hw, h⟩ |
    ⟨-, -, -, -, -, h⟩ | ⟨-, -, -, -, h⟩ <;> rw [h] at ht
  · simp at ht
  · rcases List.mem_cons.1 ht with rfl | ht
    · obtain rfl : x = y := by simpa using hy
      exact ⟨g, by simp [hg], rfl⟩
    · obtain ⟨p, -, rfl⟩ := List.mem_map.1 ht
      simp at hy
  · obtain rfl := List.mem_singleton.1 ht
    simp at hy
  · simp at ht
  · simp at ht

/-- A call that hands no item has no wake that carries one. -/
theorem item?_of_handed_nil {β : Type} {o : Outcome Loop Fut Tok Item β} (h : o.handed = [])
    {t : WakeTarget Loop Fut Tok Item} (ht : t ∈ o.toWake) : t.item? = none :=
  List.filterMap_eq_nil_iff.1 h t ht

theorem trySend_waiters (hc : s.Consistent) (x : Item) :
    ((s.trySend x).woken ++ (s.trySend x).state.queued).Perm s.queued := by
  rcases trySend_cases hc x with ⟨-, h⟩ | ⟨-, g, gs, hg, hb, h⟩ | ⟨-, hg, w, ws, hw, h⟩ |
    ⟨-, -, -, -, -, h⟩ | ⟨-, -, -, -, h⟩ <;> rw [h]
  · exact .refl _
  · simp only [Outcome.woken, queued, hg, List.map_cons, target_getterWake,
      map_target_map target_putterWake, List.append_nil, List.cons_append, List.perm_cons,
      ← List.append_assoc]
    exact List.perm_append_comm.append_right _
  · simp only [Outcome.woken, queued, hg, hw, List.map_cons, List.map_nil, target_selectWake,
      List.nil_append, List.cons_append]
    exact List.perm_middle.symm
  · exact .refl _
  · exact .refl _

/-! ## Receiving -/

theorem getters_of_buffer (hc : s.Consistent) (hb : s.buffer ≠ []) : s.getters = [] := by
  by_contra hne
  exact hb (hc.buffer_of_getters hne)

/-- The branches of `try_recv`. -/
theorem tryRecv_cases :
    (∃ x xs, s.buffer = x :: xs ∧ s.tryRecv =
      ⟨.ok (true, some x), { s with buffer := xs, putters := s.popPutter.1 }, s.popPutter.2⟩) ∨
    (s.buffer = [] ∧ s.isClosed = true ∧ s.tryRecv = ⟨.error .closed, s, []⟩) ∨
    (s.buffer = [] ∧ s.isClosed = false ∧ s.tryRecv = ⟨.ok (false, none), s, []⟩) := by
  rcases hb : s.buffer with _ | ⟨x, xs⟩
  · cases h : s.isClosed <;> simp [tryRecv, hb, h]
  · exact .inl ⟨x, xs, rfl, by simp [tryRecv, hb]⟩

theorem tryRecv_consistent (hc : s.Consistent) : s.tryRecv.state.Consistent := by
  rcases tryRecv_cases (s := s) with ⟨x, xs, hb, h⟩ | ⟨-, -, h⟩ | ⟨-, -, h⟩ <;> rw [h]
  · have hg : s.getters = [] := getters_of_buffer hc (by simp [hb])
    refine ⟨fun hne => absurd hg hne, fun hcl => ?_, fun hm => ?_⟩
    · obtain ⟨-, hp, hw⟩ := hc.of_closed hcl
      exact ⟨hg, by simp [popPutter_nil hp], hw⟩
    · simp [popPutter_nil (hc.putters_of_unbounded hm)]
  · exact hc
  · exact hc

theorem tryRecv_items :
    returned s.tryRecv.reply ++ s.tryRecv.state.buffer = s.buffer ∧ s.tryRecv.handed = [] := by
  rcases tryRecv_cases (s := s) with ⟨x, xs, hb, h⟩ | ⟨hb, -, h⟩ | ⟨hb, -, h⟩ <;> rw [h]
  · simp [Outcome.handed, popPutter_handed, hb]
  · simp [Outcome.handed]
  · simp [Outcome.handed]

theorem tryRecv_watchers : s.tryRecv.state.selectWatchers = s.selectWatchers := by
  rcases tryRecv_cases (s := s) with ⟨x, xs, -, h⟩ | ⟨-, -, h⟩ | ⟨-, -, h⟩ <;> rw [h]

theorem tryRecv_getters : s.tryRecv.state.getters = s.getters := by
  rcases tryRecv_cases (s := s) with ⟨x, xs, -, h⟩ | ⟨-, -, h⟩ | ⟨-, -, h⟩ <;> rw [h]

theorem tryRecv_waiters : (s.tryRecv.woken ++ s.tryRecv.state.queued).Perm s.queued := by
  rcases tryRecv_cases (s := s) with ⟨x, xs, -, h⟩ | ⟨-, -, h⟩ | ⟨-, -, h⟩ <;> rw [h]
  · simp only [Outcome.woken, queued, ← popPutter_waiters (s := s), ← List.append_assoc]
    exact (List.perm_append_comm.append_right _).append_right _
  · exact .refl _
  · exact .refl _

/-- `register_getter` either receives at once or queues the waiter. -/
theorem registerGetter_cases (l : Loop) (f : Fut) :
    (s.getters = [] ∧ s.buffer ≠ [] ∧ s.registerGetter l f = s.tryRecv) ∨
    (s.isClosed = true ∧ s.registerGetter l f = ⟨.error .closed, s, []⟩) ∨
    ((s.getters ≠ [] ∨ s.buffer = []) ∧ s.isClosed = false ∧ s.registerGetter l f =
      ⟨.ok (false, none), { s with getters := s.getters ++ [⟨l, f, none⟩] }, []⟩) := by
  unfold registerGetter
  split
  · rename_i x xs hg hb
    exact .inl ⟨hg, by simp [hb], by simp [tryRecv, hb]⟩
  · rename_i hne
    refine .inr ?_
    cases h : s.isClosed with
    | true => exact .inl ⟨rfl, by simp⟩
    | false =>
      refine .inr ⟨?_, rfl, by simp⟩
      by_contra hcon
      rw [not_or, not_not] at hcon
      obtain ⟨x, xs, hx⟩ := List.exists_cons_of_ne_nil hcon.2
      exact hne x xs hcon.1 hx

/-- A receiver that finds an open channel empty is queued. -/
theorem registerGetter_queued (ho : s.isClosed = false) (hb : s.buffer = []) {l : Loop} {f : Fut} :
    s.registerGetter l f = ⟨.ok (false, none), { s with getters := s.getters ++ [⟨l, f, none⟩] }, []⟩ := by
  rcases registerGetter_cases (s := s) l f with ⟨-, hne, -⟩ | ⟨hcl, -⟩ | ⟨-, -, h⟩
  · exact absurd hb hne
  · simp [ho] at hcl
  · exact h

theorem registerGetter_consistent (hc : s.Consistent) (l : Loop) (f : Fut) :
    (s.registerGetter l f).state.Consistent := by
  rcases registerGetter_cases (s := s) l f with ⟨-, -, h⟩ | ⟨-, h⟩ | ⟨hor, ho, h⟩ <;> rw [h]
  · exact tryRecv_consistent hc
  · exact hc
  · refine ⟨fun _ => hor.elim hc.buffer_of_getters id, fun hcl => ?_, hc.putters_of_unbounded⟩
    simp [ho] at hcl

/-! ## Registering and unregistering -/

theorem registerPutter_cases (l : Loop) (f : Fut) :
    (s.isClosed = true ∧ s.registerPutter l f = ⟨.error .closed, s, []⟩) ∨
    (s.isClosed = false ∧ s.putters = [] ∧ (s.maxsize = 0 ∨ s.buffer.length < s.maxsize) ∧
      s.registerPutter l f = ⟨.ok true, s, []⟩) ∨
    (s.isClosed = false ∧ (s.putters = [] → 0 < s.maxsize ∧ s.maxsize ≤ s.buffer.length) ∧
      s.registerPutter l f = ⟨.ok false, { s with putters := s.putters ++ [⟨l, f, none⟩] }, []⟩) := by
  cases h : s.isClosed with
  | true => exact .inl ⟨rfl, by simp [registerPutter, h]⟩
  | false =>
    refine .inr ?_
    by_cases hr : s.putters = [] ∧ (s.maxsize = 0 ∨ s.buffer.length < s.maxsize)
    · exact .inl ⟨rfl, hr.1, hr.2, by simp [registerPutter, h, hr.1, hr.2]⟩
    · exact .inr ⟨rfl, fun hp => by grind, by simp [registerPutter, h, hr]⟩

/-- A sender that finds no room, or others waiting, is queued. -/
theorem registerPutter_queued (ho : s.isClosed = false)
    (hfull : s.putters = [] → 0 < s.maxsize ∧ s.maxsize ≤ s.buffer.length) {l : Loop} {f : Fut} :
    s.registerPutter l f = ⟨.ok false, { s with putters := s.putters ++ [⟨l, f, none⟩] }, []⟩ := by
  rcases registerPutter_cases (s := s) l f with ⟨hcl, -⟩ | ⟨-, hp, hr, -⟩ | ⟨-, -, h⟩
  · simp [ho] at hcl
  · have := hfull hp
    omega
  · exact h

theorem registerPutter_consistent (hc : s.Consistent) (l : Loop) (f : Fut) :
    (s.registerPutter l f).state.Consistent := by
  rcases registerPutter_cases (s := s) l f with ⟨-, h⟩ | ⟨-, -, -, h⟩ | ⟨ho, hfull, h⟩ <;> rw [h]
  · exact hc
  · exact hc
  · refine ⟨hc.buffer_of_getters, fun hcl => by simp [ho] at hcl, fun hm => ?_⟩
    have hm : s.maxsize = 0 := hm
    exact absurd (hfull (hc.putters_of_unbounded hm)).1 (by omega)

theorem registerSelectWatcher_cases (l : Loop) (f : Fut) (t : Tok) :
    ((s.isClosed = true ∨ s.buffer ≠ []) ∧ s.registerSelectWatcher l f t = ⟨false, s, []⟩) ∨
    (s.isClosed = false ∧ s.buffer = [] ∧ s.registerSelectWatcher l f t =
      ⟨true, { s with selectWatchers := s.selectWatchers ++ [⟨l, f, some t⟩] }, []⟩) := by
  by_cases hb : s.buffer = []
  · cases h : s.isClosed <;> simp [registerSelectWatcher, h, hb]
  · exact .inl ⟨.inr hb, by simp [registerSelectWatcher, hb]⟩

theorem registerSelectWatcher_consistent (hc : s.Consistent) (l : Loop) (f : Fut) (t : Tok) :
    (s.registerSelectWatcher l f t).state.Consistent := by
  rcases registerSelectWatcher_cases (s := s) l f t with ⟨-, h⟩ | ⟨ho, -, h⟩ <;> rw [h]
  · exact hc
  · exact ⟨hc.buffer_of_getters, fun hcl => by simp [ho] at hcl, hc.putters_of_unbounded⟩

theorem forwardSelectWakeup_cases :
    ((s.buffer = [] ∨ s.getters ≠ [] ∨ s.selectWatchers = []) ∧
      s.forwardSelectWakeup = ⟨(), s, []⟩) ∨
    (s.buffer ≠ [] ∧ s.getters = [] ∧ ∃ w ws, s.selectWatchers = w :: ws ∧
      s.forwardSelectWakeup = ⟨(), { s with selectWatchers := ws }, [w.selectWake]⟩) := by
  rcases hw : s.selectWatchers with _ | ⟨w, ws⟩
  · exact .inl ⟨.inr (.inr rfl), by simp [forwardSelectWakeup, hw]⟩
  · by_cases hb : s.buffer = []
    · exact .inl ⟨.inl hb, by simp [forwardSelectWakeup, hw, hb]⟩
    · by_cases hg : s.getters = []
      · exact .inr ⟨hb, hg, w, ws, rfl, by simp [forwardSelectWakeup, hw, hb, hg]⟩
      · exact .inl ⟨.inr (.inl hg), by simp [forwardSelectWakeup, hw, hg]⟩

theorem forwardSelectWakeup_consistent (hc : s.Consistent) : s.forwardSelectWakeup.state.Consistent := by
  rcases forwardSelectWakeup_cases (s := s) with ⟨-, h⟩ | ⟨-, -, w, ws, hw, h⟩ <;> rw [h]
  · exact hc
  · refine ⟨hc.buffer_of_getters, fun hcl => ?_, hc.putters_of_unbounded⟩
    simp [(hc.of_closed hcl).2.2] at hw

variable [DecidableEq Fut]

/-- The waiters `retain` drops. -/
def dropped (f : Fut) (ws : List (ChannelWaiter Loop Fut Tok)) : List (ChannelWaiter Loop Fut Tok) :=
  ws.filter fun w => w.future = f

theorem retain_eq_self {f : Fut} {ws : List (ChannelWaiter Loop Fut Tok)}
    (h : (retain f ws).length = ws.length) : retain f ws = ws :=
  List.Sublist.eq_of_length List.filter_sublist h

theorem retain_nil (f : Fut) : retain f ([] : List (ChannelWaiter Loop Fut Tok)) = [] := rfl

theorem dropped_eq_nil {f : Fut} {ws : List (ChannelWaiter Loop Fut Tok)} (h : retain f ws = ws) :
    dropped f ws = [] := by
  simp only [retain, List.filter_eq_self, decide_eq_true_eq] at h
  simpa [dropped, List.filter_eq_nil_iff] using h

theorem mem_retain {f : Fut} {ws : List (ChannelWaiter Loop Fut Tok)} {w : ChannelWaiter Loop Fut Tok} :
    w ∈ retain f ws ↔ w ∈ ws ∧ w.future ≠ f := by
  simp [retain]

theorem dropped_append_retain (f : Fut) (ws : List (ChannelWaiter Loop Fut Tok)) :
    (dropped f ws ++ retain f ws).Perm ws := by
  simpa [dropped, retain] using List.filter_append_perm (fun w => decide (w.future = f)) ws

/-- `unregister_getter` on a consistent channel: a queued waiter is removed;
otherwise, if items are buffered (no receiver is then queued), a selector is
woken. The branch that hands an item to the next receiver is never taken. -/
theorem unregisterGetter_cases (hc : s.Consistent) (f : Fut) :
    (∃ r, s.unregisterGetter f = ⟨.ok r, { s with getters := retain f s.getters }, []⟩) ∨
    (∃ w ws, s.selectWatchers = w :: ws ∧ s.getters = [] ∧ s.buffer ≠ [] ∧
      s.unregisterGetter f = ⟨.ok false, { s with selectWatchers := ws }, [w.selectWake]⟩) := by
  unfold unregisterGetter
  by_cases hr : (retain f s.getters).length = s.getters.length
  · simp only [hr, ne_eq, not_true_eq_false, decide_false]
    rw [retain_eq_self hr]
    rcases hb : s.buffer with _ | ⟨x, xs⟩
    · exact .inl ⟨false, by simp⟩
    · have hg : s.getters = [] := by
        by_contra hne
        simp [hc.buffer_of_getters hne] at hb
      rcases hw : s.selectWatchers with _ | ⟨w, ws⟩
      · exact .inl ⟨false, by simp [hg]⟩
      · exact .inr ⟨w, ws, rfl, hg, by simp, by cases s; simp_all⟩
  · simp only [hr, ne_eq, not_false_eq_true, decide_true]
    exact .inl ⟨true, rfl⟩

theorem unregisterGetter_consistent (hc : s.Consistent) (f : Fut) :
    (s.unregisterGetter f).state.Consistent := by
  rcases unregisterGetter_cases hc f with ⟨r, h⟩ | ⟨w, ws, hw, hg, -, h⟩ <;> rw [h]
  · refine ⟨fun hne => hc.buffer_of_getters fun he => hne ?_, fun hcl => ?_, hc.putters_of_unbounded⟩
    · simp [he, retain_nil]
    · obtain ⟨hg, hp, hw⟩ := hc.of_closed hcl
      exact ⟨by simp [hg, retain_nil], hp, hw⟩
  · refine ⟨fun hne => absurd hg hne, fun hcl => ?_, hc.putters_of_unbounded⟩
    simp [(hc.of_closed hcl).2.2] at hw

theorem unregisterGetter_items (hc : s.Consistent) (f : Fut) :
    (s.unregisterGetter f).handed = [] ∧ (s.unregisterGetter f).state.buffer = s.buffer := by
  rcases unregisterGetter_cases hc f with ⟨r, h⟩ | ⟨w, ws, -, -, -, h⟩ <;> rw [h] <;>
    simp [Outcome.handed]

theorem unregisterGetter_waiters (hc : s.Consistent) (f : Fut) :
    ((s.unregisterGetter f).woken ++ dropped f s.getters ++ (s.unregisterGetter f).state.queued).Perm
      s.queued := by
  rcases unregisterGetter_cases hc f with ⟨r, h⟩ | ⟨w, ws, hw, hg, -, h⟩ <;> rw [h]
  · simp only [Outcome.woken, queued, List.map_nil, List.nil_append, ← List.append_assoc]
    exact ((dropped_append_retain f _).append_right _).append_right _
  · simp only [Outcome.woken, queued, hg, hw, dropped, List.map_cons, List.map_nil,
      target_selectWake, List.filter_nil, List.append_nil, List.nil_append, List.cons_append]
    exact List.perm_middle.symm

/-- `unregister_putter`: a queued waiter is removed; otherwise, with room and
a sender queued, the next one is woken. -/
theorem unregisterPutter_cases (f : Fut) :
    (∃ r, s.unregisterPutter f = ⟨.ok r, { s with putters := retain f s.putters }, []⟩ ∧
      (retain f s.putters = s.putters → s.putters ≠ [] → s.maxsize ≠ 0 ∧ s.maxsize ≤ s.buffer.length)) ∨
    (∃ p ps, s.putters = p :: ps ∧ retain f s.putters = s.putters ∧
      (s.maxsize = 0 ∨ s.buffer.length < s.maxsize) ∧
      s.unregisterPutter f = ⟨.ok false, { s with putters := ps }, [p.putterWake]⟩) := by
  unfold unregisterPutter
  by_cases hr : (retain f s.putters).length = s.putters.length
  · simp only [hr, ne_eq, not_true_eq_false, decide_false]
    rw [retain_eq_self hr]
    rcases hp : s.putters with _ | ⟨p, ps⟩
    · exact .inl ⟨false, by simp, by simp⟩
    · by_cases hroom : s.maxsize = 0 ∨ s.buffer.length < s.maxsize
      · exact .inr ⟨p, ps, rfl, rfl, hroom, by simp [hroom]⟩
      · exact .inl ⟨false, by simp [hroom, ← hp], fun _ _ => by omega⟩
  · simp only [hr, ne_eq, not_false_eq_true, decide_true, not_true_eq_false, false_and, ↓reduceIte]
    refine .inl ⟨true, ?_, fun he => absurd (by rw [he]) hr⟩
    rcases hp : retain f s.putters with _ | ⟨p, ps⟩ <;> rfl

theorem unregisterPutter_consistent (hc : s.Consistent) (f : Fut) :
    (s.unregisterPutter f).state.Consistent := by
  rcases unregisterPutter_cases (s := s) f with ⟨r, h, -⟩ | ⟨p, ps, hp, -, -, h⟩ <;> rw [h]
  · refine ⟨hc.buffer_of_getters, fun hcl => ?_, fun hm => ?_⟩
    · obtain ⟨hg, hp, hw⟩ := hc.of_closed hcl
      exact ⟨hg, by simp [hp, retain_nil], hw⟩
    · simp [hc.putters_of_unbounded hm, retain_nil]
  · refine ⟨hc.buffer_of_getters, fun hcl => ?_, fun hm => ?_⟩
    · simp [(hc.of_closed hcl).2.1] at hp
    · simp [hc.putters_of_unbounded hm] at hp

theorem unregisterPutter_items (f : Fut) :
    (s.unregisterPutter f).handed = [] ∧ (s.unregisterPutter f).state.buffer = s.buffer := by
  rcases unregisterPutter_cases (s := s) f with ⟨r, h, -⟩ | ⟨p, ps, -, -, -, h⟩ <;> rw [h] <;>
    simp [Outcome.handed]

theorem unregisterPutter_waiters (f : Fut) :
    ((s.unregisterPutter f).woken ++ dropped f s.putters ++ (s.unregisterPutter f).state.queued).Perm
      s.queued := by
  rcases unregisterPutter_cases (s := s) f with ⟨r, h, -⟩ | ⟨p, ps, hp, hr, -, h⟩ <;> rw [h]
  · simp only [Outcome.woken, queued, List.map_nil, List.nil_append, ← List.append_assoc]
    refine .append_right _ ?_
    rw [List.append_assoc]
    exact (List.perm_append_comm_assoc _ _ _).trans ((dropped_append_retain f _).append_left _)
  · rw [dropped_eq_nil hr]
    simp only [Outcome.woken, queued, hp, List.map_cons, List.map_nil, target_putterWake,
      List.cons_append, List.nil_append, List.append_assoc]
    exact List.perm_middle.symm

theorem unregisterSelectWatcher_consistent (hc : s.Consistent) (f : Fut) :
    (s.unregisterSelectWatcher f).state.Consistent := by
  refine ⟨hc.buffer_of_getters, fun hcl => ?_, hc.putters_of_unbounded⟩
  obtain ⟨hg, hp, hw⟩ := hc.of_closed hcl
  exact ⟨hg, hp, by simp [unregisterSelectWatcher, hw, retain_nil]⟩

end ChannelState

end Multiloop.Channel
