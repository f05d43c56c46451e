import Mathlib.Data.List.Perm.Basic
import Multiloop.Channel.Moves

/-!
# How futures, queues and tasks hang together

`Wired` holds in every state of every run of tasks over a channel: every
registered future, and every future with a wake scheduled, is registered or
scheduled once, and is either cancelled, or pending and awaited by its owner.
It is kept by each of the updates a step is made of (`Wired.goto`,
`Wired.await`, `Wired.dispatch`, …), hence by every step (`Wired.step`).
-/

namespace Multiloop.Channel

open ChannelState

variable {Loop Task α : Type}

/-- The future of a task's call. -/
def Pc.fut? : Pc Task α → Option (Fut Task)
  | .sendTry _ f => f
  | .sendRetry _ f | .sendAwait _ f | .sendUnregister f | .recvAwait f | .recvUnregister f => some f
  | _ => none

/-- Receivers' futures carry `_ch`, senders' do not. -/
def Pc.Kind : Pc Task α → Prop
  | .sendTry _ (some f) | .sendRetry _ f | .sendAwait _ f | .sendUnregister f => f.ch = false
  | .recvAwait f | .recvUnregister f => f.ch = true
  | _ => True

namespace Sys

variable {s : Sys Loop Task α}

/-- The futures that are registered or have a wake scheduled. -/
def live (s : Sys Loop Task α) : List (Fut Task) :=
  s.chan.queued.map ChannelWaiter.future ++ s.scheduled.map WakeCall.fut

/-- A future that is cancelled, or pending and awaited by its owner. -/
def Attached (s : Sys Loop Task α) (f : Fut Task) : Prop :=
  s.futs f = .cancelled ∨ s.futs f = .pending ∧ s.awaited f.owner = some f

structure Wired (s : Sys Loop Task α) : Prop where
  consistent : s.chan.Consistent
  getter_ch : ∀ w ∈ s.chan.getters, w.future.ch = true
  item_ch : ∀ c ∈ s.scheduled, ∀ x, c.val = some (.item x) → c.isExc = false ∧ c.fut.ch = true
  nodup : s.live.Nodup
  attached : ∀ f ∈ s.live, s.Attached f
  kind : ∀ t, (s.pc t).Kind
  owner : ∀ t f, (s.pc t).fut? = some f → f.owner = t ∧ f.serial < s.created t
  fresh : ∀ f, s.created f.owner ≤ f.serial → s.futs f = .pending ∧ f ∉ s.live
  pending : ∀ t f, s.awaited t = some f → s.futs f = .pending → s.mustCancel t = false
  retry : ∀ t x f, s.pc t = .sendRetry x f → s.futs f = .pending

/-- Task `t` is not suspended on a pending future. -/
def Awake (s : Sys Loop Task α) (t : Task) : Prop := ∀ f, s.awaited t = some f → s.futs f ≠ .pending

theorem awaited_fut? {t : Task} {f : Fut Task} (h : s.awaited t = some f) : (s.pc t).fut? = some f := by
  unfold awaited at h
  split at h <;> simp_all [Pc.fut?]

theorem awaited_send {t : Task} {x : Parcel Task α} {f : Fut Task} (hpc : s.pc t = .sendAwait x f) :
    s.awaited t = some f := by
  simp [awaited, hpc]

theorem awaited_recv {t : Task} {f : Fut Task} (hpc : s.pc t = .recvAwait f) :
    s.awaited t = some f := by
  simp [awaited, hpc]

theorem awaited_eq_some {t : Task} {f : Fut Task} :
    s.awaited t = some f ↔ (∃ x, s.pc t = .sendAwait x f) ∨ s.pc t = .recvAwait f := by
  unfold awaited
  split <;> simp_all

theorem awake_of_pc {t : Task} {p : Pc Task α} (hp : s.pc t = p)
    (hn : ∀ x f, p ≠ .sendAwait x f := by simp) (hn' : ∀ f, p ≠ .recvAwait f := by simp) : s.Awake t := by
  intro f hf
  unfold awaited at hf
  rw [hp] at hf
  split at hf
  · exact absurd rfl (hn _ _)
  · exact absurd rfl (hn' _)
  · cases hf

variable [DecidableEq Task]

/-! ## The updates of a step -/

omit [DecidableEq Task] in
theorem wired_new (maxsize : Nat) : Wired (Sys.new maxsize : Sys Loop Task α) where
  consistent := consistent_new maxsize
  getter_ch := by simp [Sys.new, Channel.new]
  item_ch := by simp [Sys.new]
  nodup := by simp [live, Sys.new, Channel.new, queued]
  attached := by simp [live, Sys.new, Channel.new, queued]
  kind := by simp [Sys.new, Pc.Kind]
  owner := by simp [Sys.new, Pc.fut?]
  fresh := by simp [live, Sys.new, Channel.new, queued]
  pending := by simp [Sys.new]
  retry := by simp [Sys.new]

/-- A new program counter and `_must_cancel` for a task that is not suspended. -/
theorem Wired.setPc (h : s.Wired) {t : Task} (ha : s.Awake t) {p : Pc Task α} {b : Bool}
    (hk : p.Kind) (ho : ∀ f, p.fut? = some f → f.owner = t ∧ f.serial < s.created t)
    (hp : ∀ x f, p ≠ .sendAwait x f) (hp' : ∀ f, p ≠ .recvAwait f)
    (hr : ∀ x f, p = .sendRetry x f → s.futs f = .pending) :
    Wired { s with pc := Function.update s.pc t p, mustCancel := Function.update s.mustCancel t b } where
  consistent := h.consistent
  getter_ch := h.getter_ch
  item_ch := h.item_ch
  nodup := h.nodup
  attached f hf := by
    refine (h.attached f hf).imp_right fun ⟨hpend, haw⟩ => ⟨hpend, ?_⟩
    have hne : f.owner ≠ t := by
      rintro rfl
      exact ha f haw hpend
    simpa [awaited, hne] using haw
  kind u := by
    by_cases hu : u = t
    · subst hu
      simpa using hk
    · simpa [hu] using h.kind u
  owner u f hf := by
    by_cases hu : u = t
    · subst hu
      exact ho f (by simpa using hf)
    · exact h.owner u f (by simpa [hu] using hf)
  fresh := h.fresh
  pending u f hf hpend := by
    by_cases hu : u = t
    · subst hu
      exact absurd hpend (awake_of_pc (s := { s with pc := Function.update s.pc u p }) (by simp)
        hp hp' f hf)
    · simp only [ne_eq, hu, not_false_eq_true, Function.update_of_ne]
      exact h.pending u f (by simpa [awaited, hu] using hf) hpend
  retry u x f hf := by
    by_cases hu : u = t
    · subst hu
      exact hr x f (by simpa using hf)
    · exact h.retry u x f (by simpa [hu] using hf)

theorem Wired.goto (h : s.Wired) {t : Task} (ha : s.Awake t) {p : Pc Task α} (hk : p.Kind)
    (ho : ∀ f, p.fut? = some f → f.owner = t ∧ f.serial < s.created t)
    (hr : ∀ x f, p = .sendRetry x f → s.futs f = .pending := by simp)
    (hp : ∀ x f, p ≠ .sendAwait x f := by simp) (hp' : ∀ f, p ≠ .recvAwait f := by simp) :
    (s.goto t p).Wired := by
  simpa [Sys.goto] using h.setPc ha (b := s.mustCancel t) hk ho hp hp' hr

/-- The await of a task that is not suspended raises. -/
theorem Wired.raise (h : s.Wired) {t : Task} (ha : s.Awake t) {p : Pc Task α} (hk : p.Kind)
    (ho : ∀ f, p.fut? = some f → f.owner = t ∧ f.serial < s.created t)
    (hr : ∀ x f, p = .sendRetry x f → s.futs f = .pending := by simp)
    (hp : ∀ x f, p ≠ .sendAwait x f := by simp) (hp' : ∀ f, p ≠ .recvAwait f := by simp) :
    (s.raise t p).Wired :=
  h.setPc ha hk ho hp hp' hr

/-- The call of a task that is not suspended ends. -/
theorem Wired.idle (h : s.Wired) {t : Task} (ha : s.Awake t) : (s.goto t .idle).Wired :=
  h.goto ha trivial (by simp [Pc.fut?])

theorem Wired.createFuture (h : s.Wired) (t : Task) (ch : Bool) :
    (s.createFuture t ch).2.Wired where
  consistent := h.consistent
  getter_ch := h.getter_ch
  item_ch := h.item_ch
  nodup := h.nodup
  attached := h.attached
  kind := h.kind
  owner u f hf := by
    obtain ⟨ho, hs⟩ := h.owner u f hf
    refine ⟨ho, ?_⟩
    by_cases hu : u = t
    · subst hu
      simpa [Sys.createFuture] using Nat.lt_succ_of_lt hs
    · simpa [Sys.createFuture, hu] using hs
  fresh f hf := by
    refine h.fresh f (Nat.le_trans ?_ hf)
    by_cases hu : f.owner = t <;> simp [Sys.createFuture, hu]
  pending := h.pending
  retry := h.retry

/-- Task `t` starts to await a future of its own that is not yet live. -/
theorem Wired.await (h : s.Wired) {t : Task} {f : Fut Task} {p : Pc Task α} (ha : s.Awake t)
    (hl : f ∉ s.live) (hk : p.Kind) (hf : p.fut? = some f) (ho : f.owner = t ∧ f.serial < s.created t)
    (hn : ∀ x f, p ≠ .sendRetry x f) : (s.await t f p).Wired where
  consistent := h.consistent
  getter_ch := h.getter_ch
  item_ch := h.item_ch
  nodup := h.nodup
  attached g hg := by
    have hne : g ≠ f := fun e => hl (e ▸ hg)
    have hfuts : (s.await t f p).futs g = s.futs g := by
      simp only [Sys.await]
      split
      · exact Function.update_of_ne hne _ _
      · rfl
    rw [Attached, hfuts]
    refine (h.attached g hg).imp_right fun ⟨hpend, haw⟩ => ⟨hpend, ?_⟩
    have hgt : g.owner ≠ t := by
      rintro rfl
      exact ha g haw hpend
    simpa [Sys.await, awaited, hgt] using haw
  kind u := by
    by_cases hu : u = t
    · subst hu
      simpa [Sys.await] using hk
    · simpa [Sys.await, hu] using h.kind u
  owner u g hg := by
    by_cases hu : u = t
    · subst hu
      obtain rfl : f = g := by simpa [Sys.await, hf] using hg
      exact ho
    · exact h.owner u g (by simpa [Sys.await, hu] using hg)
  fresh g hg := by
    obtain ⟨hpend, hl'⟩ := h.fresh g hg
    refine ⟨?_, hl'⟩
    have hne : g ≠ f := by
      rintro rfl
      have : s.created g.owner ≤ g.serial := hg
      rw [ho.1] at this
      omega
    simp only [Sys.await]
    split
    · rw [Function.update_of_ne hne]
      exact hpend
    · exact hpend
  pending u g hg hpend := by
    by_cases hu : u = t
    · simp [Sys.await, hu]
    · have hg' : s.awaited u = some g := by simpa [Sys.await, awaited, hu] using hg
      have hne : g ≠ f := by
        rintro rfl
        exact hu ((h.owner u g (awaited_fut? hg')).1.symm.trans ho.1)
      have hfuts : (s.await t f p).futs g = s.futs g := by
        simp only [Sys.await]
        split
        · exact Function.update_of_ne hne _ _
        · rfl
      simpa [Sys.await, hu] using h.pending u g hg' (hfuts ▸ hpend)
  retry u x g hg := by
    by_cases hu : u = t
    · subst hu
      exact absurd (by simpa [Sys.await] using hg) (hn x g)
    · have hg' : s.pc u = .sendRetry x g := by simpa [Sys.await, hu] using hg
      have hne : g ≠ f := by
        rintro rfl
        exact hu ((h.owner u g (by rw [hg']; rfl)).1.symm.trans ho.1)
      have hfuts : (s.await t f p).futs g = s.futs g := by
        simp only [Sys.await]
        split
        · exact Function.update_of_ne hne _ _
        · rfl
      rw [hfuts]
      exact h.retry u x g hg'

/-- What a task starts to await is attached to it. -/
theorem attached_await {t : Task} {f : Fut Task} {p : Pc Task α} (ho : f.owner = t)
    (hpend : s.futs f = .pending) (hp : (∃ x, p = .sendAwait x f) ∨ p = .recvAwait f) :
    (s.await t f p).Attached f := by
  by_cases hm : s.mustCancel t = true
  · exact .inl (by simp [Sys.await, hm])
  · refine .inr ⟨by simpa [Sys.await, hm] using hpend, awaited_eq_some.2 ?_⟩
    simpa [Sys.await, ho] using hp

omit [DecidableEq Task] in
theorem calls_sublist (ts : List (WakeTarget Loop (Fut Task) Unit (Parcel Task α))) :
    ((ts.filterMap WakeTarget.call?).map WakeCall.fut).Sublist
      ((ts.map WakeTarget.target).map ChannelWaiter.future) := by
  induction ts with
  | nil => simp
  | cons t ts ih =>
    cases t with
    | waiter w v e => exact ih.cons_cons _
    | selectWatcher w tok => exact ih.cons _

/-- A Rust call that wakes some of the queued waiters, drops some (`d`),
and registers some (`r`). -/
theorem count_live_dispatch {β : Type} {o : Outcome Loop (Fut Task) Unit (Parcel Task α) β}
    {d r : List (ChannelWaiter Loop (Fut Task) Unit)}
    (hw : (o.woken ++ d ++ o.state.queued).Perm (s.chan.queued ++ r)) (f : Fut Task) :
    (s.dispatch o).live.count f ≤ s.live.count f + (r.map ChannelWaiter.future).count f := by
  have hcalls := (calls_sublist o.toWake).count_le f
  have hp := (hw.map ChannelWaiter.future).count_eq f
  simp only [live, Sys.dispatch, Outcome.woken, List.map_append, List.count_append] at hp hcalls ⊢
  omega

theorem mem_live_dispatch {β : Type} {o : Outcome Loop (Fut Task) Unit (Parcel Task α) β}
    {d r : List (ChannelWaiter Loop (Fut Task) Unit)}
    (hw : (o.woken ++ d ++ o.state.queued).Perm (s.chan.queued ++ r)) {f : Fut Task}
    (hf : f ∈ (s.dispatch o).live) : f ∈ s.live ∨ ∃ w ∈ r, w.future = f := by
  have hle := count_live_dispatch hw f
  have hpos := List.count_pos_iff.2 hf
  by_cases hl : f ∈ s.live
  · exact .inl hl
  · have : 0 < (r.map ChannelWaiter.future).count f := by
      rw [List.count_eq_zero_of_not_mem hl] at hle
      omega
    exact .inr (List.mem_map.1 (List.count_pos_iff.1 this))

/-- A Rust call that registers at most one waiter, whose future is not live
yet, and hands items to queued receivers only. -/
theorem Wired.dispatch (h : s.Wired) {β : Type} {o : Outcome Loop (Fut Task) Unit (Parcel Task α) β}
    {d r : List (ChannelWaiter Loop (Fut Task) Unit)}
    (hw : (o.woken ++ d ++ o.state.queued).Perm (s.chan.queued ++ r))
    (hc : o.state.Consistent) (hg : ∀ w ∈ o.state.getters, w.future.ch = true)
    (hi : ∀ t ∈ o.toWake, ∀ x, t.item? = some x → ∃ w ∈ s.chan.getters, t = w.getterWake x)
    (hr : r.length ≤ 1)
    (hr' : ∀ w ∈ r, w.future ∉ s.live ∧ s.Attached w.future ∧
      w.future.serial < s.created w.future.owner) :
    (s.dispatch o).Wired := by
  refine ⟨hc, hg, ?_, ?_, ?_, h.kind, h.owner, ?_, h.pending, h.retry⟩
  · intro c hcall x hx
    simp only [Sys.dispatch, List.mem_append, List.mem_filterMap] at hcall
    rcases hcall with hcall | ⟨t, ht, hct⟩
    · exact h.item_ch c hcall x hx
    · cases t with
      | selectWatcher w tok => simp [WakeTarget.call?] at hct
      | waiter w v e =>
        obtain rfl : (⟨w.future, v, e⟩ : WakeCall Task α) = c := by simpa [WakeTarget.call?] using hct
        obtain rfl : v = some (.item x) := hx
        obtain ⟨w', hw', he⟩ := hi _ ht x rfl
        simp only [ChannelWaiter.getterWake, WakeTarget.waiter.injEq] at he
        exact ⟨he.2.2, he.1 ▸ h.getter_ch w' hw'⟩
  · refine List.nodup_iff_count.2 fun f => Nat.le_trans (count_live_dispatch hw f) ?_
    have hl := List.nodup_iff_count.1 h.nodup f
    by_cases hf : f ∈ r.map ChannelWaiter.future
    · obtain ⟨w, hw, rfl⟩ := List.mem_map.1 hf
      rw [List.count_eq_zero_of_not_mem (hr' w hw).1, Nat.zero_add]
      exact Nat.le_trans List.count_le_length (by simpa using hr)
    · rw [List.count_eq_zero_of_not_mem hf]
      exact hl
  · intro f hf
    rcases mem_live_dispatch hw hf with hl | ⟨w, hw, rfl⟩
    · exact h.attached f hl
    · exact (hr' w hw).2.1
  · intro f hf
    obtain ⟨hp, hl⟩ := h.fresh f hf
    refine ⟨hp, fun hl' => ?_⟩
    rcases mem_live_dispatch hw hl' with hl'' | ⟨w, hw, rfl⟩
    · exact hl hl''
    · have hlt := (hr' w hw).2.2
      have hf' : s.created w.future.owner ≤ w.future.serial := hf
      omega

/-! ## The Rust calls -/

theorem Wired.trySend (h : s.Wired) (x : Parcel Task α) : (s.dispatch (s.chan.trySend x)).Wired := by
  refine h.dispatch (d := []) (r := []) (by simpa using trySend_waiters h.consistent x)
    (trySend_consistent h.consistent x) (fun w hw => h.getter_ch w ?_)
    (fun t ht y hy => trySend_handed h.consistent ht hy) (by simp) (by simp)
  rcases trySend_cases h.consistent x with ⟨-, e⟩ | ⟨-, g, gs, hg, -, e⟩ | ⟨-, -, w', ws, -, e⟩ |
    ⟨-, -, -, -, -, e⟩ | ⟨-, -, -, -, e⟩ <;> rw [e] at hw
  · exact hw
  · rw [hg]
    exact List.mem_cons_of_mem _ hw
  · exact hw
  · exact hw
  · exact hw

theorem Wired.tryRecv (h : s.Wired) : (s.dispatch s.chan.tryRecv).Wired := by
  refine h.dispatch (d := []) (r := []) (by simpa using tryRecv_waiters)
    (tryRecv_consistent h.consistent) (fun w hw => h.getter_ch w ?_)
    (fun t ht y hy => ?_) (by simp) (by simp)
  · rcases tryRecv_cases (s := s.chan) with ⟨x, xs, -, e⟩ | ⟨-, -, e⟩ | ⟨-, -, e⟩ <;> rw [e] at hw <;>
      exact hw
  · rw [item?_of_handed_nil tryRecv_items.2 ht] at hy
    cases hy

theorem Wired.close (h : s.Wired) : (s.dispatch s.chan.close).Wired := by
  refine h.dispatch (d := []) (r := []) (by simpa using close_waiters)
    (close_consistent h.consistent) (fun w hw => h.getter_ch w ?_)
    (fun t ht y hy => ?_) (by simp) (by simp)
  · rcases close_cases (s := s.chan) with ⟨-, e⟩ | ⟨-, e⟩ <;> rw [e] at hw
    · exact hw
    · simp at hw
  · rw [item?_of_handed_nil close_items.1 ht] at hy
    cases hy

theorem Wired.unregisterGetter (h : s.Wired) (f : Fut Task) :
    (s.dispatch (s.chan.unregisterGetter f)).Wired := by
  refine h.dispatch (r := []) (by simpa using unregisterGetter_waiters h.consistent f)
    (unregisterGetter_consistent h.consistent f) (fun w hw => h.getter_ch w ?_)
    (fun t ht y hy => ?_) (by simp) (by simp)
  · rcases unregisterGetter_cases h.consistent f with ⟨r, e⟩ | ⟨w', ws, -, -, -, e⟩ <;> rw [e] at hw
    · exact (mem_retain.1 hw).1
    · exact hw
  · rw [item?_of_handed_nil (unregisterGetter_items h.consistent f).1 ht] at hy
    cases hy

theorem Wired.unregisterPutter (h : s.Wired) (f : Fut Task) :
    (s.dispatch (s.chan.unregisterPutter f)).Wired := by
  refine h.dispatch (r := []) (by simpa using unregisterPutter_waiters f)
    (unregisterPutter_consistent h.consistent f) (fun w hw => h.getter_ch w ?_)
    (fun t ht y hy => ?_) (by simp) (by simp)
  · rcases unregisterPutter_cases (s := s.chan) f with ⟨r, e, -⟩ | ⟨p, ps, -, -, -, e⟩ <;> rw [e] at hw <;>
      exact hw
  · rw [item?_of_handed_nil (unregisterPutter_items f).1 ht] at hy
    cases hy

/-- `register_putter` of a future its task awaits from now on. -/
theorem Wired.registerPutter (h : s.Wired) {l : Loop} {f : Fut Task} (hl : f ∉ s.live)
    (ha : s.Attached f) (hs : f.serial < s.created f.owner) :
    (s.dispatch (s.chan.registerPutter l f)).Wired := by
  have hk := registerPutter_consistent h.consistent l f
  rcases registerPutter_cases (s := s.chan) l f with ⟨-, e⟩ | ⟨-, -, -, e⟩ | ⟨-, -, e⟩ <;>
    rw [e] at hk ⊢
  · exact h.dispatch (d := []) (r := []) (by simp [Outcome.woken]) hk h.getter_ch (by simp) (by simp) (by simp)
  · exact h.dispatch (d := []) (r := []) (by simp [Outcome.woken]) hk h.getter_ch (by simp) (by simp) (by simp)
  · refine h.dispatch (d := []) (r := [⟨l, f, none⟩]) ?_ hk h.getter_ch (by simp) (by simp)
      (by simpa using ⟨hl, ha, hs⟩)
    simpa [Outcome.woken, queued] using
      perm_snoc (s.chan.getters ++ s.chan.putters) s.chan.selectWatchers ⟨l, f, none⟩

/-- `register_getter` of a future its task awaits from now on. -/
theorem Wired.registerGetter (h : s.Wired) {l : Loop} {f : Fut Task} (hl : f ∉ s.live)
    (ha : s.Attached f) (hs : f.serial < s.created f.owner) (hch : f.ch = true) :
    (s.dispatch (s.chan.registerGetter l f)).Wired := by
  have hk := registerGetter_consistent h.consistent l f
  rcases registerGetter_cases (s := s.chan) l f with ⟨-, -, e⟩ | ⟨-, e⟩ | ⟨-, -, e⟩ <;> rw [e] at hk ⊢
  · exact h.tryRecv
  · exact h.dispatch (d := []) (r := []) (by simp [Outcome.woken]) hk h.getter_ch (by simp) (by simp) (by simp)
  · refine h.dispatch (d := []) (r := [⟨l, f, none⟩]) ?_ hk ?_ (by simp) (by simp)
      (by simpa using ⟨hl, ha, hs⟩)
    · simpa [Outcome.woken, queued] using
        perm_snoc s.chan.getters (s.chan.putters ++ s.chan.selectWatchers) ⟨l, f, none⟩
    · intro w hw
      rcases List.mem_append.1 hw with hw | hw
      · exact h.getter_ch w hw
      · obtain rfl := List.mem_singleton.1 hw
        exact hch

/-! ## Wakes and cancellations -/

omit [DecidableEq Task] in
/-- The futures left when a scheduled wake is taken off the schedule. -/
theorem live_eraseIdx {i : Nat} {c : WakeCall Task α} (hi : s.scheduled[i]? = some c) :
    ((s.unscheduled i).live ++ [c.fut]).Perm s.live := by
  have hp : (s.scheduled.eraseIdx i ++ [c]).Perm s.scheduled := by
    obtain ⟨hlt, rfl⟩ := List.getElem?_eq_some_iff.1 hi
    exact (List.perm_append_comm).trans (List.getElem_cons_eraseIdx_perm hlt)
  simpa [live] using (hp.map WakeCall.fut).append_left (s.chan.queued.map ChannelWaiter.future)

omit [DecidableEq Task] in
theorem Wired.unschedule (h : s.Wired) {i : Nat} {c : WakeCall Task α} (hi : s.scheduled[i]? = some c) :
    (s.unscheduled i).Wired ∧
      c.fut ∉ (s.unscheduled i).live := by
  have hp := live_eraseIdx hi
  have hnd := hp.nodup_iff.2 h.nodup
  have hsub : ∀ f, f ∈ (s.unscheduled i).live → f ∈ s.live :=
    fun f hf => hp.subset (List.mem_append_left _ hf)
  refine ⟨⟨h.consistent, h.getter_ch, fun c' hc' => h.item_ch c' (List.mem_of_mem_eraseIdx hc'),
    (List.nodup_append.1 hnd).1, fun f hf => h.attached f (hsub f hf), h.kind, h.owner,
    fun f hf => ⟨(h.fresh f hf).1, fun hl => (h.fresh f hf).2 (hsub f hl)⟩, h.pending, h.retry⟩, fun hl => ?_⟩
  exact (List.nodup_append.1 hnd).2.2 _ hl _ (List.mem_singleton_self _) rfl

/-- A future that is not live is completed or cancelled. -/
theorem Wired.setFut (h : s.Wired) {f : Fut Task} {st : FutState (Option (Parcel Task α))}
    (hst : st ≠ .pending) (hl : f ∈ s.live → st = .cancelled) (hf : s.awaited f.owner = some f) :
    (s.withFut f st).Wired where
  consistent := h.consistent
  getter_ch := h.getter_ch
  item_ch := h.item_ch
  nodup := h.nodup
  attached g hg := by
    by_cases hgf : g = f
    · subst hgf
      exact .inl (by simpa using hl hg)
    · simpa [Attached, awaited, hgf] using h.attached g hg
  kind := h.kind
  owner := h.owner
  fresh g hg := by
    have hne : g ≠ f := by
      rintro rfl
      exact absurd hg (Nat.not_le.2 (h.owner _ g (awaited_fut? hf)).2)
    simpa [hne, live] using h.fresh g hg
  pending t g hg hp := by
    by_cases hgf : g = f
    · subst hgf
      exact absurd (by simpa using hp) hst
    · exact h.pending t g hg (by simpa [hgf] using hp)
  retry t x g hg := by
    have hne : g ≠ f := by
      rintro rfl
      have hg : s.pc t = .sendRetry x g := hg
      have ho := (h.owner t g (by rw [hg]; rfl)).1
      simp [awaited, ho, hg] at hf
    simpa [hne] using h.retry t x g hg

theorem Wired.setMustCancel (h : s.Wired) {t : Task} (ha : s.Awake t) :
    Wired { s with mustCancel := Function.update s.mustCancel t true } where
  consistent := h.consistent
  getter_ch := h.getter_ch
  item_ch := h.item_ch
  nodup := h.nodup
  attached := h.attached
  kind := h.kind
  owner := h.owner
  fresh := h.fresh
  pending u g hg hp := by
    have hu : u ≠ t := by
      rintro rfl
      exact ha g hg hp
    simpa [hu] using h.pending u g hg hp
  retry := h.retry

/-! ## Every step -/

omit [DecidableEq Task] in
theorem Wired.accept (h : s.Wired) (x : Parcel Task α) : (s.accept x).Wired :=
  ⟨h.1, h.2, h.3, h.4, h.5, h.6, h.7, h.8, h.9, h.10⟩

omit [DecidableEq Task] in
theorem Wired.enlist (h : s.Wired) (f : Fut Task) : (s.enlist f).Wired :=
  ⟨h.1, h.2, h.3, h.4, h.5, h.6, h.7, h.8, h.9, h.10⟩

omit [DecidableEq Task] in
theorem Wired.receive (h : s.Wired) (t : Task) (x : Parcel Task α) : (s.receive t x).Wired :=
  ⟨h.1, h.2, h.3, h.4, h.5, h.6, h.7, h.8, h.9, h.10⟩

theorem Wired.call (h : s.Wired) (t : Task) (payload : α) : (s.call t payload).2.Wired :=
  ⟨h.1, h.2, h.3, h.4, h.5, h.6, h.7, h.8, h.9, h.10⟩

omit [DecidableEq Task] in
/-- The future a task creates next. -/
theorem Wired.next (h : s.Wired) (t : Task) (ch : Bool) :
    s.futs ⟨t, s.created t, ch⟩ = .pending ∧ (⟨t, s.created t, ch⟩ : Fut Task) ∉ s.live :=
  h.fresh ⟨t, s.created t, ch⟩ (Nat.le_refl _)

theorem createFuture_serial (t : Task) (ch : Bool) :
    (s.createFuture t ch).1.owner = t ∧
      (s.createFuture t ch).1.serial < (s.createFuture t ch).2.created t := by
  simp [Sys.createFuture]

omit [DecidableEq Task] in
/-- The future of a sender about to try again is not live. -/
theorem Wired.retry_not_live (h : s.Wired) {t : Task} {x : Parcel Task α} {f : Fut Task}
    (hpc : s.pc t = .sendRetry x f) : f ∉ s.live := by
  intro hl
  have ho := (h.owner t f (by rw [hpc]; rfl)).1
  rcases h.attached f hl with hcan | ⟨-, haw⟩
  · simp [h.retry t x f hpc] at hcan
  · simp [awaited, ho, hpc] at haw

/-- A task about to make a Rust call is not suspended. -/
theorem Move.awake {home : Task → Loop} {t : Task} {s' : Sys Loop Task α}
    (hm : Move home s (.advance t) s') : s.Awake t := by
  cases hm with
  | sendOk hpc => rcases hpc with ⟨o, hpc⟩ | ⟨f, hpc⟩ <;> exact awake_of_pc hpc
  | closed hpc => rcases hpc with ⟨x, o, hpc⟩ | ⟨x, f, hpc⟩ | hpc <;> exact awake_of_pc hpc
  | registerClosed hpc => rcases hpc with ⟨x, hpc⟩ | hpc <;> exact awake_of_pc hpc
  | recvOk hpc => rcases hpc with ⟨hpc, -⟩ | ⟨hpc, -⟩ <;> exact awake_of_pc hpc
  | sendFull hpc | sendRetryFull hpc | registerRoom hpc | registerPutter hpc | unregisterPutter hpc
  | recvEmpty hpc | registerGetter hpc | unregisterGetter hpc => exact awake_of_pc hpc

omit [DecidableEq Task] in
/-- A task whose future is done is not suspended. -/
theorem awake_of_done {t : Task} {f : Fut Task} (hf : s.awaited t = some f) (hd : s.futs f ≠ .pending) :
    s.Awake t := by
  intro g hg
  rw [hf] at hg
  cases hg
  exact hd

/-- `send` starts to await a new future, which it has just registered. -/
theorem Wired.registerNewPutter (h : s.Wired) {l : Loop} {t : Task} {x : Parcel Task α}
    (ha : s.Awake t) (ho : s.chan.isClosed = false)
    (hfull : s.chan.putters = [] → 0 < s.chan.maxsize ∧ s.chan.maxsize ≤ s.chan.buffer.length) :
    ((s.awaitNew t false (.sendAwait x)).dispatch
      ⟨(), { s.chan with putters := s.chan.putters ++ [⟨l, (s.createFuture t false).1, none⟩] }, []⟩).Wired := by
  obtain ⟨hpend, hl⟩ := h.next t false
  have hs := createFuture_serial (s := s) t false
  have hw : (s.awaitNew t false (.sendAwait x)).Wired :=
    (h.createFuture t false).await ha hl rfl rfl hs (by simp)
  have hr := hw.registerPutter (l := l) (f := (s.createFuture t false).1) hl
    (attached_await hs.1 hpend (.inl ⟨x, rfl⟩)) (hs.1.symm ▸ hs.2)
  rwa [show (s.awaitNew t false (.sendAwait x)).chan = s.chan from rfl,
    registerPutter_queued ho hfull] at hr

/-- `recv` starts to await a new future, which it has just registered. -/
theorem Wired.registerNewGetter (h : s.Wired) {l : Loop} {t : Task} (ha : s.Awake t)
    (ho : s.chan.isClosed = false) (hb : s.chan.buffer = []) :
    ((s.awaitNew t true .recvAwait).dispatch
      ⟨(), { s.chan with getters := s.chan.getters ++ [⟨l, (s.createFuture t true).1, none⟩] }, []⟩).Wired := by
  obtain ⟨hpend, hl⟩ := h.next t true
  have hs := createFuture_serial (s := s) t true
  have hw : (s.awaitNew t true (Pc.recvAwait : Fut Task → Pc Task α)).Wired :=
    (h.createFuture t true).await ha hl rfl rfl hs (by simp)
  have hr := hw.registerGetter (l := l) (f := (s.createFuture t true).1) hl
    (attached_await hs.1 hpend (.inr rfl)) (hs.1.symm ▸ hs.2) rfl
  rwa [show (s.awaitNew t true .recvAwait).chan = s.chan from rfl,
    registerGetter_queued ho hb] at hr

theorem Wired.step (h : s.Wired) {home : Task → Loop} {a : Action Task α} {s' : Sys Loop Task α}
    (hs : s.step home a = some s') : s'.Wired := by
  have hm := move_of_step h.consistent hs
  have hawake := fun t (e : a = .advance t) => (e ▸ hm : Move home s (.advance t) s').awake
  cases hm with
  | send hpc => exact (h.call _ _).goto (awake_of_pc (s := s) hpc) trivial (by simp [Pc.fut?])
  | trySend => exact ((h.call _ _).trySend _).accept _
  | trySendFail => exact h.call _ _
  | recv hpc => exact h.goto (awake_of_pc hpc) trivial (by simp [Pc.fut?])
  | tryRecv => exact h.tryRecv.receive _ _
  | tryRecvFail => exact h
  | close => exact h.close
  | sendOk => exact ((h.trySend _).accept _).idle (hawake _ rfl)
  | sendFull => exact h.goto (hawake _ rfl) trivial (by simp [Pc.fut?])
  | @sendRetryFull t x f hpc hr =>
    exact h.await (hawake t rfl) (h.retry_not_live hpc) (by simpa [hpc, Pc.Kind] using h.kind t) rfl
      (h.owner t f (by rw [hpc]; rfl)) (by simp)
  | closed => exact h.idle (hawake _ rfl)
  | registerClosed => exact (h.createFuture _ _).idle (hawake _ rfl)
  | @registerRoom t x hpc =>
    refine (h.createFuture t false).goto (hawake t rfl) rfl (fun g hg => ?_) fun y g hg => ?_
    · cases hg
      exact createFuture_serial t false
    · cases hg
      exact (h.next t false).1
  | registerPutter hpc ho hfull => exact (h.registerNewPutter (hawake _ rfl) ho hfull).enlist _
  | unregisterPutter => exact (h.unregisterPutter _).idle (hawake _ rfl)
  | recvOk hpc =>
    rcases hpc with ⟨-, rfl⟩ | ⟨-, rfl⟩
    · exact (h.tryRecv.receive _ _).idle (hawake _ rfl)
    · exact ((h.createFuture _ true).tryRecv.receive _ _).idle (hawake _ rfl)
  | recvEmpty => exact h.goto (hawake _ rfl) trivial (by simp [Pc.fut?])
  | registerGetter hpc ho hb => exact h.registerNewGetter (hawake _ rfl) ho hb
  | unregisterGetter => exact (h.unregisterGetter _).idle (hawake _ rfl)
  | @resumeSend t x f v hpc hf =>
    refine h.goto (awake_of_done (awaited_send hpc) (by simp [hf]))
      (by simpa [hpc, Pc.Kind] using h.kind t) fun g hg => ?_
    cases hg
    exact h.owner t f (by rw [hpc]; rfl)
  | @raiseSend t x f hpc hf =>
    refine h.raise (awake_of_done (awaited_send hpc) hf) (by simpa [hpc, Pc.Kind] using h.kind t)
      fun g hg => ?_
    cases hg
    exact h.owner t f (by rw [hpc]; rfl)
  | resumeRecv hpc hf =>
    exact (h.receive _ _).idle (awake_of_done (s := s) (awaited_recv hpc) (by simp [hf]))
  | resumeNone hpc hf => exact h.idle (awake_of_done (awaited_recv hpc) (by simp [hf]))
  | @raiseRecv t f hpc hf =>
    refine h.raise (awake_of_done (awaited_recv hpc) hf) (by simpa [hpc, Pc.Kind] using h.kind t)
      fun g hg => ?_
    cases hg
    exact h.owner t f (by rw [hpc]; rfl)
  | @cancelFut t f hf hp =>
    exact h.setFut (by simp) (fun _ => rfl) ((h.owner t f (awaited_fut? hf)).1 ▸ hf)
  | cancelTask ha => exact h.setMustCancel ha
  | @wake i c st hi hp hst =>
    obtain ⟨hw, hl⟩ := h.unschedule hi
    have hc : c.fut ∈ s.live :=
      List.mem_append_right _ (List.mem_map_of_mem (List.mem_of_getElem? hi))
    refine hw.setFut ?_ (fun hl' => absurd hl' hl) ?_
    · rcases hst with ⟨rfl, -⟩ | ⟨rfl, -⟩ <;> simp
    · rcases h.attached _ hc with hcan | ⟨-, haw⟩
      · exact absurd hcan (by simp [hp])
      · exact haw
  | requeue hi => exact (h.unschedule hi).1.trySend _
  | drop hi => exact (h.unschedule hi).1

end Sys

end Multiloop.Channel
