import Mathlib.Data.List.TakeWhile
import Multiloop.Channel.Conservation
import Multiloop.Channel.Putters

/-!
# Senders that are not overtaken

`try_send` looks at the buffer and not at the queue of senders, so an item
enters past the senders that wait whenever there is a place for it. `Watched`
keeps, beside the tasks, the calls of `send` in the order in which they were
queued, and for each item that enters those of them that were queued before and
still wait. There are none of these in a run whose steps are `Orderly`: a
newcomer finds a place only when no sender waits, and the senders that are
woken try again in the order they were woken, and find a place.
-/

namespace Multiloop.Channel

open ChannelState

variable {Loop Task α : Type}

structure Watched (Loop Task α : Type) where
  sys : Sys Loop Task α
  /-- The futures that senders queued, and the items of their calls. -/
  line : List (Fut Task × Parcel Task α)
  /-- The items that entered, each with those of the senders that were queued
  before its own, and wait. -/
  entries : List (Parcel Task α × List (Parcel Task α))

namespace Sys

/-- A sender is woken and has still to try again. -/
def Due (s : Sys Loop Task α) (f : Fut Task) : Prop :=
  f ∈ s.woken ∧ ∃ x, s.pc f.owner = .sendAwait x f ∨ s.pc f.owner = .sendTry x (some f)

/-- No sender is queued, or woken and has still to try again. -/
def NoneWaits (s : Sys Loop Task α) : Prop := s.chan.putters = [] ∧ ∀ f, ¬ s.Due f

/-- A step makes a `try_send` of `x` for a caller that is not a woken sender. -/
def Offers [DecidableEq Task] (s : Sys Loop Task α) : Action Task α → Parcel Task α → Prop
  | .trySend t payload, x => x = (s.call t payload).1
  | .advance t, x => s.pc t = .sendTry x none ∨ ∃ f, s.pc t = .sendRetry x f
  | _, _ => False

/-- The condition on a step. -/
structure Orderly [DecidableEq Task] (s : Sys Loop Task α) (a : Action Task α) : Prop where
  /-- Where it finds a place, no sender was woken that has not made a call since,
  unless that sender is on its way out and nobody is queued. -/
  newcomer : ∀ x, s.Offers a x → s.chan.HasPlace → ∀ f, s.InFlight f → s.chan.putters = [] ∧ ¬ s.Due f
  /-- Else the sender sleeps without being queued. -/
  second : s.RetryFindsPlace a
  /-- The woken senders try again in the order they were woken, and find a place. -/
  woken : ∀ t x f, a = .advance t → s.pc t = .sendTry x (some f) →
    s.chan.isClosed = true ∨ s.chan.HasPlace ∧ ∀ g, [g, f].Sublist s.woken → ¬ s.Due g

end Sys

namespace Watched

variable [DecidableEq Task] [DecidableEq α]

/-- The senders that were queued before the one of `y`, and wait. -/
def ahead (w : Watched Loop Task α) (y : Parcel Task α) : List (Parcel Task α) :=
  ((w.line.takeWhile fun e => e.2 ≠ y).map (·.2)).filter fun x => (w.sys.pc x.sender).item? = some x

/-- The tasks come to `s'`. -/
def next (w : Watched Loop Task α) (s' : Sys Loop Task α) : Watched Loop Task α where
  sys := s'
  line := w.line ++ (s'.registered.drop w.sys.registered.length).filterMap fun f =>
    (s'.pc f.owner).item?.map fun x => (f, x)
  entries := w.entries ++ (s'.accepted.drop w.sys.accepted.length).map fun y => (y, w.ahead y)

end Watched

/-- The runs of tasks over a fresh channel, watched. -/
def watched [DecidableEq Task] [DecidableEq α] (home : Task → Loop) (maxsize : Nat) :
    System (Watched Loop Task α) (Action Task α) where
  init w := w = ⟨Sys.new maxsize, [], []⟩
  step w a := (w.sys.step home a).map w.next

/-! ## Two elements of a list, in order -/

theorem pair_asymm {β : Type} {a b : β} : ∀ {l : List β}, l.Nodup → [a, b].Sublist l → ¬ [b, a].Sublist l
  | [], _, hab, _ => by cases hab
  | x :: l, hnodup, hab, hba => by
    obtain ⟨hx, hl⟩ := List.nodup_cons.1 hnodup
    cases hab with
    | cons _ hab =>
      cases hba with
      | cons _ hba => exact pair_asymm hl hab hba
      | cons_cons _ hba => exact hx (hab.subset (List.mem_cons_of_mem _ List.mem_cons_self))
    | cons_cons _ hab =>
      cases hba with
      | cons _ hba => exact hx (hba.subset (List.mem_cons_of_mem _ List.mem_cons_self))
      | cons_cons _ hba => exact hx (hba.subset List.mem_cons_self)

theorem pair_total {β : Type} {a b : β} (hne : a ≠ b) : ∀ {l : List β}, a ∈ l → b ∈ l →
    [a, b].Sublist l ∨ [b, a].Sublist l
  | [], ha, _ => by cases ha
  | x :: l, ha, hb => by
    rcases List.mem_cons.1 ha with rfl | ha'
    · exact .inl ((List.singleton_sublist.2 ((List.mem_cons.1 hb).resolve_left (Ne.symm hne))).cons_cons a)
    · rcases List.mem_cons.1 hb with rfl | hb
      · exact .inr ((List.singleton_sublist.2 ha').cons_cons _)
      · exact (pair_total hne ha' hb).imp (·.cons x) (·.cons x)

/-- Two elements of a list stand in a part of it in the same order. -/
theorem pair_of_sublist {β : Type} {a b : β} {l r : List β} (hnodup : r.Nodup) (hl : l.Sublist r) (hne : a ≠ b)
    (ha : a ∈ l) (hb : b ∈ l) (hab : [a, b].Sublist r) : [a, b].Sublist l :=
  (pair_total hne ha hb).resolve_right fun hba => pair_asymm hnodup hab (hba.trans hl)

/-! ## Where the senders of a run are -/

namespace Sys

variable {s s' : Sys Loop Task α} {line : List (Fut Task × Parcel Task α)}

/-- The sender of `x` waits on `f`, or was woken by it and has still to try. -/
def Waits (s : Sys Loop Task α) (f : Fut Task) (x : Parcel Task α) : Prop :=
  s.pc x.sender = .sendAwait x f ∨ s.pc x.sender = .sendTry x (some f)

/-- A `send` of task `t` at `p`: the call is its last one, and it is queued with
one future at most. -/
def Placed (s : Sys Loop Task α) (line : List (Fut Task × Parcel Task α)) (t : Task) : Pc Task α → Prop
  | .sendTry x none | .sendRegister x | .sendRetry x _ => x.sender = t ∧ x.seq < s.calls t ∧ ∀ e ∈ line, e.2 ≠ x
  | .sendTry x (some f) =>
    x.sender = t ∧ x.seq < s.calls t ∧ (f, x) ∈ line ∧ f ∈ s.woken ∧ ∀ e ∈ line, e.2 = x → e.1 = f
  | .sendAwait x f =>
    x.sender = t ∧ x.seq < s.calls t ∧ ((f, x) ∈ line ∨ s.futs f = .cancelled) ∧ ∀ e ∈ line, e.2 = x → e.1 = f
  | _ => True

structure Ranks (s : Sys Loop Task α) (line : List (Fut Task × Parcel Task α)) : Prop where
  registered : line.map (·.1) = s.registered
  owned : ∀ e ∈ line, e.1.owner = e.2.sender ∧ e.2.seq < s.calls e.2.sender
  placed : ∀ t, s.Placed line t (s.pc t)
  known : ∀ e ∈ line, s.Waits e.1 e.2 → e.1 ∈ s.woken ∨ e.1 ∈ s.chan.putters.map ChannelWaiter.future
  result : ∀ f v, s.futs f = .result v → f ∈ s.woken
  scheduled : ∀ c ∈ s.scheduled, c.fut ∈ s.woken

theorem ranks_new (maxsize : Nat) : (Sys.new maxsize : Sys Loop Task α).Ranks [] where
  registered := rfl
  owned e he := by cases he
  placed _ := trivial
  known e he := by cases he
  result f v hf := by cases hf
  scheduled c hc := by cases hc

/-- Nothing is queued, and what has happened stays. -/
structure Later (s s' : Sys Loop Task α) : Prop where
  calls : ∀ t, s.calls t ≤ s'.calls t
  registered : s'.registered = s.registered
  woken : ∀ f ∈ s.woken, f ∈ s'.woken
  result : ∀ f v, s'.futs f = .result v → s.futs f = .result v ∨ f ∈ s'.woken
  cancelled : ∀ f, s.futs f = .cancelled → s'.futs f = .cancelled
  scheduled : ∀ c ∈ s'.scheduled, c ∈ s.scheduled ∨ c.fut ∈ s'.woken

theorem Later.same (hcalls : s'.calls = s.calls) (hregistered : s'.registered = s.registered)
    (hwoken : s'.woken = s.woken) (hfuts : s'.futs = s.futs) (hscheduled : s'.scheduled ⊆ s.scheduled) :
    Later s s' where
  calls t := Nat.le_of_eq (congrFun hcalls t).symm
  registered := hregistered
  woken _ hf := hwoken ▸ hf
  result _ _ hf := .inl (hfuts ▸ hf)
  cancelled _ hf := hfuts ▸ hf
  scheduled _ hc := .inl (hscheduled hc)

theorem Later.trans {s₁ s₂ s₃ : Sys Loop Task α} (h : Later s₁ s₂) (h' : Later s₂ s₃) : Later s₁ s₃ where
  calls t := Nat.le_trans (h.calls t) (h'.calls t)
  registered := h'.registered.trans h.registered
  woken f hf := h'.woken f (h.woken f hf)
  result f v hf := (h'.result f v hf).elim (fun hf => (h.result f v hf).imp_right (h'.woken f)) .inr
  cancelled f hf := h'.cancelled f (h.cancelled f hf)
  scheduled c hc := (h'.scheduled c hc).elim (fun hc => (h.scheduled c hc).imp_right (h'.woken _)) .inr

/-- Nothing that `Later` looks at changes any more. -/
theorem Later.record {s₁ s₂ : Sys Loop Task α} (h : Later s s₁) (hcalls : s₂.calls = s₁.calls)
    (hregistered : s₂.registered = s₁.registered) (hwoken : s₂.woken = s₁.woken) (hfuts : s₂.futs = s₁.futs)
    (hscheduled : s₂.scheduled = s₁.scheduled) : Later s s₂ :=
  h.trans (.same hcalls hregistered hwoken hfuts (hscheduled ▸ List.Subset.refl _))

theorem Later.dispatch {β : Type} (o : Outcome Loop (Fut Task) Unit (Parcel Task α) β) :
    Later s (s.dispatch o) where
  calls _ := Nat.le_refl _
  registered := rfl
  woken _ hf := List.mem_append_left _ hf
  result _ _ hf := .inl hf
  cancelled _ hf := hf
  scheduled c hc := by
    rcases List.mem_append.1 hc with hc | hc
    · exact .inl hc
    · obtain ⟨target, htarget, hcall⟩ := List.mem_filterMap.1 hc
      refine .inr (List.mem_append_right _ (List.mem_map.2 ⟨target, htarget, ?_⟩))
      cases target with
      | waiter w val isExc =>
        cases hcall
        rfl
      | selectWatcher w token => cases hcall

/-- The senders that a call pops are woken. -/
theorem woken_of_pops {β : Type} {o : Outcome Loop (Fut Task) Unit (Parcel Task α) β}
    {ps : List (ChannelWaiter Loop (Fut Task) Unit)} (hp : Pops s.chan o ps) :
    ∀ w ∈ s.chan.putters, w.future ∈ (s.dispatch o).woken ∨
      w.future ∈ (s.dispatch o).chan.putters.map ChannelWaiter.future := by
  intro w hw
  rw [hp.1] at hw
  rcases List.mem_append.1 hw with hw | hw
  · obtain ⟨v, e, hwake⟩ := hp.2.1 w hw
    exact .inl (List.mem_append_right _ (List.mem_map.2 ⟨_, hwake, rfl⟩))
  · exact .inr (List.mem_map_of_mem hw)

theorem Placed.later {t : Task} {p : Pc Task α} (h : s.Placed line t p) (hl : Later s s') :
    s'.Placed line t p := by
  cases p with
  | sendTry x o =>
    cases o with
    | none => exact ⟨h.1, Nat.lt_of_lt_of_le h.2.1 (hl.calls t), h.2.2⟩
    | some f =>
      obtain ⟨hs, hseq, hin, hwoken, hone⟩ := h
      exact ⟨hs, Nat.lt_of_lt_of_le hseq (hl.calls t), hin, hl.woken f hwoken, hone⟩
  | sendRegister x => exact ⟨h.1, Nat.lt_of_lt_of_le h.2.1 (hl.calls t), h.2.2⟩
  | sendRetry x f => exact ⟨h.1, Nat.lt_of_lt_of_le h.2.1 (hl.calls t), h.2.2⟩
  | sendAwait x f =>
    obtain ⟨hs, hseq, hin, hone⟩ := h
    exact ⟨hs, Nat.lt_of_lt_of_le hseq (hl.calls t), hin.imp_right (hl.cancelled f), hone⟩
  | _ => trivial

/-- A step that queues nobody: every task stays where it is or comes to a place
that is right for it, and nobody leaves the queue who still waits. -/
theorem Ranks.later (h : s.Ranks line) (hl : Later s s')
    (hpc : ∀ t, s'.pc t = s.pc t ∨ s'.Placed line t (s'.pc t) ∧
      ∀ e ∈ line, e.2.sender = t → s'.Waits e.1 e.2 → s.Waits e.1 e.2)
    (hput : ∀ w ∈ s.chan.putters, w.future ∈ s'.woken ∨ w.future ∈ s'.chan.putters.map ChannelWaiter.future ∨
      (s'.pc w.future.owner).item? = none) : s'.Ranks line where
  registered := h.registered.trans hl.registered.symm
  owned e he := ⟨(h.owned e he).1, Nat.lt_of_lt_of_le (h.owned e he).2 (hl.calls _)⟩
  placed t := by
    rcases hpc t with heq | hnew
    · rw [heq]
      exact (h.placed t).later hl
    · exact hnew.1
  known e he hwaits := by
    have hwas : s.Waits e.1 e.2 := by
      rcases hpc e.2.sender with heq | hnew
      · unfold Waits at hwaits ⊢
        rwa [heq] at hwaits
      · exact hnew.2 e he rfl hwaits
    rcases h.known e he hwas with hwoken | hqueued
    · exact .inl (hl.woken _ hwoken)
    · obtain ⟨w, hw, hfut⟩ := List.mem_map.1 hqueued
      rcases hput w hw with hw' | hw' | hgone
      · exact .inl (hfut ▸ hw')
      · exact .inr (hfut ▸ hw')
      · rw [hfut, (h.owned e he).1] at hgone
        rcases hwaits with hpc' | hpc'
        · rw [hpc'] at hgone
          cases hgone
        · rw [hpc'] at hgone
          cases hgone
  result f v hf := (hl.result f v hf).elim (fun hf => hl.woken f (h.result f v hf)) id
  scheduled c hc := (hl.scheduled c hc).elim (fun hc => hl.woken _ (h.scheduled c hc)) id

/-- A task is in a `send` neither before nor after, or leaves it. -/
theorem placed_of_item?_none {t : Task} {p : Pc Task α} (h : p.item? = none) : s.Placed line t p := by
  cases p with
  | sendTry x o => cases h
  | sendRegister x => cases h
  | sendRetry x f => cases h
  | sendAwait x f => cases h
  | _ => trivial

theorem item?_of_waits {f : Fut Task} {x : Parcel Task α} (h : s.Waits f x) : (s.pc x.sender).item? = some x := by
  rcases h with h | h
  · rw [h]
    rfl
  · rw [h]
    rfl

/-- No task goes anywhere. -/
theorem Ranks.stay (h : s.Ranks line) (hl : Later s s') (hpc : s'.pc = s.pc)
    (hput : ∀ w ∈ s.chan.putters, w.future ∈ s'.woken ∨ w.future ∈ s'.chan.putters.map ChannelWaiter.future) :
    s'.Ranks line :=
  h.later hl (fun t => .inl (congrFun hpc t)) fun w hw => (hput w hw).imp_right .inl

theorem queued_of_same (hc : s'.chan.putters = s.chan.putters) : ∀ w ∈ s.chan.putters,
    w.future ∈ s'.woken ∨ w.future ∈ s'.chan.putters.map ChannelWaiter.future :=
  fun _ hw => .inr (hc ▸ List.mem_map_of_mem hw)

theorem hasPlace_of_reply {x : Parcel Task α} (hw : s.Wired) (hline : s.Line)
    (hr : (s.chan.trySend x).reply = .ok true) : s.chan.HasPlace := by
  rcases trySend_cases hw.consistent x with ⟨-, h⟩ | ⟨ho, g, gs, hg, -, -⟩ | ⟨-, -, u, us, hu, -⟩ |
    ⟨-, -, -, -, -, h⟩ | ⟨ho, -, -, hroom, -⟩
  · rw [h] at hr
    cases hr
  · exact ⟨ho, .inl fun hnil => by rw [hg] at hnil; cases hnil⟩
  · rw [hline.watchers] at hu
    cases hu
  · rw [h] at hr
    cases hr
  · exact ⟨ho, .inr hroom⟩

/-- A woken sender that has still to try again has made no call since. -/
theorem Due.inFlight {f : Fut Task} (h : s.Due f) : s.InFlight f := by
  obtain ⟨hwoken, x, hpc | hpc⟩ := h
  · exact ⟨hwoken, by rw [hpc]; rfl⟩
  · exact ⟨hwoken, by rw [hpc]; rfl⟩

variable [DecidableEq Task]

/-- An item enters by a `try_send` that finds a place. -/
theorem entered_of_move {a : Action Task α} {home : Task → Loop} (hm : Move home s a s') :
    s'.accepted = s.accepted ∨ ∃ y, s'.accepted = s.accepted ++ [y] ∧ (s.chan.trySend y).reply = .ok true ∧
      (s.Offers a y ∨ ∃ t g, a = .advance t ∧ s.pc t = .sendTry y (some g)) := by
  cases hm with
  | @trySend t payload _ hr => exact .inr ⟨_, rfl, hr, .inl rfl⟩
  | @sendOk t x hpc hr =>
    refine .inr ⟨x, rfl, hr, ?_⟩
    rcases hpc with ⟨o, hpc⟩ | ⟨f, hpc⟩
    · cases o with
      | none => exact .inl (.inl hpc)
      | some g => exact .inr ⟨t, g, rfl, hpc⟩
    · exact .inl (.inr ⟨f, hpc⟩)
  | recvOk hpc =>
    rcases hpc with ⟨-, rfl⟩ | ⟨-, rfl⟩
    · exact .inl rfl
    · exact .inl rfl
  | _ => exact .inl rfl

/-- A newcomer that finds a place passes nobody: with senders queued, the place
would be covered by a wake in flight. -/
theorem Orderly.noneWaits [Fintype Task] {a : Action Task α} {x : Parcel Task α} (h : s.Orderly a) (hw : s.Wired)
    (hroom : s.Room) (hoffers : s.Offers a x) (hplace : s.chan.HasPlace) : s.NoneWaits := by
  have hflight := h.newcomer x hoffers hplace
  refine ⟨?_, fun f hdue => (hflight f hdue.inFlight).2 hdue⟩
  by_contra hput
  have hpos : 0 < s.chan.maxsize :=
    Nat.pos_of_ne_zero fun hzero => hput (hw.consistent.putters_of_unbounded hzero)
  have hlt : s.chan.buffer.length < s.chan.maxsize := by
    rcases hplace.2 with hgetters | hzero | hlt
    · rw [hw.consistent.buffer_of_getters hgetters]
      exact hpos
    · exact absurd hzero (Nat.ne_of_gt hpos)
    · exact hlt
  obtain ⟨f, hf, -⟩ := hroom.inFlight hw hput hlt
  exact hput (hflight f hf).1

/-- A task goes to a place that is not in a `send`. -/
theorem Ranks.leave (h : s.Ranks line) (hl : Later s s') {t : Task} {p : Pc Task α}
    (hpc : s'.pc = Function.update s.pc t p) (hp : p.item? = none)
    (hput : ∀ w ∈ s.chan.putters, w.future ∈ s'.woken ∨ w.future ∈ s'.chan.putters.map ChannelWaiter.future ∨
      w.future.owner = t) : s'.Ranks line := by
  have hat : s'.pc t = p := by rw [hpc, Function.update_self]
  refine h.later hl (fun u => ?_) fun w hw => ?_
  · rcases eq_or_ne u t with rfl | hne
    · rw [hat]
      refine .inr ⟨placed_of_item?_none hp, fun e _ hsender hwaits => ?_⟩
      have hitem := item?_of_waits hwaits
      rw [hsender, hat, hp] at hitem
      cases hitem
    · exact .inl (by rw [hpc, Function.update_of_ne hne])
  · rcases hput w hw with hw' | hw' | rfl
    · exact .inl hw'
    · exact .inr (.inl hw')
    · exact .inr (.inr (by rw [hat, hp]))

theorem Ranks.depart (h : s.Ranks line) (hl : Later s s') {t : Task} {p : Pc Task α}
    (hpc : s'.pc = Function.update s.pc t p) (hp : p.item? = none) (hput : s'.chan.putters = s.chan.putters) :
    s'.Ranks line :=
  h.leave hl hpc hp fun w hw => (queued_of_same hput w hw).imp_right .inl

/-- A task goes on in its `send`. -/
theorem Ranks.goOn (h : s.Ranks line) (hl : Later s s') {t : Task} {p : Pc Task α}
    (hpc : s'.pc = Function.update s.pc t p) (hp : s'.Placed line t p)
    (hwaits : ∀ e ∈ line, e.2.sender = t → s'.Waits e.1 e.2 → s.Waits e.1 e.2)
    (hput : s'.chan.putters = s.chan.putters) : s'.Ranks line := by
  refine h.later hl (fun u => ?_) fun w hw => (queued_of_same hput w hw).imp_right .inl
  rcases eq_or_ne u t with rfl | hne
  · refine .inr ⟨?_, hwaits⟩
    rwa [hpc, Function.update_self]
  · exact .inl (by rw [hpc, Function.update_of_ne hne])

/-- A task at a place where it waits for nothing. -/
theorem not_waits {t : Task} {p : Pc Task α} (hpc : s'.pc = Function.update s.pc t p)
    (hp : ∀ x f, p ≠ .sendAwait x f ∧ p ≠ .sendTry x (some f)) : ∀ e ∈ line, e.2.sender = t →
      s'.Waits e.1 e.2 → s.Waits e.1 e.2 := by
  intro e _ hsender hwaits
  unfold Waits at hwaits
  rw [hpc, hsender, Function.update_self] at hwaits
  exact (hwaits.elim (hp e.2 e.1).1 (hp e.2 e.1).2).elim

/-- Task `t` may await future `f` from now on. -/
theorem later_await {t : Task} {f : Fut Task} {p : Pc Task α} : Later s (s.await t f p) where
  calls _ := Nat.le_refl _
  registered := rfl
  woken _ hf := hf
  result g v hg := by
    left
    simp only [Sys.await] at hg
    split at hg
    · rcases eq_or_ne g f with rfl | hne
      · rw [Function.update_self] at hg
        cases hg
      · rwa [Function.update_of_ne hne] at hg
    · exact hg
  cancelled g hg := by
    simp only [Sys.await]
    split
    · rcases eq_or_ne g f with rfl | hne
      · rw [Function.update_self]
      · rwa [Function.update_of_ne hne]
    · exact hg
  scheduled _ hc := .inl hc

/-- A call takes the next number of its task. -/
theorem later_call (t : Task) (a : α) : Later s (s.call t a).2 where
  calls u := by
    show s.calls u ≤ Function.update s.calls t (s.calls t + 1) u
    rcases eq_or_ne u t with rfl | hne
    · rw [Function.update_self]
      omega
    · rw [Function.update_of_ne hne]
  registered := rfl
  woken _ hf := hf
  result _ _ hf := .inl hf
  cancelled _ hf := hf
  scheduled _ hc := .inl hc

/-- A future is cancelled. -/
theorem later_cancelFut (f : Fut Task) : Later s (s.withFut f .cancelled) where
  calls _ := Nat.le_refl _
  registered := rfl
  woken _ hg := hg
  result g v hg := by
    rcases eq_or_ne g f with rfl | hne
    · have hg' : Function.update s.futs g .cancelled g = .result v := hg
      rw [Function.update_self] at hg'
      cases hg'
    · have hg' : Function.update s.futs f .cancelled g = .result v := hg
      rw [Function.update_of_ne hne] at hg'
      exact .inl hg'
  cancelled g hg := by
    show Function.update s.futs f .cancelled g = .cancelled
    rcases eq_or_ne g f with rfl | hne
    · rw [Function.update_self]
    · rwa [Function.update_of_ne hne]
  scheduled _ hc := .inl hc

/-- A loop runs `_wake_fut`. -/
theorem Ranks.later_wake (h : s.Ranks line) {i : Nat} {c : WakeCall Task α} {st : FutState (Option (Parcel Task α))}
    (hi : s.scheduled[i]? = some c) (hp : s.futs c.fut = .pending) :
    Later s ((s.unscheduled i).withFut c.fut st) where
  calls _ := Nat.le_refl _
  registered := rfl
  woken _ hg := hg
  result g v hg := by
    rcases eq_or_ne g c.fut with rfl | hne
    · exact .inr (h.scheduled c (List.mem_of_getElem? hi))
    · have hg' : Function.update s.futs c.fut st g = .result v := hg
      rw [Function.update_of_ne hne] at hg'
      exact .inl hg'
  cancelled g hg := by
    have hne : g ≠ c.fut := by
      rintro rfl
      cases hp.symm.trans hg
    show Function.update s.futs c.fut st g = .cancelled
    rwa [Function.update_of_ne hne]
  scheduled _ hc := .inl (List.mem_of_mem_eraseIdx hc)

/-- `send` begins. -/
theorem Ranks.begin (h : s.Ranks line) (t : Task) (a : α) :
    ((s.call t a).2.goto t (.sendTry (s.call t a).1 none)).Ranks line := by
  refine h.goOn ((later_call t a).record rfl rfl rfl rfl rfl) rfl ⟨rfl, ?_, fun e he heq => ?_⟩
    (not_waits rfl fun x f => ⟨nofun, nofun⟩) rfl
  · show s.calls t < Function.update s.calls t (s.calls t + 1) t
    rw [Function.update_self]
    omega
  · have hseq := (h.owned e he).2
    rw [heq] at hseq
    exact Nat.lt_irrefl _ hseq

/-- A woken sender whose place is still there does not go on to register again. -/
theorem Orderly.not_full (hw : s.Wired) {t : Task} {x : Parcel Task α} {f : Fut Task}
    {home : Task → Loop} (hok : s.Orderly (.advance t)) (hpc : s.pc t = .sendTry x (some f)) :
    s.step home (.advance t) ≠ some (s.goto t (.sendRegister x)) := by
  have hreply : (s.chan.trySend x).reply ≠ .ok false := by
    rcases (hok.woken t x f rfl hpc).imp_right And.left with hclosed | hplace
    · rw [ChannelState.trySend, hclosed]
      intro hfull
      cases hfull
    · rw [trySend_of_hasPlace hw.consistent hplace x]
      intro hfull
      cases hfull
  intro hst
  simp only [Sys.step, Sys.advance, hpc] at hst
  split at hst
  · have hpc' := congrArg (fun s => s.pc t) (Option.some.inj hst)
    simp [Sys.goto, Sys.accept, Sys.dispatch] at hpc'
  · rename_i hfalse
    exact hreply hfalse
  · have hpc' := congrArg (fun s => s.pc t) (Option.some.inj hst)
    simp [Sys.goto, Sys.dispatch] at hpc'

theorem Ranks.full (h : s.Ranks line) (hw : s.Wired) {t : Task} {x : Parcel Task α} {o : Option (Fut Task)}
    {home : Task → Loop} (hok : s.Orderly (.advance t)) (hpc : s.pc t = .sendTry x o)
    (hst : s.step home (.advance t) = some (s.goto t (.sendRegister x))) : (s.goto t (.sendRegister x)).Ranks line := by
  cases o with
  | none =>
    have hplaced := h.placed t
    rw [hpc] at hplaced
    exact h.goOn (.same rfl rfl rfl rfl (List.Subset.refl _)) rfl hplaced
      (not_waits rfl fun x f => ⟨nofun, nofun⟩) rfl
  | some f => exact absurd hst (hok.not_full hw hpc)

/-- The second `try_send` finds no place: the sender is about to be cancelled. -/
theorem Ranks.retryFull (h : s.Ranks line) (hw : s.Wired) {t : Task} {x : Parcel Task α} {f : Fut Task}
    (hok : s.Orderly (.advance t)) (hpc : s.pc t = .sendRetry x f) (hr : (s.chan.trySend x).reply = .ok false) :
    (s.await t f (.sendAwait x f)).Ranks line := by
  have hplaced := h.placed t
  rw [hpc] at hplaced
  obtain ⟨hsender, hseq, hnew⟩ := hplaced
  have hcancel : s.mustCancel t = true := by
    rcases hok.second x f hpc with hcancel | hclosed | hplace
    · exact hcancel
    · rw [ChannelState.trySend, hclosed] at hr
      cases hr
    · rw [trySend_of_hasPlace hw.consistent hplace x] at hr
      cases hr
  refine h.goOn later_await rfl ⟨hsender, hseq, .inr ?_, fun e he heq => absurd heq (hnew e he)⟩
    (fun e he hsender' hwaits => ?_) rfl
  · show (if s.mustCancel t then Function.update s.futs f .cancelled else s.futs) f = .cancelled
    rw [if_pos hcancel, Function.update_self]
  · unfold Waits at hwaits
    rw [hsender'] at hwaits
    have hpc' : (s.await t f (.sendAwait x f)).pc t = .sendAwait x f := Function.update_self ..
    rw [hpc'] at hwaits
    rcases hwaits with heq | heq
    · cases heq
      exact absurd rfl (hnew e he)
    · cases heq

/-- A cancelled sender leaves the queue, or wakes the next one. -/
theorem Ranks.unregister (h : s.Ranks line) (hw : s.Wired) {t : Task} {f : Fut Task}
    (hpc : s.pc t = .sendUnregister f) : ((s.dispatch (s.chan.unregisterPutter f)).goto t .idle).Ranks line := by
  have hl : Later s (s.dispatch (s.chan.unregisterPutter f)) := .dispatch _
  refine h.leave (hl.record rfl rfl rfl rfl rfl) rfl rfl fun w hwin => ?_
  rcases eq_or_ne w.future f with heq | hne
  · exact .inr (.inr (heq ▸ (hw.owner t f (by rw [hpc]; rfl)).1))
  · rcases unregisterPutter_cases (s := s.chan) f with ⟨r, e, -⟩ | ⟨p, ps, hp, -, -, e⟩
    · refine .inr (.inl (List.mem_map_of_mem ?_))
      show w ∈ (s.chan.unregisterPutter f).state.putters
      rw [e]
      exact mem_retain.2 ⟨hwin, hne⟩
    · rw [hp] at hwin
      rcases List.mem_cons.1 hwin with rfl | hwin
      · refine .inl (List.mem_append_right _ (List.mem_map.2 ⟨w.putterWake, ?_, rfl⟩))
        rw [e]
        exact List.mem_singleton_self _
      · refine .inr (.inl (List.mem_map_of_mem ?_))
        show w ∈ (s.chan.unregisterPutter f).state.putters
        rw [e]
        exact hwin

/-- `recv` takes an item. -/
theorem Ranks.received (h : s.Ranks line) (hw : s.Wired) (hline : s.Line) {t : Task} {x : Parcel Task α}
    {s₁ : Sys Loop Task α} (h₁ : s₁ = s ∨ s₁ = (s.createFuture t true).2) :
    (((s₁.dispatch s.chan.tryRecv).receive t x).goto t .idle).Ranks line ∧ s₁.registered = s.registered := by
  obtain ⟨ps, hp⟩ := hline.tryRecv_pops hw
  have hsame : Later s s₁ ∧ s₁.woken = s.woken ∧ s₁.pc = s.pc ∧ s₁.registered = s.registered := by
    rcases h₁ with rfl | rfl
    · exact ⟨.same rfl rfl rfl rfl (List.Subset.refl _), rfl, rfl, rfl⟩
    · exact ⟨.same rfl rfl rfl rfl (List.Subset.refl _), rfl, rfl, rfl⟩
  obtain ⟨hl, hwoken, hpcs, hreg⟩ := hsame
  have hl := hl.trans (.dispatch s.chan.tryRecv)
  refine ⟨h.leave (hl.record rfl rfl rfl rfl rfl) (t := t) (p := .idle) ?_ rfl fun w hwin => ?_, hreg⟩
  · show Function.update s₁.pc t .idle = _
    rw [hpcs]
  · have hput := woken_of_pops hp w hwin
    show w.future ∈ s₁.woken ++ _ ∨ _
    rw [hwoken]
    exact hput.imp_right .inl

theorem Ranks.unregisterGetter (h : s.Ranks line) (hw : s.Wired) (t : Task) (f : Fut Task) :
    ((s.dispatch (s.chan.unregisterGetter f)).goto t .idle).Ranks line := by
  have hput : (s.chan.unregisterGetter f).state.putters = s.chan.putters := by
    rcases unregisterGetter_cases hw.consistent f with ⟨r, e⟩ | ⟨w, ws, -, -, -, e⟩
    · rw [e]
    · rw [e]
  have hl : Later s (s.dispatch (s.chan.unregisterGetter f)) := .dispatch _
  refine h.leave (hl.record rfl rfl rfl rfl rfl) rfl rfl fun w hw => ?_
  exact (queued_of_same hput w hw).imp_right .inl

/-- A woken sender is resumed. -/
theorem Ranks.resume (h : s.Ranks line) {t : Task} {x : Parcel Task α} {f : Fut Task} {v : Option (Parcel Task α)}
    (hpc : s.pc t = .sendAwait x f) (hf : s.futs f = .result v) : (s.goto t (.sendTry x (some f))).Ranks line := by
  have hplaced := h.placed t
  rw [hpc] at hplaced
  obtain ⟨hsender, hseq, hin, hone⟩ := hplaced
  have hin' : (f, x) ∈ line := hin.resolve_right fun hcan => by cases hf.symm.trans hcan
  refine h.goOn (.same rfl rfl rfl rfl (List.Subset.refl _)) rfl ⟨hsender, hseq, hin', h.result f v hf, hone⟩
    (fun e _ hsender' hwaits => ?_) rfl
  have hpc' : (s.goto t (.sendTry x (some f))).pc t = .sendTry x (some f) := Function.update_self ..
  unfold Waits at hwaits ⊢
  rw [hsender', hpc'] at hwaits
  rw [hsender', hpc]
  rcases hwaits with heq | heq
  · cases heq
  · injection heq with hx hfut
    injection hfut with hfut
    rw [hx, hfut]
    exact .inl rfl

/-- The senders that wait, after any step that queues nobody. -/
theorem Ranks.move {home : Task → Loop} {a : Action Task α} (h : s.Ranks line) (hw : s.Wired) (hline : s.Line)
    (hm : Move home s a s') (hok : s.Orderly a) (hst : s.step home a = some s') :
    s'.Ranks line ∧ s'.registered = s.registered ∨ ∃ t x, s.pc t = .sendRegister x ∧
      s' = ((s.awaitNew t false (.sendAwait x)).enlist (s.createFuture t false).1).dispatch
        ⟨(), { s.chan with putters := s.chan.putters ++ [⟨home t, (s.createFuture t false).1, none⟩] }, []⟩ := by
  have hsame : ∀ {s' : Sys Loop Task α}, s'.calls = s.calls → s'.registered = s.registered → s'.woken = s.woken →
      s'.futs = s.futs → s'.scheduled = s.scheduled → Later s s' :=
    fun hcalls hreg hwoken hfuts hsched => .same hcalls hreg hwoken hfuts (hsched ▸ List.Subset.refl _)
  cases hm with
  | @send t a hpc => exact .inl ⟨h.begin t a, rfl⟩
  | @trySend t a =>
    obtain ⟨ps, hp⟩ := hline.trySend_pops hw (s.call t a).1
    have hl := (later_call t a).trans (.dispatch (s := (s.call t a).2) (s.chan.trySend (s.call t a).1))
    exact .inl ⟨h.stay (hl.record rfl rfl rfl rfl rfl) rfl (woken_of_pops hp), rfl⟩
  | @trySendFail t a => exact .inl ⟨h.stay (later_call t a) rfl (queued_of_same rfl), rfl⟩
  | tryRecv =>
    obtain ⟨ps, hp⟩ := hline.tryRecv_pops hw
    have hl : Later s (s.dispatch s.chan.tryRecv) := .dispatch _
    exact .inl ⟨h.stay (hl.record rfl rfl rfl rfl rfl) rfl (woken_of_pops hp), rfl⟩
  | tryRecvFail => exact .inl ⟨h, rfl⟩
  | close =>
    obtain ⟨ps, hp⟩ := hline.close_pops hw
    exact .inl ⟨h.stay (.dispatch s.chan.close) rfl (woken_of_pops hp), rfl⟩
  | @sendOk t x =>
    obtain ⟨ps, hp⟩ := hline.trySend_pops hw x
    have hl : Later s (s.dispatch (s.chan.trySend x)) := .dispatch _
    refine .inl ⟨h.leave (hl.record rfl rfl rfl rfl rfl) rfl rfl fun w hw => ?_, rfl⟩
    exact (woken_of_pops hp w hw).imp_right .inl
  | @sendFull t x o hpc => exact .inl ⟨h.full hw hok hpc hst, rfl⟩
  | @sendRetryFull t x f hpc hr => exact .inl ⟨h.retryFull hw hok hpc hr, rfl⟩
  | recv | closed | registerClosed | recvEmpty | raiseSend | resumeRecv | resumeNone | raiseRecv =>
    exact .inl ⟨h.depart (hsame rfl rfl rfl rfl rfl) rfl rfl rfl, rfl⟩
  | @registerRoom t x hpc =>
    have hplaced := h.placed t
    rw [hpc] at hplaced
    exact .inl ⟨h.goOn (hsame rfl rfl rfl rfl rfl) rfl hplaced (not_waits rfl fun x f => ⟨nofun, nofun⟩) rfl, rfl⟩
  | @registerPutter t x hpc => exact .inr ⟨t, x, hpc, rfl⟩
  | @unregisterPutter t f hpc => exact .inl ⟨h.unregister hw hpc, rfl⟩
  | @recvOk t x s₁ hpc => exact .inl (h.received hw hline (hpc.imp And.right And.right))
  | @registerGetter t hpc =>
    have hcreate : Later s (s.createFuture t true).2 := hsame rfl rfl rfl rfl rfl
    exact .inl ⟨h.leave (hcreate.trans (later_await.trans (.dispatch _))) rfl rfl
      fun w hw => .inr (.inl (List.mem_map_of_mem hw)), rfl⟩
  | @unregisterGetter t f hpc => exact .inl ⟨h.unregisterGetter hw t f, rfl⟩
  | @resumeSend t x f v hpc hf => exact .inl ⟨h.resume hpc hf, rfl⟩
  | @cancelFut t f => exact .inl ⟨h.stay (later_cancelFut f) rfl (queued_of_same rfl), rfl⟩
  | cancelTask => exact .inl ⟨h.stay (hsame rfl rfl rfl rfl rfl) rfl (queued_of_same rfl), rfl⟩
  | @wake i c st hi hp => exact .inl ⟨h.stay (h.later_wake hi hp) rfl (queued_of_same rfl), rfl⟩
  | @requeue i c x hi =>
    have hu : Later s (s.unscheduled i) := .same rfl rfl rfl rfl (List.eraseIdx_subset ..)
    obtain ⟨ps, hp⟩ := hline.trySend_pops hw x
    exact .inl ⟨h.stay (hu.trans (.dispatch (s := s.unscheduled i) (s.chan.trySend x))) rfl (woken_of_pops hp), rfl⟩
  | drop =>
    exact .inl ⟨h.stay (.same rfl rfl rfl rfl (List.eraseIdx_subset ..)) rfl (queued_of_same rfl), rfl⟩

/-- A sender registers its future. -/
theorem Ranks.enlist {t : Task} {x : Parcel Task α} {l : Loop} (h : s.Ranks line) (hpc : s.pc t = .sendRegister x) :
    (((s.awaitNew t false (.sendAwait x)).enlist (s.createFuture t false).1).dispatch
      ⟨(), { s.chan with
        putters := s.chan.putters ++ [⟨l, (s.createFuture t false).1, none⟩] }, []⟩).Ranks
      (line ++ [((s.createFuture t false).1, x)]) := by
  have hplaced := h.placed t
  rw [hpc] at hplaced
  obtain ⟨hsender, hseq, hnew⟩ := hplaced
  have hpcs : ∀ u ≠ t, Function.update s.pc t (.sendAwait x (s.createFuture t false).1) u = s.pc u :=
    fun u hne => Function.update_of_ne hne ..
  have hcreate : Later s (s.createFuture t false).2 := .same rfl rfl rfl rfl (List.Subset.refl _)
  have hl : Later s (s.awaitNew t false (.sendAwait x)) := hcreate.trans later_await
  refine ⟨?_, fun e he => ?_, fun u => ?_, fun e he hwaits => ?_, fun f v hf => ?_, fun c hc => ?_⟩
  · rw [List.map_append, h.registered]
    rfl
  · rcases List.mem_append.1 he with he | he
    · exact h.owned e he
    · rw [List.mem_singleton.1 he]
      refine ⟨hsender.symm, ?_⟩
      show x.seq < s.calls x.sender
      rwa [hsender]
  · rcases eq_or_ne u t with rfl | hne
    · show Placed _ _ u (Function.update s.pc u (.sendAwait x (s.createFuture u false).1) u)
      rw [Function.update_self]
      refine ⟨hsender, hseq, .inl (List.mem_append_right _ (List.mem_singleton_self _)), fun e he heq => ?_⟩
      rcases List.mem_append.1 he with he | he
      · exact absurd heq (hnew e he)
      · rw [List.mem_singleton.1 he]
    · show Placed _ _ u (Function.update s.pc t (.sendAwait x (s.createFuture t false).1) u)
      rw [hpcs u hne]
      have hwas := (h.placed u).later hl
      -- The new entry is of another sender.
      have hother : ∀ y : Parcel Task α, y.sender = u → y ≠ x := fun y hy heq => hne (hy ▸ heq ▸ hsender)
      have hfresh : ∀ y : Parcel Task α, y.sender = u → (∀ e ∈ line, e.2 ≠ y) →
          ∀ e ∈ line ++ [((s.createFuture t false).1, x)], e.2 ≠ y := by
        intro y hy hynew e he
        rcases List.mem_append.1 he with he | he
        · exact hynew e he
        · rw [List.mem_singleton.1 he]
          exact (hother y hy).symm
      have honly : ∀ (y : Parcel Task α) (g : Fut Task), y.sender = u → (∀ e ∈ line, e.2 = y → e.1 = g) →
          ∀ e ∈ line ++ [((s.createFuture t false).1, x)], e.2 = y → e.1 = g := by
        intro y g hy hone e he heq
        rcases List.mem_append.1 he with he | he
        · exact hone e he heq
        · rw [List.mem_singleton.1 he] at heq
          exact absurd heq.symm (hother y hy)
      cases hp : s.pc u with
      | sendTry y o =>
        rw [hp] at hwas
        cases o with
        | none => exact ⟨hwas.1, hwas.2.1, hfresh y hwas.1 hwas.2.2⟩
        | some g =>
          obtain ⟨hy, hyseq, hin, hwoken, hone⟩ := hwas
          exact ⟨hy, hyseq, List.mem_append_left _ hin, List.mem_append_left _ hwoken, honly y g hy hone⟩
      | sendRegister y =>
        rw [hp] at hwas
        exact ⟨hwas.1, hwas.2.1, hfresh y hwas.1 hwas.2.2⟩
      | sendRetry y g =>
        rw [hp] at hwas
        exact ⟨hwas.1, hwas.2.1, hfresh y hwas.1 hwas.2.2⟩
      | sendAwait y g =>
        rw [hp] at hwas
        obtain ⟨hy, hyseq, hin, hone⟩ := hwas
        exact ⟨hy, hyseq, hin.imp_left fun hin => List.mem_append_left _ hin, honly y g hy hone⟩
      | _ => trivial
  · rcases List.mem_append.1 he with he | he
    · have hwaits' : Function.update s.pc t (.sendAwait x (s.createFuture t false).1) e.2.sender =
          .sendAwait e.2 e.1 ∨ Function.update s.pc t (.sendAwait x (s.createFuture t false).1) e.2.sender =
          .sendTry e.2 (some e.1) := hwaits
      have hne : e.2.sender ≠ t := by
        intro heq
        rw [heq, Function.update_self] at hwaits'
        rcases hwaits' with hp | hp
        · injection hp with hx
          exact hnew e he hx.symm
        · cases hp
      have hwas : s.Waits e.1 e.2 := by
        rwa [hpcs _ hne] at hwaits'
      rcases h.known e he hwas with hwoken | hqueued
      · exact .inl (List.mem_append_left _ hwoken)
      · refine .inr ?_
        show e.1 ∈ (s.chan.putters ++ _).map ChannelWaiter.future
        rw [List.map_append]
        exact List.mem_append_left _ hqueued
    · rw [List.mem_singleton.1 he]
      refine .inr ?_
      show _ ∈ (s.chan.putters ++ [_]).map ChannelWaiter.future
      rw [List.map_append]
      exact List.mem_append_right _ (List.mem_singleton_self _)
  · have hf' : (s.awaitNew t false (.sendAwait x)).futs f = .result v := hf
    exact List.mem_append_left _ ((hl.result f v hf').elim (h.result f v) id)
  · have hc' : c ∈ s.scheduled := by
      rcases List.mem_append.1 hc with hc | hc
      · exact hc
      · cases hc
    exact List.mem_append_left _ (h.scheduled c hc')

end Sys

namespace Watched

variable [DecidableEq Task] [DecidableEq α] {w w' : Watched Loop Task α} {home : Task → Loop} {maxsize : Nat}

structure Sound [Fintype Task] (w : Watched Loop Task α) : Prop where
  wired : w.sys.Wired
  queue : w.sys.Line
  room : w.sys.Room
  ranks : w.sys.Ranks w.line
  entries : ∀ e ∈ w.entries, e.2 = []

theorem next_line_of_registered {s' : Sys Loop Task α} (h : s'.registered = w.sys.registered) :
    (w.next s').line = w.line := by
  show w.line ++ (s'.registered.drop w.sys.registered.length).filterMap _ = w.line
  rw [h, List.drop_length, List.filterMap_nil, List.append_nil]

theorem next_entries_of_accepted {s' : Sys Loop Task α} (h : s'.accepted = w.sys.accepted) :
    (w.next s').entries = w.entries := by
  show w.entries ++ (s'.accepted.drop w.sys.accepted.length).map _ = w.entries
  rw [h, List.drop_length, List.map_nil, List.append_nil]

theorem next_entries_of_entered {s' : Sys Loop Task α} {y : Parcel Task α}
    (h : s'.accepted = w.sys.accepted ++ [y]) : (w.next s').entries = w.entries ++ [(y, w.ahead y)] := by
  show w.entries ++ (s'.accepted.drop w.sys.accepted.length).map _ = _
  rw [h, List.drop_left]
  rfl

variable [Fintype Task]

/-- A sender that was queued before `y`, and waits. -/
theorem mem_ahead {x y : Parcel Task α} (h : w.Sound) (hx : x ∈ w.ahead y) : ∃ f, (f, x) ∈ w.line ∧
    (∀ g, (g, y) ∈ w.line → [f, g].Sublist w.sys.registered) ∧ w.sys.Waits f x ∧
      (w.sys.Due f ∨ w.sys.chan.putters ≠ [] ∧ f ∈ w.sys.chan.putters.map ChannelWaiter.future) := by
  obtain ⟨hx, hitem⟩ := List.mem_filter.1 hx
  obtain ⟨⟨f, x'⟩, he, rfl⟩ := List.mem_map.1 hx
  have hin : (f, x') ∈ w.line := (List.takeWhile_sublist _).subset he
  obtain ⟨howner, -⟩ := h.ranks.owned _ hin
  have hplaced := h.ranks.placed x'.sender
  have hitem : (w.sys.pc x'.sender).item? = some x' := of_decide_eq_true hitem
  have hwaits : w.sys.Waits f x' := by
    unfold Sys.Waits
    cases hp : w.sys.pc x'.sender with
    | sendTry z o =>
      rw [hp] at hplaced hitem
      obtain rfl : z = x' := Option.some_inj.1 hitem
      cases o with
      | none => exact absurd rfl (hplaced.2.2 _ hin)
      | some g =>
        obtain ⟨-, -, -, -, hone⟩ := hplaced
        rw [show g = f from (hone _ hin rfl).symm]
        exact .inr rfl
    | sendRegister z =>
      rw [hp] at hplaced hitem
      obtain rfl : z = x' := Option.some_inj.1 hitem
      exact absurd rfl (hplaced.2.2 _ hin)
    | sendRetry z g =>
      rw [hp] at hplaced hitem
      obtain rfl : z = x' := Option.some_inj.1 hitem
      exact absurd rfl (hplaced.2.2 _ hin)
    | sendAwait z g =>
      rw [hp] at hplaced hitem
      obtain rfl : z = x' := Option.some_inj.1 hitem
      obtain ⟨-, -, -, hone⟩ := hplaced
      rw [show g = f from (hone _ hin rfl).symm]
      exact .inl rfl
    | _ =>
      rw [hp] at hitem
      cases hitem
  refine ⟨f, hin, fun g hg => ?_, hwaits, ?_⟩
  · have hsplit : [(f, x'), (g, y)].Sublist w.line := by
      have hparts : w.line = (w.line.takeWhile fun e => e.2 ≠ y) ++ w.line.dropWhile fun e => e.2 ≠ y :=
        List.takeWhile_append_dropWhile.symm
      rw [hparts]
      refine (List.singleton_sublist.2 he).append (List.singleton_sublist.2 ?_)
      rw [hparts] at hg
      refine (List.mem_append.1 hg).resolve_left fun hg => ?_
      have hne := List.mem_takeWhile_imp hg
      simp at hne
    have hmap := hsplit.map (·.1)
    rwa [h.ranks.registered] at hmap
  · rcases h.ranks.known _ hin hwaits with hwoken | hqueued
    · refine .inl ⟨hwoken, x', ?_⟩
      rw [show f.owner = x'.sender from howner]
      exact hwaits
    · refine .inr ⟨fun hnil => ?_, hqueued⟩
      rw [hnil] at hqueued
      cases hqueued

/-- With no sender waiting, an item enters past nobody. -/
theorem ahead_of_noneWaits (h : w.Sound) (hnone : w.sys.NoneWaits) (y : Parcel Task α) : w.ahead y = [] := by
  refine List.eq_nil_iff_forall_not_mem.2 fun x hx => ?_
  obtain ⟨f, -, -, -, hdue | ⟨hput, -⟩⟩ := mem_ahead h hx
  · exact hnone.2 f hdue
  · exact hput hnone.1

/-- The item of a woken sender enters past nobody, when those woken before it
have tried again. -/
theorem ahead_of_woken {t : Task} {y : Parcel Task α} {g : Fut Task} (h : w.Sound)
    (hpc : w.sys.pc t = .sendTry y (some g)) (hfirst : ∀ f, [f, g].Sublist w.sys.woken → ¬ w.sys.Due f) :
    w.ahead y = [] := by
  refine List.eq_nil_iff_forall_not_mem.2 fun x hx => ?_
  have hplaced := h.ranks.placed t
  rw [hpc] at hplaced
  obtain ⟨-, -, hin, hwoken, hone⟩ := hplaced
  obtain ⟨f, hf, hbefore, hwaits, hwhere⟩ := mem_ahead h hx
  have hfg : [f, g].Sublist w.sys.registered := hbefore g hin
  have hne : f ≠ g := by
    rintro rfl
    have hnodup := hfg.nodup h.queue.nodup
    simp at hnodup
  have hgch : g.ch = false := by
    have hkind := h.wired.kind t
    rwa [hpc] at hkind
  have hgin : g ∈ w.sys.woken.filter fun f => !f.ch := List.mem_filter.2 ⟨hwoken, by rw [hgch]; rfl⟩
  have horder := h.queue.order
  rcases hwhere with hdue | ⟨-, hqueued⟩
  · have hfch : f.ch = false := by
      have hkind := h.wired.kind x.sender
      rcases hwaits with hpc' | hpc'
      · rwa [hpc'] at hkind
      · rwa [hpc'] at hkind
    have hfin : f ∈ w.sys.woken.filter fun f => !f.ch := List.mem_filter.2 ⟨hdue.1, by rw [hfch]; rfl⟩
    have hsub := (List.sublist_append_left _ _).trans horder
    have hpair := pair_of_sublist h.queue.nodup hsub hne hfin hgin hfg
    exact hfirst f (hpair.trans List.filter_sublist) hdue
  · -- A queued sender was registered after those that are woken.
    have hpair := (List.singleton_sublist.2 hgin).append (List.singleton_sublist.2 hqueued)
    exact pair_asymm h.queue.nodup hfg (hpair.trans horder)

theorem Sound.step {a : Action Task α} {s' : Sys Loop Task α} (h : w.Sound) (hok : w.sys.Orderly a)
    (hst : w.sys.step home a = some s') : (w.next s').Sound := by
  have hm := Sys.move_of_step h.wired.consistent hst
  refine ⟨h.wired.step hst, hm.line h.wired h.queue hok.second, hm.room h.wired h.queue h.room, ?_, ?_⟩
  · rcases h.ranks.move h.wired h.queue hm hok hst with ⟨hranks, hreg⟩ | ⟨t, x, hpc, rfl⟩
    · show s'.Ranks (w.next s').line
      rwa [next_line_of_registered hreg]
    · have henlist := h.ranks.enlist (l := home t) hpc
      have hline : (w.next (((w.sys.awaitNew t false (.sendAwait x)).enlist (w.sys.createFuture t false).1).dispatch
          ⟨(), { w.sys.chan with
            putters := w.sys.chan.putters ++ [⟨home t, (w.sys.createFuture t false).1, none⟩] }, []⟩)).line =
          w.line ++ [((w.sys.createFuture t false).1, x)] := by
        have hitem : (Function.update w.sys.pc t (.sendAwait x (w.sys.createFuture t false).1)
            (w.sys.createFuture t false).1.owner).item? = some x := by
          rw [show (w.sys.createFuture t false).1.owner = t from rfl, Function.update_self]
          rfl
        show w.line ++ ((w.sys.registered ++ [(w.sys.createFuture t false).1]).drop w.sys.registered.length).filterMap
          (fun f => (Function.update w.sys.pc t (.sendAwait x (w.sys.createFuture t false).1) f.owner).item?.map
            fun x => (f, x)) = _
        rw [List.drop_left, List.filterMap_cons, List.filterMap_nil, hitem]
        rfl
      show Sys.Ranks _ (w.next _).line
      rwa [hline]
  · rcases Sys.entered_of_move hm with hsame | ⟨y, hy, hr, hwho⟩
    · rw [next_entries_of_accepted hsame]
      exact h.entries
    · rw [next_entries_of_entered hy]
      have hplace := Sys.hasPlace_of_reply h.wired h.queue hr
      have hahead : w.ahead y = [] := by
        rcases hwho with hoffers | ⟨t, g, rfl, hpc⟩
        · exact ahead_of_noneWaits h (hok.noneWaits h.wired h.room hoffers hplace) y
        · rcases hok.woken t y g rfl hpc with hclosed | ⟨-, hfirst⟩
          · exact absurd hclosed (ne_true_of_eq_false hplace.1)
          · exact ahead_of_woken h hpc hfirst
      intro e he
      rcases List.mem_append.1 he with he | he
      · exact h.entries e he
      · rw [List.mem_singleton.1 he]
        exact hahead

end Watched

section Runs

variable [DecidableEq Task] [DecidableEq α] [Fintype Task] {home : Task → Loop} {maxsize : Nat}
  {w : Watched Loop Task α}

/-- In every run whose steps are orderly no item enters past a sender that was
queued before its own, and with senders queued the `try_send` of a newcomer
returns `False`. -/
theorem queued_senders_first (h : (watched home maxsize).ReachableWhen (fun w a => w.sys.Orderly a) w) :
    (∀ e ∈ w.entries, e.2 = []) ∧
    ∀ a x, w.sys.Offers a x → w.sys.Orderly a → w.sys.chan.putters ≠ [] →
      (w.sys.chan.trySend x).reply = .ok false := by
  have hsound : w.Sound := by
    refine h.inv (I := Watched.Sound) ?_ fun w a w' hw hok hst => ?_
    · rintro w rfl
      exact ⟨Sys.wired_new maxsize, Sys.line_new maxsize, .inl rfl, Sys.ranks_new maxsize, fun e he => by cases he⟩
    · have hmap : (w.sys.step home a).map w.next = some w' := hst
      obtain ⟨s', hstep, rfl⟩ := Option.map_eq_some_iff.1 hmap
      exact hw.step hok hstep
  refine ⟨hsound.entries, fun a x hoffers hok hput => ?_⟩
  have hfull : ¬ w.sys.chan.HasPlace := fun hplace =>
    hput (hok.noneWaits hsound.wired hsound.room hoffers hplace).1
  have hopen : w.sys.chan.isClosed = false := by
    by_contra hclosed
    exact hput (hsound.wired.consistent.of_closed (eq_true_of_ne_false hclosed)).2.1
  rcases trySend_cases hsound.wired.consistent x with ⟨hclosed, -⟩ | ⟨-, g, gs, hg, -, -⟩ | ⟨-, -, u, us, hu, -⟩ |
    ⟨-, -, -, -, -, e⟩ | ⟨-, -, -, hroom, -⟩
  · exact absurd hclosed (ne_true_of_eq_false hopen)
  · refine absurd ⟨hopen, .inl fun hnil => ?_⟩ hfull
    rw [hg] at hnil
    cases hnil
  · rw [hsound.queue.watchers] at hu
    cases hu
  · rw [e]
  · exact absurd ⟨hopen, .inr hroom⟩ hfull

end Runs

/-- A sender is queued; a receiver makes room and wakes it, and it tries again
before anybody else does. -/
theorem queued_senders_first_woken : ∃ w : Watched Unit Bool Nat,
    w.entries = [(⟨true, 0, 5⟩, []), (⟨false, 0, 6⟩, [])] ∧
    (∀ e ∈ w.entries, e.2 = []) ∧
    ∀ a x, w.sys.Offers a x → w.sys.Orderly a → w.sys.chan.putters ≠ [] →
      (w.sys.chan.trySend x).reply = .ok false := by
  have h : (watched (fun _ => ()) 1).ReachableWhen (fun w a => w.sys.Orderly a)
    (⟨Sys.new 1, [], []⟩ : Watched Unit Bool Nat) := .init rfl
  have h := h.next (.trySend true 5) ⟨fun _ _ _ f hf => (by cases hf.1), trivial, fun _ _ _ ha => by cases ha⟩ rfl
  have h := h.next (.send false 6) ⟨fun _ ho => ho.elim, trivial, fun _ _ _ ha => by cases ha⟩ rfl
  have h := h.next (.advance false) ⟨fun _ _ _ f hf => (by cases hf.1), fun _ _ hpc => (by cases hpc),
    fun _ _ _ ha hpc => by cases ha; cases hpc⟩ rfl
  have h := h.next (.advance false) ⟨fun _ _ _ f hf => (by cases hf.1), fun _ _ hpc => (by cases hpc),
    fun _ _ _ ha hpc => by cases ha; cases hpc⟩ rfl
  have h := h.next (.tryRecv true) ⟨fun _ ho => ho.elim, trivial, fun _ _ _ ha => by cases ha⟩ rfl
  have h := h.next (.wake 0) ⟨fun _ ho => ho.elim, trivial, fun _ _ _ ha => by cases ha⟩ rfl
  have h := h.next (.resume false) ⟨fun _ ho => ho.elim, trivial, fun _ _ _ ha => by cases ha⟩ rfl
  obtain ⟨w, h, hpc, hwoken, hplace, hnext⟩ : ∃ w : Watched Unit Bool Nat,
      (watched (fun _ => ()) 1).ReachableWhen (fun w a => w.sys.Orderly a) w ∧
      w.sys.pc false = .sendTry ⟨false, 0, 6⟩ (some ⟨false, 0, false⟩) ∧ w.sys.woken = [⟨false, 0, false⟩] ∧
      w.sys.chan.HasPlace ∧ ((watched (fun _ => ()) 1).step w (.advance false)).map (·.entries) =
        some [(⟨true, 0, 5⟩, []), (⟨false, 0, 6⟩, [])] :=
    ⟨_, h, rfl, rfl, ⟨rfl, .inr (.inr Nat.zero_lt_one)⟩, rfl⟩
  obtain ⟨w', hst, hentries⟩ := Option.map_eq_some_iff.1 hnext
  have hok : w.sys.Orderly (.advance false) :=
    { newcomer := fun x ho => by simp [Sys.Offers, hpc] at ho
      second := fun x f hf => by simp [hpc] at hf
      woken := fun t x f ha hf => .inr ⟨hplace, fun g hg => by simp [hwoken] at hg⟩ }
  exact ⟨w', hentries, queued_senders_first (h.next (.advance false) hok hst)⟩

/-- Senders `1` and `2` are queued; receiver `3` makes room and wakes sender
`1`; before it runs, the `try_send` of `4` returns `True`, past both. -/
theorem newcomer_overtakes : ∃ w : Watched Unit (Fin 5) Nat, (watched (fun _ => ()) 1).Reachable w ∧
    w.sys.chan.putters.length = 1 ∧ (w.sys.chan.trySend ⟨4, 0, 9⟩).reply = .ok true ∧
      ((watched (fun _ => ()) 1).step w (.trySend 4 9)).map (·.entries) =
        some [(⟨0, 0, 5⟩, []), (⟨4, 0, 9⟩, [⟨1, 0, 6⟩, ⟨2, 0, 7⟩])] :=
  System.exists_reachable_of_run [.trySend 0 5, .send 1 6, .advance 1, .advance 1, .send 2 7, .advance 2,
    .advance 2, .tryRecv 3] (s := Watched.mk (Sys.new 1) [] []) rfl (by decide +kernel)

end Multiloop.Channel
