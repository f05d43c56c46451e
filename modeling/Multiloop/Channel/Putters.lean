import Mathlib.Algebra.Order.BigOperators.Group.Finset
import Multiloop.Channel.Wiring
import Multiloop.Framework.Counting

/-!
# Senders that wait for room

`Line` is the queue of senders of a run: it holds the futures of suspended
senders in the order they were registered, behind those woken so far, and a
suspended sender is queued or has its wake scheduled. `Room` counts: with
senders queued, the free places of the buffer are covered by woken senders
that have not made another call since.
-/

namespace Multiloop.Channel

open ChannelState

variable {Loop Task α : Type}

/-- The future a sender may have queued. -/
def Pc.queued? : Pc Task α → Option (Fut Task)
  | .sendAwait _ f | .sendUnregister f => some f
  | _ => none

/-- The future of a sender that waits, or that has made no call since. -/
def Pc.waitedFor? : Pc Task α → Option (Fut Task)
  | .sendTry _ f => f
  | .sendAwait _ f | .sendUnregister f => some f
  | _ => none

/-- A call wakes exactly the first `ps` of the queued senders. -/
def Pops {β : Type} (c : TaskChannel Loop Task α) (o : Outcome Loop (Fut Task) Unit (Parcel Task α) β)
    (ps : List (ChannelWaiter Loop (Fut Task) Unit)) : Prop :=
  c.putters = ps ++ o.state.putters ∧
  (∀ p ∈ ps, ∃ v e, WakeTarget.waiter p v e ∈ o.toWake) ∧
  ((o.toWake.map fun w => w.target.future).filter fun f => !f.ch) = ps.map ChannelWaiter.future

theorem waitedFor?_of_queued? {p : Pc Task α} {f : Fut Task} (h : p.queued? = some f) :
    p.waitedFor? = some f := by
  cases p <;> simp_all [Pc.queued?, Pc.waitedFor?]

namespace Sys

variable {s s' : Sys Loop Task α} {home : Task → Loop}

/-- The wake of sender's future `f` is in flight: the sender was woken and has
not made another call since. -/
def InFlight (s : Sys Loop Task α) (f : Fut Task) : Prop :=
  f ∈ s.woken ∧ (s.pc f.owner).waitedFor? = some f

/-- The queue of senders. -/
structure Line (s : Sys Loop Task α) : Prop where
  watchers : s.chan.selectWatchers = []
  waiting : ∀ w ∈ s.chan.putters, (s.pc w.future.owner).queued? = some w.future
  order : ((s.woken.filter fun f => !f.ch) ++ s.chan.putters.map ChannelWaiter.future).Sublist s.registered
  nodup : s.registered.Nodup
  created : ∀ f ∈ s.registered, f.serial < s.created f.owner
  asleep : ∀ t x f, s.pc t = .sendAwait x f → s.futs f = .pending →
    (∃ w ∈ s.chan.putters, w.future = f) ∨ ∃ c ∈ s.scheduled, c.fut = f

/-- The condition on a step: the second `try_send` of a `send` finds the
channel closed or a place for its item, unless the task is cancelled by then. -/
def RetryFindsPlace (s : Sys Loop Task α) : Action Task α → Prop
  | .advance t => ∀ x f, s.pc t = .sendRetry x f →
    s.mustCancel t = true ∨ s.chan.isClosed = true ∨ s.chan.HasPlace
  | _ => True

theorem line_new (maxsize : Nat) : Line (Sys.new maxsize : Sys Loop Task α) where
  watchers := rfl
  waiting := by simp [Sys.new, Channel.new]
  order := by simp [Sys.new, Channel.new]
  nodup := by simp [Sys.new]
  created := by simp [Sys.new]
  asleep := by simp [Sys.new]

theorem Line.putters_ch (h : s.Line) (hw : s.Wired) {w : ChannelWaiter Loop (Fut Task) Unit}
    (hm : w ∈ s.chan.putters) : w.future.ch = false := by
  have hk := hw.kind w.future.owner
  have hq := h.waiting w hm
  cases hpc : s.pc w.future.owner <;> simp_all [Pc.queued?, Pc.Kind]

/-- A queued sender has not been woken. -/
theorem Line.not_woken (h : s.Line) (hw : s.Wired) {w : ChannelWaiter Loop (Fut Task) Unit}
    (hm : w ∈ s.chan.putters) : w.future ∉ s.woken := by
  intro hk
  have hnd := h.order.nodup h.nodup
  refine (List.nodup_append.1 hnd).2.2 w.future ?_ w.future (List.mem_map_of_mem hm) rfl
  simpa [h.putters_ch hw hm] using hk

theorem Wired.of_waitedFor? (h : s.Wired) {t : Task} {f : Fut Task} (hf : (s.pc t).waitedFor? = some f) :
    f.owner = t ∧ f.ch = false := by
  have hk := h.kind t
  have ho := h.owner t f
  cases hpc : s.pc t with
  | sendTry x o => cases o <;> simp_all [Pc.waitedFor?, Pc.Kind, Pc.fut?]
  | _ => simp_all [Pc.waitedFor?, Pc.Kind, Pc.fut?]

/-! ## What each call pops -/

theorem pops_none {β : Type} {o : Outcome Loop (Fut Task) Unit (Parcel Task α) β}
    (hp : o.state.putters = s.chan.putters) (hw : ∀ t ∈ o.toWake, t.target.future.ch = true) :
    Pops s.chan o [] := by
  refine ⟨by simp [hp], by simp, ?_⟩
  simpa using hw

theorem Line.filter_putters (h : s.Line) (hw : s.Wired) :
    ((s.chan.putters.map ChannelWaiter.future).filter fun f => !f.ch) =
      s.chan.putters.map ChannelWaiter.future := by
  rw [List.filter_eq_self]
  intro f hf
  obtain ⟨w, hm, rfl⟩ := List.mem_map.1 hf
  simp [h.putters_ch hw hm]

theorem Line.trySend_pops (h : s.Line) (hw : s.Wired) (x : Parcel Task α) :
    ∃ ps, Pops s.chan (s.chan.trySend x) ps := by
  rcases trySend_cases hw.consistent x with ⟨-, e⟩ | ⟨-, g, gs, hg, -, e⟩ | ⟨-, -, w, ws, he, -⟩ |
    ⟨-, -, -, -, -, e⟩ | ⟨-, -, -, -, e⟩
  · exact ⟨[], pops_none (by rw [e]) (by simp [e])⟩
  · have hch := hw.getter_ch g (by simp [hg])
    refine ⟨s.chan.putters, by simp [e], fun p hp => ⟨none, false, by simp [e]; exact .inr ⟨p, hp, rfl⟩⟩, ?_⟩
    have hf := h.filter_putters hw
    simpa [e, hch, Function.comp_def] using hf
  · simp [h.watchers] at he
  · exact ⟨[], pops_none (by rw [e]) (by simp [e])⟩
  · exact ⟨[], pops_none (by rw [e]) (by simp [e])⟩

theorem Line.tryRecv_pops (h : s.Line) (hw : s.Wired) : ∃ ps, Pops s.chan s.chan.tryRecv ps := by
  rcases tryRecv_cases (s := s.chan) with ⟨x, xs, -, e⟩ | ⟨-, -, e⟩ | ⟨-, -, e⟩
  · rcases hp : s.chan.putters with _ | ⟨p, ps⟩
    · exact ⟨[], pops_none (by simp [e, popPutter, hp]) (by simp [e, popPutter, hp])⟩
    · have hm : 0 < s.chan.maxsize := by
        by_contra hm
        simp [hw.consistent.putters_of_unbounded (by omega)] at hp
      refine ⟨[p], by simp [e, popPutter, hp, hm], ?_, ?_⟩
      · simp only [e, popPutter, hp, hm, List.mem_singleton, forall_eq]
        exact ⟨none, false, List.mem_singleton_self _⟩
      · simp [e, popPutter, hp, hm, h.putters_ch hw (w := p) (by simp [hp])]
  · exact ⟨[], pops_none (by rw [e]) (by simp [e])⟩
  · exact ⟨[], pops_none (by rw [e]) (by simp [e])⟩

theorem Line.close_pops (h : s.Line) (hw : s.Wired) : ∃ ps, Pops s.chan s.chan.close ps := by
  rcases close_cases (s := s.chan) with ⟨-, e⟩ | ⟨-, e⟩
  · exact ⟨[], pops_none (by rw [e]) (by simp [e])⟩
  · refine ⟨s.chan.putters, by simp [e], fun p hp => ⟨some .closedExc, true, ?_⟩, ?_⟩
    · rw [e]
      exact List.mem_append_left _ (List.mem_append_right _ (List.mem_map_of_mem hp))
    · have hg : ((s.chan.getters.map ChannelWaiter.future).filter fun f => !f.ch) = [] := by
        simpa using hw.getter_ch
      have hf := h.filter_putters hw
      simpa [e, h.watchers, Function.comp_def, hf] using hg

/-! ## The updates of a step -/

theorem Line.accept (h : s.Line) (x : Parcel Task α) : (s.accept x).Line := ⟨h.1, h.2, h.3, h.4, h.5, h.6⟩

theorem Line.receive (h : s.Line) (t : Task) (x : Parcel Task α) : (s.receive t x).Line :=
  ⟨h.1, h.2, h.3, h.4, h.5, h.6⟩

theorem Line.dispatch (h : s.Line) {β : Type} {o : Outcome Loop (Fut Task) Unit (Parcel Task α) β}
    {ps : List (ChannelWaiter Loop (Fut Task) Unit)} (hp : Pops s.chan o ps)
    (hs : o.state.selectWatchers = []) : (s.dispatch o).Line where
  watchers := hs
  waiting w hw := h.waiting w (hp.1 ▸ List.mem_append_right _ hw)
  order := by
    have ho := h.order
    rw [hp.1, List.map_append, ← hp.2.2, ← List.append_assoc, ← List.filter_append] at ho
    exact ho
  nodup := h.nodup
  created := h.created
  asleep t x f hpc hf := by
    rcases h.asleep t x f hpc hf with ⟨w, hw, rfl⟩ | ⟨c, hc, rfl⟩
    · rw [hp.1] at hw
      rcases List.mem_append.1 hw with hw | hw
      · obtain ⟨v, e, hm⟩ := hp.2.1 w hw
        exact .inr ⟨⟨w.future, v, e⟩, List.mem_append_right _ (List.mem_filterMap.2 ⟨_, hm, rfl⟩), rfl⟩
      · exact .inl ⟨w, hw, rfl⟩
    · exact .inr ⟨c, List.mem_append_left _ hc, rfl⟩

/-- A sender that is neither suspended nor about to unregister is not queued. -/
theorem Line.not_queued (h : s.Line) {t : Task} (hn : (s.pc t).queued? = none) :
    ∀ w ∈ s.chan.putters, w.future.owner ≠ t := by
  rintro w hw rfl
  simp [h.waiting w hw] at hn

/-- Nothing the queue of senders depends on changes; wakes of futures that are
done may be gone. -/
theorem Line.same (h : s.Line) (hc : s'.chan = s.chan) (hp : s'.pc = s.pc)
    (hr : s'.registered = s.registered) (hk : s'.woken = s.woken)
    (hn : ∀ u, s.created u ≤ s'.created u) (hf : ∀ f, s'.futs f = .pending → s.futs f = .pending)
    (hs : ∀ c ∈ s.scheduled, s'.futs c.fut = .pending → c ∈ s'.scheduled) : s'.Line where
  watchers := hc ▸ h.watchers
  waiting := by
    rw [hc, hp]
    exact h.waiting
  order := by
    rw [hc, hr, hk]
    exact h.order
  nodup := hr ▸ h.nodup
  created f hm := Nat.lt_of_lt_of_le (h.created f (hr ▸ hm)) (hn _)
  asleep t x f hpc hpend := by
    rcases h.asleep t x f (hp ▸ hpc) (hf f hpend) with ⟨w, hw, rfl⟩ | ⟨c, hcs, rfl⟩
    · exact .inl ⟨w, hc ▸ hw, rfl⟩
    · exact .inr ⟨c, hs c hcs hpend, rfl⟩

variable [DecidableEq Task]

/-- A new program counter for one task. -/
theorem Line.setPc (h : s.Line) {t : Task} {p : Pc Task α} (hc : s'.chan = s.chan)
    (hs : s'.scheduled = s.scheduled) (hr : s'.registered = s.registered) (hk : s'.woken = s.woken)
    (hn : ∀ u, s.created u ≤ s'.created u) (hf : ∀ f, s'.futs f = .pending → s.futs f = .pending)
    (hp : s'.pc = Function.update s.pc t p)
    (hw : ∀ w ∈ s.chan.putters, w.future.owner = t → p.queued? = some w.future)
    (ha : ∀ x f, p = .sendAwait x f → s'.futs f ≠ .pending) : s'.Line where
  watchers := hc ▸ h.watchers
  waiting w hm := by
    rw [hc] at hm
    by_cases ht : w.future.owner = t
    · simpa [hp, ht] using hw w hm ht
    · simpa [hp, ht] using h.waiting w hm
  order := by
    rw [hc, hr, hk]
    exact h.order
  nodup := hr ▸ h.nodup
  created f hm := Nat.lt_of_lt_of_le (h.created f (hr ▸ hm)) (hn _)
  asleep u x f hpc hpend := by
    rw [hc, hs]
    by_cases hu : u = t
    · subst hu
      exact absurd hpend (ha x f (by simpa [hp] using hpc))
    · exact h.asleep u x f (by simpa [hp, hu] using hpc) (hf f hpend)

theorem Line.goto (h : s.Line) {t : Task} {p : Pc Task α} (hn : (s.pc t).queued? = none)
    (ha : ∀ x f, p ≠ .sendAwait x f := by simp) : (s.goto t p).Line :=
  h.setPc rfl rfl rfl rfl (fun _ => Nat.le_refl _) (fun _ hf => hf) rfl
    (fun w hw e => absurd e (h.not_queued hn w hw)) fun x f e => absurd e (ha x f)

theorem Line.createFuture (h : s.Line) (t : Task) (ch : Bool) : (s.createFuture t ch).2.Line :=
  h.same rfl rfl rfl rfl (fun u => by by_cases hu : u = t <;> simp [Sys.createFuture, hu])
    (fun _ hf => hf) fun _ hc _ => hc

theorem futs_of_await {t : Task} {f g : Fut Task} {p : Pc Task α} (h : (s.await t f p).futs g = .pending) :
    s.futs g = .pending := by
  simp only [Sys.await] at h
  split at h
  · by_cases hg : g = f
    · subst hg
      simp at h
    · simpa [hg] using h
  · exact h

/-- `send` registers a new future and awaits it. -/
theorem Line.register (h : s.Line) {t : Task} {x : Parcel Task α} {l : Loop}
    (hpc : s.pc t = .sendRegister x) :
    (((s.awaitNew t false (.sendAwait x)).enlist (s.createFuture t false).1).dispatch
      ⟨(), { s.chan with
        putters := s.chan.putters ++ [⟨l, (s.createFuture t false).1, none⟩] }, []⟩).Line where
  watchers := h.watchers
  waiting w hw := by
    rcases List.mem_append.1 hw with hw | hw
    · have hne := h.not_queued (t := t) (by simp [hpc, Pc.queued?]) w hw
      simpa [Sys.dispatch, Sys.enlist, awaitNew, Sys.await, Sys.createFuture, hne] using h.waiting w hw
    · obtain rfl := List.mem_singleton.1 hw
      simp [Sys.dispatch, Sys.enlist, awaitNew, Sys.await, Sys.createFuture, Pc.queued?]
  order := by
    have ho := h.order.append (List.Sublist.refl [(s.createFuture t false).1])
    simpa [Sys.dispatch, Sys.enlist, awaitNew, Sys.await, Sys.createFuture] using ho
  nodup := by
    refine h.nodup.append (List.nodup_singleton _) ?_
    rintro f hf hf'
    obtain rfl := List.mem_singleton.1 hf'
    exact absurd (h.created _ hf) (by simp [Sys.createFuture])
  created f hf := by
    rcases List.mem_append.1 hf with hf | hf
    · refine Nat.lt_of_lt_of_le (h.created f hf) ?_
      by_cases ht : f.owner = t <;>
        simp [Sys.dispatch, Sys.enlist, awaitNew, Sys.await, Sys.createFuture, ht]
    · obtain rfl := List.mem_singleton.1 hf
      simp [Sys.dispatch, Sys.enlist, awaitNew, Sys.await, Sys.createFuture]
  asleep u y f hu hf := by
    by_cases ht : u = t
    · subst ht
      have he : (s.createFuture u false).1 = f := by
        have hu' : Pc.sendAwait x (s.createFuture u false).1 = Pc.sendAwait y f := by
          simpa [Sys.dispatch, Sys.enlist, awaitNew, Sys.await] using hu
        cases hu'
        rfl
      exact .inl ⟨_, List.mem_append_right _ (List.mem_singleton_self _), he⟩
    · have hu' : s.pc u = .sendAwait y f := by
        simpa [Sys.dispatch, Sys.enlist, awaitNew, Sys.await, Sys.createFuture, ht] using hu
      have hf' : s.futs f = .pending := futs_of_await (s := (s.createFuture t false).2)
        (p := .sendAwait x (s.createFuture t false).1) hf
      rcases h.asleep u y f hu' hf' with ⟨w, hw, e⟩ | ⟨c, hc, e⟩
      · exact .inl ⟨w, List.mem_append_left _ hw, e⟩
      · exact .inr ⟨c, List.mem_append_left _ hc, e⟩

/-- A sender whose await raised unregisters. -/
theorem Line.unregister (h : s.Line) (hw : s.Wired) {t : Task} {f : Fut Task}
    (hpc : s.pc t = .sendUnregister f) :
    ((s.dispatch (s.chan.unregisterPutter f)).goto t .idle).Line := by
  have hmine : ∀ w ∈ s.chan.putters, w.future.owner = t → w.future = f := by
    rintro w hm rfl
    simpa [hpc, Pc.queued?, eq_comm] using h.waiting w hm
  rcases unregisterPutter_cases (s := s.chan) f with ⟨r, e, -⟩ | ⟨p, ps, hp, hret, -, e⟩ <;> rw [e]
  · have hsub : (retain f s.chan.putters).Sublist s.chan.putters := List.filter_sublist
    refine ⟨h.watchers, fun w hm => ?_, ?_, h.nodup, h.created, fun u x g hu hg => ?_⟩
    · obtain ⟨hm', hne⟩ := mem_retain.1 hm
      have ht : w.future.owner ≠ t := fun ht => hne (hmine w hm' ht)
      simpa [Sys.goto, Sys.dispatch, ht] using h.waiting w hm'
    · refine List.Sublist.trans ?_ h.order
      simpa [Sys.goto, Sys.dispatch] using hsub.map ChannelWaiter.future
    · have ht : u ≠ t := by
        rintro rfl
        simp [Sys.goto] at hu
      have hu' : s.pc u = .sendAwait x g := by simpa [Sys.goto, Sys.dispatch, ht] using hu
      rcases h.asleep u x g hu' hg with ⟨w, hm, rfl⟩ | ⟨c, hc, rfl⟩
      · refine .inl ⟨w, mem_retain.2 ⟨hm, fun he => ht ?_⟩, rfl⟩
        exact (hw.owner u w.future (by rw [hu']; rfl)).1.symm.trans
          (he ▸ (hw.owner t f (by rw [hpc]; rfl)).1)
      · exact .inr ⟨c, List.mem_append_left _ hc, rfl⟩
  · have hpops : Pops s.chan (⟨.ok false, { s.chan with putters := ps }, [p.putterWake]⟩ :
        Outcome Loop (Fut Task) Unit (Parcel Task α) (Except ChannelError Bool)) [p] := by
      refine ⟨hp, by simpa using ⟨none, .inl rfl⟩, ?_⟩
      simp [h.putters_ch hw (w := p) (by simp [hp])]
    refine (h.dispatch hpops h.watchers).setPc rfl rfl rfl rfl (fun _ => Nat.le_refl _)
      (fun _ hf => hf) rfl (fun w hm ht => ?_) (by simp)
    have hm' : w ∈ s.chan.putters := hp ▸ List.mem_cons_of_mem _ hm
    rw [← hret] at hm'
    exact absurd (hmine w (mem_retain.1 hm').1 ht) (mem_retain.1 hm').2

theorem pending_of_withFut {f g : Fut Task} {st : FutState (Option (Parcel Task α))} (hst : st ≠ .pending)
    (h : (s.withFut f st).futs g = .pending) : s.futs g = .pending := by
  by_cases hg : g = f
  · subst hg
    exact absurd (by simpa using h) hst
  · simpa [hg] using h

omit [DecidableEq Task] in
/-- Another wake than the one taken off the schedule stays scheduled. -/
theorem mem_unscheduled {i : Nat} {c d : WakeCall Task α} (hi : s.scheduled[i]? = some c)
    (hd : d ∈ s.scheduled) (hne : d ≠ c) : d ∈ (s.unscheduled i).scheduled := by
  obtain ⟨j, hj⟩ := List.mem_iff_getElem?.1 hd
  refine List.mem_eraseIdx_iff_getElem?.2 ⟨j, fun e => ?_, hj⟩
  subst e
  exact hne (Option.some.inj (hj.symm.trans hi))

/-- Every step keeps the queue of senders, if a second `try_send` finds a place. -/
theorem Move.line {a : Action Task α} (hm : Move home s a s') (hw : s.Wired) (h : s.Line)
    (hok : s.RetryFindsPlace a) : s'.Line := by
  have hcall : ∀ t a, (s.call t a).2.Line := fun t a =>
    h.same rfl rfl rfl rfl (fun _ => Nat.le_refl _) (fun _ hf => hf) fun _ hc _ => hc
  have hnew := h.createFuture
  have hsend : ∀ {s₁ : Sys Loop Task α} x, s₁.Line → s₁.Wired → (s₁.dispatch (s₁.chan.trySend x)).Line := by
    intro s₁ x h₁ hw₁
    obtain ⟨ps, hp⟩ := h₁.trySend_pops hw₁ x
    exact h₁.dispatch hp (trySend_watchers hw₁.consistent h₁.watchers x)
  have hrecv : ∀ {s₁ : Sys Loop Task α}, s₁.Line → s₁.Wired → (s₁.dispatch s₁.chan.tryRecv).Line := by
    intro s₁ h₁ hw₁
    obtain ⟨ps, hp⟩ := h₁.tryRecv_pops hw₁
    exact h₁.dispatch hp (tryRecv_watchers.trans h₁.watchers)
  cases hm with
  | send hpc => exact (hcall _ _).goto (by simp [Sys.call, hpc, Pc.queued?])
  | trySend =>
    exact (hsend _ (hcall _ _) (hw.call _ _)).accept _
  | trySendFail => exact hcall _ _
  | recv hpc => exact h.goto (by simp [hpc, Pc.queued?])
  | tryRecv =>
    exact (hrecv h hw).receive _ _
  | tryRecvFail => exact h
  | close =>
    obtain ⟨ps, hp⟩ := h.close_pops hw
    exact h.dispatch hp (close_watchers h.watchers)
  | sendOk hpc =>
    refine ((hsend _ h hw).accept _).goto ?_
    rcases hpc with ⟨o, hpc⟩ | ⟨f, hpc⟩ <;> simp [Sys.accept, Sys.dispatch, hpc, Pc.queued?]
  | sendFull hpc => exact h.goto (by simp [hpc, Pc.queued?])
  | @sendRetryFull t x f hpc hr =>
    have hmc : s.mustCancel t = true := by
      rcases hok x f hpc with hmc | hcl | hplace
      · exact hmc
      · simp [ChannelState.trySend, hcl] at hr
      · simp [trySend_of_hasPlace hw.consistent hplace x] at hr
    refine h.setPc rfl rfl rfl rfl (fun _ => Nat.le_refl _) (fun _ hf => futs_of_await hf) rfl
      (fun w hm e => absurd e (h.not_queued (by simp [hpc, Pc.queued?]) w hm)) fun y g e => ?_
    cases e
    simp [Sys.await, hmc]
  | closed hpc =>
    refine h.goto ?_
    rcases hpc with ⟨x, o, hpc⟩ | ⟨x, f, hpc⟩ | hpc <;> simp [hpc, Pc.queued?]
  | registerClosed hpc =>
    refine (hnew _ _).goto ?_
    rcases hpc with ⟨x, hpc⟩ | hpc <;> simp [Sys.createFuture, hpc, Pc.queued?]
  | registerRoom hpc => exact (hnew _ _).goto (by simp [Sys.createFuture, hpc, Pc.queued?])
  | registerPutter hpc => exact h.register hpc
  | unregisterPutter hpc => exact h.unregister hw hpc
  | @recvOk t x s₁ hpc =>
    have h₁ : s₁.Line ∧ s₁.Wired ∧ s₁.chan = s.chan ∧ (s₁.pc t).queued? = none := by
      rcases hpc with ⟨hpc, rfl⟩ | ⟨hpc, rfl⟩
      · exact ⟨h, hw, rfl, by simp [hpc, Pc.queued?]⟩
      · exact ⟨hnew _ _, hw.createFuture _ _, rfl, by simp [Sys.createFuture, hpc, Pc.queued?]⟩
    obtain ⟨hl, hw₁, hc, hq⟩ := h₁
    rw [← hc]
    exact ((hrecv hl hw₁).receive t x).goto hq
  | recvEmpty hpc => exact h.goto (by simp [hpc, Pc.queued?])
  | @registerGetter t hpc ho hb =>
    have haw : (s.awaitNew t true .recvAwait).Line :=
      (hnew t true).setPc rfl rfl rfl rfl (fun _ => Nat.le_refl _) (fun _ hf => futs_of_await hf) rfl
        (fun w hm e => absurd e (h.not_queued (by simp [hpc, Pc.queued?]) w hm)) (by simp)
    exact haw.dispatch (pops_none rfl (by simp)) h.watchers
  | @unregisterGetter t f hpc =>
    refine Line.goto ?_ (by simp [Sys.dispatch, hpc, Pc.queued?])
    rcases unregisterGetter_cases hw.consistent f with ⟨r, e⟩ | ⟨w, ws, he, -⟩
    · rw [e]
      exact h.dispatch (pops_none rfl (by simp)) h.watchers
    · simp [h.watchers] at he
  | @resumeSend t x f v hpc hf =>
    refine h.setPc rfl rfl rfl rfl (fun _ => Nat.le_refl _) (fun _ hf => hf) rfl (fun w hm e => ?_) (by simp)
    -- A future that has its result is not queued any more.
    have hq := h.waiting w hm
    rw [e, hpc] at hq
    obtain rfl : f = w.future := Option.some.inj hq
    have hl : w.future ∈ s.live := List.mem_append_left _
      (List.mem_map_of_mem (List.mem_append_left _ (List.mem_append_right _ hm)))
    rcases hw.attached _ hl with hcan | ⟨hp, -⟩ <;> simp [hf] at *
  | @raiseSend t x f hpc hf =>
    refine h.setPc rfl rfl rfl rfl (fun _ => Nat.le_refl _) (fun _ hf => hf) rfl (fun w hm e => ?_) (by simp)
    simpa [e, hpc, Pc.queued?] using h.waiting w hm
  | resumeRecv hpc =>
    exact (h.receive _ _).goto (by simp [Sys.receive, hpc, Pc.queued?])
  | resumeNone hpc => exact h.goto (by simp [hpc, Pc.queued?])
  | raiseRecv hpc =>
    exact h.setPc rfl rfl rfl rfl (fun _ => Nat.le_refl _) (fun _ hf => hf) rfl
      (fun w hm e => absurd e (h.not_queued (by simp [hpc, Pc.queued?]) w hm)) (by simp)
  | @cancelFut t f hf hp =>
    refine h.same rfl rfl rfl rfl (fun _ => Nat.le_refl _) (fun g hg => ?_) fun _ hc _ => hc
    exact pending_of_withFut (by simp) hg
  | cancelTask =>
    exact h.same rfl rfl rfl rfl (fun _ => Nat.le_refl _) (fun _ hf => hf) fun _ hc _ => hc
  | @wake i c st hi hp hst =>
    have hne : st ≠ .pending := by rcases hst with ⟨rfl, -⟩ | ⟨rfl, -⟩ <;> simp
    refine h.same rfl rfl rfl rfl (fun _ => Nat.le_refl _) (fun g hg => pending_of_withFut hne hg)
      fun d hd hpd => mem_unscheduled hi hd ?_
    rintro rfl
    exact hne (by simpa using hpd)
  | @requeue i c x hi hp hx =>
    have hu : (s.unscheduled i).Line := h.same rfl rfl rfl rfl (fun _ => Nat.le_refl _) (fun _ hf => hf)
      fun d hd hpd => mem_unscheduled hi hd fun e => hp (e ▸ hpd)
    exact hsend x hu (hw.unschedule hi).1
  | @drop i c hi hp hx =>
    exact h.same rfl rfl rfl rfl (fun _ => Nat.le_refl _) (fun _ hf => hf)
      fun d hd hpd => mem_unscheduled hi hd fun e => hp (e ▸ hpd)

/-! ## Free places and woken senders -/

/-- Whether task `t` was woken as a sender and has made no call since. -/
def notice (s : Sys Loop Task α) (t : Task) : Nat :=
  match (s.pc t).waitedFor? with
  | some f => if f ∈ s.woken then 1 else 0
  | none => 0

theorem notice_le_one (t : Task) : s.notice t ≤ 1 := by
  unfold notice
  split
  · split <;> omega
  · omega

theorem notice_of_none {t : Task} (h : (s.pc t).waitedFor? = none) : s.notice t = 0 := by
  simp [notice, h]

theorem notice_of_some {t : Task} {f : Fut Task} (h : (s.pc t).waitedFor? = some f) :
    s.notice t = if f ∈ s.woken then 1 else 0 := by
  simp [notice, h]

theorem notice_mono {t : Task} (hp : (s'.pc t).waitedFor? = (s.pc t).waitedFor?)
    (hk : ∀ f ∈ s.woken, f ∈ s'.woken) : s.notice t ≤ s'.notice t := by
  cases hf : (s.pc t).waitedFor? with
  | none => simp [notice_of_none hf]
  | some f =>
    rw [notice_of_some hf, notice_of_some (hp.trans hf)]
    by_cases hm : f ∈ s.woken
    · simp [hm, hk f hm]
    · simp [hm]

variable [Fintype Task]

def notices (s : Sys Loop Task α) : Nat := ∑ t, s.notice t

/-- With senders queued, the free places are covered by woken senders. -/
def Room (s : Sys Loop Task α) : Prop :=
  s.chan.putters = [] ∨ s.chan.maxsize ≤ s.chan.buffer.length + s.notices

theorem notices_mono (hp : ∀ t, (s'.pc t).waitedFor? = (s.pc t).waitedFor?)
    (hk : ∀ f ∈ s.woken, f ∈ s'.woken) : s.notices ≤ s'.notices :=
  Finset.sum_le_sum fun t _ => notice_mono (hp t) hk

theorem notices_dispatch {β : Type} (o : Outcome Loop (Fut Task) Unit (Parcel Task α) β) :
    s.notices ≤ (s.dispatch o).notices :=
  notices_mono (fun _ => rfl) fun _ hf => List.mem_append_left _ hf

/-- Waking a queued sender puts one more wake in flight. -/
theorem notices_pop (h : s.Line) (hw : s.Wired) {p : ChannelWaiter Loop (Fut Task) Unit}
    (hm : p ∈ s.chan.putters) {β : Type} {o : Outcome Loop (Fut Task) Unit (Parcel Task α) β}
    (hp : p.putterWake ∈ o.toWake) : s.notices + 1 ≤ (s.dispatch o).notices := by
  have hf := waitedFor?_of_queued? (h.waiting p hm)
  have hmono : ∀ t, s.notice t ≤ (s.dispatch o).notice t := fun t =>
    notice_mono rfl fun _ hf => List.mem_append_left _ hf
  refine Finset.sum_lt_sum (fun t _ => hmono t) ⟨p.future.owner, Finset.mem_univ _, ?_⟩
  have hk : p.future ∈ (s.dispatch o).woken := List.mem_append_right _ (List.mem_map.2 ⟨_, hp, rfl⟩)
  have hf' : ((s.dispatch o).pc p.future.owner).waitedFor? = some p.future := hf
  rw [notice_of_some hf, notice_of_some hf']
  simp [h.not_woken hw hm, hk]

/-- A task goes on: at most its own wake is answered. -/
theorem notices_setPc {t : Task} {p : Pc Task α} (hp : s'.pc = Function.update s.pc t p)
    (hk : s'.woken = s.woken) : s'.notices + s.notice t = s.notices + s'.notice t := by
  refine sum_step t fun u hu => ?_
  simp [notice, hp, hk, hu]

theorem notices_le_setPc {t : Task} {p : Pc Task α} (hp : s'.pc = Function.update s.pc t p)
    (hk : s'.woken = s.woken) (hle : s.notice t ≤ s'.notice t) : s.notices ≤ s'.notices := by
  have := notices_setPc hp hk
  omega

/-- A task that was not woken goes on. -/
theorem Room.setPc (h : s.Room) {t : Task} {p : Pc Task α} (hp : s'.pc = Function.update s.pc t p)
    (hk : s'.woken = s.woken) (hn : (s.pc t).waitedFor? = none)
    (hc : s'.chan.putters = s.chan.putters ∧ s'.chan.maxsize = s.chan.maxsize ∧
      s'.chan.buffer = s.chan.buffer := by exact ⟨rfl, rfl, rfl⟩) : s'.Room := by
  have hle := notices_le_setPc hp hk (by simp [notice_of_none hn])
  rw [Room, hc.1, hc.2.1, hc.2.2]
  exact h.imp_right fun h => by omega

/-- `try_send`, by anyone: the buffer does not shrink, and a hand-off leaves no
sender queued. -/
theorem Room.trySend (h : s.Room) (hw : s.Wired) (x : Parcel Task α) :
    (s.chan.trySend x).state.putters = [] ∨
      s.chan.maxsize ≤ (s.chan.trySend x).state.buffer.length + s.notices := by
  rcases trySend_cases hw.consistent x with ⟨-, e⟩ | ⟨-, g, gs, -, -, e⟩ | ⟨-, -, w, ws, -, e⟩ |
    ⟨-, -, -, -, -, e⟩ | ⟨-, -, -, -, e⟩ <;> rw [e]
  · exact h
  · exact .inl rfl
  · exact h.imp_right fun h => by simp only [List.length_append]; omega
  · exact h
  · exact h.imp_right fun h => by simp only [List.length_append]; omega

/-- `try_recv`: the place of the item it takes is announced to the next sender. -/
theorem Room.tryRecv (h : s.Room) (hl : s.Line) (hw : s.Wired) :
    (s.dispatch s.chan.tryRecv).Room := by
  rcases tryRecv_cases (s := s.chan) with ⟨x, xs, hb, e⟩ | ⟨-, -, e⟩ | ⟨-, -, e⟩
  · rcases hp : s.chan.putters with _ | ⟨p, ps⟩
    · exact .inl (by simp [Sys.dispatch, e, popPutter, hp])
    · have hm : 0 < s.chan.maxsize := by
        by_contra hm
        simp [hw.consistent.putters_of_unbounded (by omega)] at hp
      have hpop := notices_pop hl hw (p := p) (by simp [hp]) (o := s.chan.tryRecv)
        (by simp [e, popPutter, hp, hm])
      refine .inr ?_
      have hbig := h.resolve_left (by simp [hp])
      simp only [hb, List.length_cons] at hbig
      have hmax : (s.dispatch s.chan.tryRecv).chan.maxsize = s.chan.maxsize := by simp [Sys.dispatch, e]
      have hbuf : (s.dispatch s.chan.tryRecv).chan.buffer = xs := by simp [Sys.dispatch, e]
      rw [hmax, hbuf]
      omega
  · rw [e, dispatch_nil]
    exact h
  · rw [e, dispatch_nil]
    exact h

/-- A `try_send` that keeps the program counters. -/
theorem Room.dispatch_trySend (h : s.Room) (hw : s.Wired) (x : Parcel Task α) :
    (s.dispatch (s.chan.trySend x)).Room := by
  have hmax : (s.chan.trySend x).state.maxsize = s.chan.maxsize := trySend_maxsize hw.consistent x
  have hmono := notices_dispatch (s := s) (s.chan.trySend x)
  refine (h.trySend hw x).imp_right fun hr => ?_
  change (s.chan.trySend x).state.maxsize ≤ (s.chan.trySend x).state.buffer.length + _
  omega

/-- A sender that unregisters hands its wake on to the next sender, if there
is a place. -/
theorem Room.unregister (h : s.Room) (hl : s.Line) (hw : s.Wired) {t : Task} {f : Fut Task}
    (hpc : s.pc t = .sendUnregister f) :
    ((s.dispatch (s.chan.unregisterPutter f)).goto t .idle).Room := by
  have hset : ((s.dispatch (s.chan.unregisterPutter f)).goto t .idle).notices + _ = _ :=
    notices_setPc (s := s.dispatch (s.chan.unregisterPutter f)) rfl rfl
  have hone := notice_le_one (s := s.dispatch (s.chan.unregisterPutter f)) t
  have hmono := notices_dispatch (s := s) (s.chan.unregisterPutter f)
  rcases unregisterPutter_cases (s := s.chan) f with ⟨r, e, hfull⟩ | ⟨p, ps, hp, -, -, e⟩
  · by_cases hret : retain f s.chan.putters = s.chan.putters
    · by_cases hnil : s.chan.putters = []
      · exact .inl (by simp [Sys.goto, Sys.dispatch, e, hnil, retain_nil])
      · have hbig := (hfull hret hnil).2
        refine .inr ?_
        simp only [e, Sys.goto, Sys.dispatch]
        omega
    · -- It was still queued, hence not woken: no wake is lost.
      have hf : f ∉ s.woken := by
        obtain ⟨w, hm, rfl⟩ : ∃ w ∈ s.chan.putters, w.future = f := by
          by_contra hne
          refine hret (List.filter_eq_self.2 fun w hm => ?_)
          simpa using fun he => hne ⟨w, hm, he⟩
        exact hl.not_woken hw hm
      have hzero : (s.dispatch (s.chan.unregisterPutter f)).notice t = 0 := by
        have hpc' : ((s.dispatch (s.chan.unregisterPutter f)).pc t).waitedFor? = some f := by
          simp [Sys.dispatch, hpc, Pc.waitedFor?]
        rw [notice_of_some hpc']
        simp [Sys.dispatch, e, hf]
      refine h.imp (fun hnil => ?_) fun hbig => ?_
      · simp [Sys.goto, Sys.dispatch, e, hnil, retain_nil]
      · rw [e] at hmono hset hzero ⊢
        simp only [Sys.goto, Sys.dispatch] at hmono hset hzero hbig ⊢
        omega
  · have hpop := notices_pop hl hw (p := p) (by simp [hp]) (o := s.chan.unregisterPutter f) (by simp [e])
    have hbig := h.resolve_left (by simp [hp])
    refine .inr ?_
    rw [e] at hset hone hpop ⊢
    simp only [Sys.goto, Sys.dispatch] at hset hone hpop hbig ⊢
    omega

/-- Every step keeps the free places covered. -/
theorem Move.room {a : Action Task α} (hm : Move home s a s') (hw : s.Wired) (hl : s.Line) (h : s.Room) :
    s'.Room := by
  cases hm with
  | @send t a hpc =>
    exact Room.setPc (s := (s.call t a).2) h rfl rfl (by simp [Sys.call, hpc, Pc.waitedFor?])
  | @trySend t a => exact Room.dispatch_trySend (s := (s.call t a).2) h (hw.call t a) _
  | trySendFail | tryRecvFail | cancelFut | cancelTask | wake | drop => exact h
  | recv hpc | recvEmpty hpc | raiseRecv hpc | resumeNone hpc | resumeRecv hpc | registerRoom hpc =>
    exact h.setPc rfl rfl (by simp [hpc, Pc.waitedFor?])
  | registerGetter hpc => exact h.setPc rfl (List.append_nil _) (by simp [hpc, Pc.waitedFor?])
  | tryRecv => exact h.tryRecv hl hw
  | close =>
    refine .inl ?_
    rcases close_cases (s := s.chan) with ⟨hcl, e⟩ | ⟨-, e⟩
    · simp [Sys.dispatch, e, (hw.consistent.of_closed hcl).2.1]
    · simp [Sys.dispatch, e]
  | @sendOk t x hpc hr =>
    -- The item takes the place its wake, if any, announced.
    have hset : ((s.dispatch (s.chan.trySend x)).goto t .idle).notices + _ = _ :=
      notices_setPc (s := s.dispatch (s.chan.trySend x)) rfl rfl
    have hone := notice_le_one (s := s.dispatch (s.chan.trySend x)) t
    have hmono := notices_dispatch (s := s) (s.chan.trySend x)
    change (s.chan.trySend x).state.putters = [] ∨ (s.chan.trySend x).state.maxsize ≤
      (s.chan.trySend x).state.buffer.length + ((s.dispatch (s.chan.trySend x)).goto t .idle).notices
    rcases trySend_cases hw.consistent x with ⟨-, e⟩ | ⟨-, g, gs, -, -, e⟩ | ⟨-, -, w, ws, -, e⟩ |
      ⟨-, -, -, -, -, e⟩ | ⟨-, -, -, -, e⟩ <;> rw [e] at hr hset hone hmono ⊢
    · cases hr
    · exact .inl rfl
    · exact h.imp_right fun h => by simp only [List.length_append, List.length_singleton]; omega
    · cases hr
    · exact h.imp_right fun h => by simp only [List.length_append, List.length_singleton]; omega
  | sendFull hpc hfull => exact .inr (Nat.le_trans hfull (Nat.le_add_right _ _))
  | sendRetryFull hpc hr => exact .inr (Nat.le_trans (trySend_full hw.consistent hr).1 (Nat.le_add_right _ _))
  | closed _ hcl | registerClosed _ hcl => exact .inl (hw.consistent.of_closed hcl).2.1
  | @registerPutter t x hpc ho hfull =>
    have hle : s.notices ≤ (s.awaitNew t false (.sendAwait x)).notices :=
      notices_le_setPc rfl rfl (by simp [notice_of_none, hpc, Pc.waitedFor?])
    have hbig : s.chan.maxsize ≤ s.chan.buffer.length + s.notices :=
      h.elim (fun hnil => Nat.le_trans (hfull hnil).2 (Nat.le_add_right _ _)) id
    refine .inr (Nat.le_trans hbig (Nat.add_le_add_left (Nat.le_trans hle ?_) _))
    exact notices_dispatch (s := s.awaitNew t false (.sendAwait x)) _
  | unregisterPutter hpc => exact h.unregister hl hw hpc
  | @recvOk t x s₁ hpc =>
    have h₁ : s₁.Room ∧ s₁.Line ∧ s₁.Wired ∧ s₁.chan = s.chan ∧ (s₁.pc t).waitedFor? = none := by
      rcases hpc with ⟨hpc, rfl⟩ | ⟨hpc, rfl⟩
      · exact ⟨h, hl, hw, rfl, by simp [hpc, Pc.waitedFor?]⟩
      · refine ⟨h, hl.createFuture t true, hw.createFuture _ _, rfl, by simp [Sys.createFuture, hpc, Pc.waitedFor?]⟩
    obtain ⟨hr, hl₁, hw₁, hc, hq⟩ := h₁
    rw [← hc]
    exact (hr.tryRecv hl₁ hw₁).setPc rfl rfl hq
  | @unregisterGetter t f hpc =>
    refine Room.setPc (s := s.dispatch (s.chan.unregisterGetter f)) ?_ rfl rfl
      (by simp [Sys.dispatch, hpc, Pc.waitedFor?])
    have hmono := notices_dispatch (s := s) (s.chan.unregisterGetter f)
    rcases unregisterGetter_cases hw.consistent f with ⟨r, e⟩ | ⟨w, ws, he, -⟩
    · rw [e] at hmono ⊢
      exact h.imp_right fun h => Nat.le_trans h (Nat.add_le_add_left hmono _)
    · simp [hl.watchers] at he
  | @resumeSend t x f v hpc =>
    have hle : s.notices ≤ (s.goto t (.sendTry x (some f))).notices :=
      notices_mono (fun u => by by_cases hu : u = t <;> simp_all [Sys.goto, Pc.waitedFor?]) fun _ hf => hf
    exact h.imp_right fun h => Nat.le_trans h (Nat.add_le_add_left hle _)
  | @raiseSend t x f hpc =>
    have hle : s.notices ≤ (s.raise t (.sendUnregister f)).notices :=
      notices_mono (fun u => by by_cases hu : u = t <;> simp_all [Sys.raise, Pc.waitedFor?]) fun _ hf => hf
    exact h.imp_right fun h => Nat.le_trans h (Nat.add_le_add_left hle _)
  | @requeue i c x hi =>
    exact Room.dispatch_trySend (s := s.unscheduled i) h (hw.unschedule hi).1 x

/-- With senders queued and a free place, the wake of a sender is in flight. -/
theorem Room.inFlight (h : s.Room) (hw : s.Wired) (hp : s.chan.putters ≠ [])
    (hroom : s.chan.buffer.length < s.chan.maxsize) : ∃ f, s.InFlight f ∧ f.ch = false := by
  have hpos : 0 < s.notices := by
    have := h.resolve_left hp
    omega
  obtain ⟨t, -, ht⟩ : ∃ t ∈ Finset.univ, 0 < s.notice t := by
    by_contra hne
    simp only [not_exists, not_and, not_lt, Nat.le_zero] at hne
    exact absurd (Finset.sum_eq_zero hne) (Nat.ne_of_gt hpos)
  cases hf : (s.pc t).waitedFor? with
  | none => simp [notice_of_none hf] at ht
  | some f =>
    rw [notice_of_some hf] at ht
    have hk : f ∈ s.woken := by
      by_contra hk
      simp [hk] at ht
    obtain ⟨rfl, hch⟩ := hw.of_waitedFor? hf
    exact ⟨f, ⟨hk, hf⟩, hch⟩

end Sys

/-! ## Every run -/

section Runs

variable [DecidableEq Task] [Fintype Task] {home : Task → Loop} {maxsize : Nat} {s : Sys Loop Task α}

theorem line_of_reachable (h : (tasks home maxsize).ReachableWhen Sys.RetryFindsPlace s) :
    s.Wired ∧ s.Line ∧ s.Room := by
  refine h.inv (I := fun s => s.Wired ∧ s.Line ∧ s.Room) (fun s hs => ?_)
    fun s a s' ⟨hw, hl, hr⟩ hok hst => ?_
  · obtain rfl : s = Sys.new maxsize := hs
    exact ⟨Sys.wired_new maxsize, Sys.line_new maxsize, .inl rfl⟩
  · have hm := Sys.move_of_step hw.consistent hst
    exact ⟨hw.step hst, hm.line hw hl hok, hm.room hw hl hr⟩

/-- In every run whose second `try_send`s find a place: a `send` suspended on
its future is queued or has its wake scheduled; and when senders are queued
although the buffer has a free place, a wake is in flight that was registered
before all of them. -/
theorem senders_registered (h : (tasks home maxsize).ReachableWhen Sys.RetryFindsPlace s) :
    (∀ t x f, s.pc t = .sendAwait x f → s.futs f = .pending →
      (∃ w ∈ s.chan.putters, w.future = f) ∨ ∃ c ∈ s.scheduled, c.fut = f) ∧
    (s.chan.putters ≠ [] → s.chan.buffer.length < s.chan.maxsize →
      ∃ f, s.InFlight f ∧ ∀ w ∈ s.chan.putters, [f, w.future].Sublist s.registered) := by
  obtain ⟨hw, hl, hr⟩ := line_of_reachable h
  refine ⟨hl.asleep, fun hp hroom => ?_⟩
  obtain ⟨f, hflight, hch⟩ := hr.inFlight hw hp hroom
  refine ⟨f, hflight, fun w hm => List.Sublist.trans ?_ hl.order⟩
  refine (List.singleton_sublist.2 ?_).append (List.singleton_sublist.2 (List.mem_map_of_mem hm))
  simpa [hch] using hflight.1

end Runs

/-- A sender that finds the channel full registers; a receiver makes room and
wakes it, and its second `try_send` is not reached. -/
theorem senders_registered_woken : ∃ s : Sys Unit Bool Nat,
    s.pc true = .sendAwait ⟨true, 1, 8⟩ ⟨true, 0, false⟩ ∧ s.chan.buffer = [] ∧
    (∀ t x f, s.pc t = .sendAwait x f → s.futs f = .pending →
      (∃ w ∈ s.chan.putters, w.future = f) ∨ ∃ c ∈ s.scheduled, c.fut = f) ∧
    (s.chan.putters ≠ [] → s.chan.buffer.length < s.chan.maxsize →
      ∃ f, s.InFlight f ∧ ∀ w ∈ s.chan.putters, [f, w.future].Sublist s.registered) := by
  have h : (tasks (fun _ => ()) 1).ReachableWhen Sys.RetryFindsPlace (Sys.new 1 : Sys Unit Bool Nat) :=
    .init rfl
  have h := h.next (.trySend true 7) trivial rfl
  have h := h.next (.send true 8) trivial rfl
  have h := h.next (.advance true) (fun _ _ hpc => by cases hpc) rfl
  have h := h.next (.advance true) (fun _ _ hpc => by cases hpc) rfl
  have h := h.next (.tryRecv false) trivial rfl
  exact ⟨_, rfl, rfl, senders_registered h⟩

/-- Sender `0` finds the channel full; receiver `1` makes room; sender `0`
registers its future and is told that there is room; sender `2` takes it; then
the second `try_send` of sender `0` fails, and it awaits a future that was
never queued. -/
theorem sender_sleeps_unregistered : ∃ s : Sys Unit (Fin 3) Nat,
    (tasks (fun _ => ()) 1).Reachable s ∧
      s.pc 0 = .sendAwait ⟨0, 1, 8⟩ ⟨0, 0, false⟩ ∧ s.futs ⟨0, 0, false⟩ = .pending ∧
      s.chan.isClosed = false ∧ s.chan.putters = [] ∧ s.scheduled = [] :=
  System.exists_reachable_of_run [.trySend 0 7, .send 0 8, .advance 0, .tryRecv 1, .advance 0,
    .trySend 2 9, .advance 0] (s := Sys.new 1) rfl (by decide +kernel)

end Multiloop.Channel
