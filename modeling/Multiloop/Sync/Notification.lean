import Multiloop.Sync.Wait

/-!
# The notifications of a `Condition`

A notification is with a waiter that was popped and woken, until its `wait`
returns (and uses it) or raises (and forwards it). `Move` sorts the steps by
what they do to the waiters and their notifications; `Counted` accounts for
every notification in every run.

`notify` pops waiters whose loops are closed and loses their notifications,
where `_forward_notify` goes on to the next waiter. `Attentive` says of a step
that it does not lose one so.
-/

namespace Multiloop.Sync.Condition

variable {Loop Task : Type}

/-- What a task has to do with notifications. -/
inductive Load (Task : Type)
  | free
  /-- Registered under an event, or popped and not yet gone on. -/
  | queued (event : Fut Task)
  /-- Notified, to use the notification or to forward it. -/
  | carried

/-- What a task at this place has to do with notifications. -/
def Pc.load : Pc Task → Load Task
  | .outside | .evaluating | .reacquiring .handler _ => .free
  | .releasing e | .waiting e | .discarding e => .queued e
  | .forwarding | .passingOn _ | .reacquiring .notified _ => .carried

namespace Sys

/-- What the task has to do with notifications. -/
def load (s : Sys Loop Task) (t : Task) : Load Task := (s.pc t).load

variable {s s' r : Sys Loop Task} {t u : Task} {home : Task → Loop}

theorem load_of_pc {p : Pc Task} (h : s.pc t = p) : s.load t = p.load := by
  rw [← h]
  rfl

theorem load_queued {e : Fut Task} : s.load t = .queued e ↔ s.waits t = some e := by
  unfold load waits
  cases hp : s.pc t with
  | reacquiring branch cancelled => cases branch <;> simp [Pc.load, Pc.event?]
  | _ => simp [Pc.load, Pc.event?]

variable [DecidableEq Task]

/-- The step changes nothing for the notifications, but that a notified waiter
has gone on. -/
structure Quiet (home : Task → Loop) (a : Action Loop Task) (s s' : Sys Loop Task) : Prop where
  waiters : s'.waiters = s.waiters
  notified : s'.notified = s.notified
  calls : s'.calls = s.calls
  used : s'.used = s.used
  dropped : s'.dropped = s.dropped
  closed : (∀ l, s'.lock.host.closed l = s.lock.host.closed l) ∨
    ∃ l, a = .lock (.closeLoop l) ∧ ∀ k, s'.lock.host.closed k = true ↔ k = l ∨ s.lock.host.closed k = true
  woken : ∀ w ∈ s.waiters, s'.lock.host.woken w.1 = s.lock.host.woken w.1
  load : ∀ u, s'.load u = s.load u ∨
    ∃ e, s.load u = .queued e ∧ e ∉ s.waiters.map Prod.fst ∧ s.isOpen (home u) = true ∧ s'.load u = .carried

/-- From `r` to `s'` task `t` has nothing to do with notifications any more. -/
structure Freed (t : Task) (r s' : Sys Loop Task) : Prop where
  waiters : s'.waiters = r.waiters
  notified : s'.notified = r.notified
  calls : s'.calls = r.calls
  used : s'.used = r.used
  dropped : s'.dropped = r.dropped
  lock : s'.lock = r.lock
  free : s'.load t = .free
  others : ∀ u, u ≠ t → s'.load u = r.load u

theorem load_goto (p : Pc Task) : (s.goto t p).load t = p.load := load_of_pc (Function.update_self ..)

theorem load_goto_other (hu : u ≠ t) (p : Pc Task) : (s.goto t p).load u = s.load u :=
  load_of_pc (Function.update_of_ne hu ..)

theorem freed_goto {p : Pc Task} (hp : p.load = .free) : Freed t s (s.goto t p) := by
  refine ⟨rfl, rfl, rfl, rfl, rfl, rfl, (load_goto p).trans hp, ?_⟩
  intro u hu
  exact load_goto_other hu p

theorem freed_leave (o : Outcome) : Freed t s (s.leave t o) := by
  dsimp only [leave]
  split
  · have hgo := freed_goto (s := { s with outcome := Function.update s.outcome t (some o) }) (t := t)
      (p := .evaluating) rfl
    exact ⟨rfl, rfl, rfl, rfl, rfl, rfl, hgo.free, hgo.others⟩
  · have hgo := freed_goto (s := { s with outcome := Function.update s.outcome t (some o) }) (t := t)
      (p := .outside) rfl
    exact ⟨rfl, rfl, rfl, rfl, rfl, rfl, hgo.free, hgo.others⟩

/-- `wait` has returned to task `t`. -/
def useUp (s : Sys Loop Task) (t : Task) : Sys Loop Task :=
  { s with notified := Function.update s.notified t false, used := s.used + 1 }

/-- What a step does to the waiters and their notifications. -/
inductive Move (home : Task → Loop) (s : Sys Loop Task) : Action Loop Task → Sys Loop Task → Prop
  | quiet {a : Action Loop Task} {s' : Sys Loop Task} : Quiet home a s s' → Move home s a s'
  | wait {a : Action Loop Task} (t : Task) : s.load t = .free → s.lock.lock.owner = some t →
      Move home s a (s.wait home t)
  | discard (t : Task) (e : Fut Task) {s' : Sys Loop Task} : s.load t = .queued e → e ∈ s.waiters.map Prod.fst →
      s.isOpen (home t) = true → Freed t (s.discardWaiter e) s' → Move home s (.discard t) s'
  | forward (t : Task) {s' : Sys Loop Task} : s.load t = .carried → Freed t (s.forwardNotify t) s' →
      Move home s (.forward t) s'
  | use {a : Action Loop Task} (t : Task) {r s' : Sys Loop Task} : s.load t = .carried → Quiet home a s r →
      Freed t (r.useUp t) s' → Move home s a s'
  | notify (n : Int) : Move home s (.notify n) (s.notify n)
  | deliver (i : Nat) (c : Call Loop Task) (w : Waiter Loop Task) (popped : List (Waiter Loop Task)) :
      s.calls[i]? = some c → c.popped = w :: popped → Move home s (.deliver i) (s.deliver i c w popped)

theorem quiet_refl {a : Action Loop Task} : Quiet home a s s :=
  ⟨rfl, rfl, rfl, rfl, rfl, .inl fun _ => rfl, fun _ _ => rfl, fun _ => .inl rfl⟩

/-- A task goes on, with the same load. -/
theorem quiet_goto {a : Action Loop Task} {p : Pc Task} (hq : Quiet home a s r) (hp : p.load = r.load t) :
    Quiet home a s (r.goto t p) := by
  refine ⟨hq.waiters, hq.notified, hq.calls, hq.used, hq.dropped, hq.closed, hq.woken, fun u => ?_⟩
  have hload : (r.goto t p).load u = r.load u := by
    by_cases hu : u = t
    · rw [hu, ← hp]
      exact load_goto p
    · exact load_goto_other hu p
  rw [hload]
  exact hq.load u

/-- A task that has nothing to do with notifications leaves `wait`. -/
theorem quiet_freed {a : Action Loop Task} (hq : Quiet home a s r) (hf : Freed t r s') (hp : r.load t = .free) :
    Quiet home a s s' := by
  refine ⟨hf.waiters.trans hq.waiters, hf.notified.trans hq.notified, hf.calls.trans hq.calls, hf.used.trans hq.used,
    hf.dropped.trans hq.dropped, ?_, ?_, fun u => ?_⟩
  · rw [hf.lock]
    exact hq.closed
  · rw [hf.lock]
    exact hq.woken
  · have hload : s'.load u = r.load u := by
      by_cases hu : u = t
      · rw [hu, hf.free, hp]
      · exact hf.others u hu
    rw [hload]
    exact hq.load u

variable [DecidableEq Loop]

/-- A step of the lock that is no event of another kind. -/
theorem Sound.quiet_lock (h : s.Sound home) {a : Action Loop Task} {b : Lock.Action Loop Task}
    {lock : Lock.Sys Loop Task} (hlock : s.lock.step home b = some lock) (hclose : ∀ l, b ≠ .closeLoop l)
    (hwake : ∀ e, b ≠ .wakeElsewhere e) : Quiet home a s { s with lock } := by
  have hapart := h.guarded.linked.step_apart hlock hclose hwake
  refine ⟨rfl, rfl, rfl, rfl, rfl, .inl fun l => ?_, fun w hw => ?_, fun _ => .inl rfl⟩
  · exact congrFun hapart.closed l
  · exact hapart.woken w.1 (h.foreign _ (.inl (List.mem_map.2 ⟨w, hw, rfl⟩)))

/-- A step of a user of the lock, of a loop or of a predicate. -/
theorem Sound.quiet_allowed (h : s.Sound home) (hwaited : ∀ w ∈ s.waiters, s.waits w.1.owner = some w.1)
    {b : Lock.Action Loop Task} (hallow : s.allows b = true) {lock : Lock.Sys Loop Task}
    (hlock : s.lock.step home b = some lock) : Quiet home (.lock b) s { s with lock } := by
  by_cases hclose : ∃ l, b = .closeLoop l
  · obtain ⟨l, rfl⟩ := hclose
    cases hlock
    refine ⟨rfl, rfl, rfl, rfl, rfl, .inr ⟨l, rfl, fun k => ?_⟩, fun _ _ => rfl, fun _ => .inl rfl⟩
    show Function.update s.lock.host.closed l true k = true ↔ _
    by_cases hk : k = l
    · rw [hk, Function.update_self]
      simp
    · rw [Function.update_of_ne hk]
      simp [hk]
  · by_cases hwake : ∃ e, b = .wakeElsewhere e
    · obtain ⟨e, rfl⟩ := hwake
      have hne : s.waits e.owner ≠ some e := of_decide_eq_true hallow
      simp only [Lock.Sys.step] at hlock
      split at hlock
      · cases hlock
        refine ⟨rfl, rfl, rfl, rfl, rfl, .inl fun _ => rfl, fun w hw => ?_, fun _ => .inl rfl⟩
        have hnot : w.1 ∉ [e] := by
          intro hm
          rw [List.mem_singleton] at hm
          apply hne
          rw [← hm]
          exact hwaited w hw
        show (s.lock.host.callSoon [e]).woken w.1 = _
        rw [callSoon_woken, decide_eq_false hnot, Bool.false_or]
      · cases hlock
    · exact h.quiet_lock hlock (fun l hl => hclose ⟨l, hl⟩) fun e he => hwake ⟨e, he⟩

/-- What the waiters and their notifications have to do with each other. -/
def Told (home : Task → Loop) (s : Sys Loop Task) (t : Task) : Load Task → Prop
  | .free => s.notified t = false
  | .queued e => s.isOpen (home t) = true → (s.notified t = true ↔ e ∉ s.waiters.map Prod.fst)
  | .carried => s.notified t = true

/-- How the waiters, the popped ones and the notified tasks hang together. -/
structure Counted (home : Task → Loop) (s : Sys Loop Task) : Prop where
  nodup : (s.waiters.map Prod.fst).Nodup
  waited : ∀ w ∈ s.waiters, s.load w.1.owner = .queued w.1 ∧ w.2 = home w.1.owner
  asleep : ∀ w ∈ s.waiters, s.lock.host.woken w.1 = false
  apart : ∀ c ∈ s.calls, ∀ w ∈ c.popped, w.1 ∉ s.waiters.map Prod.fst
  told : ∀ t, s.Told home t (s.load t)

omit [DecidableEq Loop] in
theorem move_settle {a : Action Loop Task} {branch : Branch} {cancelled : Bool} (hq : Quiet home a s r)
    (hpc : r.pc t = .reacquiring branch cancelled) (hload : r.load t = s.load t) :
    Move home s a (r.settle t branch cancelled) := by
  unfold settle
  split
  · unfold reacquired
    split
    · exact .quiet (quiet_freed hq (freed_leave _) (load_of_pc hpc))
    · exact .quiet (quiet_goto hq (load_of_pc hpc).symm)
    · exact .use t (hload ▸ load_of_pc hpc) hq (freed_leave _)
  · exact .quiet hq

omit [DecidableEq Loop] in
theorem move_wait {a : Action Loop Task} (hfree : s.load t = .free) : Move home s a (s.wait home t) := by
  by_cases ho : s.lock.lock.owner = some t
  · exact .wait t hfree ho
  · have herror : s.wait home t = s.leave t .error := if_neg ho
    rw [herror]
    exact .quiet (quiet_freed quiet_refl (freed_leave _) hfree)

omit [DecidableEq Loop] in
/-- `wait_for` begins or ends. -/
theorem quiet_looping {a : Action Loop Task} {f : Task → Bool} {p : Pc Task} (hp : p.load = s.load t) :
    Quiet home a s ({ s with looping := f }.goto t p) := by
  have hq : Quiet home a s { s with looping := f } :=
    ⟨rfl, rfl, rfl, rfl, rfl, .inl fun _ => rfl, fun _ _ => rfl, fun _ => .inl rfl⟩
  exact quiet_goto hq hp

omit [DecidableEq Loop] in
/-- A notified waiter goes on. -/
theorem quiet_carried {a : Action Loop Task} {e : Fut Task} {p : Pc Task} (hload : s.load t = .queued e)
    (hnot : e ∉ s.waiters.map Prod.fst) (hopen : s.isOpen (home t) = true) (hp : p.load = .carried) :
    Quiet home a s (s.goto t p) := by
  refine ⟨rfl, rfl, rfl, rfl, rfl, .inl fun _ => rfl, fun _ _ => rfl, fun v => ?_⟩
  by_cases hv : v = t
  · rw [hv]
    exact .inr ⟨e, hload, hnot, hopen, (load_goto p).trans hp⟩
  · exact .inl (load_goto_other hv p)

omit [DecidableEq Task] [DecidableEq Loop] in
theorem open_of_live (hlive : s.lock.live home t = true) : s.isOpen (home t) = true := by
  have hboth : s.lock.done t = false ∧ s.lock.isOpen home t = true := by
    simpa [Lock.Sys.live] using hlive
  exact hboth.2

/-- Every step is a move. -/
theorem Sound.move (h : s.Sound home) (hc : s.Counted home) {a : Action Loop Task} (hst : s.step home a = some s') :
    Move home s a s' := by
  cases steps_of_step hst with
  | lock b lock hallow hlock =>
    exact .quiet (h.quiet_allowed (fun w hw => load_queued.1 (hc.waited w hw).1) hallow hlock)
  | waits u _ _ hpc | fails u _ _ hpc => exact move_wait (load_of_pc hpc)
  | loops u _ _ hpc | holds u hpc | predicateRaises u hpc => exact .quiet (quiet_looping (load_of_pc hpc).symm)
  | releases u e lock hpc howner hlock =>
    exact .quiet (quiet_goto (h.quiet_lock hlock (by simp) (by simp)) (load_of_pc hpc).symm)
  | refused u e hpc hno =>
    -- The task owns the lock, so its release does not raise.
    have hhere := (h.seats u).here
    rw [hpc] at hhere
    exact absurd (h.owner_of_holding hhere.1 ((h.seats u).alive (by rw [hpc]; simp))) hno
  | returns u e hpc hlive hr =>
    have hwoken := h.guarded.linked.wired.woken_of_returns (t := u) hr
    refine .quiet (quiet_carried (load_of_pc hpc) (fun hm => ?_) (open_of_live hlive) rfl)
    obtain ⟨w, hw, rfl⟩ := List.mem_map.1 hm
    cases (hc.asleep w hw).symm.trans hwoken
  | raises u e hpc =>
    have hq : Quiet home (.resume u) s (s.onHost fun h => h.setMustCancel u false) :=
      ⟨rfl, rfl, rfl, rfl, rfl, .inl fun _ => rfl, fun _ _ => rfl, fun _ => .inl rfl⟩
    exact .quiet (quiet_goto hq (load_of_pc hpc).symm)
  | discards u e hpc hlive hqueued =>
    exact .discard u e (load_of_pc hpc) hqueued (open_of_live hlive) (freed_goto rfl)
  | wasPopped u e hpc hlive hpopped => exact .quiet (quiet_carried (load_of_pc hpc) hpopped (open_of_live hlive) rfl)
  | forwards u hpc => exact .forward u (load_of_pc hpc) (freed_goto rfl)
  | passesOn u o hpc => exact .forward u (load_of_pc hpc) (freed_leave o)
  | reenters u branch cancelled hpc howner hout => exact absurd howner (h.not_owner hpc hout)
  | acquires u branch cancelled lock hpc hlock | acquired u branch cancelled lock hpc hlock =>
    exact move_settle (h.quiet_lock hlock (by simp) (by simp)) hpc rfl
  | interrupted u branch cancelled lock hpc hlock =>
    refine .quiet (quiet_goto (h.quiet_lock hlock (by simp) (by simp)) ?_)
    show _ = s.load u
    rw [load_of_pc hpc]
    cases branch <;> rfl
  | cancels u other lock _ hlock => exact .quiet (h.quiet_lock hlock (by simp) (by simp))
  | cancelsWait u other lock hlock =>
    have hq : Quiet home (.cancel u other) s { s with lock } := h.quiet_lock hlock (by simp) (by simp)
    exact .quiet ⟨rfl, rfl, rfl, rfl, rfl, hq.closed, hq.woken, fun _ => .inl rfl⟩
  | notify n => exact .notify n
  | deliver i c w popped hc hpop => exact .deliver i c w popped hc hpop

/-! ## Every notification is accounted for -/

section Moves

omit [DecidableEq Loop]

/-- The two ways `_forward_notify` goes. -/
theorem forwardNotify_cases (s : Sys Loop Task) (t : Task) :
    (∃ popped w rest, s.waiters = popped ++ w :: rest ∧ (∀ v ∈ popped, s.isOpen v.2 = false) ∧
      s.isOpen w.2 = true ∧
      s.forwardNotify t = { s with
        waiters := rest
        notified := Function.update (Function.update s.notified t false) w.1.owner true }.onHost fun h =>
          h.callSoon [w.1]) ∨
    (∀ v ∈ s.waiters, s.isOpen v.2 = false) ∧ s.forwardNotify t = { s with
      waiters := [], notified := Function.update s.notified t false, dropped := s.dropped + 1 } := by
  have hopen : isOpen { s with notified := Function.update s.notified t false } = s.isOpen := rfl
  rcases wakeNext_cases s.isOpen s.waiters with ⟨popped, w, rest, hq, hp, hw, hnext⟩ | ⟨hall, hnext⟩
  · refine .inl ⟨popped, w, rest, hq, hp, hw, ?_⟩
    dsimp only [forwardNotify]
    rw [hopen, hnext]
  · refine .inr ⟨hall, ?_⟩
    dsimp only [forwardNotify]
    rw [hopen, hnext]

theorem Counted.quiet (hc : s.Counted home) {a : Action Loop Task} (hq : Quiet home a s s') : s'.Counted home := by
  have hopened : ∀ l, s'.isOpen l = true → s.isOpen l = true := by
    intro l hl
    unfold isOpen at hl ⊢
    rcases hq.closed with hsame | ⟨k, -, hk⟩
    · rw [← hsame l]
      exact hl
    · cases hcl : s.lock.host.closed l with
      | false => rfl
      | true => simp [(hk l).2 (.inr hcl)] at hl
  refine ⟨hq.waiters ▸ hc.nodup, fun w hw => ?_, fun w hw => ?_, fun c hm w hw => ?_, fun u => ?_⟩
  · rw [hq.waiters] at hw
    refine ⟨?_, (hc.waited w hw).2⟩
    rcases hq.load w.1.owner with hsame | ⟨e, he, hnot, -⟩
    · rw [hsame]
      exact (hc.waited w hw).1
    · rw [(hc.waited w hw).1] at he
      cases he
      exact absurd (List.mem_map.2 ⟨w, hw, rfl⟩) hnot
  · rw [hq.waiters] at hw
    rw [hq.woken w hw]
    exact hc.asleep w hw
  · rw [hq.waiters]
    rw [hq.calls] at hm
    exact hc.apart c hm w hw
  · have htold := hc.told u
    rcases hq.load u with hsame | ⟨e, he, hnot, ho, hcarried⟩
    · rw [hsame]
      revert htold
      cases s.load u with
      | free =>
        intro htold
        exact (congrFun hq.notified u).trans htold
      | queued e =>
        intro htold hl
        rw [hq.notified, hq.waiters]
        exact htold (hopened _ hl)
      | carried =>
        intro htold
        exact (congrFun hq.notified u).trans htold
    · rw [hcarried]
      rw [he] at htold
      exact (congrFun hq.notified u).trans ((htold ho).2 hnot)

/-- A task that has forwarded or used its notification, or has none. -/
theorem counted_freed (hf : Freed t r s') (hnodup : (r.waiters.map Prod.fst).Nodup)
    (hwaited : ∀ w ∈ r.waiters, w.1.owner ≠ t ∧ r.load w.1.owner = .queued w.1 ∧ w.2 = home w.1.owner)
    (hasleep : ∀ w ∈ r.waiters, r.lock.host.woken w.1 = false)
    (hapart : ∀ c ∈ r.calls, ∀ w ∈ c.popped, w.1 ∉ r.waiters.map Prod.fst)
    (htold : ∀ u, u ≠ t → r.Told home u (r.load u)) (hn : r.notified t = false) : s'.Counted home := by
  refine ⟨hf.waiters ▸ hnodup, fun w hw => ?_, fun w hw => ?_, fun c hm w hw => ?_, fun u => ?_⟩
  · rw [hf.waiters] at hw
    obtain ⟨hne, hload, hhome⟩ := hwaited w hw
    rw [hf.others _ hne]
    exact ⟨hload, hhome⟩
  · rw [hf.waiters] at hw
    rw [hf.lock]
    exact hasleep w hw
  · rw [hf.calls] at hm
    rw [hf.waiters]
    exact hapart c hm w hw
  · by_cases hu : u = t
    · rw [hu, hf.free]
      show s'.notified t = false
      rw [hf.notified]
      exact hn
    · have hr := htold u hu
      rw [hf.others u hu]
      revert hr
      unfold Told isOpen
      rw [hf.notified, hf.waiters, hf.lock]
      exact id

/-- A task that is not registered owns no waiter. -/
theorem Counted.owner_ne (hc : s.Counted home) (hload : ∀ e, s.load t ≠ .queued e) {w : Waiter Loop Task}
    (hw : w ∈ s.waiters) : w.1.owner ≠ t := by
  intro ho
  have hq := (hc.waited w hw).1
  rw [ho] at hq
  exact hload _ hq

theorem Counted.use (hc : s.Counted home) (hload : s.load t = .carried) (hf : Freed t (s.useUp t) s') :
    s'.Counted home := by
  have hne : ∀ w ∈ s.waiters, w.1.owner ≠ t := fun w hw =>
    hc.owner_ne (fun e he => by rw [hload] at he; cases he) hw
  refine counted_freed hf hc.nodup (fun w hw => ⟨hne w hw, hc.waited w hw⟩) hc.asleep hc.apart ?_
    (Function.update_self ..)
  intro u hu
  have hsame : Function.update s.notified t false u = s.notified u := Function.update_of_ne hu ..
  have htold := hc.told u
  show Told home (s.useUp t) u (s.load u)
  revert htold
  cases s.load u with
  | free => exact fun htold => hsame.trans htold
  | queued e =>
    intro htold hl
    show Function.update s.notified t false u = true ↔ _
    rw [hsame]
    exact htold hl
  | carried => exact fun htold => hsame.trans htold

theorem Counted.discard (hc : s.Counted home) (hown : ∀ u f, s.load u = .queued f → f.owner = u) {e : Fut Task}
    (hload : s.load t = .queued e) (hm : e ∈ s.waiters.map Prod.fst) (ho : s.isOpen (home t) = true)
    (hf : Freed t (s.discardWaiter e) s') : s'.Counted home := by
  have hsub : ∀ w ∈ (s.discardWaiter e).waiters, w ∈ s.waiters ∧ w.1 ≠ e := by
    intro w hw
    obtain ⟨hmem, hne⟩ := List.mem_filter.1 hw
    exact ⟨hmem, of_decide_eq_true hne⟩
  have hkeep : ∀ f, f ≠ e → (f ∈ (s.discardWaiter e).waiters.map Prod.fst ↔ f ∈ s.waiters.map Prod.fst) := by
    intro f hfe
    constructor
    · intro hmf
      obtain ⟨w, hw, rfl⟩ := List.mem_map.1 hmf
      exact List.mem_map.2 ⟨w, (hsub w hw).1, rfl⟩
    · intro hmf
      obtain ⟨w, hw, rfl⟩ := List.mem_map.1 hmf
      exact List.mem_map.2 ⟨w, List.mem_filter.2 ⟨hw, decide_eq_true hfe⟩, rfl⟩
  have hnot : s.notified t = false := by
    have htold := hc.told t
    rw [hload] at htold
    by_contra hn
    exact (htold ho).1 (by simpa using hn) hm
  refine counted_freed hf ?_ (fun w hw => ⟨?_, hc.waited w (hsub w hw).1⟩) (fun w hw => hc.asleep w (hsub w hw).1) ?_ ?_
    hnot
  · exact hc.nodup.sublist ((List.filter_sublist).map Prod.fst)
  · intro hot
    have hq := (hc.waited w (hsub w hw).1).1
    rw [hot, hload] at hq
    cases hq
    exact (hsub w hw).2 rfl
  · intro c hcm w hw hmw
    obtain ⟨v, hv, hvw⟩ := List.mem_map.1 hmw
    exact hc.apart c hcm w hw (List.mem_map.2 ⟨v, (hsub v hv).1, hvw⟩)
  · intro u hu
    have htold := hc.told u
    show Told home (s.discardWaiter e) u (s.load u)
    cases hlu : s.load u with
    | free =>
      rw [hlu] at htold
      exact htold
    | queued f =>
      rw [hlu] at htold
      intro hl
      have hfe : f ≠ e := by
        intro hfe
        rw [hfe] at hlu
        exact hu ((hown u e hlu).symm.trans (hown t e hload))
      rw [hkeep f hfe]
      exact htold hl
    | carried =>
      rw [hlu] at htold
      exact htold

/-- What the tasks are told once `_forward_notify` has woken waiter `w`. -/
theorem Counted.told_forwarded (hc : s.Counted home) (hown : ∀ u f, s.load u = .queued f → f.owner = u)
    {popped rest : List (Waiter Loop Task)} {w : Waiter Loop Task} (hq : s.waiters = popped ++ w :: rest)
    (hp : ∀ v ∈ popped, s.isOpen v.2 = false) (hwrest : w.1 ∉ rest.map Prod.fst) (hwaiters : r.waiters = rest)
    (hopen : r.isOpen = s.isOpen) (hmark : r.notified u = if u = w.1.owner then true else s.notified u) :
    r.Told home u (s.load u) := by
  have hwm : w ∈ s.waiters := by
    rw [hq]
    simp
  have htold := hc.told u
  cases hlu : s.load u with
  | free =>
    rw [hlu] at htold
    have huw : u ≠ w.1.owner := by
      intro h
      rw [h, (hc.waited w hwm).1] at hlu
      cases hlu
    show r.notified u = false
    rw [hmark, if_neg huw]
    exact htold
  | queued f =>
    rw [hlu] at htold
    intro hl
    rw [hopen] at hl
    rw [hmark, hwaiters]
    by_cases huw : u = w.1.owner
    · rw [if_pos huw]
      rw [huw, (hc.waited w hwm).1] at hlu
      cases hlu
      exact ⟨fun _ => hwrest, fun _ => rfl⟩
    · rw [if_neg huw, htold hl, hq, List.map_append, List.map_cons]
      -- A waiter that is passed over has a closed loop.
      have hpopped : f ∉ popped.map Prod.fst := by
        intro hm
        obtain ⟨v, hv, rfl⟩ := List.mem_map.1 hm
        have hvm : v ∈ s.waiters := by
          rw [hq]
          exact List.mem_append_left _ hv
        have hclosed := hp v hv
        rw [(hc.waited v hvm).2, hown u v.1 hlu, hl] at hclosed
        cases hclosed
      have hfw : f ≠ w.1 := by
        intro hfw
        rw [hfw] at hlu
        exact huw (hown u w.1 hlu).symm
      simp [hpopped, hfw]
  | carried =>
    rw [hlu] at htold
    show r.notified u = true
    rw [hmark]
    split
    · rfl
    · exact htold

/-- What the tasks are told if `_forward_notify` has found no open loop. -/
theorem Counted.told_dropped (hc : s.Counted home) (hown : ∀ u f, s.load u = .queued f → f.owner = u)
    (hall : ∀ v ∈ s.waiters, s.isOpen v.2 = false) (hwaiters : r.waiters = []) (hopen : r.isOpen = s.isOpen)
    (hmark : r.notified u = s.notified u) : r.Told home u (s.load u) := by
  have htold := hc.told u
  revert htold
  cases hlu : s.load u with
  | free => exact fun htold => hmark.trans htold
  | queued f =>
    intro htold hl
    rw [hopen] at hl
    rw [hmark, hwaiters, htold hl]
    have hnot : f ∉ s.waiters.map Prod.fst := by
      intro hm
      obtain ⟨v, hv, rfl⟩ := List.mem_map.1 hm
      have hclosed := hall v hv
      rw [(hc.waited v hv).2, hown u v.1 hlu, hl] at hclosed
      cases hclosed
    simp [hnot]
  | carried => exact fun htold => hmark.trans htold

theorem Counted.forward (hc : s.Counted home) (hown : ∀ u f, s.load u = .queued f → f.owner = u)
    (hload : s.load t = .carried) (hf : Freed t (s.forwardNotify t) s') : s'.Counted home := by
  have hne : ∀ w ∈ s.waiters, w.1.owner ≠ t := fun w hw =>
    hc.owner_ne (fun e he => by rw [hload] at he; cases he) hw
  rcases forwardNotify_cases s t with ⟨popped, w, rest, hq, hp, hw, hfwd⟩ | ⟨hall, hfwd⟩
  · have hwm : w ∈ s.waiters := by
      rw [hq]
      simp
    have hrest : ∀ v ∈ rest, v ∈ s.waiters := by
      intro v hv
      rw [hq]
      exact List.mem_append_right _ (List.mem_cons_of_mem _ hv)
    have hnodup := hc.nodup
    rw [hq, List.map_append, List.map_cons] at hnodup
    obtain ⟨-, hcons, -⟩ := List.nodup_append.1 hnodup
    obtain ⟨hwrest, hrestnd⟩ := List.nodup_cons.1 hcons
    have hwaiters : (s.forwardNotify t).waiters = rest := by
      rw [hfwd]
      rfl
    refine counted_freed hf ?_ ?_ ?_ ?_ (fun u hu => ?_) ?_
    · rw [hwaiters]
      exact hrestnd
    · rw [hwaiters, hfwd]
      exact fun v hv => ⟨hne v (hrest v hv), hc.waited v (hrest v hv)⟩
    · rw [hwaiters, hfwd]
      intro v hv
      have hvw : v.1 ∉ [w.1] := by
        intro hm
        rw [List.mem_singleton] at hm
        exact hwrest (hm ▸ List.mem_map.2 ⟨v, hv, rfl⟩)
      show (s.lock.host.callSoon [w.1]).woken v.1 = false
      rw [callSoon_woken, decide_eq_false hvw, Bool.false_or]
      exact hc.asleep v (hrest v hv)
    · rw [hwaiters, hfwd]
      intro c hcm v hv hm
      obtain ⟨x, hx, hxv⟩ := List.mem_map.1 hm
      exact hc.apart c hcm v hv (List.mem_map.2 ⟨x, hrest x hx, hxv⟩)
    · have hsame : (s.forwardNotify t).load u = s.load u ∧ (s.forwardNotify t).isOpen = s.isOpen := by
        rw [hfwd]
        exact ⟨rfl, rfl⟩
      rw [hsame.1]
      refine hc.told_forwarded hown hq hp hwrest hwaiters hsame.2 ?_
      rw [hfwd]
      show Function.update (Function.update s.notified t false) w.1.owner true u = _
      by_cases huw : u = w.1.owner
      · rw [huw, Function.update_self, if_pos rfl]
      · rw [Function.update_of_ne huw, Function.update_of_ne hu, if_neg huw]
    · rw [hfwd]
      show Function.update (Function.update s.notified t false) w.1.owner true t = false
      rw [Function.update_of_ne (hne w hwm).symm, Function.update_self]
  · have hwaiters : (s.forwardNotify t).waiters = [] := by
      rw [hfwd]
    refine counted_freed hf ?_ ?_ ?_ ?_ (fun u hu => ?_) ?_
    · rw [hwaiters]
      exact List.nodup_nil
    · rw [hwaiters]
      exact fun v hv => absurd hv List.not_mem_nil
    · rw [hwaiters]
      exact fun v hv => absurd hv List.not_mem_nil
    · rw [hwaiters]
      exact fun _ _ _ _ => List.not_mem_nil
    · have hsame : (s.forwardNotify t).load u = s.load u ∧ (s.forwardNotify t).isOpen = s.isOpen := by
        rw [hfwd]
        exact ⟨rfl, rfl⟩
      rw [hsame.1]
      refine hc.told_dropped hown hall hwaiters hsame.2 ?_
      rw [hfwd]
      exact Function.update_of_ne hu ..
    · rw [hfwd]
      exact Function.update_self ..

theorem Counted.notify (hc : s.Counted home) (hown : ∀ u f, s.load u = .queued f → f.owner = u) (n : Int) :
    (s.notify n).Counted home := by
  unfold Sys.notify
  split
  · exact hc
  · rename_i hn
    generalize hk : min n.toNat s.waiters.length = k
    have hsplit : s.waiters = s.waiters.take k ++ s.waiters.drop k := (List.take_append_drop k s.waiters).symm
    have hdrop : ∀ w ∈ s.waiters.drop k, w ∈ s.waiters := fun w hw => List.mem_of_mem_drop hw
    have htake : ∀ w ∈ s.waiters.take k, w ∈ s.waiters := fun w hw => List.mem_of_mem_take hw
    have hnodup := hc.nodup
    rw [hsplit, List.map_append] at hnodup
    obtain ⟨-, hdropnd, hdisj⟩ := List.nodup_append.1 hnodup
    have hmem : ∀ f, f ∈ s.waiters.map Prod.fst ↔
        f ∈ (s.waiters.take k).map Prod.fst ∨ f ∈ (s.waiters.drop k).map Prod.fst := by
      intro f
      rw [← List.mem_append, ← List.map_append, ← hsplit]
    -- A popped waiter is marked as notified if its loop is open.
    have hmark : ∀ u, (s.waiters.take k).any (fun w => s.isOpen w.2 && decide (w.1.owner = u)) = true ↔
        ∃ w ∈ s.waiters.take k, s.isOpen w.2 = true ∧ s.load u = .queued w.1 := by
      intro u
      rw [List.any_eq_true]
      constructor
      · rintro ⟨w, hw, hb⟩
        obtain ⟨ho, hu⟩ := Bool.and_eq_true_iff.1 hb
        refine ⟨w, hw, ho, ?_⟩
        rw [← of_decide_eq_true hu]
        exact (hc.waited w (htake w hw)).1
      · rintro ⟨w, hw, ho, hu⟩
        refine ⟨w, hw, ?_⟩
        rw [ho, hown u w.1 hu, decide_eq_true rfl]
        rfl
    refine ⟨hdropnd, fun w hw => hc.waited w (hdrop w hw), fun w hw => hc.asleep w (hdrop w hw), ?_, fun u => ?_⟩
    · intro c hcm w hw hm
      rcases List.mem_append.1 hcm with hcm | hcm
      · exact hc.apart c hcm w hw ((hmem _).2 (.inr hm))
      · rw [List.mem_singleton.1 hcm] at hw
        exact hdisj w.1 (List.mem_map.2 ⟨w, hw, rfl⟩) w.1 hm rfl
    · have htold := hc.told u
      have hm := hmark u
      show Told home _ u (s.load u)
      cases hlu : s.load u with
      | free =>
        rw [hlu] at htold hm
        show (s.notified u || _) = false
        have hno : (s.waiters.take k).any (fun w => s.isOpen w.2 && decide (w.1.owner = u)) = false := by
          by_contra h
          obtain ⟨w, -, -, hq⟩ := hm.1 (by simpa using h)
          cases hq
        rw [hno, Bool.or_false]
        exact htold
      | queued f =>
        rw [hlu] at htold hm
        intro hl
        have hold := htold hl
        rw [hmem f] at hold
        show (s.notified u || _) = true ↔ f ∉ (s.waiters.drop k).map Prod.fst
        rw [Bool.or_eq_true, hold, hm]
        constructor
        · rintro (hnot | ⟨w, hw, -, hq⟩)
          · exact fun hd => hnot (.inr hd)
          · cases hq
            exact fun hd => hdisj w.1 (List.mem_map.2 ⟨w, hw, rfl⟩) w.1 hd rfl
        · intro hd
          by_cases hft : f ∈ (s.waiters.take k).map Prod.fst
          · obtain ⟨w, hw, rfl⟩ := List.mem_map.1 hft
            refine .inr ⟨w, hw, ?_, rfl⟩
            rw [(hc.waited w (htake w hw)).2, hown u w.1 hlu]
            exact hl
          · exact .inl fun h => h.elim hft hd
      | carried =>
        rw [hlu] at htold
        show (s.notified u || _) = true
        rw [show s.notified u = true from htold, Bool.true_or]

theorem Counted.deliver (hc : s.Counted home) {i : Nat} {c : Call Loop Task} {w : Waiter Loop Task}
    {popped : List (Waiter Loop Task)} (hi : s.calls[i]? = some c) (hpop : c.popped = w :: popped) :
    (s.deliver i c w popped).Counted home := by
  have hcm : c ∈ s.calls := List.mem_of_getElem? hi
  have hset : ∀ d : Call Loop Task, d.popped = popped → ∀ c' ∈ s.calls.set i d, ∀ v ∈ c'.popped,
      v.1 ∉ s.waiters.map Prod.fst := by
    intro d hd c' hc' v hv
    rcases List.mem_or_eq_of_mem_set hc' with hm | rfl
    · exact hc.apart c' hm v hv
    · apply hc.apart c hcm v
      rw [hpop]
      rw [hd] at hv
      exact List.mem_cons_of_mem _ hv
  unfold Sys.deliver
  split
  · refine ⟨hc.nodup, hc.waited, fun v hv => ?_, hset _ rfl, hc.told⟩
    have hnot : v.1 ∉ [w.1] := by
      intro hm
      rw [List.mem_singleton] at hm
      apply hc.apart c hcm w
      · rw [hpop]
        simp
      · exact List.mem_map.2 ⟨v, hv, hm⟩
    show (s.lock.host.callSoon [w.1]).woken v.1 = false
    rw [callSoon_woken, decide_eq_false hnot, Bool.false_or]
    exact hc.asleep v hv
  · exact ⟨hc.nodup, hc.waited, hc.asleep, hset _ rfl, hc.told⟩

end Moves

theorem Sound.own (h : s.Sound home) (u : Task) (f : Fut Task) (hf : s.load u = .queued f) : f.owner = u :=
  (h.seats u).own f (load_queued.1 hf)

/-- A task registers. -/
theorem Sound.counted_wait (h : s.Sound home) (hc : s.Counted home) (hload : s.load t = .free)
    (ho : s.lock.lock.owner = some t) : (s.wait home t).Counted home := by
  have hne : ∀ w ∈ s.waiters, w.1.owner ≠ t := fun w hw =>
    hc.owner_ne (fun e he => by rw [hload] at he; cases he) hw
  have hnew : (s.lock.host.wait t).1 ∉ s.waiters.map Prod.fst := by
    intro hm
    obtain ⟨w, hw, hwe⟩ := List.mem_map.1 hm
    apply hne w hw
    rw [hwe]
    rfl
  have hmap : (s.waiters ++ [((s.lock.host.wait t).1, home t)]).map Prod.fst =
      s.waiters.map Prod.fst ++ [(s.lock.host.wait t).1] := List.map_append
  unfold wait
  rw [if_pos ho]
  have hloads : ∀ u, u ≠ t → load (((Sys.onHost { s with
      waiters := s.waiters ++ [((s.lock.host.wait t).1, home t)]
      asked := Function.update s.asked t false
      outcome := Function.update s.outcome t none } fun h => (h.wait t).2).goto t
        (.releasing (s.lock.host.wait t).1))) u = s.load u := fun u hu => load_goto_other hu _
  refine ⟨?_, fun w hw => ?_, fun w hw => ?_, fun c hcm w hw hm => ?_, fun u => ?_⟩
  · show ((s.waiters ++ [((s.lock.host.wait t).1, home t)]).map Prod.fst).Nodup
    rw [hmap, List.nodup_append]
    refine ⟨hc.nodup, List.nodup_singleton _, ?_⟩
    intro a ha b hb hab
    rw [hab, List.mem_singleton.1 hb] at ha
    exact hnew ha
  · rcases List.mem_append.1 hw with hw | hw
    · rw [hloads _ (hne w hw)]
      exact hc.waited w hw
    · rw [List.mem_singleton.1 hw]
      exact ⟨load_goto _, rfl⟩
  · show s.lock.host.woken w.1 = false
    rcases List.mem_append.1 hw with hw | hw
    · exact hc.asleep w hw
    · rw [List.mem_singleton.1 hw]
      exact h.guarded.linked.wired.fresh _ (Nat.le_refl _)
  · -- An event that is still to be set is older than the new one.
    have hold := (h.foreign w.1 (.inr ⟨c, hcm, List.mem_map.2 ⟨w, hw, rfl⟩⟩)).2
    have happ : w.1 ∈ s.waiters.map Prod.fst ++ [(s.lock.host.wait t).1] := hmap ▸ hm
    rcases List.mem_append.1 happ with hm | hm
    · exact hc.apart c hcm w hw hm
    · rw [List.mem_singleton.1 hm] at hold
      exact Nat.lt_irrefl _ hold
  · by_cases hu : u = t
    · rw [hu, load_goto]
      have hfree : s.notified t = false := by
        have htold := hc.told t
        rw [hload] at htold
        exact htold
      intro _
      show s.notified t = true ↔ _ ∉ (s.waiters ++ [((s.lock.host.wait t).1, home t)]).map Prod.fst
      rw [hmap, hfree]
      simp
    · rw [hloads u hu]
      have htold := hc.told u
      cases hlu : s.load u with
      | free =>
        rw [hlu] at htold
        exact htold
      | queued f =>
        rw [hlu] at htold
        intro hl
        show s.notified u = true ↔ f ∉ (s.waiters ++ [((s.lock.host.wait t).1, home t)]).map Prod.fst
        have hfe : f ≠ (s.lock.host.wait t).1 := by
          intro hfe
          apply hu
          rw [← h.own u f hlu, hfe]
          rfl
        rw [hmap, htold hl]
        simp [hfe]
      | carried =>
        rw [hlu] at htold
        exact htold

omit [DecidableEq Loop] in
theorem counted_new : (new : Sys Loop Task).Counted home where
  nodup := List.nodup_nil
  waited _ hw := absurd hw List.not_mem_nil
  asleep _ hw := absurd hw List.not_mem_nil
  apart _ hc := absurd hc List.not_mem_nil
  told _ := rfl

theorem Sound.counted_step (h : s.Sound home) (hc : s.Counted home) {a : Action Loop Task} (hm : Move home s a s') :
    s'.Counted home := by
  cases hm with
  | quiet hq => exact hc.quiet hq
  | wait t hload ho => exact h.counted_wait hc hload ho
  | discard t e hload hm ho hf => exact hc.discard h.own hload hm ho hf
  | forward t hload hf => exact hc.forward h.own hload hf
  | use t hload hq hf =>
    refine (hc.quiet hq).use ?_ hf
    rcases hq.load t with hsame | ⟨e, he, -⟩
    · rw [hsame, hload]
    · rw [hload] at he
      cases he
  | notify n => exact hc.notify h.own n
  | deliver i c w popped hi hpop => exact hc.deliver hi hpop

/-! ## What `notify` delivers -/

/-- The step loses no notification to a closed loop while a later waiter is on
an open one. -/
def Attentive (s : Sys Loop Task) : Action Loop Task → Prop
  | .notify n => (∀ w ∈ s.waiters.take n.toNat, s.isOpen w.2 = true) ∨
      ∀ w ∈ s.waiters.drop n.toNat, s.isOpen w.2 = false
  -- The loop is not that of a waiter between its pop and its wake.
  | .lock (.closeLoop l) => ∀ c ∈ s.calls, ∀ w ∈ c.popped, s.isOpen w.2 = true → w.2 ≠ l
  | _ => True

/-- The first `n` elements have as many as they can of those that meet `p`,
just if all of them meet it or no later one does. -/
theorem countP_take_iff {α : Type} (p : α → Bool) (n : Nat) (l : List α) :
    (l.take n).countP p = min n (l.countP p) ↔
      (∀ x ∈ l.take n, p x = true) ∨ ∀ x ∈ l.drop n, p x = false := by
  have hsplit : l.countP p = (l.take n).countP p + (l.drop n).countP p := by
    rw [← List.countP_append, List.take_append_drop]
  have htake : (l.take n).countP p ≤ (l.take n).length := List.countP_le_length
  have hdrop : (l.drop n).countP p ≤ (l.drop n).length := List.countP_le_length
  have hlen : (l.take n).length = min n l.length := List.length_take
  have hrest : (l.drop n).length = l.length - n := List.length_drop
  have hnone : (l.drop n).countP p = 0 ↔ ∀ x ∈ l.drop n, p x = false := by
    rw [List.countP_eq_zero]
    simp
  constructor
  · intro h
    by_cases hall : (l.take n).countP p = (l.take n).length
    · exact .inl (List.countP_eq_length.1 hall)
    · exact .inr (hnone.1 (by omega))
  · rintro (hall | hno)
    · have hfull := List.countP_eq_length.2 hall
      omega
    · have hzero := hnone.2 hno
      omega

variable [Fintype Task]

/-- Each call of `notify` wakes as many waiters as it is to, and every
notification is used, forwarded, or had no waiter left. -/
structure Balanced (s : Sys Loop Task) : Prop where
  delivered : ∀ c ∈ s.calls, c.delivered + c.popped.countP (fun w => s.isOpen w.2) = min c.n c.registered
  total : (s.calls.map fun c => min c.n c.registered).sum = s.used + ∑ t, (s.notified t).toNat + s.dropped

section Balance

omit [DecidableEq Loop]

omit [DecidableEq Task] in
theorem balanced_new : (new : Sys Loop Task).Balanced where
  delivered _ hc := absurd hc List.not_mem_nil
  total := by simp [new]

theorem Balanced.quiet (hb : s.Balanced) {a : Action Loop Task} (hq : Quiet home a s s') (hok : s.Attentive a) :
    s'.Balanced := by
  refine ⟨fun c hc => ?_, ?_⟩
  · rw [hq.calls] at hc
    rw [← hb.delivered c hc]
    congr 1
    apply List.countP_congr
    intro w hw
    unfold isOpen
    rcases hq.closed with hsame | ⟨l, rfl, hl⟩
    · rw [hsame]
    · -- The loop of a waiter that is still to be woken stays open.
      have hne := hok c hc w hw
      have hiff := hl w.2
      unfold isOpen at hne
      cases hcl : s.lock.host.closed w.2 with
      | true => simp [hiff.2 (.inr hcl)]
      | false =>
        have hopen : s'.lock.host.closed w.2 = false := by
          by_contra hclosed
          rcases hiff.1 (by simpa using hclosed) with h | h
          · exact hne (by simp [hcl]) h
          · rw [hcl] at h
            cases h
        simp [hopen]
  · rw [hq.calls, hq.used, hq.notified, hq.dropped]
    exact hb.total

omit [DecidableEq Task] in
theorem balanced_freed (hb : r.Balanced) (hf : Freed t r s') : s'.Balanced := by
  refine ⟨fun c hc => ?_, ?_⟩
  · rw [hf.calls] at hc
    unfold isOpen
    rw [hf.lock]
    exact hb.delivered c hc
  · rw [hf.calls, hf.used, hf.notified, hf.dropped]
    exact hb.total

theorem Balanced.use (hb : s.Balanced) (hn : s.notified t = true) : (s.useUp t).Balanced := by
  refine ⟨hb.delivered, ?_⟩
  have htotal := hb.total
  have hsum := sum_update_mark s.notified t false
  rw [hn] at hsum
  simp only [Bool.toNat_true, Bool.toNat_false] at hsum
  show (s.calls.map fun c => min c.n c.registered).sum =
    s.used + 1 + ∑ u, (Function.update s.notified t false u).toNat + s.dropped
  omega

omit [Fintype Task] in
/-- A registered waiter on an open loop has no notification. -/
theorem Counted.not_notified (hc : s.Counted home) {w : Waiter Loop Task} (hw : w ∈ s.waiters)
    (ho : s.isOpen w.2 = true) : s.notified w.1.owner = false := by
  have htold := hc.told w.1.owner
  rw [(hc.waited w hw).1] at htold
  rw [(hc.waited w hw).2] at ho
  by_contra hn
  exact (htold ho).1 (by simpa using hn) (List.mem_map.2 ⟨w, hw, rfl⟩)

theorem Balanced.forward (hb : s.Balanced) (hc : s.Counted home) (hload : s.load t = .carried) :
    (s.forwardNotify t).Balanced := by
  have hn : s.notified t = true := by
    have htold := hc.told t
    rw [hload] at htold
    exact htold
  have htotal := hb.total
  have hleft := sum_update_mark s.notified t false
  rw [hn] at hleft
  simp only [Bool.toNat_true, Bool.toNat_false] at hleft
  rcases forwardNotify_cases s t with ⟨popped, w, rest, hq, -, hw, hfwd⟩ | ⟨-, hfwd⟩
  · have hwm : w ∈ s.waiters := by
      rw [hq]
      simp
    have hne : w.1.owner ≠ t := hc.owner_ne (fun e he => by rw [hload] at he; cases he) hwm
    have hgiven := sum_update_mark (Function.update s.notified t false) w.1.owner true
    rw [Function.update_of_ne hne, hc.not_notified hwm hw] at hgiven
    simp only [Bool.toNat_true, Bool.toNat_false] at hgiven
    rw [hfwd]
    refine ⟨hb.delivered, ?_⟩
    show (s.calls.map fun c => min c.n c.registered).sum = s.used +
      ∑ u, (Function.update (Function.update s.notified t false) w.1.owner true u).toNat + s.dropped
    omega
  · rw [hfwd]
    refine ⟨hb.delivered, ?_⟩
    show (s.calls.map fun c => min c.n c.registered).sum =
      s.used + ∑ u, (Function.update s.notified t false u).toNat + (s.dropped + 1)
    omega

theorem Balanced.notify (hb : s.Balanced) (hc : s.Counted home) {n : Int} (hok : s.Attentive (.notify n)) :
    (s.notify n).Balanced := by
  have hcount := (countP_take_iff (fun w : Waiter Loop Task => s.isOpen w.2) n.toNat s.waiters).2 hok
  unfold Sys.notify
  split
  · exact hb
  · dsimp only
    rw [← List.take_eq_take_min]
    refine ⟨fun c hm => ?_, ?_⟩
    · rcases List.mem_append.1 hm with hm | hm
      · exact hb.delivered c hm
      · rw [List.mem_singleton.1 hm]
        show 0 + _ = _
        rw [Nat.zero_add]
        exact hcount
    · -- The tasks that are marked now: the owners of the popped waiters on open loops.
      let marked := ((s.waiters.take n.toNat).filter fun w => s.isOpen w.2).map fun w => w.1.owner
      have hsub : ∀ w ∈ (s.waiters.take n.toNat).filter fun w => s.isOpen w.2,
          w ∈ s.waiters ∧ s.isOpen w.2 = true := by
        intro w hw
        obtain ⟨hm, ho⟩ := List.mem_filter.1 hw
        exact ⟨List.mem_of_mem_take hm, ho⟩
      have hnd : marked.Nodup := by
        have hevents : (((s.waiters.take n.toNat).filter fun w => s.isOpen w.2).map Prod.fst).Nodup :=
          hc.nodup.sublist ((List.filter_sublist.trans (List.take_sublist _ _)).map Prod.fst)
        have hinj : ∀ w ∈ (s.waiters.take n.toNat).filter fun w => s.isOpen w.2,
            ∀ v ∈ (s.waiters.take n.toNat).filter fun w => s.isOpen w.2, w.1.owner = v.1.owner → w = v := by
          intro w hw v hv hwv
          have hqw := (hc.waited w (hsub w hw).1).1
          rw [hwv, (hc.waited v (hsub v hv).1).1] at hqw
          exact List.inj_on_of_nodup_map hevents hw hv (Load.queued.inj hqw).symm
        exact (List.Nodup.of_map _ hevents).map_on hinj
      have hfree : ∀ t ∈ marked, s.notified t = false := by
        intro t ht
        obtain ⟨w, hw, rfl⟩ := List.mem_map.1 ht
        exact hc.not_notified (hsub w hw).1 (hsub w hw).2
      have hmarks : ∀ t, ((s.waiters.take n.toNat).any fun w => s.isOpen w.2 && decide (w.1.owner = t)) =
          decide (t ∈ marked) := by
        intro t
        rw [Bool.eq_iff_iff, List.any_eq_true, decide_eq_true_eq, List.mem_map]
        constructor
        · rintro ⟨w, hw, hb⟩
          obtain ⟨ho, hu⟩ := Bool.and_eq_true_iff.1 hb
          exact ⟨w, List.mem_filter.2 ⟨hw, ho⟩, of_decide_eq_true hu⟩
        · rintro ⟨w, hw, hu⟩
          obtain ⟨hm, ho⟩ := List.mem_filter.1 hw
          exact ⟨w, hm, by rw [ho, decide_eq_true hu]; rfl⟩
      have hlen : marked.length = min n.toNat (s.waiters.countP fun w => s.isOpen w.2) := by
        rw [← hcount, List.length_map, ← List.countP_eq_length_filter]
      have htotal := hb.total
      have hsum := sum_mark hnd hfree
      simp only [hmarks, List.map_append, List.sum_append, List.map_cons, List.map_nil, List.sum_cons, List.sum_nil]
      omega

omit [DecidableEq Task] in
theorem Balanced.deliver (hb : s.Balanced) {i : Nat} {c : Call Loop Task} {w : Waiter Loop Task}
    {popped : List (Waiter Loop Task)} (hi : s.calls[i]? = some c) (hpop : c.popped = w :: popped) :
    (s.deliver i c w popped).Balanced := by
  have hold := hb.delivered c (List.mem_of_getElem? hi)
  rw [hpop, List.countP_cons] at hold
  -- The call's entry changes, but not what it is to deliver.
  have hset : ∀ d : Call Loop Task, d.n = c.n → d.registered = c.registered →
      ((s.calls.set i d).map fun c => min c.n c.registered).sum = (s.calls.map fun c => min c.n c.registered).sum := by
    intro d hn hr
    congr 1
    rw [List.map_set, hn, hr]
    apply List.ext_getElem?
    intro j
    rw [List.getElem?_set, List.getElem?_map]
    split
    · rename_i hij
      have hlt : i < s.calls.length := (List.getElem?_eq_some_iff.1 hi).1
      rw [← hij, hi]
      simp [hlt]
    · rfl
  unfold Sys.deliver
  split
  · rename_i ho
    rw [if_pos ho] at hold
    refine ⟨fun d hd => ?_, ?_⟩
    · rcases List.mem_or_eq_of_mem_set hd with hm | rfl
      · exact hb.delivered d hm
      · show c.delivered + 1 + popped.countP (fun w => s.isOpen w.2) = min c.n c.registered
        omega
    · exact (hset { c with popped, delivered := c.delivered + 1 } rfl rfl).trans hb.total
  · rename_i ho
    rw [if_neg ho] at hold
    refine ⟨fun d hd => ?_, ?_⟩
    · rcases List.mem_or_eq_of_mem_set hd with hm | rfl
      · exact hb.delivered d hm
      · exact hold
    · exact (hset { c with popped } rfl rfl).trans hb.total

end Balance

omit [DecidableEq Loop] in
theorem Counted.balanced_step (hc : s.Counted home) (hb : s.Balanced) {a : Action Loop Task} (hok : s.Attentive a)
    (hm : Move home s a s') : s'.Balanced := by
  cases hm with
  | quiet hq => exact hb.quiet hq hok
  | wait t hload ho =>
    unfold wait
    rw [if_pos ho]
    exact ⟨hb.delivered, hb.total⟩
  | discard t e hload hm ho hf =>
    have hr : (s.discardWaiter e).Balanced := ⟨hb.delivered, hb.total⟩
    exact balanced_freed hr hf
  | forward t hload hf => exact balanced_freed (hb.forward hc hload) hf
  | use t hload hq hf =>
    refine balanced_freed ((hb.quiet hq hok).use ?_) hf
    have htold := hc.told t
    rw [hload] at htold
    exact (congrFun hq.notified t).trans htold
  | notify n => exact hb.notify hc hok
  | deliver i c w popped hi hpop => exact hb.deliver hi hpop

theorem balanced_of_attentive (h : (tasks home).ReachableWhen (fun s a => s.Attentive a) s) :
    s.Sound home ∧ s.Counted home ∧ s.Balanced := by
  apply h.inv
  · intro s hs
    obtain rfl : s = new := hs
    exact ⟨sound_new, counted_new, balanced_new⟩
  · rintro s a s' ⟨hs, hc, hb⟩ hok hst
    have hm := hs.move hc hst
    exact ⟨hs.step hst, hs.counted_step hc hm, hc.balanced_step hb hok hm⟩

omit [Fintype Task] [DecidableEq Loop] in
/-- A notification that is forwarded goes to the first registered waiter whose
loop is open. -/
theorem Counted.forwarded (hc : s.Counted home) (hown : ∀ u f, s.load u = .queued f → f.owner = u)
    (hload : s.load t = .carried) (hf : Freed t (s.forwardNotify t) s') :
    s'.notified t = false ∧
      ((∃ w ∈ s.waiters, w.1.owner ≠ t ∧ s.isOpen w.2 = true ∧ s'.notified w.1.owner = true ∧
          w.1 ∈ s'.lock.host.scheduled) ∨
        ∀ w ∈ s.waiters, s.isOpen w.2 = false) := by
  have hfree := (hc.forward hown hload hf).told t
  rw [hf.free] at hfree
  refine ⟨hfree, ?_⟩
  rcases forwardNotify_cases s t with ⟨popped, w, rest, hq, -, hw, hfwd⟩ | ⟨hall, -⟩
  · have hwm : w ∈ s.waiters := by
      rw [hq]
      simp
    refine .inl ⟨w, hwm, hc.owner_ne (fun e he => by rw [hload] at he; cases he) hwm, hw, ?_, ?_⟩
    · rw [hf.notified, hfwd]
      exact Function.update_self ..
    · rw [hf.lock, hfwd]
      exact List.mem_append_right _ (List.mem_singleton_self _)
  · exact .inr hall

omit [Fintype Task] [DecidableEq Loop] in
/-- A step drops a notification only if no registered waiter is on an open
loop. -/
theorem Move.dropped {a : Action Loop Task} (hm : Move home s a s') (hd : s'.dropped ≠ s.dropped) :
    ∀ w ∈ s.waiters, s.isOpen w.2 = false := by
  cases hm with
  | quiet hq => exact absurd hq.dropped hd
  | wait t hload ho =>
    unfold Sys.wait at hd
    rw [if_pos ho] at hd
    exact absurd rfl hd
  | discard t e hload hm ho hf => exact absurd hf.dropped hd
  | forward t hload hf =>
    rcases forwardNotify_cases s t with ⟨popped, w, rest, -, -, -, hfwd⟩ | ⟨hall, -⟩
    · rw [hf.dropped, hfwd] at hd
      exact absurd rfl hd
    · exact hall
  | use t hload hq hf => exact absurd (hf.dropped.trans hq.dropped) hd
  | notify n =>
    unfold Sys.notify at hd
    split at hd
    · exact absurd rfl hd
    · exact absurd rfl hd
  | deliver i c w popped hi hpop =>
    unfold Sys.deliver at hd
    split at hd
    · exact absurd rfl hd
    · exact absurd rfl hd

end Sys

variable [DecidableEq Task] [DecidableEq Loop] [Fintype Task] {home : Task → Loop} {s : Sys Loop Task}

/-- In every run over a condition whose steps lose no notification to a closed
loop while a later waiter is on an open one: each `notify(n)` wakes `n` of the
waiters that were registered on open loops, or all of them; the notifications
so given are used, are with a waiter that has not gone on, or were dropped; no
task keeps one outside of `wait`; a task that cannot use its notification
forwards it to another registered waiter on an open loop; and one is dropped
only if there is none. -/
theorem notifications_conserved (h : (tasks home).ReachableWhen (fun s a => s.Attentive a) s) :
    (∀ c ∈ s.calls, c.delivered + c.popped.countP (fun w => s.isOpen w.2) = min c.n c.registered) ∧
    (s.calls.map fun c => min c.n c.registered).sum = s.used + ∑ t, (s.notified t).toNat + s.dropped ∧
    (∀ t, (s.pc t).inWait = false → s.notified t = false) ∧
    (∀ t s', s.step home (.forward t) = some s' → s'.notified t = false ∧
      ((∃ w ∈ s.waiters, w.1.owner ≠ t ∧ s.isOpen w.2 = true ∧ s'.notified w.1.owner = true ∧
          w.1 ∈ s'.lock.host.scheduled) ∨
        ∀ w ∈ s.waiters, s.isOpen w.2 = false)) ∧
    ∀ a s', s.step home a = some s' → s'.dropped ≠ s.dropped → ∀ w ∈ s.waiters, s.isOpen w.2 = false := by
  obtain ⟨hs, hc, hb⟩ := Sys.balanced_of_attentive h
  refine ⟨hb.delivered, hb.total, fun t ht => ?_, fun t s' hst => ?_, fun a s' hst => (hs.move hc hst).dropped⟩
  · have htold := hc.told t
    unfold Sys.load at htold
    cases hp : s.pc t with
    | outside =>
      rw [hp] at htold
      exact htold
    | evaluating =>
      rw [hp] at htold
      exact htold
    | _ =>
      rw [hp] at ht
      cases ht
  · simp only [Sys.step] at hst
    split at hst
    · rename_i hpc
      split at hst
      · cases hst
        exact hc.forwarded hs.own (Sys.load_of_pc hpc) (Sys.freed_goto rfl)
      · cases hst
    · rename_i o hpc
      split at hst
      · cases hst
        exact hc.forwarded hs.own (Sys.load_of_pc hpc) (Sys.freed_leave o)
      · cases hst
    · cases hst

/-- A notified task is cancelled before it goes on, and forwards its
notification to the next waiter. -/
theorem notifications_conserved_forwarded : ∃ s : Sys Unit Bool, s.notified true = true ∧
    (s.calls.map fun c => min c.n c.registered).sum = s.used + ∑ t, (s.notified t).toNat + s.dropped := by
  have h : (tasks fun _ : Bool => ()).ReachableWhen (fun s a => s.Attentive a) Sys.new := .init rfl
  have h := h.next (.lock (.acquire false)) trivial rfl
  have h := h.next (.wait false) trivial rfl
  have h := h.next (.release false) trivial rfl
  have h := h.next (.lock (.acquire true)) trivial rfl
  have h := h.next (.wait true) trivial rfl
  have h := h.next (.notify 1) (.inl (by decide)) rfl
  have h := h.next (.cancel false none) trivial rfl
  have h := h.next (.deliver 0) trivial rfl
  have h := h.next (.resume false) trivial rfl
  have h := h.next (.discard false) trivial rfl
  have h := h.next (.forward false) trivial rfl
  exact ⟨_, rfl, (notifications_conserved h).2.1⟩

/-- The loop of the first waiter is closed: `notify` wakes nobody, though the
second waiter's loop is open. -/
theorem closed_loop_takes_notification : ¬ ∀ s : Sys Bool Bool, (tasks id).Reachable s →
    ∀ c ∈ s.calls, c.popped = [] → c.delivered = min c.n c.registered := by
  intro hclaim
  have hrun : (tasks id).run (Sys.new : Sys Bool Bool)
      [.lock (.acquire false), .wait false, .release false, .lock (.acquire true), .wait true, .release true,
        .lock (.closeLoop false), .notify 1, .deliver 0] = some _ := rfl
  have hzero := hclaim _ (System.reachable_of_run rfl hrun) _ (List.mem_singleton_self _) rfl
  exact absurd hzero (by decide)

end Multiloop.Sync.Condition
