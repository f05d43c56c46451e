import Mathlib.Algebra.BigOperators.Group.Finset.Piecewise
import Mathlib.Data.List.Nodup
import Multiloop.Asyncio
import Multiloop.Framework.Counting

/-!
# Waiting on events

What asyncio keeps for tasks that wait: an `asyncio.Event` is known by the
task that created it, the only one that waits on it, and by how many that task
had created before. Waking a task hands `event.set` to its event loop
(`callSoon`, `call_soon_threadsafe`), which fails on a closed loop and is run
later by an open one. No task and no callback runs on a closed loop.

`Wired` ties the events to a queue of registered ones: a queued event is
waited on and not woken; a waited-on event is queued, or woken, or its loop is
closed. The lemmas say how the operations of a primitive that wakes its
waiters in order keep it.
-/

namespace Multiloop

/-- The event loops: what they have scheduled, and the events on which their tasks wait. -/
structure Host (Loop Task : Type) where
  /-- `Event._value`. -/
  flag : Fut Task → Bool
  /-- The future of the one `wait` on an event. -/
  futs : Fut Task → FutState Unit
  /-- The events whose `set` a loop has yet to run. -/
  scheduled : List (Fut Task)
  mustCancel : Task → Bool
  /-- The events each task has created. -/
  created : Task → Nat
  closed : Loop → Bool

/-- How a suspended task goes on. -/
inductive Resumption
  | returns
  | raises
deriving DecidableEq

namespace Host

variable {Loop Task : Type}

/-- No event has been created. -/
def new : Host Loop Task where
  flag _ := false
  futs _ := .pending
  scheduled := []
  mustCancel _ := false
  created _ := 0
  closed _ := false

variable (h : Host Loop Task)

/-- How a task that waits on `e` goes on; `none` if it is not to run yet. -/
def resumption (t : Task) (e : Fut Task) : Option Resumption :=
  match h.futs e with
  | .pending => none
  | .result _ => if h.mustCancel t then some .raises else some .returns
  | .exception | .cancelled => some .raises

/-- `loop.call_soon_threadsafe(event.set)` for events whose loops are open. -/
def callSoon (es : List (Fut Task)) : Host Loop Task := { h with scheduled := h.scheduled ++ es }

variable [DecidableEq Task]

/-- The task's event is set, or its loop is to set it. -/
def woken (e : Fut Task) : Bool := decide (e ∈ h.scheduled) || h.flag e

/-- `asyncio.Event()` in task `t`, which starts to wait on it; a cancellation
asked for earlier cancels the wait at once. -/
def wait (t : Task) : Fut Task × Host Loop Task :=
  let e : Fut Task := { owner := t, serial := h.created t }
  (e, { h with
    created := Function.update h.created t (h.created t + 1)
    futs := if h.mustCancel t then Function.update h.futs e .cancelled else h.futs
    mustCancel := Function.update h.mustCancel t false })

/-- `asyncio.Event()` in task `t`, which does not wait on it. -/
def create (t : Task) : Host Loop Task := { h with created := Function.update h.created t (h.created t + 1) }

/-- Task `t`, which is not waiting, goes on with the cancellation flag `b`. -/
def setMustCancel (t : Task) (b : Bool) : Host Loop Task :=
  { h with mustCancel := Function.update h.mustCancel t b }

/-- `task.cancel()`, where the task waits on `e`, if on any. -/
def cancel (t : Task) (e? : Option (Fut Task)) : Host Loop Task :=
  match e? with
  | some e =>
    match h.futs e with
    | .pending => { h with futs := Function.update h.futs e .cancelled }
    | _ => h.setMustCancel t true
  | none => h.setMustCancel t true

/-- `event.set()`. -/
def set (e : Fut Task) : Host Loop Task :=
  { h with
    flag := Function.update h.flag e true
    futs := match h.futs e with
      | .pending => Function.update h.futs e (.result ())
      | _ => h.futs }

/-- A loop runs the `i`-th scheduled `event.set`. -/
def runCallback (home : Task → Loop) (i : Nat) : Option (Host Loop Task) :=
  match h.scheduled[i]? with
  | some e =>
    if h.closed (home e.owner) then none
    else some ({ h with scheduled := h.scheduled.eraseIdx i }.set e)
  | none => none

/-- A loop is closed: it runs nothing any more. -/
def closeLoop [DecidableEq Loop] (l : Loop) : Host Loop Task := { h with closed := Function.update h.closed l true }

end Host

section Fields

variable {Loop Task : Type} (h : Host Loop Task) (es : List (Fut Task)) (e : Fut Task) (t : Task) (b : Bool) (l : Loop)

@[simp] theorem callSoon_closed : (h.callSoon es).closed = h.closed := rfl
@[simp] theorem callSoon_nil : h.callSoon [] = h := by simp [Host.callSoon]
@[simp] theorem callSoon_created : (h.callSoon es).created = h.created := rfl

/-- A task returns from its wait only if its event is set. -/
theorem resumption_returns {t : Task} {e : Fut Task} (hr : h.resumption t e = some .returns) :
    h.futs e = .result () := by
  unfold Host.resumption at hr
  split at hr
  · cases hr
  · rename_i hf
    exact hf
  · cases hr
  · cases hr

variable [DecidableEq Task]

@[simp] theorem callSoon_woken : (h.callSoon es).woken e = (decide (e ∈ es) || h.woken e) := by
  simp only [Host.woken, Host.callSoon, List.mem_append, Bool.decide_or]
  cases decide (e ∈ es) <;> simp

@[simp] theorem wait_owner : (h.wait t).1.owner = t := rfl
@[simp] theorem setMustCancel_closed : (h.setMustCancel t b).closed = h.closed := rfl
@[simp] theorem setMustCancel_created : (h.setMustCancel t b).created = h.created := rfl

omit [DecidableEq Task] in
/-- A closed loop stays closed. -/
theorem closeLoop_closed [DecidableEq Loop] (k : Loop) (hk : h.closed k = true) : (h.closeLoop l).closed k = true := by
  show Function.update h.closed l true k = true
  by_cases hkl : k = l
  · rw [hkl, Function.update_self]
  · rw [Function.update_of_ne hkl]
    exact hk

/-- A cancellation changes the task's future or its cancellation flag. -/
theorem cancel_cases (e? : Option (Fut Task)) :
    (∃ e, e? = some e ∧ h.futs e = .pending ∧
      h.cancel t e? = { h with futs := Function.update h.futs e .cancelled }) ∨
    h.cancel t e? = h.setMustCancel t true := by
  unfold Host.cancel
  rcases e? with _ | e
  · exact .inr rfl
  · rcases hf : h.futs e <;> simp [hf]

/-- A loop that runs `event.set` is open. -/
theorem runCallback_cases {home : Task → Loop} {i : Nat} {h' : Host Loop Task}
    (hr : h.runCallback home i = some h') :
    ∃ e, h.scheduled[i]? = some e ∧ h.closed (home e.owner) = false ∧
      h' = { h with scheduled := h.scheduled.eraseIdx i }.set e := by
  unfold Host.runCallback at hr
  split at hr
  · rename_i e he
    split at hr
    · cases hr
    · rename_i hc
      cases hr
      exact ⟨e, he, by simpa using hc, rfl⟩
  · cases hr

/-- What is woken stays woken, and nothing else becomes woken, when a loop sets
an event. -/
theorem runCallback_woken {home : Task → Loop} {i : Nat} {h' : Host Loop Task}
    (hr : h.runCallback home i = some h') : h'.woken e = h.woken e := by
  obtain ⟨f, hf, -, rfl⟩ := runCallback_cases h hr
  have hmem : f ∈ h.scheduled := List.mem_of_getElem? hf
  by_cases he : e = f
  · subst he
    simp [Host.woken, Host.set, hmem]
  · have herase : e ∈ h.scheduled.eraseIdx i ↔ e ∈ h.scheduled := by
      constructor
      · exact fun hm => List.mem_of_mem_eraseIdx hm
      · intro hm
        obtain ⟨j, hj⟩ := List.mem_iff_getElem?.1 hm
        have hne : j ≠ i := by
          intro hji
          rw [hji, hf] at hj
          exact he (Option.some.inj hj).symm
        exact List.mem_eraseIdx_iff_getElem?.2 ⟨j, hne, hj⟩
    simp [Host.woken, Host.set, herase, he]

theorem runCallback_created {home : Task → Loop} {i : Nat} {h' : Host Loop Task}
    (hr : h.runCallback home i = some h') : h'.created = h.created := by
  obtain ⟨f, -, -, rfl⟩ := runCallback_cases h hr
  rfl

theorem runCallback_closed {home : Task → Loop} {i : Nat} {h' : Host Loop Task}
    (hr : h.runCallback home i = some h') : h'.closed = h.closed := by
  obtain ⟨f, -, -, rfl⟩ := runCallback_cases h hr
  rfl

@[simp] theorem cancel_woken (e? : Option (Fut Task)) : (h.cancel t e?).woken e = h.woken e := by
  rcases cancel_cases h t e? with ⟨f, -, -, hc⟩ | hc <;> (rw [hc]; rfl)

@[simp] theorem cancel_closed (e? : Option (Fut Task)) : (h.cancel t e?).closed = h.closed := by
  rcases cancel_cases h t e? with ⟨f, -, -, hc⟩ | hc
  · rw [hc]
  · rw [hc, setMustCancel_closed]

@[simp] theorem cancel_created (e? : Option (Fut Task)) : (h.cancel t e?).created = h.created := by
  rcases cancel_cases h t e? with ⟨f, -, -, hc⟩ | hc
  · rw [hc]
  · rw [hc, setMustCancel_created]

end Fields

namespace Host

variable {Loop Task : Type} [DecidableEq Task] {h h' : Host Loop Task} {home : Task → Loop}
  {waits : Task → Option (Fut Task)} {queue : List (Fut Task)}

/-- How the events that tasks wait on (`waits`), the registered ones, in order
(`queue`), and the woken ones hang together. -/
structure Wired (home : Task → Loop) (h : Host Loop Task) (waits : Task → Option (Fut Task))
    (queue : List (Fut Task)) : Prop where
  nodup : queue.Nodup
  waited : ∀ e ∈ queue, waits e.owner = some e
  asleep : ∀ e ∈ queue, h.woken e = false
  owner : ∀ t e, waits t = some e → e.owner = t ∧ e.serial < h.created t
  fresh : ∀ e, h.created e.owner ≤ e.serial → h.woken e = false
  result : ∀ e, h.futs e = .result () → h.flag e = true
  placed : ∀ t e, waits t = some e → e ∈ queue ∨ h.woken e = true ∨ h.closed (home t) = true

theorem wired_new : Wired home (new : Host Loop Task) (fun _ => none) [] where
  nodup := List.nodup_nil
  waited e he := absurd he (by simp)
  asleep e he := absurd he (by simp)
  owner t e he := absurd he (by simp)
  fresh e _ := rfl
  result e he := absurd he (by simp [new])
  placed t e he := absurd he (by simp)

/-- A change of the host that wakes nobody. -/
theorem Wired.congr (hw : h.Wired home waits queue) (hk : ∀ e, h'.woken e = h.woken e)
    (hcr : h'.created = h.created) (hres : ∀ e, h'.futs e = .result () → h'.flag e = true)
    (hcl : ∀ l, h.closed l = true → h'.closed l = true) : h'.Wired home waits queue where
  nodup := hw.nodup
  waited := hw.waited
  asleep e he := (hk e).trans (hw.asleep e he)
  owner := hcr ▸ hw.owner
  fresh e he := (hk e).trans (hw.fresh e (hcr ▸ he))
  result := hres
  placed t e he := by
    rw [hk]
    exact (hw.placed t e he).imp_right (Or.imp_right (hcl _))

theorem Wired.setMustCancel (hw : h.Wired home waits queue) (t : Task) (b : Bool) :
    (h.setMustCancel t b).Wired home waits queue :=
  hw.congr (fun _ => rfl) rfl hw.result fun _ hc => hc

theorem Wired.cancel (hw : h.Wired home waits queue) (t : Task) (e? : Option (Fut Task)) :
    (h.cancel t e?).Wired home waits queue := by
  refine hw.congr (fun e => cancel_woken h e t e?) (cancel_created h t e?) ?_ (fun l hc => by simpa using hc)
  rcases cancel_cases h t e? with ⟨e, -, -, hc⟩ | hc <;> rw [hc]
  · intro f hf
    by_cases hfe : f = e
    · simp [hfe] at hf
    · exact hw.result f (by simpa [hfe] using hf)
  · exact hw.result

theorem Wired.closeLoop [DecidableEq Loop] (hw : h.Wired home waits queue) (l : Loop) :
    (h.closeLoop l).Wired home waits queue :=
  hw.congr (fun _ => rfl) rfl hw.result (closeLoop_closed h l)

theorem Wired.runCallback (hw : h.Wired home waits queue) {i : Nat} (hr : h.runCallback home i = some h') :
    h'.Wired home waits queue := by
  refine hw.congr (fun e => runCallback_woken h e hr) (runCallback_created h hr) ?_
    (fun l hc => by rw [runCallback_closed h hr]; exact hc)
  obtain ⟨e, -, -, rfl⟩ := runCallback_cases h hr
  intro f hf
  by_cases hfe : f = e
  · simp [set, hfe]
  · have hold : h.futs f = .result () := by
      cases hp : h.futs e <;> simpa [set, hp, hfe] using hf
    simpa [set, hfe] using hw.result f hold

/-- Some task waits on an event of another kind. -/
theorem Wired.waitElsewhere (hw : h.Wired home waits queue) (t : Task) : (h.wait t).2.Wired home waits queue where
  nodup := hw.nodup
  waited := hw.waited
  asleep := hw.asleep
  owner u e he := by
    obtain ⟨ho, hlt⟩ := hw.owner u e he
    refine ⟨ho, ?_⟩
    by_cases hu : u = t
    · subst hu
      simp only [Host.wait, Function.update_self]
      omega
    · simpa [Host.wait, hu] using hlt
  fresh e he := by
    apply hw.fresh
    by_cases ho : e.owner = t
    · simp only [Host.wait, ho, Function.update_self] at he
      rw [ho]
      omega
    · simpa [Host.wait, ho] using he
  result e he := by
    apply hw.result
    simp only [Host.wait] at he
    split at he
    · by_cases hee : e = { owner := t, serial := h.created t }
      · rw [hee, Function.update_self] at he
        cases he
      · rwa [Function.update_of_ne hee] at he
    · exact he
  placed := hw.placed

/-- Some task creates an event and does not wait on it. -/
theorem Wired.create (hw : h.Wired home waits queue) (t : Task) : (h.create t).Wired home waits queue where
  nodup := hw.nodup
  waited := hw.waited
  asleep := hw.asleep
  owner := (hw.waitElsewhere t).owner
  fresh := (hw.waitElsewhere t).fresh
  result := hw.result
  placed := hw.placed

/-- Events of another kind are woken. -/
theorem Wired.wakeElsewhere (hw : h.Wired home waits queue) {es : List (Fut Task)}
    (hes : ∀ e ∈ es, waits e.owner ≠ some e ∧ e.serial < h.created e.owner) :
    (h.callSoon es).Wired home waits queue where
  nodup := hw.nodup
  waited := hw.waited
  asleep e he := by
    have hnot : e ∉ es := fun hm => (hes e hm).1 (hw.waited e he)
    simp [hnot, hw.asleep e he]
  owner := hw.owner
  fresh e he := by
    have hnot : e ∉ es := by
      intro hm
      have hlt := (hes e hm).2
      simp only [callSoon_created] at he
      omega
    simp only [callSoon_woken, hnot, decide_false, Bool.false_or]
    exact hw.fresh e he
  result := hw.result
  placed t e he := by
    rcases hw.placed t e he with hm | hk | hc
    · exact .inl hm
    · exact .inr (.inl (by simp [hk]))
    · exact .inr (.inr hc)

/-- A task that waits on nothing registers a new event and waits on it. -/
theorem Wired.enlist (hw : h.Wired home waits queue) {t : Task} (ht : waits t = none) :
    (h.wait t).2.Wired home (Function.update waits t (some (h.wait t).1)) (queue ++ [(h.wait t).1]) := by
  have hnew : h.woken (h.wait t).1 = false := hw.fresh _ (Nat.le_refl _)
  have hother : ∀ e ∈ queue, e.owner ≠ t := by
    intro e he heq
    have hwait := hw.waited e he
    rw [heq, ht] at hwait
    cases hwait
  have hnotin : (h.wait t).1 ∉ queue := fun hm => hother _ hm rfl
  have hwired := hw.waitElsewhere t
  refine ⟨?_, ?_, ?_, ?_, hwired.fresh, hwired.result, ?_⟩
  · rw [List.nodup_append]
    refine ⟨hw.nodup, List.nodup_singleton _, ?_⟩
    intro a ha b hb
    rw [List.mem_singleton.1 hb]
    intro hab
    exact hnotin (hab ▸ ha)
  · intro e he
    rcases List.mem_append.1 he with he | he
    · rw [Function.update_of_ne (hother e he)]
      exact hw.waited e he
    · rw [List.mem_singleton.1 he, wait_owner, Function.update_self]
  · intro e he
    rcases List.mem_append.1 he with he | he
    · exact hw.asleep e he
    · rw [List.mem_singleton.1 he]
      exact hnew
  · intro u e he
    by_cases hu : u = t
    · subst hu
      rw [Function.update_self] at he
      cases he
      exact ⟨rfl, by simp [Host.wait]⟩
    · rw [Function.update_of_ne hu] at he
      exact hwired.owner u e he
  · intro u e he
    by_cases hu : u = t
    · subst hu
      rw [Function.update_self] at he
      cases he
      exact .inl (by simp)
    · rw [Function.update_of_ne hu] at he
      exact (hw.placed u e he).imp_left fun hm => List.mem_append_left _ hm

/-- The first events are taken off the queue; the ones whose loops are open
are woken. -/
theorem Wired.handOff {popped rest : List (Fut Task)} (hw : h.Wired home waits (popped ++ rest)) :
    (h.callSoon (popped.filter fun e => ! h.closed (home e.owner))).Wired home waits rest := by
  have hnd := List.nodup_append.1 hw.nodup
  refine ⟨hnd.2.1, fun e he => hw.waited e (List.mem_append_right _ he), ?_, hw.owner, ?_, hw.result, ?_⟩
  · intro e he
    have hnot : e ∉ popped := fun hp => hnd.2.2 e hp e he rfl
    simp [hnot, hw.asleep e (List.mem_append_right _ he)]
  · intro e he
    have hnot : e ∉ popped := by
      intro hp
      have hlt := (hw.owner _ _ (hw.waited e (List.mem_append_left _ hp))).2
      simp only [callSoon_created] at he
      omega
    simp only [callSoon_woken, List.mem_filter, hnot, false_and, decide_false, Bool.false_or]
    exact hw.fresh e he
  · intro t e he
    rcases hw.placed t e he with hm | hk | hc
    · rcases List.mem_append.1 hm with hp | hr
      · have ho := (hw.owner t e he).1
        cases hcl : h.closed (home t) with
        | true => exact .inr (.inr hcl)
        | false =>
          refine .inr (.inl ?_)
          simp [hp, ho, hcl]
      · exact .inl hr
    · refine .inr (.inl ?_)
      simp [hk]
    · exact .inr (.inr hc)

/-- All registered waiters are taken off; the events of those on open loops are
handed to their loops. -/
theorem Wired.handOffAll {waiters : List (Fut Task × Loop)} (hw : h.Wired home waits (waiters.map Prod.fst))
    (hl : ∀ w ∈ waiters, w.2 = home w.1.owner) :
    (h.callSoon ((waiters.filter fun w => ! h.closed w.2).map Prod.fst)).Wired home waits [] := by
  have hopen : (waiters.filter fun w => ! h.closed w.2).map Prod.fst =
      (waiters.map Prod.fst).filter fun e => ! h.closed (home e.owner) := by
    rw [List.filter_map]
    congr 1
    apply List.filter_congr
    intro w hm
    rw [hl w hm]
    rfl
  rw [hopen]
  apply handOff
  rw [List.append_nil]
  exact hw

/-- A task stops waiting, and its event is no longer queued. -/
theorem Wired.withdraw (hw : h.Wired home waits queue) {t : Task} {e : Fut Task} (ht : waits t = some e) :
    h.Wired home (Function.update waits t none) (queue.filter fun f => f ≠ e) := by
  have hsub : ∀ f ∈ queue.filter fun f => f ≠ e, f ∈ queue ∧ f ≠ e := fun f hf => by simpa using hf
  have hother : ∀ f ∈ queue.filter fun f => f ≠ e, f.owner ≠ t := by
    intro f hf ho
    have hwait := hw.waited f (hsub f hf).1
    rw [ho, ht] at hwait
    cases hwait
    exact (hsub _ hf).2 rfl
  refine ⟨hw.nodup.filter _, ?_, fun f hf => hw.asleep f (hsub f hf).1, ?_, hw.fresh, hw.result, ?_⟩
  · intro f hf
    rw [Function.update_of_ne (hother f hf)]
    exact hw.waited f (hsub f hf).1
  · intro u f hf
    by_cases hu : u = t
    · simp [hu] at hf
    · rw [Function.update_of_ne hu] at hf
      exact hw.owner u f hf
  · intro u f hf
    by_cases hu : u = t
    · simp [hu] at hf
    · rw [Function.update_of_ne hu] at hf
      refine (hw.placed u f hf).imp_left fun hm => ?_
      have hne : f ≠ e := by
        intro hfe
        rw [hfe] at hf
        exact hu ((hw.owner u e hf).1.symm.trans (hw.owner t e ht).1)
      simp [hm, hne]

/-- The waiter of a task that stops waiting is taken off. -/
theorem Wired.withdrawWaiter {β : Type} {waiters : List (Fut Task × β)}
    (hw : h.Wired home waits (waiters.map Prod.fst)) {t : Task} {e : Fut Task} (ht : waits t = some e) :
    h.Wired home (Function.update waits t none) ((waiters.filter fun w => w.1 ≠ e).map Prod.fst) := by
  have hmap : (waiters.filter fun w => w.1 ≠ e).map Prod.fst = (waiters.map Prod.fst).filter fun f => f ≠ e := by
    rw [List.filter_map]
    rfl
  rw [hmap]
  exact hw.withdraw ht

/-- A task whose event is not queued stops waiting. -/
theorem Wired.depart (hw : h.Wired home waits queue) {t : Task} {e : Fut Task} (ht : waits t = some e)
    (hn : e ∉ queue) : h.Wired home (Function.update waits t none) queue := by
  have hleft := hw.withdraw ht
  have hsame : (queue.filter fun f => f ≠ e) = queue := by
    rw [List.filter_eq_self]
    intro f hf
    have hne : f ≠ e := fun hfe => hn (hfe ▸ hf)
    simpa using hne
  rwa [hsame] at hleft

/-- A woken event is not queued. -/
theorem Wired.not_queued (hw : h.Wired home waits queue) {e : Fut Task} (hk : h.woken e = true) : e ∉ queue := by
  intro he
  rw [hw.asleep e he] at hk
  cases hk

/-- A task returns from its wait only if it was woken. -/
theorem Wired.woken_of_returns (hw : h.Wired home waits queue) {t : Task} {e : Fut Task}
    (hr : h.resumption t e = some .returns) : h.woken e = true := by
  have hflag := hw.result e (resumption_returns h hr)
  simp [woken, hflag]

/-- The event of a task on an open loop is queued or woken. -/
theorem Wired.queued_or_woken (hw : h.Wired home waits queue) {t : Task} {e : Fut Task} (ht : waits t = some e)
    (ho : h.closed (home t) = false) : e ∈ queue ∨ h.woken e = true := by
  rcases hw.placed t e ht with hm | hk | hc
  · exact .inl hm
  · exact .inr hk
  · simp [ho] at hc

/-! ## Waits that will raise -/

/-- If task `t` waits on `e`, its wait is going to raise. -/
def mustRaise (h : Host Loop Task) (t : Task) (e : Fut Task) : Prop := h.futs e = .cancelled ∨ h.mustCancel t = true

omit [DecidableEq Task] in
theorem mustRaise.not_returns {t : Task} {e : Fut Task} (hm : h.mustRaise t e) :
    h.resumption t e ≠ some .returns := by
  unfold resumption
  rcases hm with hm | hm
  · rw [hm]
    simp
  · rw [hm]
    cases h.futs e <;> simp

/-- A cancelled wait is going to raise. -/
theorem mustRaise_cancel (t : Task) (e : Fut Task) : (h.cancel t (some e)).mustRaise t e := by
  unfold mustRaise cancel
  rcases hf : h.futs e <;> simp [hf, setMustCancel]

theorem mustRaise.cancel {t : Task} {e : Fut Task} (hm : h.mustRaise t e) (u : Task) (e? : Option (Fut Task)) :
    (h.cancel u e?).mustRaise t e := by
  have hflag : (h.setMustCancel u true).mustRaise t e := by
    apply hm.imp_right
    intro hc
    show Function.update h.mustCancel u true t = true
    by_cases htu : t = u
    · rw [htu, Function.update_self]
    · rw [Function.update_of_ne htu]
      exact hc
  rcases cancel_cases h u e? with ⟨f, -, -, hc⟩ | hc
  · rw [hc]
    apply hm.imp_left
    intro hf
    show Function.update h.futs f .cancelled e = .cancelled
    by_cases hef : e = f
    · rw [hef, Function.update_self]
    · rw [Function.update_of_ne hef]
      exact hf
  · rw [hc]
    exact hflag

theorem mustRaise.setMustCancel {t u : Task} {e : Fut Task} (hm : h.mustRaise t e) (hne : t ≠ u) (b : Bool) :
    (h.setMustCancel u b).mustRaise t e := by
  apply hm.imp_right
  intro hc
  show Function.update h.mustCancel u b t = true
  rw [Function.update_of_ne hne]
  exact hc

/-- Another task starts to wait. -/
theorem mustRaise.wait {t u : Task} {e : Fut Task} (hm : h.mustRaise t e) (he : e.owner = t) (hne : t ≠ u) :
    (h.wait u).2.mustRaise t e := by
  have hfresh : e ≠ { owner := u, serial := h.created u } := by
    intro h
    apply hne
    rw [← he, h]
  refine hm.imp (fun hf => ?_) fun hc => ?_
  · show (if h.mustCancel u then Function.update h.futs _ .cancelled else h.futs) e = .cancelled
    split
    · rw [Function.update_of_ne hfresh]
      exact hf
    · exact hf
  · show Function.update h.mustCancel u false t = true
    rw [Function.update_of_ne hne]
    exact hc

theorem mustRaise.runCallback {t : Task} {e : Fut Task} (hm : h.mustRaise t e) {i : Nat}
    (hr : h.runCallback home i = some h') : h'.mustRaise t e := by
  obtain ⟨f, -, -, rfl⟩ := runCallback_cases h hr
  apply hm.imp_left
  intro hf
  by_cases hef : e = f
  · subst hef
    simp [set, hf]
  · rcases hp : h.futs f <;> simp [set, hp, hef, hf]

/-- Every cancellation is that of a task that was asked to cancel. -/
structure CancelledBy (asked : Task → Bool) (h : Host Loop Task) : Prop where
  flag : ∀ t, h.mustCancel t = true → asked t = true
  fut : ∀ e, h.futs e = .cancelled → asked e.owner = true
  noException : ∀ e, h.futs e ≠ .exception

omit [DecidableEq Task] in
theorem cancelledBy_new : CancelledBy (fun _ => false) (new : Host Loop Task) where
  flag _ h := h
  fut _ h := by cases h
  noException _ h := by cases h

omit [DecidableEq Task] in
/-- A wait raises only if its task was asked to cancel. -/
theorem CancelledBy.raises {asked : Task → Bool} (hb : h.CancelledBy asked) {t : Task} {e : Fut Task}
    (ho : e.owner = t) (hr : h.resumption t e = some .raises) : asked t = true := by
  unfold resumption at hr
  split at hr
  · cases hr
  · split at hr
    · rename_i hflag
      exact hb.flag t hflag
    · cases hr
  · rename_i hf
    exact absurd hf (hb.noException e)
  · rename_i hf
    rw [← ho]
    exact hb.fut e hf

theorem CancelledBy.setMustCancel {asked asked' : Task → Bool} (hb : h.CancelledBy asked) {t : Task} {b : Bool}
    (ha : ∀ u, asked u = true → asked' u = true) (ht : b = true → asked' t = true) :
    (h.setMustCancel t b).CancelledBy asked' := by
  refine ⟨fun u hu => ?_, fun e he => ha _ (hb.fut e he), hb.noException⟩
  have hflag : Function.update h.mustCancel t b u = true := hu
  by_cases hut : u = t
  · rw [hut, Function.update_self] at hflag
    rw [hut]
    exact ht hflag
  · rw [Function.update_of_ne hut] at hflag
    exact ha u (hb.flag u hflag)

theorem CancelledBy.cancel {asked asked' : Task → Bool} (hb : h.CancelledBy asked) {t : Task} {e? : Option (Fut Task)}
    (ha : ∀ u, asked u = true → asked' u = true) (ht : asked' t = true) (ho : ∀ e, e? = some e → e.owner = t) :
    (h.cancel t e?).CancelledBy asked' := by
  rcases cancel_cases h t e? with ⟨e, he, -, hc⟩ | hc
  · rw [hc]
    refine ⟨fun u hu => ha u (hb.flag u hu), fun f hf => ?_, fun f hf => ?_⟩
    · by_cases hfe : f = e
      · rw [hfe, ho e he]
        exact ht
      · exact ha _ (hb.fut f ((Function.update_of_ne hfe ..).symm.trans hf))
    · by_cases hfe : f = e
      · have hset : Function.update h.futs e .cancelled f = .exception := hf
        rw [hfe, Function.update_self] at hset
        cases hset
      · exact hb.noException f ((Function.update_of_ne hfe ..).symm.trans hf)
  · rw [hc]
    exact hb.setMustCancel ha fun _ => ht

theorem CancelledBy.wait {asked : Task → Bool} (hb : h.CancelledBy asked) (t : Task) :
    (h.wait t).2.CancelledBy asked := by
  have hfuts : ∀ e, (h.wait t).2.futs e = h.futs e ∨
      (h.wait t).2.futs e = .cancelled ∧ e.owner = t ∧ h.mustCancel t = true := by
    intro e
    by_cases hflag : h.mustCancel t = true
    · by_cases hen : e = (h.wait t).1
      · refine .inr ⟨?_, by rw [hen]; rfl, hflag⟩
        rw [hen]
        simp [Host.wait, hflag]
      · refine .inl ?_
        show (if h.mustCancel t then Function.update h.futs (h.wait t).1 .cancelled else h.futs) e = h.futs e
        rw [if_pos hflag, Function.update_of_ne hen]
    · refine .inl ?_
      show (if h.mustCancel t then Function.update h.futs (h.wait t).1 .cancelled else h.futs) e = h.futs e
      rw [if_neg hflag]
  refine ⟨fun u hu => ?_, fun e he => ?_, fun e he => ?_⟩
  · have hflag : Function.update h.mustCancel t false u = true := hu
    by_cases hut : u = t
    · rw [hut, Function.update_self] at hflag
      cases hflag
    · rw [Function.update_of_ne hut] at hflag
      exact hb.flag u hflag
  · rcases hfuts e with hsame | ⟨-, ho, hflag⟩
    · exact hb.fut e (hsame ▸ he)
    · rw [ho]
      exact hb.flag t hflag
  · rcases hfuts e with hsame | ⟨hc, -, -⟩
    · exact hb.noException e (hsame ▸ he)
    · rw [hc] at he
      cases he

theorem CancelledBy.runCallback {asked : Task → Bool} (hb : h.CancelledBy asked) {i : Nat}
    (hr : h.runCallback home i = some h') : h'.CancelledBy asked := by
  obtain ⟨f, -, -, rfl⟩ := runCallback_cases h hr
  have hfuts : ∀ e, (set { h with scheduled := h.scheduled.eraseIdx i } f).futs e = h.futs e ∨
      (set { h with scheduled := h.scheduled.eraseIdx i } f).futs e = .result () := by
    intro e
    by_cases hef : e = f
    · subst hef
      rcases hp : h.futs e <;> simp [set, hp]
    · rcases hp : h.futs f <;> simp [set, hp, hef]
  refine ⟨hb.flag, fun e he => ?_, fun e he => ?_⟩
  · rcases hfuts e with hsame | hres
    · exact hb.fut e (hsame ▸ he)
    · rw [hres] at he
      cases he
  · rcases hfuts e with hsame | hres
    · exact hb.noException e (hsame ▸ he)
    · rw [hres] at he
      cases he

/-! ## Grants in flight -/

/-- Task `t` is woken and has not gone on yet. -/
def inFlight (h : Host Loop Task) (waits : Task → Option (Fut Task)) (t : Task) : Bool :=
  (waits t).any h.woken

theorem inFlight_congr {waits' : Task → Option (Fut Task)} {t : Task} (hk : ∀ e, h'.woken e = h.woken e)
    (ht : waits' t = waits t) : h'.inFlight waits' t = h.inFlight waits t := by
  unfold inFlight
  rw [ht, funext hk]

/-- Waking events of another kind puts nobody in flight. -/
theorem inFlight_wakeElsewhere {es : List (Fut Task)} (hes : ∀ e ∈ es, waits e.owner ≠ some e)
    (hw : ∀ t e, waits t = some e → e.owner = t) (t : Task) :
    (h.callSoon es).inFlight waits t = h.inFlight waits t := by
  unfold inFlight
  cases ht : waits t with
  | none => rfl
  | some e =>
    have hnot : e ∉ es := by
      intro hm
      apply hes e hm
      rw [hw t e ht, ht]
    simp [hnot]

/-- Besides the tasks in flight, the owners of the events that are woken are
in flight. -/
theorem Wired.inFlight_callSoon (hw : h.Wired home waits queue) {es : List (Fut Task)} (hes : ∀ e ∈ es, e ∈ queue)
    (t : Task) : (h.callSoon es).inFlight waits t = (decide (t ∈ es.map Fut.owner) || h.inFlight waits t) := by
  unfold inFlight
  cases ht : waits t with
  | none =>
    have hnot : t ∉ es.map Fut.owner := by
      intro hm
      obtain ⟨e, he, rfl⟩ := List.mem_map.1 hm
      rw [hw.waited e (hes e he)] at ht
      cases ht
    simp [hnot]
  | some e =>
    have hiff : e ∈ es ↔ t ∈ es.map Fut.owner := by
      constructor
      · intro he
        exact List.mem_map.2 ⟨e, he, (hw.owner t e ht).1⟩
      · intro hm
        obtain ⟨f, hf, rfl⟩ := List.mem_map.1 hm
        have hwait := hw.waited f (hes f hf)
        rw [ht] at hwait
        cases hwait
        exact hf
    simp [hiff]

theorem Wired.inFlight_of_mem (hw : h.Wired home waits queue) {e : Fut Task} (he : e ∈ queue) :
    h.inFlight waits e.owner = false := by
  simp [inFlight, hw.waited e he, hw.asleep e he]

/-- Waking queued events puts as many tasks in flight. -/
theorem Wired.sum_inFlight_callSoon [Fintype Task] (hw : h.Wired home waits queue) {es : List (Fut Task)}
    (hnd : es.Nodup) (hes : ∀ e ∈ es, e ∈ queue) :
    ∑ t, ((h.callSoon es).inFlight waits t).toNat = ∑ t, (h.inFlight waits t).toNat + es.length := by
  have hinj : ∀ e ∈ es, ∀ f ∈ es, e.owner = f.owner → e = f := by
    intro e he f hf ho
    have hwait := hw.waited e (hes e he)
    rw [ho, hw.waited f (hes f hf)] at hwait
    exact (Option.some.inj hwait).symm
  have howners : (es.map Fut.owner).Nodup := hnd.map_on hinj
  have hnone : ∀ t ∈ es.map Fut.owner, h.inFlight waits t = false := by
    intro t ht
    obtain ⟨e, he, rfl⟩ := List.mem_map.1 ht
    exact hw.inFlight_of_mem (hes e he)
  rw [← List.length_map Fut.owner, ← sum_mark howners hnone]
  apply sum_same
  intro t
  rw [hw.inFlight_callSoon hes, Bool.or_comm]

/-! ## Events that are set -/

omit [DecidableEq Task] in
/-- No future of an event that is set is pending. -/
def Settled (h : Host Loop Task) : Prop := ∀ e, h.flag e = true → h.futs e ≠ .pending

omit [DecidableEq Task] in
theorem settled_new : (new : Host Loop Task).Settled := by
  intro e he
  cases he

theorem Settled.cancel (hs : h.Settled) (t : Task) (e? : Option (Fut Task)) : (h.cancel t e?).Settled := by
  rcases cancel_cases h t e? with ⟨f, -, -, hc⟩ | hc
  · rw [hc]
    intro e he
    show Function.update h.futs f .cancelled e ≠ .pending
    by_cases hef : e = f
    · rw [hef, Function.update_self]
      exact nofun
    · rw [Function.update_of_ne hef]
      exact hs e he
  · rw [hc]
    exact hs

theorem Settled.wait (hs : h.Settled) (t : Task) : (h.wait t).2.Settled := by
  intro e he
  show (if h.mustCancel t then Function.update h.futs _ .cancelled else h.futs) e ≠ .pending
  split
  · by_cases hnew : e = { owner := t, serial := h.created t }
    · rw [hnew, Function.update_self]
      exact nofun
    · rw [Function.update_of_ne hnew]
      exact hs e he
  · exact hs e he

omit [DecidableEq Task] in
/-- A wait goes on when its future is done. -/
theorem resumption_ne_none (t : Task) {e : Fut Task} (hf : h.futs e ≠ .pending) : h.resumption t e ≠ none := by
  unfold resumption
  cases he : h.futs e with
  | pending => exact absurd he hf
  | result => cases h.mustCancel t <;> exact nofun
  | exception => exact nofun
  | cancelled => exact nofun

/-- The future of an event that is being set is done. -/
theorem set_futs (e : Fut Task) : (h.set e).futs e ≠ .pending := by
  cases hf : h.futs e <;> simp [set, hf]

theorem set_futs_other {e f : Fut Task} (hne : f ≠ e) : (h.set e).futs f = h.futs f := by
  cases hf : h.futs e <;> simp [set, hf, hne]

theorem Settled.runCallback (hs : h.Settled) {i : Nat} (hr : h.runCallback home i = some h') :
    h'.Settled := by
  obtain ⟨f, -, -, rfl⟩ := runCallback_cases h hr
  intro e he
  by_cases hef : e = f
  · rw [hef]
    exact set_futs f
  · rw [set_futs_other hef]
    change Function.update h.flag f true e = true at he
    rw [Function.update_of_ne hef] at he
    exact hs e he

end Host

end Multiloop
