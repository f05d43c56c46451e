import Multiloop.Framework.Transition
import Multiloop.Sync.Pool

/-!
# `Event`

The one-shot event of `_sync.py`, and the runs of any number of tasks over one:
they wait, are woken, resumed and cancelled, and the event is set, in any order.
In every run a call of `wait` returns only after the event was set, and then no
task sleeps for good on an open loop (`set_reaches_all`, `returns_once_set`).

`set` hands the events to their loops after it has left the mutex. A loop may set
an event at any later time, so here they are handed over at once.
-/

namespace Multiloop.Sync

variable {Loop Task : Type}

/-- `Event`. -/
structure Event (Loop Task : Type) where
  flag : Bool
  /-- event → loop, in the order of registration. -/
  waiters : List (Waiter Loop Task)

namespace Event

/-- Where a task is in `wait`. -/
inductive Pc (Task : Type)
  /-- Outside of `wait`. -/
  | outside
  /-- Suspended on the event. -/
  | waiting (event : Fut Task)
  /-- The wait raised, about to remove the event. -/
  | leaving (event : Fut Task)
deriving DecidableEq

/-- The event a task waits on, or has ceased to wait on by an exception. -/
def Pc.event? : Pc Task → Option (Fut Task)
  | .waiting e | .leaving e => some e
  | .outside => none

/-- The steps of a run. -/
inductive Action (Loop Task : Type)
  | wait (t : Task)
  /-- The event loop resumes the task. -/
  | resume (t : Task)
  /-- The `except` block. -/
  | leave (t : Task)
  | set
  /-- `other` is the event of another kind that the task waits on, if any. -/
  | cancel (t : Task) (other : Option (Fut Task))
  /-- An event loop runs the `i`-th scheduled `event.set`. -/
  | runCallback (i : Nat)
  | closeLoop (l : Loop)
  /-- The task starts to wait on an event of another kind. -/
  | waitElsewhere (t : Task)
  /-- An event of another kind is handed to its loop. -/
  | wakeElsewhere (e : Fut Task)
  /-- The task runs code of its own, which leaves its cancellation flag `b`. -/
  | elsewhere (t : Task) (b : Bool)

/-- The event, its tasks and their loops. -/
structure Sys (Loop Task : Type) where
  event : Event Loop Task
  host : Host Loop Task
  pc : Task → Pc Task
  /-- The tasks whose calls of `wait` returned, in order. -/
  returned : List Task
  /-- The task was asked to cancel. -/
  asked : Task → Bool

namespace Sys

/-- `Event.__init__`, for no task yet. -/
def new : Sys Loop Task where
  event := { flag := false, waiters := [] }
  host := .new
  pc _ := .outside
  returned := []
  asked _ := false

variable [DecidableEq Task] (home : Task → Loop) (s : Sys Loop Task)

omit [DecidableEq Task] in
/-- The event each task waits on. -/
def waits (t : Task) : Option (Fut Task) := (s.pc t).event?

omit [DecidableEq Task] in
/-- The loop of task `t` is open. -/
def isOpen (t : Task) : Bool := ! s.host.closed (home t)

/-- A task goes on. -/
def goto (t : Task) (p : Pc Task) : Sys Loop Task := { s with pc := Function.update s.pc t p }

/-- A call of `wait` of task `t` returns. -/
def answer (t : Task) : Sys Loop Task := { s with returned := s.returned ++ [t] }.goto t .outside

/-- A call of `wait` up to its suspension. -/
def wait (t : Task) : Sys Loop Task :=
  if s.event.flag then s.answer t
  else
    { s with
      event := { s.event with waiters := s.event.waiters ++ [((s.host.wait t).1, home t)] }
      host := (s.host.wait t).2 }.goto t (.waiting (s.host.wait t).1)

/-- The event loop resumes the task, whose wait returns or raises. -/
def resume (t : Task) (e : Fut Task) : Option (Sys Loop Task) :=
  match s.host.resumption t e with
  | some .returns => some (s.answer t)
  | some .raises => some ({ s with host := s.host.setMustCancel t false }.goto t (.leaving e))
  | none => none

/-- The `except` block of `wait`. -/
def leave (t : Task) (e : Fut Task) : Sys Loop Task :=
  { s with event := { s.event with waiters := s.event.waiters.filter (·.1 ≠ e) } }.goto t .outside

omit [DecidableEq Task] in
/-- `Event.set` with the calls of `call_soon_threadsafe` that follow it, in one step. -/
def set : Sys Loop Task :=
  { s with
    event := { flag := true, waiters := [] }
    host := s.host.callSoon ((s.event.waiters.filter fun w => ! s.host.closed w.2).map Prod.fst) }

variable [DecidableEq Loop]

/-- The steps of the tasks; `none` for one that cannot be taken. -/
def step : Action Loop Task → Option (Sys Loop Task)
  | .wait t => if s.isOpen home t ∧ s.pc t = .outside then some (s.wait home t) else none
  | .resume t =>
    match s.pc t with
    | .waiting e => if s.isOpen home t then s.resume t e else none
    | _ => none
  | .leave t =>
    match s.pc t with
    | .leaving e => if s.isOpen home t then some (s.leave t e) else none
    | _ => none
  | .set => some s.set
  | .cancel t other =>
    let s := { s with asked := Function.update s.asked t true }
    match s.pc t with
    | .waiting e => some { s with host := s.host.cancel t (some e) }
    | .leaving _ => some { s with host := s.host.cancel t none }
    | .outside => if other.all (·.owner = t) then some { s with host := s.host.cancel t other } else none
  | .runCallback i => (s.host.runCallback home i).map fun host => { s with host }
  | .closeLoop l => some { s with host := s.host.closeLoop l }
  | .waitElsewhere t =>
    if s.isOpen home t ∧ s.pc t = .outside then some { s with host := (s.host.wait t).2 } else none
  | .wakeElsewhere e =>
    if s.waits e.owner ≠ some e ∧ e.serial < s.host.created e.owner then
      some { s with host := s.host.callSoon [e] }
    else none
  | .elsewhere t b =>
    if s.pc t = .outside then
      some { s with
        host := s.host.setMustCancel t b
        asked := Function.update s.asked t (s.asked t || b) }
    else none

end Sys

/-- The runs of tasks over a fresh event. -/
def tasks [DecidableEq Task] [DecidableEq Loop] (home : Task → Loop) : System (Sys Loop Task) (Action Loop Task) where
  init s := s = Sys.new
  step s := s.step home

/-! ## Every run -/

namespace Sys

variable [DecidableEq Task] {home : Task → Loop} {s s' : Sys Loop Task} {t u : Task} {e : Fut Task}

/-- What the event, the tasks and the host have to do with each other. -/
structure Sound (home : Task → Loop) (s : Sys Loop Task) : Prop where
  wired : s.host.Wired home s.waits (s.event.waiters.map Prod.fst)
  blamed : s.host.CancelledBy s.asked
  settled : s.host.Settled
  loops : ∀ w ∈ s.event.waiters, w.2 = home w.1.owner
  leaving : ∀ t e, s.pc t = .leaving e → s.asked t = true
  registered : s.event.flag = false → ∀ t e, s.waits t = some e → e ∈ s.event.waiters.map Prod.fst
  returned : s.event.flag = false → s.returned = []
  cleared : s.event.flag = true → s.event.waiters = []

theorem sound_new : (new : Sys Loop Task).Sound home where
  wired := Host.wired_new
  blamed := Host.cancelledBy_new
  settled := Host.settled_new
  loops _ hw := absurd hw List.not_mem_nil
  leaving _ _ hpc := by cases hpc
  registered _ _ _ ht := by cases ht
  returned _ := rfl
  cleared _ := rfl

omit [DecidableEq Task] in
theorem waits_of_pc {p : Pc Task} (h : s.pc t = p) : s.waits t = p.event? := by
  rw [← h]
  rfl

theorem waits_goto (p : Pc Task) : (s.goto t p).waits = Function.update s.waits t p.event? :=
  Function.comp_update Pc.event? s.pc t p

/-- A change of the host, and of who was asked to cancel. -/
theorem Sound.ofHost (h : s.Sound home) {host : Host Loop Task} {asked : Task → Bool}
    (hw : host.Wired home s.waits (s.event.waiters.map Prod.fst)) (hb : host.CancelledBy asked)
    (hs : host.Settled) (ha : ∀ t, s.asked t = true → asked t = true) : Sound home { s with host, asked } :=
  ⟨hw, hb, hs, h.loops, fun t e hpc => ha t (h.leaving t e hpc), h.registered, h.returned, h.cleared⟩

/-- A task goes on. -/
theorem Sound.goto (h : s.Sound home) {p : Pc Task}
    (hw : s.host.Wired home (Function.update s.waits t p.event?) (s.event.waiters.map Prod.fst))
    (hp : ∀ e, p = .leaving e → s.asked t = true)
    (hr : s.event.flag = false → ∀ e, p.event? = some e → e ∈ s.event.waiters.map Prod.fst) :
    (s.goto t p).Sound home := by
  refine ⟨?_, h.blamed, h.settled, h.loops, fun u e hpc => ?_, fun hflag u e hu => ?_, h.returned, h.cleared⟩
  · rw [waits_goto]
    exact hw
  · change Function.update s.pc t p u = .leaving e at hpc
    by_cases hut : u = t
    · rw [hut, Function.update_self] at hpc
      rw [hut]
      exact hp e hpc
    · rw [Function.update_of_ne hut] at hpc
      exact h.leaving u e hpc
  · rw [waits_goto] at hu
    by_cases hut : u = t
    · rw [hut, Function.update_self] at hu
      exact hr hflag e hu
    · rw [Function.update_of_ne hut] at hu
      exact h.registered hflag u e hu

/-- A call of `wait` returns when the event was set. -/
theorem Sound.answer (h : s.Sound home) (hflag : s.event.flag = true)
    (hw : s.host.Wired home (Function.update s.waits t none) (s.event.waiters.map Prod.fst)) :
    (s.answer t).Sound home := by
  have hset : Sound home { s with returned := s.returned ++ [t] } := by
    refine ⟨h.wired, h.blamed, h.settled, h.loops, h.leaving, h.registered, fun hoff => ?_, h.cleared⟩
    cases hflag.symm.trans hoff
  exact hset.goto hw nofun fun _ _ => nofun

theorem Sound.wait (h : s.Sound home) (hpc : s.pc t = .outside) : (s.wait home t).Sound home := by
  have hwaits : s.waits t = none := waits_of_pc hpc
  unfold Sys.wait
  split
  · rename_i hflag
    refine h.answer hflag ?_
    rw [← hwaits, Function.update_eq_self]
    exact h.wired
  · rename_i hflag
    have hwired := h.wired.enlist hwaits
    refine ⟨?_, h.blamed.wait t, h.settled.wait t, fun w hw => ?_, fun u e hu => ?_, fun _ u e hu => ?_, h.returned,
      fun hset => absurd hset hflag⟩
    · rw [waits_goto]
      show Host.Wired home _ _ ((s.event.waiters ++ [((s.host.wait t).1, home t)]).map Prod.fst)
      rw [List.map_append]
      exact hwired
    · rcases List.mem_append.1 hw with hw | hw
      · exact h.loops w hw
      · rw [List.mem_singleton.1 hw]
        rfl
    · change Function.update s.pc t _ u = .leaving e at hu
      by_cases hut : u = t
      · rw [hut, Function.update_self] at hu
        cases hu
      · rw [Function.update_of_ne hut] at hu
        exact h.leaving u e hu
    · rw [waits_goto] at hu
      show e ∈ (s.event.waiters ++ [((s.host.wait t).1, home t)]).map Prod.fst
      rw [List.map_append, List.mem_append]
      by_cases hut : u = t
      · rw [hut, Function.update_self] at hu
        cases hu
        exact .inr (List.mem_singleton_self _)
      · rw [Function.update_of_ne hut] at hu
        exact .inl (h.registered (Bool.eq_false_iff.2 hflag) u e hu)

/-- A wait returns only if the event was set: else it is registered, and asleep. -/
theorem Sound.flag_of_returns (h : s.Sound home) (hpc : s.pc t = .waiting e)
    (hr : s.host.resumption t e = some .returns) : s.event.flag = true := by
  by_contra hoff
  have hqueued := h.registered (Bool.eq_false_iff.2 hoff) t e (waits_of_pc hpc)
  exact h.wired.not_queued (h.wired.woken_of_returns hr) hqueued

theorem Sound.resume (h : s.Sound home) (hpc : s.pc t = .waiting e) (hst : s.resume t e = some s') :
    s'.Sound home := by
  have hwaits : s.waits t = some e := waits_of_pc hpc
  unfold Sys.resume at hst
  split at hst
  · rename_i hr
    cases hst
    exact h.answer (h.flag_of_returns hpc hr) (h.wired.depart hwaits (h.wired.not_queued (h.wired.woken_of_returns hr)))
  · rename_i hr
    cases hst
    have hasked := h.blamed.raises (h.wired.owner t e hwaits).1 hr
    have hhost : Sound home { s with host := s.host.setMustCancel t false } :=
      h.ofHost (h.wired.setMustCancel t false) (h.blamed.setMustCancel (fun _ => id) nofun) h.settled fun _ => id
    refine hhost.goto ?_ (fun _ _ => hasked) fun hflag f hf => ?_
    · show Host.Wired home _ (Function.update s.waits t (some e)) _
      rw [← hwaits, Function.update_eq_self]
      exact hhost.wired
    · cases hf
      exact h.registered hflag t e hwaits
  · cases hst

theorem Sound.leave (h : s.Sound home) (hpc : s.pc t = .leaving e) : (s.leave t e).Sound home := by
  have hwaits : s.waits t = some e := waits_of_pc hpc
  refine ⟨?_, h.blamed, h.settled, fun w hw => h.loops w (List.mem_of_mem_filter hw), fun u f hu => ?_,
    fun hflag u f hu => ?_, h.returned, fun hflag => ?_⟩
  · unfold Sys.leave
    rw [waits_goto]
    exact h.wired.withdrawWaiter hwaits
  · change Function.update s.pc t _ u = .leaving f at hu
    by_cases hut : u = t
    · rw [hut, Function.update_self] at hu
      cases hu
    · rw [Function.update_of_ne hut] at hu
      exact h.leaving u f hu
  · unfold Sys.leave at hu
    rw [waits_goto] at hu
    by_cases hut : u = t
    · rw [hut, Function.update_self] at hu
      cases hu
    · rw [Function.update_of_ne hut] at hu
      have hne : f ≠ e := by
        rintro rfl
        exact hut ((h.wired.owner u f hu).1.symm.trans (h.wired.owner t f hwaits).1)
      obtain ⟨w, hw, rfl⟩ := List.mem_map.1 (h.registered hflag u f hu)
      exact List.mem_map.2 ⟨w, List.mem_filter.2 ⟨hw, decide_eq_true hne⟩, rfl⟩
  · show s.event.waiters.filter _ = []
    rw [h.cleared hflag]
    rfl

theorem Sound.set (h : s.Sound home) : s.set.Sound home :=
  ⟨h.wired.handOffAll h.loops, ⟨h.blamed.flag, h.blamed.fut, h.blamed.noException⟩, h.settled,
    fun _ hw => absurd hw List.not_mem_nil, h.leaving, nofun, nofun, fun _ => rfl⟩

variable [DecidableEq Loop]

theorem Sound.step (h : s.Sound home) {a : Action Loop Task} (hst : s.step home a = some s') : s'.Sound home := by
  cases a with
  | wait t =>
    obtain ⟨⟨-, hpc⟩, heq⟩ := Option.ite_none_right_eq_some.1 hst
    cases heq
    exact h.wait hpc
  | resume t =>
    simp only [Sys.step] at hst
    split at hst
    · rename_i e hpc
      exact h.resume hpc (Option.ite_none_right_eq_some.1 hst).2
    · cases hst
  | leave t =>
    simp only [Sys.step] at hst
    split at hst
    · rename_i e hpc
      obtain ⟨-, heq⟩ := Option.ite_none_right_eq_some.1 hst
      cases heq
      exact h.leave hpc
    · cases hst
  | set =>
    cases hst
    exact h.set
  | cancel t other =>
    have hself : Function.update s.asked t true t = true := Function.update_self ..
    have hmono : ∀ u, s.asked u = true → Function.update s.asked t true u = true := by
      intro u hu
      by_cases hut : u = t
      · rw [hut]
        exact hself
      · rw [Function.update_of_ne hut]
        exact hu
    have hcancel : ∀ e? : Option (Fut Task), (∀ e, e? = some e → e.owner = t) →
        Sound home { s with host := s.host.cancel t e?, asked := Function.update s.asked t true } := fun e? he =>
      h.ofHost (h.wired.cancel t e?) (h.blamed.cancel hmono hself he) (h.settled.cancel t e?) hmono
    simp only [Sys.step] at hst
    split at hst
    · rename_i e hpc
      cases hst
      refine hcancel (some e) fun f hf => ?_
      cases hf
      exact (h.wired.owner t e (waits_of_pc hpc)).1
    · cases hst
      exact hcancel none nofun
    · obtain ⟨hall, heq⟩ := Option.ite_none_right_eq_some.1 hst
      cases heq
      refine hcancel other fun f hf => ?_
      rw [hf] at hall
      exact of_decide_eq_true hall
  | runCallback i =>
    obtain ⟨host, hr, rfl⟩ := Option.map_eq_some_iff.1 hst
    exact h.ofHost (h.wired.runCallback hr) (h.blamed.runCallback hr) (h.settled.runCallback hr) fun _ => id
  | closeLoop l =>
    cases hst
    exact h.ofHost (h.wired.closeLoop l) ⟨h.blamed.flag, h.blamed.fut, h.blamed.noException⟩ h.settled fun _ => id
  | waitElsewhere t =>
    obtain ⟨-, heq⟩ := Option.ite_none_right_eq_some.1 hst
    cases heq
    exact h.ofHost (h.wired.waitElsewhere t) (h.blamed.wait t) (h.settled.wait t) fun _ => id
  | wakeElsewhere e =>
    obtain ⟨he, heq⟩ := Option.ite_none_right_eq_some.1 hst
    cases heq
    have hes : ∀ f ∈ [e], s.waits f.owner ≠ some f ∧ f.serial < s.host.created f.owner := by
      intro f hf
      rw [List.mem_singleton.1 hf]
      exact he
    exact h.ofHost (h.wired.wakeElsewhere hes) ⟨h.blamed.flag, h.blamed.fut, h.blamed.noException⟩ h.settled fun _ => id
  | elsewhere t b =>
    obtain ⟨-, heq⟩ := Option.ite_none_right_eq_some.1 hst
    cases heq
    have hmono : ∀ u, s.asked u = true → Function.update s.asked t (s.asked t || b) u = true := by
      intro u hu
      by_cases hut : u = t
      · rw [hut, Function.update_self, ← hut, hu, Bool.true_or]
      · rw [Function.update_of_ne hut]
        exact hu
    refine h.ofHost (h.wired.setMustCancel t b) (h.blamed.setMustCancel hmono fun hb => ?_) h.settled hmono
    rw [Function.update_self, hb, Bool.or_true]

omit [DecidableEq Loop] in
/-- A call that waits on an open loop goes on once the event is set, or its loop is
to set its event. -/
theorem Sound.goes_on (h : s.Sound home) (hflag : s.event.flag = true) (hpc : s.pc t = .waiting e)
    (hopen : s.isOpen home t = true) : e ∈ s.host.scheduled ∨ s.host.resumption t e ≠ none := by
  have hclosed : s.host.closed (home t) = false := by simpa [isOpen] using hopen
  rcases h.wired.queued_or_woken (waits_of_pc hpc) hclosed with hqueued | hwoken
  · rw [h.cleared hflag] at hqueued
    exact absurd hqueued List.not_mem_nil
  · rcases Bool.or_eq_true_iff.1 hwoken with hscheduled | hset
    · exact .inl (of_decide_eq_true hscheduled)
    · exact .inr (Host.resumption_ne_none t (h.settled e hset))

end Sys

variable [DecidableEq Task] [DecidableEq Loop] {home : Task → Loop} {s : Sys Loop Task} {t : Task} {e : Fut Task}

theorem sound_of_reachable (h : (tasks home).Reachable s) : s.Sound home := by
  refine System.Reachable.inv (I := Sys.Sound home) ?_ (fun s a s' hs hst => hs.step hst) h
  rintro s rfl
  exact Sys.sound_new

/-- Until the event is set, no call of `wait` returns, and the registered events are
those of the calls that wait. Then none is registered, and each call that waits on
an open loop can go on, or its loop is to set its event. A call raises only if its
task was asked to cancel. -/
theorem set_reaches_all (h : (tasks home).Reachable s) :
    (s.event.flag = false → s.returned = [] ∧
      ∀ t e, s.waits t = some e ↔ e ∈ s.event.waiters.map Prod.fst ∧ e.owner = t) ∧
    (s.event.flag = true → s.event.waiters = [] ∧
      ∀ t e, s.pc t = .waiting e → s.isOpen home t = true →
        e ∈ s.host.scheduled ∨ s.host.resumption t e ≠ none) ∧
    ∀ t e, s.pc t = .leaving e → s.asked t = true := by
  have hsound := sound_of_reachable h
  refine ⟨fun hoff => ⟨hsound.returned hoff, fun t e => ⟨fun ht => ?_, fun ⟨he, ho⟩ => ?_⟩⟩,
    fun hset => ⟨hsound.cleared hset, fun t e hpc hopen => hsound.goes_on hset hpc hopen⟩, hsound.leaving⟩
  · exact ⟨hsound.registered hoff t e ht, (hsound.wired.owner t e ht).1⟩
  · rw [← ho]
    exact hsound.wired.waited e he

/-- A call that was asked to cancel and one that was not, when the event is set. -/
theorem set_reaches_all_cancelled : ∃ s : Sys Unit Bool,
    (s.event.flag = true ∧ s.pc true = .leaving { owner := true, serial := 0 }) ∧
    (s.event.flag = false → s.returned = [] ∧
      ∀ t e, s.waits t = some e ↔ e ∈ s.event.waiters.map Prod.fst ∧ e.owner = t) ∧
    (s.event.flag = true → s.event.waiters = [] ∧
      ∀ t e, s.pc t = .waiting e → s.isOpen (fun _ => ()) t = true →
        e ∈ s.host.scheduled ∨ s.host.resumption t e ≠ none) ∧
    ∀ t e, s.pc t = .leaving e → s.asked t = true := by
  obtain ⟨s, hs, hset⟩ := System.exists_reachable_of_run (M := tasks fun _ : Bool => ()) (s := Sys.new)
    [.wait true, .wait false, .cancel true none, .set, .resume true]
    (p := fun s => s.event.flag = true ∧ s.pc true = .leaving { owner := true, serial := 0 }) rfl (by decide +kernel)
  exact ⟨s, hset, set_reaches_all hs⟩

/-- Once the event is set, a call of `wait` on an open loop, whose task was not asked
to cancel, returns after at most one `event.set` of its loop. -/
theorem returns_once_set (h : (tasks home).Reachable s) (hflag : s.event.flag = true) (hpc : s.pc t = .waiting e)
    (hopen : s.isOpen home t = true) (hasked : s.asked t = false) :
    ∃ as s', as.length ≤ 2 ∧ (tasks home).run s as = some s' ∧ s'.returned = s.returned ++ [t] := by
  have hsound := sound_of_reachable h
  have howner := (hsound.wired.owner t e (Sys.waits_of_pc hpc)).1
  -- The loop resumes the task.
  have hresume : ∀ {s : Sys Loop Task}, s.Sound home → s.pc t = .waiting e → s.isOpen home t = true →
      s.asked t = false → s.host.resumption t e ≠ none →
      (tasks home).step s (.resume t) = some (s.answer t) := by
    intro s hsound hpc hopen hasked hgoes
    have hreturns : s.host.resumption t e = some .returns := by
      cases hr : s.host.resumption t e with
      | none => exact absurd hr hgoes
      | some r =>
        cases r with
        | returns => rfl
        | raises => cases hasked.symm.trans (hsound.blamed.raises howner hr)
    show s.step home (.resume t) = _
    simp only [Sys.step, hpc, hopen, if_true, Sys.resume, hreturns]
  by_cases hgoes : s.host.resumption t e = none
  · have hscheduled := (hsound.goes_on hflag hpc hopen).resolve_right fun hne => hne hgoes
    obtain ⟨i, hi⟩ := List.mem_iff_getElem?.1 hscheduled
    have hclosed : s.host.closed (home e.owner) = false := by
      rw [howner]
      simpa [Sys.isOpen] using hopen
    have hrun : s.host.runCallback home i = some ({ s.host with scheduled := s.host.scheduled.eraseIdx i }.set e) := by
      unfold Host.runCallback
      simp [hi, hclosed]
    have hstep : s.step home (.runCallback i) =
        some { s with host := { s.host with scheduled := s.host.scheduled.eraseIdx i }.set e } :=
      Option.map_eq_some_iff.2 ⟨_, hrun, rfl⟩
    have hnext := hresume (hsound.step hstep) hpc hopen hasked (Host.resumption_ne_none t (Host.set_futs e))
    refine ⟨[.runCallback i, .resume t],
      Sys.answer { s with host := { s.host with scheduled := s.host.scheduled.eraseIdx i }.set e } t, Nat.le_refl _,
      ?_, rfl⟩
    have hrun : (tasks home).step s (.runCallback i) = _ := hstep
    simp only [System.run, hrun, hnext, Option.bind_some]
  · have hnext := hresume hsound hpc hopen hasked hgoes
    refine ⟨[.resume t], s.answer t, Nat.le_succ _, ?_, rfl⟩
    simp only [System.run, hnext, Option.bind_some]

/-- Its loop has yet to set the event. -/
theorem returns_once_set_scheduled : ∃ s : Sys Unit Unit,
    (s.pc () = .waiting { owner := (), serial := 0 } ∧ s.event.flag = true) ∧
    ∃ as s', as.length ≤ 2 ∧ (tasks fun _ : Unit => ()).run s as = some s' ∧ s'.returned = s.returned ++ [()] := by
  obtain ⟨s, hs, hpc, hflag, hopen, hasked⟩ := System.exists_reachable_of_run (M := tasks fun _ : Unit => ())
    (s := Sys.new) [.wait (), .set]
    (p := fun s => s.pc () = .waiting { owner := (), serial := 0 } ∧ s.event.flag = true ∧
      s.isOpen (fun _ => ()) () = true ∧ s.asked () = false) rfl (by decide +kernel)
  exact ⟨s, ⟨hpc, hflag⟩, returns_once_set hs hflag hpc hopen hasked⟩

end Event

end Multiloop.Sync
