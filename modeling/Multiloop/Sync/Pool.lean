import Mathlib.Algebra.Order.BigOperators.Group.Finset
import Multiloop.Framework.Ledger
import Multiloop.Framework.Transition
import Multiloop.Sync.Event

/-!
# Tasks that share permits

A `Pool` is the state machine of a primitive that hands out permits and queues
the tasks it has none for: what each operation returns, which events it hands
to their loops to be set, and the state it leaves. `tasks` are the runs of any
number of tasks over one pool: they acquire and release, are woken, resumed and
cancelled in any order, the pool is adjusted, and loops are closed.

`Pool.Lawful` is what the operations have to do with the queue and with the
number of permits in use; `account_of_reachable` says what follows for every
run: the permits in use are the permits held, and those in flight to tasks
that were woken and have not gone on yet.
-/

namespace Multiloop.Sync

/-- A registered waiter: (event, event loop). -/
abbrev Waiter (Loop Task : Type) := Fut Task × Loop

/-- The operations of a primitive that gives out permits, each under its lock. -/
structure Pool (Loop Task S Arg : Type) where
  waiters : S → List (Waiter Loop Task)
  /-- The permits in use. -/
  used : S → Int
  /-- Whether a permit is taken; if none is, the waiter is registered. -/
  acquire : Waiter Loop Task → S → Bool × S
  /-- A waiter gives up: the events to set. -/
  cancelWaiter : (Loop → Bool) → Fut Task → S → List (Fut Task) × S
  /-- A permit is given back: the events to set, `none` for an error. -/
  release : (Loop → Bool) → S → Option (List (Fut Task) × S)
  adjust : (Loop → Bool) → Arg → S → List (Fut Task) × S

variable {Loop Task S Arg : Type}

/-- The first waiters were taken off `queue`, which leaves `rest`; those whose
loops are open are woken. -/
def HandOff (isOpen : Loop → Bool) (queue : List (Waiter Loop Task)) (woken : List (Fut Task))
    (rest : List (Waiter Loop Task)) : Prop :=
  ∃ popped, queue = popped ++ rest ∧ woken = (popped.filter fun w => isOpen w.2).map Prod.fst

/-- The loop that takes waiters off the queue until it can wake one: the event
it sets, if any, and the waiters left. -/
def wakeNext (isOpen : Loop → Bool) : List (Waiter Loop Task) → Option (Fut Task) × List (Waiter Loop Task)
  | [] => (none, [])
  | (event, loop) :: waiters =>
    if isOpen loop then (some event, waiters) else wakeNext isOpen waiters

theorem HandOff.refl (isOpen : Loop → Bool) (queue : List (Waiter Loop Task)) : HandOff isOpen queue [] queue :=
  ⟨[], rfl, rfl⟩

theorem handOff_wakeNext (isOpen : Loop → Bool) (queue : List (Waiter Loop Task)) :
    HandOff isOpen queue (wakeNext isOpen queue).1.toList (wakeNext isOpen queue).2 := by
  induction queue with
  | nil => exact .refl _ _
  | cons w ws ih =>
    obtain ⟨event, loop⟩ := w
    unfold wakeNext
    cases ho : isOpen loop with
    | true => exact ⟨[(event, loop)], rfl, by simp [ho]⟩
    | false =>
      obtain ⟨popped, hq, hwoken⟩ := ih
      refine ⟨(event, loop) :: popped, ?_, ?_⟩
      · simpa using hq
      · simpa [ho] using hwoken

/-- If nobody is woken, nobody is left. -/
theorem wakeNext_none {isOpen : Loop → Bool} {queue : List (Waiter Loop Task)}
    (h : (wakeNext isOpen queue).1 = none) : (wakeNext isOpen queue).2 = [] := by
  induction queue with
  | nil => rfl
  | cons w ws ih =>
    obtain ⟨event, loop⟩ := w
    unfold wakeNext at h ⊢
    cases ho : isOpen loop with
    | true => simp [ho] at h
    | false =>
      simp only [ho, Bool.false_eq_true, if_false] at h ⊢
      exact ih h

/-- The first waiter whose loop is open is woken, if there is one. -/
theorem wakeNext_cases (isOpen : Loop → Bool) (queue : List (Waiter Loop Task)) :
    (∃ popped w rest, queue = popped ++ w :: rest ∧ (∀ v ∈ popped, isOpen v.2 = false) ∧ isOpen w.2 = true ∧
      wakeNext isOpen queue = (some w.1, rest)) ∨
    (∀ v ∈ queue, isOpen v.2 = false) ∧ wakeNext isOpen queue = (none, []) := by
  induction queue with
  | nil => exact .inr ⟨fun v hv => absurd hv List.not_mem_nil, rfl⟩
  | cons w ws ih =>
    obtain ⟨event, loop⟩ := w
    unfold wakeNext
    cases ho : isOpen loop with
    | true =>
      refine .inl ⟨[], (event, loop), ws, rfl, fun v hv => absurd hv List.not_mem_nil, ho, ?_⟩
      exact if_pos rfl
    | false =>
      rw [if_neg Bool.false_ne_true]
      rcases ih with ⟨popped, v, rest, hq, hp, hv, hw⟩ | ⟨hall, hw⟩
      · refine .inl ⟨(event, loop) :: popped, v, rest, by rw [hq, List.cons_append], ?_, hv, hw⟩
        exact List.forall_mem_cons.2 ⟨ho, hp⟩
      · exact .inr ⟨List.forall_mem_cons.2 ⟨ho, hall⟩, hw⟩

/-- What the operations of a pool do. -/
structure Pool.Lawful [DecidableEq Task] (P : Pool Loop Task S Arg) : Prop where
  acquired : ∀ w s s', P.acquire w s = (true, s') → P.waiters s' = P.waiters s ∧ P.used s' = P.used s + 1
  enlisted : ∀ w s s', P.acquire w s = (false, s') → P.waiters s' = P.waiters s ++ [w] ∧ P.used s' = P.used s
  withdrawn : ∀ o e s woken s', e ∈ (P.waiters s).map Prod.fst → P.cancelWaiter o e s = (woken, s') →
    woken = [] ∧ P.waiters s' = (P.waiters s).filter (fun w => w.1 ≠ e) ∧ P.used s' = P.used s
  passedOn : ∀ o e s woken s', e ∉ (P.waiters s).map Prod.fst → P.cancelWaiter o e s = (woken, s') →
    HandOff o (P.waiters s) woken (P.waiters s') ∧ P.used s' + 1 = P.used s + woken.length
  released : ∀ o s woken s', P.release o s = some (woken, s') →
    HandOff o (P.waiters s) woken (P.waiters s') ∧ P.used s' + 1 = P.used s + woken.length
  adjusted : ∀ o a s woken s', P.adjust o a s = (woken, s') →
    HandOff o (P.waiters s) woken (P.waiters s') ∧ P.used s' = P.used s + woken.length

/-- A property of the pool's state that its operations keep. -/
structure Pool.Keeps (P : Pool Loop Task S Arg) (I : S → Prop) : Prop where
  acquire : ∀ w s, I s → I (P.acquire w s).2
  cancelWaiter : ∀ o e s, I s → I (P.cancelWaiter o e s).2
  release : ∀ o s woken s', I s → P.release o s = some (woken, s') → I s'
  adjust : ∀ o a s, I s → I (P.adjust o a s).2

/-- An operation that gives a permit to someone leaves a state that meets `Q`. -/
structure Pool.GivesWithin (P : Pool Loop Task S Arg) (Q : S → Prop) : Prop where
  acquire : ∀ w s s', P.acquire w s = (true, s') → Q s'
  cancelWaiter : ∀ o e s woken s', P.cancelWaiter o e s = (woken, s') → woken ≠ [] → Q s'
  release : ∀ o s woken s', P.release o s = some (woken, s') → woken ≠ [] → Q s'
  adjust : ∀ o a s woken s', P.adjust o a s = (woken, s') → woken ≠ [] → Q s'

/-! ## Tasks over a pool -/

/-- Where a task is in `acquire`. -/
inductive Pc (Task : Type)
  /-- Outside of `acquire`. -/
  | idle
  /-- `acquire`: suspended on the event. -/
  | acquiring (event : Fut Task)
  /-- `acquire`: the wait raised, about to `_cancel_waiter`. -/
  | cancelling (event : Fut Task)

/-- The event of a task's call. -/
def Pc.event? : Pc Task → Option (Fut Task)
  | .acquiring e | .cancelling e => some e
  | .idle => none

/-- The event a task is suspended on. -/
def Pc.awaited? : Pc Task → Option (Fut Task)
  | .acquiring e => some e
  | .cancelling _ | .idle => none

/-- The steps of a run. -/
inductive Action (Loop Task Arg : Type)
  | acquire (t : Task)
  /-- The event loop resumes the task. -/
  | resume (t : Task)
  | cancelWaiter (t : Task)
  | release (t : Task)
  | adjust (a : Arg)
  | cancel (t : Task)
  /-- An event loop runs the `i`-th scheduled `event.set`. -/
  | runCallback (i : Nat)
  | closeLoop (l : Loop)
  /-- The task runs code of its own, which leaves its cancellation flag `b`. -/
  | elsewhere (t : Task) (b : Bool)

/-- The primitive, its tasks and their loops. -/
structure Sys (Loop Task S : Type) where
  prim : S
  host : Host Loop Task
  pc : Task → Pc Task
  /-- The permits each task holds. -/
  held : Task → Nat
  ledger : Ledger (Waiter Loop Task)

namespace Sys

variable [DecidableEq Task] (P : Pool Loop Task S Arg) (home : Task → Loop) (s : Sys Loop Task S)

/-- No task has a permit. -/
def new (prim : S) : Sys Loop Task S where
  prim
  host := .new
  pc _ := .idle
  held _ := 0
  ledger := {}

/-- The loop is not closed. -/
def isOpen (l : Loop) : Bool := ! s.host.closed l

/-- The event each task waits on. -/
def waits (t : Task) : Option (Fut Task) := (s.pc t).event?

/-- A task goes on. -/
def goto (t : Task) (p : Pc Task) : Sys Loop Task S := { s with pc := Function.update s.pc t p }

/-- The permits that the task holds from now on. -/
def hold (t : Task) (n : Nat) : Sys Loop Task S := { s with held := Function.update s.held t n }

/-- The pool goes on to `prim`, and hands `woken` events to their loops: the
waiters that it no longer queues came first. -/
def handOver (woken : List (Fut Task)) (prim : S) : Sys Loop Task S :=
  { s with
    prim
    host := s.host.callSoon woken
    ledger := s.ledger.handOff (fun w => s.isOpen w.2)
      ((P.waiters s.prim).take ((P.waiters s.prim).length - (P.waiters prim).length)) }

/-- `acquire`, up to the wait. -/
def acquire (t : Task) : Option (Sys Loop Task S) :=
  match s.pc t with
  | .idle =>
    let (e, host) := s.host.wait t
    match P.acquire (e, home t) s.prim with
    | (true, prim) => some ({ s with prim }.hold t (s.held t + 1))
    | (false, prim) =>
      some ({ s with prim, host, ledger := s.ledger.register (e, home t) }.goto t (.acquiring e))
  | _ => none

/-- The event loop resumes the task, whose wait returns or raises. -/
def resume (t : Task) : Option (Sys Loop Task S) :=
  match s.pc t with
  | .acquiring e =>
    match s.host.resumption t e with
    | some .returns => some ((s.hold t (s.held t + 1)).goto t .idle)
    | some .raises => some ({ s with host := s.host.setMustCancel t false }.goto t (.cancelling e))
    | none => none
  | _ => none

/-- The `except` block of `acquire`. -/
def cancelWaiter (t : Task) : Option (Sys Loop Task S) :=
  match s.pc t with
  | .cancelling e =>
    let (woken, prim) := P.cancelWaiter s.isOpen e s.prim
    if e ∈ (P.waiters s.prim).map Prod.fst then
      some ({ s with
        prim
        host := s.host.callSoon woken
        ledger := s.ledger.leave ((P.waiters s.prim).filter fun w => w.1 = e) }.goto t .idle)
    else some ((s.handOver P woken prim).goto t .idle)
  | _ => none

/-- A task that holds a permit releases it; if that raises, nothing changes. -/
def release (t : Task) : Option (Sys Loop Task S) :=
  match s.pc t, s.held t with
  | .idle, n + 1 =>
    match P.release s.isOpen s.prim with
    | some (woken, prim) => some ((s.handOver P woken prim).hold t n)
    | none => some s
  | _, _ => none

variable [DecidableEq Loop]

/-- The steps of the tasks; `none` for one that cannot be taken. -/
def step : Action Loop Task Arg → Option (Sys Loop Task S)
  | .acquire t => if s.isOpen (home t) then s.acquire P home t else none
  | .resume t => if s.isOpen (home t) then s.resume t else none
  | .cancelWaiter t => if s.isOpen (home t) then s.cancelWaiter P t else none
  | .release t => if s.isOpen (home t) then s.release P t else none
  | .adjust a =>
    let (woken, prim) := P.adjust s.isOpen a s.prim
    some (s.handOver P woken prim)
  | .cancel t => some { s with host := s.host.cancel t (s.pc t).awaited? }
  | .runCallback i => (s.host.runCallback home i).map fun host => { s with host }
  | .closeLoop l => some { s with host := s.host.closeLoop l }
  | .elsewhere t b =>
    match s.pc t with
    | .idle => some { s with host := s.host.setMustCancel t b }
    | _ => none

end Sys

/-- The runs of tasks over a pool that starts in a state that meets `start`. -/
def tasks [DecidableEq Task] [DecidableEq Loop] (P : Pool Loop Task S Arg) (home : Task → Loop) (start : S → Prop) :
    System (Sys Loop Task S) (Action Loop Task Arg) where
  init s := ∃ prim, start prim ∧ s = Sys.new prim
  step s := s.step P home

namespace Sys

variable [DecidableEq Task] [DecidableEq Loop] {P : Pool Loop Task S Arg} {home : Task → Loop} {s s' : Sys Loop Task S}

/-- What the operations of a pool keep holds in every run. -/
theorem prim_step {I : S → Prop} (hk : P.Keeps I) (hi : I s.prim) {a : Action Loop Task Arg}
    (hst : s.step P home a = some s') : I s'.prim := by
  cases a with
  | acquire t =>
    simp only [Sys.step, Sys.acquire] at hst
    split at hst
    · split at hst
      · split at hst
        · rename_i prim heq
          have hprim := hk.acquire ((s.host.wait t).1, home t) _ hi
          rw [heq] at hprim
          cases hst
          exact hprim
        · rename_i prim heq
          have hprim := hk.acquire ((s.host.wait t).1, home t) _ hi
          rw [heq] at hprim
          cases hst
          exact hprim
      · cases hst
    · cases hst
  | resume t =>
    simp only [Sys.step, Sys.resume] at hst
    split at hst
    · split at hst
      · split at hst
        · cases hst
          exact hi
        · cases hst
          exact hi
        · cases hst
      · cases hst
    · cases hst
  | cancelWaiter t =>
    simp only [Sys.step, Sys.cancelWaiter] at hst
    split at hst
    · split at hst
      · rename_i e _
        have hprim := hk.cancelWaiter s.isOpen e _ hi
        split at hst
        · cases hst
          exact hprim
        · cases hst
          exact hprim
      · cases hst
    · cases hst
  | release t =>
    simp only [Sys.step, Sys.release] at hst
    split at hst
    · split at hst
      · split at hst
        · rename_i woken prim heq
          cases hst
          exact hk.release _ _ _ _ hi heq
        · cases hst
          exact hi
      · cases hst
    · cases hst
  | adjust a =>
    simp only [Sys.step, Option.some.injEq] at hst
    rw [← hst]
    exact hk.adjust _ _ _ hi
  | cancel t =>
    simp only [Sys.step, Option.some.injEq] at hst
    rw [← hst]
    exact hi
  | runCallback i =>
    simp only [Sys.step, Option.map_eq_some_iff] at hst
    obtain ⟨host, -, rfl⟩ := hst
    exact hi
  | closeLoop l =>
    simp only [Sys.step, Option.some.injEq] at hst
    rw [← hst]
    exact hi
  | elsewhere t b =>
    simp only [Sys.step] at hst
    split at hst
    · cases hst
      exact hi
    · cases hst

theorem prim_of_reachable {I start : S → Prop} (hk : P.Keeps I) (h0 : ∀ prim, start prim → I prim)
    (h : (tasks P home start).Reachable s) : I s.prim := by
  apply h.inv (I := fun s => I s.prim)
  · intro s hs
    obtain ⟨prim, hprim, rfl⟩ := hs
    exact h0 prim hprim
  · intro s a s' hi hst
    exact prim_step hk hi hst

end Sys

/-! ## What every step keeps -/

namespace Sys

variable [DecidableEq Task] {P : Pool Loop Task S Arg} {home : Task → Loop} {s s' : Sys Loop Task S}

theorem waits_goto (t : Task) (p : Pc Task) : (s.goto t p).waits = Function.update s.waits t p.event? :=
  Function.comp_update Pc.event? s.pc t p

omit [DecidableEq Task] in
theorem waits_of_pc {t : Task} {p : Pc Task} (h : s.pc t = p) : s.waits t = p.event? := by
  rw [← h]
  rfl

/-- Task `t` is woken and has not gone on yet. -/
def inFlight (s : Sys Loop Task S) (t : Task) : Bool := s.host.inFlight s.waits t

/-- How the waiters, the events and the ledger hang together. -/
structure Linked (P : Pool Loop Task S Arg) (home : Task → Loop) (s : Sys Loop Task S) : Prop where
  wired : s.host.Wired home s.waits ((P.waiters s.prim).map Prod.fst)
  homes : ∀ w ∈ P.waiters s.prim, w.2 = home w.1.owner
  fair : s.ledger.Fair (P.waiters s.prim)
  skipped : ∀ w ∈ s.ledger.skipped, s.host.closed w.2 = true

theorem linked_new {prim : S} (hnil : P.waiters prim = []) : (new prim).Linked P home where
  wired := by
    show Host.new.Wired home (fun _ => none) ((P.waiters prim).map Prod.fst)
    rw [hnil]
    exact Host.wired_new
  homes w hw := by
    have hmem : w ∈ P.waiters prim := hw
    simp [hnil] at hmem
  fair := by
    show Ledger.Fair {} (P.waiters prim)
    rw [hnil]
    exact Ledger.fair_new
  skipped w hw := absurd hw (by simp [new])

/-- A change of the host alone. -/
theorem Linked.ofHost (hl : s.Linked P home) {host : Host Loop Task}
    (hw : host.Wired home s.waits ((P.waiters s.prim).map Prod.fst))
    (hc : ∀ l, s.host.closed l = true → host.closed l = true) : Linked P home { s with host } :=
  ⟨hw, hl.homes, hl.fair, fun w hm => hc _ (hl.skipped w hm)⟩

theorem Linked.hold (hl : s.Linked P home) (t : Task) (n : Nat) : (s.hold t n).Linked P home :=
  ⟨hl.wired, hl.homes, hl.fair, hl.skipped⟩

theorem Linked.goto (hl : s.Linked P home) {t : Task} {p : Pc Task} (hp : p.event? = s.waits t) :
    (s.goto t p).Linked P home := by
  refine ⟨?_, hl.homes, hl.fair, hl.skipped⟩
  show s.host.Wired home (s.goto t p).waits _
  rw [waits_goto, hp, Function.update_eq_self]
  exact hl.wired

/-- A task that is not queued goes on. -/
theorem Linked.depart (hl : s.Linked P home) {t : Task} {e : Fut Task} (ht : s.waits t = some e)
    (hn : e ∉ (P.waiters s.prim).map Prod.fst) : (s.goto t .idle).Linked P home := by
  refine ⟨?_, hl.homes, hl.fair, hl.skipped⟩
  show s.host.Wired home (s.goto t .idle).waits _
  rw [waits_goto]
  exact hl.wired.depart ht hn

/-- A pool that queues the same waiters. -/
theorem Linked.ofPrim (hl : s.Linked P home) {prim : S} (hp : P.waiters prim = P.waiters s.prim) :
    Linked P home { s with prim } := by
  obtain ⟨hw, hh, hf, hs⟩ := hl
  rw [← hp] at hw hh hf
  exact ⟨hw, hh, hf, hs⟩

omit [DecidableEq Task] in
/-- The events of the popped waiters whose loops are open. -/
theorem filter_open {popped : List (Waiter Loop Task)} (hh : ∀ w ∈ popped, w.2 = home w.1.owner) :
    (popped.filter fun w => s.isOpen w.2).map Prod.fst =
      (popped.map Prod.fst).filter fun e => ! s.host.closed (home e.owner) := by
  rw [List.filter_map]
  congr 1
  apply List.filter_congr
  intro w hw
  simp [isOpen, hh w hw]

omit [DecidableEq Task] in
theorem handOver_popped {popped : List (Waiter Loop Task)} {prim : S}
    (hq : P.waiters s.prim = popped ++ P.waiters prim) (woken : List (Fut Task)) :
    (s.handOver P woken prim).ledger = s.ledger.handOff (fun w => s.isOpen w.2) popped := by
  have htake : (P.waiters s.prim).take ((P.waiters s.prim).length - (P.waiters prim).length) = popped := by
    rw [hq]
    simp
  simp only [handOver, htake]

/-- The first waiters are handed permits or passed over. -/
theorem Linked.handOver (hl : s.Linked P home) {woken : List (Fut Task)} {prim : S}
    (ho : HandOff s.isOpen (P.waiters s.prim) woken (P.waiters prim)) :
    (s.handOver P woken prim).Linked P home := by
  obtain ⟨popped, hq, rfl⟩ := ho
  have hh : ∀ w ∈ popped, w.2 = home w.1.owner := fun w hw => hl.homes w (by rw [hq]; exact List.mem_append_left _ hw)
  have hwired := hl.wired
  rw [hq, List.map_append] at hwired
  have hfair := hl.fair
  rw [hq] at hfair
  have hledger := handOver_popped hq ((popped.filter fun w => s.isOpen w.2).map Prod.fst)
  refine ⟨?_, fun w hw => hl.homes w (by rw [hq]; exact List.mem_append_right _ hw), ?_, ?_⟩
  · show (s.host.callSoon _).Wired home s.waits ((P.waiters prim).map Prod.fst)
    rw [filter_open hh]
    exact hwired.handOff
  · rw [hledger]
    exact hfair.handOff _
  · rw [hledger]
    intro w hw
    rcases List.mem_append.1 hw with hw | hw
    · exact hl.skipped w hw
    · show s.host.closed w.2 = true
      simpa [isOpen] using (List.mem_filter.1 hw).2

/-- A task that the pool has no permit for is registered. -/
theorem Linked.enlist (hl : s.Linked P home) {t : Task} (ht : s.pc t = .idle) {prim : S}
    (hp : P.waiters prim = P.waiters s.prim ++ [((s.host.wait t).1, home t)]) :
    Linked P home ({ s with
      prim
      host := (s.host.wait t).2
      ledger := s.ledger.register ((s.host.wait t).1, home t) }.goto t (.acquiring (s.host.wait t).1)) := by
  have hnone : s.waits t = none := waits_of_pc ht
  refine ⟨?_, ?_, ?_, hl.skipped⟩
  · show (s.host.wait t).2.Wired home (Sys.waits (Sys.goto _ t _)) ((P.waiters prim).map Prod.fst)
    rw [waits_goto, hp, List.map_append]
    exact hl.wired.enlist hnone
  · intro w hw
    have hmem : w ∈ P.waiters prim := hw
    rw [hp] at hmem
    rcases List.mem_append.1 hmem with hm | hm
    · exact hl.homes w hm
    · rw [List.mem_singleton.1 hm]
      rfl
  · show (s.ledger.register _).Fair (P.waiters prim)
    rw [hp]
    exact hl.fair.register _

/-- A registered task leaves the queue. -/
theorem Linked.withdraw (hl : s.Linked P home) {t : Task} {e : Fut Task} (ht : s.pc t = .cancelling e) {prim : S}
    (hp : P.waiters prim = (P.waiters s.prim).filter fun w => w.1 ≠ e) :
    Linked P home ({ s with
      prim
      host := s.host.callSoon []
      ledger := s.ledger.leave ((P.waiters s.prim).filter fun w => w.1 = e) }.goto t .idle) := by
  rw [callSoon_nil]
  refine ⟨?_, ?_, ?_, hl.skipped⟩
  · show s.host.Wired home (Sys.waits (Sys.goto _ t _)) ((P.waiters prim).map Prod.fst)
    rw [waits_goto, hp]
    exact hl.wired.withdrawWaiter (waits_of_pc ht)
  · intro w hw
    have hmem : w ∈ P.waiters prim := hw
    rw [hp] at hmem
    exact hl.homes w (List.mem_filter.1 hmem).1
  · show (s.ledger.leave _).Fair (P.waiters prim)
    have hneg : ((P.waiters s.prim).filter fun w => w.1 ≠ e) =
        (P.waiters s.prim).filter fun w => ! decide (w.1 = e) := by
      simp
    rw [hp, hneg]
    exact hl.fair.leave _

/-- A step in which a task takes a permit, or waiters are handed some. -/
def Gives (s s' : Sys Loop Task S) (a : Action Loop Task Arg) : Prop :=
  s.ledger.granted.length < s'.ledger.granted.length ∨ ∃ t, a = .acquire t ∧ s.held t < s'.held t

omit [DecidableEq Task] in
theorem granted_handOver {woken : List (Fut Task)} {prim : S}
    (ho : HandOff s.isOpen (P.waiters s.prim) woken (P.waiters prim)) :
    (s.handOver P woken prim).ledger.granted.length = s.ledger.granted.length + woken.length := by
  obtain ⟨popped, hq, rfl⟩ := ho
  rw [handOver_popped hq]
  show (s.ledger.granted ++ _).length = _
  rw [List.length_append, List.length_map]

/-- What an operation that gives a permit to someone leaves. -/
theorem prim_of_gives [DecidableEq Loop] {Q : S → Prop} (hP : P.Lawful) (hg : P.GivesWithin Q)
    {a : Action Loop Task Arg} (hst : s.step P home a = some s') (hgive : s.Gives s' a) : Q s'.prim := by
  -- Where nobody is handed a permit, the step is not one that gives any.
  have hsame : ∀ {r : Sys Loop Task S}, (∀ t, a = .acquire t → r.held t = s.held t) →
      r.ledger.granted.length = s.ledger.granted.length → ¬ s.Gives r a := by
    intro r hheld hlen hgive
    rcases hgive with hlt | ⟨t, ha, hlt⟩
    · omega
    · have heq := hheld t ha
      omega
  have hwoken : ∀ {r : Sys Loop Task S} {woken : List (Fut Task)} {prim : S}, s.Gives r a →
      HandOff s.isOpen (P.waiters s.prim) woken (P.waiters prim) → (∀ t, a ≠ .acquire t) →
      r.ledger = (s.handOver P woken prim).ledger → woken ≠ [] := by
    intro r woken prim hgive hand hna hledger hnil
    apply hsame _ _ hgive
    · exact fun t ha => absurd ha (hna t)
    · rw [hledger, granted_handOver hand, hnil]
      rfl
  cases a with
  | acquire t =>
    simp only [Sys.step, Sys.acquire] at hst
    split at hst
    · split at hst
      · split at hst
        · rename_i prim heq
          cases hst
          exact hg.acquire _ _ _ heq
        · cases hst
          exact absurd hgive (hsame (fun _ _ => rfl) rfl)
      · cases hst
    · cases hst
  | resume t =>
    simp only [Sys.step, Sys.resume] at hst
    split at hst
    · split at hst
      · split at hst
        · cases hst
          exact absurd hgive (hsame (fun u hu => by cases hu) rfl)
        · cases hst
          exact absurd hgive (hsame (fun _ _ => rfl) rfl)
        · cases hst
      · cases hst
    · cases hst
  | cancelWaiter t =>
    simp only [Sys.step, Sys.cancelWaiter] at hst
    split at hst
    · split at hst
      · rename_i e _
        rcases hc : P.cancelWaiter s.isOpen e s.prim with ⟨woken, prim⟩
        simp only [hc] at hst
        split at hst
        · cases hst
          exact absurd hgive (hsame (fun _ _ => rfl) rfl)
        · rename_i hq
          cases hst
          have hne := hwoken hgive (hP.passedOn _ _ _ _ _ hq hc).1 (fun u => by simp) rfl
          exact hg.cancelWaiter _ _ _ _ _ hc hne
      · cases hst
    · cases hst
  | release t =>
    simp only [Sys.step, Sys.release] at hst
    split at hst
    · split at hst
      · split at hst
        · rename_i woken prim hr
          cases hst
          have hne := hwoken hgive (hP.released _ _ _ _ hr).1 (fun u => by simp) rfl
          exact hg.release _ _ _ _ hr hne
        · cases hst
          exact absurd hgive (hsame (fun _ _ => rfl) rfl)
      · cases hst
    · cases hst
  | adjust a =>
    simp only [Sys.step, Option.some.injEq] at hst
    rw [← hst] at hgive ⊢
    have hne := hwoken hgive (hP.adjusted _ _ _ _ _ rfl).1 (fun u => by simp) rfl
    exact hg.adjust _ _ _ _ _ rfl hne
  | cancel t =>
    simp only [Sys.step, Option.some.injEq] at hst
    rw [← hst] at hgive
    exact absurd hgive (hsame (fun _ _ => rfl) rfl)
  | runCallback i =>
    simp only [Sys.step, Option.map_eq_some_iff] at hst
    obtain ⟨host, -, rfl⟩ := hst
    exact absurd hgive (hsame (fun _ _ => rfl) rfl)
  | closeLoop l =>
    simp only [Sys.step, Option.some.injEq] at hst
    rw [← hst] at hgive
    exact absurd hgive (hsame (fun _ _ => rfl) rfl)
  | elsewhere t b =>
    simp only [Sys.step] at hst
    split at hst
    · cases hst
      exact absurd hgive (hsame (fun _ _ => rfl) rfl)
    · cases hst

/-! ## Accounting -/

section Account

variable [Fintype Task]

/-- The permits that tasks hold or that are in flight to them. -/
def taken (s : Sys Loop Task S) : Nat := ∑ t, (s.held t + (s.inFlight t).toNat)

theorem held_le_taken (t : Task) : s.held t ≤ s.taken := by
  have hle : s.held t + (s.inFlight t).toNat ≤ s.taken :=
    Finset.single_le_sum (f := fun t => s.held t + (s.inFlight t).toNat) (fun _ _ => Nat.zero_le _)
      (Finset.mem_univ t)
  omega

/-- Only task `t` goes on. -/
theorem taken_step (t : Task) (h : ∀ u, u ≠ t → s'.held u = s.held u ∧ s'.inFlight u = s.inFlight u) :
    s'.taken + (s.held t + (s.inFlight t).toNat) = s.taken + (s'.held t + (s'.inFlight t).toNat) := by
  apply sum_step t
  intro u hu
  rw [(h u hu).1, (h u hu).2]

theorem taken_same (hh : s'.held = s.held) (hf : ∀ u, s'.inFlight u = s.inFlight u) : s'.taken = s.taken := by
  apply sum_same
  intro u
  rw [hh, hf]

theorem taken_hold (t : Task) (n : Nat) : (s.hold t n).taken + s.held t = s.taken + n := by
  have hstep : (s.hold t n).taken + _ = s.taken + _ := taken_step t fun u hu => ⟨Function.update_of_ne hu _ _, rfl⟩
  have hheld : (s.hold t n).held t = n := Function.update_self ..
  have hfly : (s.hold t n).inFlight t = s.inFlight t := rfl
  rw [hheld, hfly] at hstep
  omega

/-- A task stops waiting. -/
theorem taken_idle (t : Task) : (s.goto t .idle).taken + (s.inFlight t).toNat = s.taken := by
  have hother : ∀ u, u ≠ t → (s.goto t .idle).inFlight u = s.inFlight u := by
    intro u hu
    apply Host.inFlight_congr
    · exact fun e => rfl
    · rw [waits_goto, Function.update_of_ne hu]
  have hstep : (s.goto t .idle).taken + _ = s.taken + _ := taken_step t fun u hu => ⟨rfl, hother u hu⟩
  have hheld : (s.goto t .idle).held t = s.held t := rfl
  have hfly : (s.goto t .idle).inFlight t = false := by
    unfold inFlight Host.inFlight
    rw [waits_goto, Function.update_self]
    rfl
  rw [hheld, hfly] at hstep
  simp only [Bool.toNat_false] at hstep
  omega

theorem Linked.taken_handOver (hl : s.Linked P home) {woken : List (Fut Task)} {prim : S}
    (ho : HandOff s.isOpen (P.waiters s.prim) woken (P.waiters prim)) :
    (s.handOver P woken prim).taken = s.taken + woken.length := by
  obtain ⟨popped, hq, rfl⟩ := ho
  have hsub : ((popped.filter fun w => s.isOpen w.2).map Prod.fst).Sublist ((P.waiters s.prim).map Prod.fst) := by
    rw [hq, List.map_append]
    exact (List.filter_sublist.map _).trans (List.sublist_append_left _ _)
  have hsum := hl.wired.sum_inFlight_callSoon (hl.wired.nodup.sublist hsub) fun e he => hsub.subset he
  have hnew : (s.handOver P ((popped.filter fun w => s.isOpen w.2).map Prod.fst) prim).taken =
      ∑ t, s.held t + ∑ t, ((s.host.callSoon ((popped.filter fun w => s.isOpen w.2).map Prod.fst)).inFlight
        s.waits t).toNat := Finset.sum_add_distrib
  have hold : s.taken = ∑ t, s.held t + ∑ t, (s.host.inFlight s.waits t).toNat := Finset.sum_add_distrib
  omega

/-- The permits in use are the ones held or in flight. -/
structure Sound (P : Pool Loop Task S Arg) (home : Task → Loop) (s : Sys Loop Task S) : Prop where
  linked : s.Linked P home
  account : P.used s.prim = s.taken

variable (hP : P.Lawful)
include hP

theorem Sound.acquire (hs : s.Sound P home) {t : Task} (hst : s.acquire P home t = some s') : s'.Sound P home := by
  unfold Sys.acquire at hst
  split at hst
  · rename_i hpc
    dsimp only at hst
    split at hst
    · rename_i prim heq
      obtain ⟨hwaiters, hused⟩ := hP.acquired _ _ _ heq
      cases hst
      refine ⟨(hs.linked.ofPrim hwaiters).hold t _, ?_⟩
      have hhold := taken_hold (s := { s with prim }) t (s.held t + 1)
      have hsame : ({ s with prim } : Sys Loop Task S).taken = s.taken := rfl
      have hold : ({ s with prim } : Sys Loop Task S).held t = s.held t := rfl
      rw [hsame, hold] at hhold
      have haccount := hs.account
      show P.used prim = _
      omega
    · rename_i prim heq
      obtain ⟨hwaiters, hused⟩ := hP.enlisted _ _ _ heq
      cases hst
      refine ⟨hs.linked.enlist hpc hwaiters, ?_⟩
      show P.used prim = _
      rw [hused, hs.account, Nat.cast_inj]
      symm
      apply taken_same
      · rfl
      · intro u
        by_cases hu : u = t
        · subst hu
          have hbefore : s.inFlight u = false := by
            unfold inFlight Host.inFlight
            rw [waits_of_pc hpc]
            rfl
          rw [hbefore]
          unfold inFlight Host.inFlight
          rw [waits_goto, Function.update_self]
          exact hs.linked.wired.fresh _ (Nat.le_refl _)
        · apply Host.inFlight_congr
          · exact fun e => rfl
          · rw [waits_goto, Function.update_of_ne hu]
            rfl
  · cases hst

omit hP in
theorem Sound.resume (hs : s.Sound P home) {t : Task} (hst : s.resume t = some s') : s'.Sound P home := by
  unfold Sys.resume at hst
  split at hst
  · rename_i e hpc
    have hwaits : s.waits t = some e := waits_of_pc hpc
    split at hst
    · rename_i hr
      cases hst
      have hwoken := hs.linked.wired.woken_of_returns hr
      have hfly : s.inFlight t = true := by
        unfold inFlight Host.inFlight
        rw [hwaits]
        exact hwoken
      refine ⟨(hs.linked.hold t _).depart hwaits (hs.linked.wired.not_queued hwoken), ?_⟩
      -- The permit in flight is now held.
      have hidle := taken_idle (s := s.hold t (s.held t + 1)) t
      have hhold := taken_hold (s := s) t (s.held t + 1)
      have hsame : (s.hold t (s.held t + 1)).inFlight t = true := hfly
      rw [hsame, Bool.toNat_true] at hidle
      have haccount := hs.account
      show P.used s.prim = _
      omega
    · cases hst
      have hhost : Linked P home { s with host := s.host.setMustCancel t false } :=
        hs.linked.ofHost (hs.linked.wired.setMustCancel t false) fun _ hc => hc
      refine ⟨hhost.goto hwaits.symm, ?_⟩
      show P.used s.prim = _
      rw [hs.account, Nat.cast_inj]
      symm
      apply taken_same
      · rfl
      · intro u
        apply Host.inFlight_congr
        · exact fun e => rfl
        · rw [waits_goto]
          show Function.update s.waits t (some e) u = s.waits u
          rw [← hwaits, Function.update_eq_self]
    · cases hst
  · cases hst

theorem Sound.cancelWaiter (hs : s.Sound P home) {t : Task} (ho : s.isOpen (home t) = true)
    (hst : s.cancelWaiter P t = some s') : s'.Sound P home := by
  unfold Sys.cancelWaiter at hst
  split at hst
  · rename_i e hpc
    have hwaits : s.waits t = some e := waits_of_pc hpc
    rcases hc : P.cancelWaiter s.isOpen e s.prim with ⟨woken, prim⟩
    simp only [hc] at hst
    split at hst
    · rename_i hq
      obtain ⟨rfl, hwaiters, hused⟩ := hP.withdrawn _ _ _ _ _ hq hc
      cases hst
      refine ⟨hs.linked.withdraw hpc hwaiters, ?_⟩
      have hfly : s.inFlight t = false := by
        unfold inFlight Host.inFlight
        rw [hwaits]
        exact hs.linked.wired.asleep e hq
      show P.used prim = _
      rw [hused, hs.account, Nat.cast_inj, callSoon_nil]
      have hidle := taken_idle (s := s) t
      rw [hfly, Bool.toNat_false] at hidle
      exact hidle.symm
    · rename_i hq
      obtain ⟨hand, hused⟩ := hP.passedOn _ _ _ _ _ hq hc
      cases hst
      have hlinked := hs.linked.handOver hand
      have hnot : e ∉ (P.waiters prim).map Prod.fst := by
        obtain ⟨popped, hsplit, -⟩ := hand
        intro hm
        apply hq
        rw [hsplit, List.map_append]
        exact List.mem_append_right _ hm
      refine ⟨hlinked.depart hwaits hnot, ?_⟩
      -- The waiter was woken: it gives the permit in flight to it back.
      have hclosed : s.host.closed (home t) = false := by simpa [isOpen] using ho
      have hwoken : s.host.woken e = true := (hs.linked.wired.queued_or_woken hwaits hclosed).resolve_left hq
      have hfly : (s.handOver P woken prim).inFlight t = true := by
        unfold inFlight Host.inFlight
        rw [show (s.handOver P woken prim).waits t = some e from hwaits]
        show (s.host.callSoon woken).woken e = true
        simp [hwoken]
      have hidle := taken_idle (s := s.handOver P woken prim) t
      rw [hfly, Bool.toNat_true, hs.linked.taken_handOver hand] at hidle
      have haccount := hs.account
      show P.used prim = _
      omega
  · cases hst

theorem Sound.release (hs : s.Sound P home) {t : Task} (hst : s.release P t = some s') : s'.Sound P home := by
  unfold Sys.release at hst
  split at hst
  · rename_i n hpc hheld
    split at hst
    · rename_i woken prim hr
      obtain ⟨hand, hused⟩ := hP.released _ _ _ _ hr
      cases hst
      refine ⟨(hs.linked.handOver hand).hold t n, ?_⟩
      have hhold := taken_hold (s := s.handOver P woken prim) t n
      have hbefore : (s.handOver P woken prim).held t = n + 1 := hheld
      rw [hbefore, hs.linked.taken_handOver hand] at hhold
      have haccount := hs.account
      show P.used prim = _
      omega
    · cases hst
      exact hs
  · cases hst

theorem Sound.adjust (hs : s.Sound P home) {a : Arg} {woken : List (Fut Task)} {prim : S}
    (ha : P.adjust s.isOpen a s.prim = (woken, prim)) : (s.handOver P woken prim).Sound P home := by
  obtain ⟨hand, hused⟩ := hP.adjusted _ _ _ _ _ ha
  refine ⟨hs.linked.handOver hand, ?_⟩
  have haccount := hs.account
  have htaken := hs.linked.taken_handOver hand
  show P.used prim = _
  omega

omit hP in
theorem Sound.ofHost (hs : s.Sound P home) {host : Host Loop Task}
    (hw : host.Wired home s.waits ((P.waiters s.prim).map Prod.fst))
    (hk : ∀ e, host.woken e = s.host.woken e) (hc : ∀ l, s.host.closed l = true → host.closed l = true) :
    Sound P home { s with host } := by
  refine ⟨hs.linked.ofHost hw hc, ?_⟩
  show P.used s.prim = _
  rw [hs.account, Nat.cast_inj]
  symm
  apply taken_same
  · rfl
  · exact fun u => Host.inFlight_congr hk rfl

theorem Sound.step [DecidableEq Loop] (hs : s.Sound P home) {a : Action Loop Task Arg}
    (hst : s.step P home a = some s') : s'.Sound P home := by
  have hwired := hs.linked.wired
  cases a with
  | acquire t =>
    simp only [Sys.step] at hst
    split at hst
    · exact hs.acquire hP hst
    · cases hst
  | resume t =>
    simp only [Sys.step] at hst
    split at hst
    · exact hs.resume hst
    · cases hst
  | cancelWaiter t =>
    simp only [Sys.step] at hst
    split at hst
    · rename_i ho
      exact hs.cancelWaiter hP ho hst
    · cases hst
  | release t =>
    simp only [Sys.step] at hst
    split at hst
    · exact hs.release hP hst
    · cases hst
  | adjust a =>
    simp only [Sys.step, Option.some.injEq] at hst
    rw [← hst]
    exact hs.adjust hP rfl
  | cancel t =>
    simp only [Sys.step, Option.some.injEq] at hst
    rw [← hst]
    exact hs.ofHost (hwired.cancel t _) (fun e => by simp) fun l hc => by simpa using hc
  | runCallback i =>
    simp only [Sys.step, Option.map_eq_some_iff] at hst
    obtain ⟨host, hr, rfl⟩ := hst
    exact hs.ofHost (hwired.runCallback hr) (fun e => runCallback_woken _ e hr)
      fun l hc => by rwa [runCallback_closed _ hr]
  | closeLoop l =>
    simp only [Sys.step, Option.some.injEq] at hst
    rw [← hst]
    exact hs.ofHost (hwired.closeLoop l) (fun e => rfl) (closeLoop_closed _ l)
  | elsewhere t b =>
    simp only [Sys.step] at hst
    split at hst
    · cases hst
      exact hs.ofHost (hwired.setMustCancel t b) (fun e => rfl) fun l hc => hc
    · cases hst

/-- In every state of every run over a lawful pool, the waiters are linked to
their events, and the permits in use are the ones held or in flight. -/
theorem sound_of_reachable [DecidableEq Loop] {start : S → Prop}
    (h0 : ∀ prim, start prim → P.waiters prim = [] ∧ P.used prim = 0) (h : (tasks P home start).Reachable s) :
    s.Sound P home := by
  apply h.inv
  · intro s hs
    obtain ⟨prim, hprim, rfl⟩ := hs
    obtain ⟨hnil, hzero⟩ := h0 prim hprim
    refine ⟨linked_new hnil, ?_⟩
    show P.used prim = _
    rw [hzero]
    symm
    rw [Nat.cast_eq_zero]
    apply Finset.sum_eq_zero
    intro t _
    rfl
  · intro s a s' hs hst
    exact hs.step hP hst

end Account

end Sys

end Multiloop.Sync
