import Mathlib.Data.List.Basic
import Mathlib.Logic.Function.Basic
import Mathlib.Tactic.SplitIfs
import Multiloop.Asyncio
import Multiloop.Framework.Transition

/-!
# `AsyncOnce`

Calls of `do` on one `AsyncOnce`, each in a task of its own on some event loop.
A call that does not find it done is the leader, which calls `fn`, or waits for
the leader on a future. `result` and `exc` are written by the leader outside
the lock, and read by the others outside the lock; `done` and the wake-up of
the others are under it.

`leader`, `started` and `outcome` keep what happened: which call leads, the
calls that called `fn`, and how `fn` ended.
-/

namespace Multiloop

/-- An exception object: which one it is, and `bool` of it. -/
structure PyException where
  id : Nat
  truth : Bool
deriving DecidableEq

/-- How a call of `fn`, and the wait for what it returned, ended. -/
inductive FnOutcome (β : Type)
  | value (v : β)
  | raised (e : PyException)
  | cancelled
deriving DecidableEq

/-- What `_exc` holds: the exception of `fn`, or the `RuntimeError` that says
the execution was cancelled. -/
inductive OnceError
  | exception (e : PyException)
  | executionCancelled
deriving DecidableEq

/-- `bool(self._exc)`. -/
def OnceError.truth : OnceError → Bool
  | .exception e => e.truth
  | .executionCancelled => true

/-- `_waiters` has the calls whose futures are registered, in order. -/
structure AsyncOnce (Call β : Type) where
  done : Bool
  executing : Bool
  result : Option β
  exc : Option OnceError
  waiters : List Call

/-- Where a call of `do` is. -/
inductive OncePhase (β : Type)
  | idle
  /-- The leader, before `fn`. -/
  | leads
  /-- The leader waits for what `fn` returned. -/
  | awaits
  /-- The leader, before the lock of `finally`. -/
  | finishes
  /-- Another call waits on its future. -/
  | waits
  /-- Another call has left its wait and its place in `_waiters`. -/
  | woken
  | returned (result : Option β)
  /-- `raise self._exc`. -/
  | raised (e : OnceError)
  /-- The exception of `fn` leaves the leader. -/
  | failed
  /-- `CancelledError` leaves a call that waited. -/
  | cancelled
deriving DecidableEq

/-- The object, its calls, and what their loops have in hand. -/
structure OnceRun (Loop Call β : Type) where
  once : AsyncOnce Call β
  phase : Call → OncePhase β
  /-- The future of each call that waits. -/
  fut : Call → FutState Unit
  mustCancel : Call → Bool
  /-- The calls whose `_do` a loop has yet to run. -/
  scheduled : List Call
  closed : Loop → Bool
  leader : Option Call
  started : List Call
  outcome : Option (FnOutcome β)

/-- The steps of a run. -/
inductive OnceAction (Loop Call β : Type)
  /-- `do` up to the end of its first lock. -/
  | enter (i : Call)
  /-- The leader calls `fn`, which ends at once, or returns an awaitable. -/
  | start (i : Call) (ends : Option (FnOutcome β))
  /-- What `fn` returned ends. -/
  | settle (i : Call) (ends : FnOutcome β)
  /-- The lock of `finally`, and what follows. -/
  | complete (i : Call)
  /-- A loop runs the `_do` of a call. -/
  | wake (i : Call)
  /-- The task of a call that waits is cancelled. -/
  | cancel (i : Call)
  /-- The task of a call that waits goes on. -/
  | resume (i : Call)
  /-- A call that was woken reads the outcome. -/
  | read (i : Call)
  | closeLoop (l : Loop)

variable {Loop Call β : Type}

namespace AsyncOnce

/-- `AsyncOnce.__init__`. -/
def new : AsyncOnce Call β where
  done := false
  executing := false
  result := none
  exc := none
  waiters := []

variable (o : AsyncOnce Call β)

/-- `if self._exc: raise self._exc`, `return self._result`. -/
def outcome : OncePhase β :=
  match o.exc with
  | some e => if e.truth then .raised e else .returned o.result
  | none => .returned o.result

/-- What the leader writes once `fn` ended. -/
def publish : FnOutcome β → AsyncOnce Call β
  | .value v => { o with result := some v }
  | .raised e => { o with exc := some (.exception e) }
  | .cancelled => { o with exc := some .executionCancelled }

/-- `_wake_all` of an `OrderedDict`: the calls whose `_do` it schedules. A
future that is done is passed over, and a loop that is closed takes nothing. -/
def wakeAll (done closed : Call → Bool) : List Call → List Call
  | [] => []
  | i :: waiters =>
    if done i then wakeAll done closed waiters
    else if closed i then wakeAll done closed waiters
    else i :: wakeAll done closed waiters

theorem mem_wakeAll {done closed : Call → Bool} {i : Call} {waiters : List Call} :
    i ∈ wakeAll done closed waiters ↔ i ∈ waiters ∧ done i = false ∧ closed i = false := by
  induction waiters with
  | nil => exact ⟨fun h => (by cases h), fun h => h.1⟩
  | cons j waiters ih =>
    unfold wakeAll
    split_ifs with hdone hclosed
    · rw [ih, List.mem_cons]
      constructor
      · rintro ⟨hmem, hrest⟩
        exact ⟨.inr hmem, hrest⟩
      · rintro ⟨rfl | hmem, hnot, hopen⟩
        · rw [hdone] at hnot
          cases hnot
        · exact ⟨hmem, hnot, hopen⟩
    · rw [ih, List.mem_cons]
      constructor
      · rintro ⟨hmem, hrest⟩
        exact ⟨.inr hmem, hrest⟩
      · rintro ⟨rfl | hmem, hnot, hopen⟩
        · rw [hclosed] at hopen
          cases hopen
        · exact ⟨hmem, hnot, hopen⟩
    · rw [List.mem_cons, List.mem_cons, ih]
      constructor
      · rintro (rfl | ⟨hmem, hrest⟩)
        · exact ⟨.inl rfl, eq_false_of_ne_true hdone, eq_false_of_ne_true hclosed⟩
        · exact ⟨.inr hmem, hrest⟩
      · rintro ⟨rfl | hmem, hrest⟩
        · exact .inl rfl
        · exact .inr ⟨hmem, hrest⟩

end AsyncOnce

namespace OnceRun

open AsyncOnce

variable [DecidableEq Loop] [DecidableEq Call] [DecidableEq β] (home : Call → Loop)

/-- No call has been made. -/
def Starts (s : OnceRun Loop Call β) : Prop :=
  s.once = .new ∧ (∀ i, s.phase i = .idle) ∧ (∀ i, s.fut i = .pending) ∧ (∀ i, s.mustCancel i = false) ∧
    s.scheduled = [] ∧ s.leader = none ∧ s.started = [] ∧ s.outcome = none

variable (s : OnceRun Loop Call β)

/-- Call `i` goes on to a phase. -/
def setPhase (i : Call) (p : OncePhase β) : OnceRun Loop Call β := { s with phase := Function.update s.phase i p }

/-- `do` up to the end of its first lock. -/
def enter (i : Call) : OnceRun Loop Call β :=
  if s.once.done then s.setPhase i s.once.outcome
  else if s.once.executing = false then
    { s.setPhase i .leads with once := { s.once with executing := true }, leader := some i }
  else { s.setPhase i .waits with once := { s.once with waiters := s.once.waiters ++ [i] } }

/-- The leader stores how `fn` ended. -/
def store (i : Call) (ends : FnOutcome β) : OnceRun Loop Call β :=
  { s.setPhase i .finishes with once := s.once.publish ends, outcome := some ends }

/-- The leader calls `fn`, once. -/
def start (i : Call) (ends : Option (FnOutcome β)) : OnceRun Loop Call β :=
  let s' := { s with started := i :: s.started }
  match ends with
  | some ends => s'.store i ends
  | none => s'.setPhase i .awaits

/-- The `finally`, and `return self._result` or the exception that goes on. -/
def complete (i : Call) (ends : FnOutcome β) : OnceRun Loop Call β :=
  { s.setPhase i (match ends with
      | .value _ => .returned s.once.result
      | .raised _ | .cancelled => .failed) with
    once := { s.once with done := true, waiters := [] }
    scheduled := s.scheduled ++
      wakeAll (fun j => decide (s.fut j ≠ .pending)) (fun j => s.closed (home j)) s.once.waiters }

/-- `_do`: `set_result`, or `InvalidStateError`. -/
def wake (i : Call) : OnceRun Loop Call β :=
  { s with
    scheduled := s.scheduled.erase i
    fut := if s.fut i = .pending then Function.update s.fut i (.result ()) else s.fut }

/-- `task.cancel()` for the task of call `i`. -/
def cancel (i : Call) : OnceRun Loop Call β :=
  if s.fut i = .pending then { s with fut := Function.update s.fut i .cancelled }
  else { s with mustCancel := Function.update s.mustCancel i true }

/-- The future is done: `finally`, and `CancelledError` or what follows. -/
def resume (i : Call) : OnceRun Loop Call β :=
  { s.setPhase i (if s.fut i = .cancelled ∨ s.mustCancel i = true then .cancelled else .woken) with
    once := { s.once with waiters := s.once.waiters.erase i } }

/-- No task and no callback runs on a closed loop. -/
def step : OnceAction Loop Call β → Option (OnceRun Loop Call β)
  | .enter i => if s.closed (home i) = false ∧ s.phase i = .idle then some (s.enter i) else none
  | .start i ends => if s.closed (home i) = false ∧ s.phase i = .leads then some (s.start i ends) else none
  | .settle i ends => if s.closed (home i) = false ∧ s.phase i = .awaits then some (s.store i ends) else none
  | .complete i =>
    if s.closed (home i) = false ∧ s.phase i = .finishes then s.outcome.map (s.complete home i) else none
  | .wake i => if s.closed (home i) = false ∧ i ∈ s.scheduled then some (s.wake i) else none
  | .cancel i => if s.phase i = .waits then some (s.cancel i) else none
  | .resume i =>
    if s.closed (home i) = false ∧ s.phase i = .waits ∧ s.fut i ≠ .pending then some (s.resume i) else none
  | .read i =>
    if s.closed (home i) = false ∧ s.phase i = .woken then some (s.setPhase i s.once.outcome) else none
  | .closeLoop l => some { s with closed := Function.update s.closed l true }

/-- The runs from a fresh object. -/
def system : System (OnceRun Loop Call β) (OnceAction Loop Call β) where
  init := Starts
  step s := s.step home

/-! ## The steps -/

variable {home} {s} {s' : OnceRun Loop Call β} {a : OnceAction Loop Call β}

/-- The steps, one by one. -/
inductive Stepped (home : Call → Loop) (s : OnceRun Loop Call β) :
    OnceAction Loop Call β → OnceRun Loop Call β → Prop
  | enter {i : Call} : s.phase i = .idle → Stepped home s (.enter i) (s.enter i)
  | start {i : Call} {ends : Option (FnOutcome β)} : s.phase i = .leads →
      Stepped home s (.start i ends) (s.start i ends)
  | settle {i : Call} {ends : FnOutcome β} : s.phase i = .awaits → Stepped home s (.settle i ends) (s.store i ends)
  | complete {i : Call} {ends : FnOutcome β} : s.phase i = .finishes → s.outcome = some ends →
      Stepped home s (.complete i) (s.complete home i ends)
  | wake {i : Call} : i ∈ s.scheduled → Stepped home s (.wake i) (s.wake i)
  | cancel {i : Call} : s.phase i = .waits → Stepped home s (.cancel i) (s.cancel i)
  | resume {i : Call} : s.phase i = .waits → s.fut i ≠ .pending → Stepped home s (.resume i) (s.resume i)
  | read {i : Call} : s.phase i = .woken → Stepped home s (.read i) (s.setPhase i s.once.outcome)
  | closeLoop {l : Loop} : Stepped home s (.closeLoop l) { s with closed := Function.update s.closed l true }

theorem stepped (hst : s.step home a = some s') : s.Stepped home a s' := by
  cases a with
  | enter i =>
    obtain ⟨⟨-, hphase⟩, hst⟩ := Option.ite_none_right_eq_some.1 hst
    cases hst
    exact .enter hphase
  | start i ends =>
    obtain ⟨⟨-, hphase⟩, hst⟩ := Option.ite_none_right_eq_some.1 hst
    cases hst
    exact .start hphase
  | settle i ends =>
    obtain ⟨⟨-, hphase⟩, hst⟩ := Option.ite_none_right_eq_some.1 hst
    cases hst
    exact .settle hphase
  | complete i =>
    obtain ⟨⟨-, hphase⟩, hst⟩ := Option.ite_none_right_eq_some.1 hst
    obtain ⟨ends, hends, rfl⟩ := Option.map_eq_some_iff.1 hst
    exact .complete hphase hends
  | wake i =>
    obtain ⟨⟨-, hmem⟩, hst⟩ := Option.ite_none_right_eq_some.1 hst
    cases hst
    exact .wake hmem
  | cancel i =>
    obtain ⟨hphase, hst⟩ := Option.ite_none_right_eq_some.1 hst
    cases hst
    exact .cancel hphase
  | resume i =>
    obtain ⟨⟨-, hphase, hfut⟩, hst⟩ := Option.ite_none_right_eq_some.1 hst
    cases hst
    exact .resume hphase hfut
  | read i =>
    obtain ⟨⟨-, hphase⟩, hst⟩ := Option.ite_none_right_eq_some.1 hst
    cases hst
    exact .read hphase
  | closeLoop l =>
    cases hst
    exact .closeLoop

end OnceRun

end Multiloop
