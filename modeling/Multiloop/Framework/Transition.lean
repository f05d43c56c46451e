import Mathlib.Logic.Function.Basic

/-!
# Transition systems

A system is a set of initial states and a computed step: an action either is
not enabled in a state, or leads to one next state. What is left open (which
task runs next, what a caller passes) is in the action, so a run is a list of
actions, and a property of every run is a property of every list.

`ReachableWhen ok` are the states of the runs whose steps all meet `ok`, a
condition on the state before a step and the action taken; `Reachable` are
the states of all runs. `ReachableWhen.inv` is the one induction: what holds
initially and is kept by every step that meets `ok` holds in every such
state.
-/

namespace Multiloop

/-- A transition system with a computed step. -/
structure System (σ α : Type) where
  init : σ → Prop
  step : σ → α → Option σ

namespace System

variable {σ α : Type} (M : System σ α)

/-- The states of the runs whose steps all meet `ok`. -/
inductive ReachableWhen (ok : σ → α → Prop) : σ → Prop
  | init {s : σ} : M.init s → ReachableWhen ok s
  | step {s s' : σ} {a : α} : ReachableWhen ok s → ok s a → M.step s a = some s' → ReachableWhen ok s'

/-- The states of all runs. -/
def Reachable (s : σ) : Prop := M.ReachableWhen (fun _ _ => True) s

variable {M}

/-- What holds initially and is kept by every step that meets `ok` holds in
every state of a run whose steps all meet `ok`. -/
theorem ReachableWhen.inv {ok : σ → α → Prop} {I : σ → Prop} (h0 : ∀ s, M.init s → I s)
    (hs : ∀ s a s', I s → ok s a → M.step s a = some s' → I s') {s : σ}
    (h : M.ReachableWhen ok s) : I s := by
  induction h with
  | init hi => exact h0 _ hi
  | step _ hok hst ih => exact hs _ _ _ ih hok hst

/-- A run whose steps meet a condition is one whose steps meet a weaker one. -/
theorem ReachableWhen.mono {ok ok' : σ → α → Prop} (hok : ∀ s a, ok s a → ok' s a) {s : σ}
    (h : M.ReachableWhen ok s) : M.ReachableWhen ok' s := by
  induction h with
  | init hi => exact .init hi
  | step _ hmeets hst ih => exact .step ih (hok _ _ hmeets) hst

/-- A run whose steps meet a condition is a run. -/
theorem ReachableWhen.reachable {ok : σ → α → Prop} {s : σ} (h : M.ReachableWhen ok s) : M.Reachable s :=
  h.mono fun _ _ _ => trivial

/-- An invariant of all runs. -/
theorem Reachable.inv {I : σ → Prop} (h0 : ∀ s, M.init s → I s)
    (hs : ∀ s a s', I s → M.step s a = some s' → I s') {s : σ} (h : M.Reachable s) : I s :=
  ReachableWhen.inv h0 (fun s a s' hi _ hst => hs s a s' hi hst) h

/-- One more step of a run, by action `a`. -/
theorem ReachableWhen.next {ok : σ → α → Prop} {s s' : σ} (h : M.ReachableWhen ok s) (a : α)
    (hok : ok s a) (hst : M.step s a = some s') : M.ReachableWhen ok s' :=
  h.step hok hst

variable (M)

/-- The state after a list of actions, if each of them is enabled in turn. -/
def run (s : σ) : List α → Option σ
  | [] => some s
  | a :: as => (M.step s a).bind fun s' => run s' as

variable {M}

/-- A run of actions that meet the condition in every state. -/
theorem ReachableWhen.follow {ok : σ → α → Prop} {as : List α} (hok : ∀ a ∈ as, ∀ s, ok s a) {s s' : σ}
    (h : M.ReachableWhen ok s) (hr : M.run s as = some s') : M.ReachableWhen ok s' := by
  induction as generalizing s with
  | nil =>
    cases hr
    exact h
  | cons a as ih =>
    simp only [System.run, Option.bind_eq_some_iff] at hr
    obtain ⟨s₁, hst, hr⟩ := hr
    exact ih (fun b hb => hok b (.tail _ hb)) (h.step (hok a (.head _) s) hst) hr

theorem ReachableWhen.run {ok : σ → α → Prop} (hok : ∀ s a, ok s a) {s s' : σ} {as : List α}
    (h : M.ReachableWhen ok s) (hr : M.run s as = some s') : M.ReachableWhen ok s' :=
  h.follow (fun a _ s => hok s a) hr

variable (M) in
/-- The system whose runs begin in state `s`. -/
def starting (s : σ) : System σ α where
  init s' := s' = s
  step := M.step

/-- A run that begins where another one ends, if the steps of both meet the
condition. -/
theorem ReachableWhen.append {ok : σ → α → Prop} {s s' : σ} (h : M.ReachableWhen ok s)
    (h' : (M.starting s).ReachableWhen ok s') : M.ReachableWhen ok s' := by
  refine ReachableWhen.inv (I := M.ReachableWhen ok) ?_ ?_ h'
  · rintro s' rfl
    exact h
  · exact fun s a s' hs hok hst => hs.step hok hst

/-- A run that begins where another one ends. -/
theorem Reachable.append {s s' : σ} (h : M.Reachable s) (h' : (M.starting s).Reachable s') : M.Reachable s' := by
  refine Reachable.inv (I := M.Reachable) ?_ ?_ h'
  · rintro s' rfl
    exact h
  · exact fun s a s' hs hst => ReachableWhen.step hs trivial hst

/-- The state a list of actions leads to from an initial state is reachable. -/
theorem reachable_of_run {s s' : σ} {as : List α} (h0 : M.init s) (hr : M.run s as = some s') :
    M.Reachable s' :=
  ReachableWhen.run (fun _ _ => trivial) (.init h0) hr

/-- What a test of the state after a list of actions says of some reachable
state. -/
theorem exists_reachable_of_run {s : σ} (as : List α) {p : σ → Prop} [DecidablePred p] (h0 : M.init s)
    (hp : (M.run s as).any (fun s' => decide (p s')) = true) : ∃ s', M.Reachable s' ∧ p s' := by
  obtain ⟨s', hr, hp⟩ := (Option.any_eq_true _ _).1 hp
  exact ⟨s', reachable_of_run h0 hr, of_decide_eq_true hp⟩

variable (M) in
/-- The system that refuses the steps that do not meet `ok`. -/
def restrict (ok : σ → α → Prop) [∀ s a, Decidable (ok s a)] : System σ α where
  init := M.init
  step s a := if ok s a then M.step s a else none

theorem Reachable.of_restrict {ok : σ → α → Prop} [∀ s a, Decidable (ok s a)] {s : σ}
    (h : (M.restrict ok).Reachable s) : M.ReachableWhen ok s := by
  refine Reachable.inv (M := M.restrict ok) (I := M.ReachableWhen ok) ?_ (fun s a s' hs hst => ?_) h
  · exact fun s h0 => ReachableWhen.init (M := M) h0
  · obtain ⟨hok, hst⟩ := Option.ite_none_right_eq_some.1 hst
    exact hs.step hok hst

end System

end Multiloop
