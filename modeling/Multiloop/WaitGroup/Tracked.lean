import Mathlib.Order.Basic
import Multiloop.Framework.Transition
import Multiloop.WaitGroup.Raw

/-!
# Tracked coroutines

`AsyncWaitGroup.track` and `_TrackedCoroutine` of `primitives.py`, and the runs
of any callers over one wait group. A tracked object is driven through its own
methods or through the generator that `__await__` returns. What the target does
between two drives is left open: it may await, return or raise whenever it runs
(`suspends`, `ends`), and other drives may fall in between. The ledger has what
callers add to the group themselves, and for each object the calls of `done`.
-/

namespace Multiloop.WaitGroup

/-- `_gen`, a coroutine of `_run` once it is created. -/
inductive Gen
  | none
  | created
  /-- In its body; when it is closed there, it may not await again. -/
  | running (closing : Bool)
  | suspended
  | finished
deriving DecidableEq

namespace Gen

/-- The body has not been entered. -/
def unstarted : Gen → Bool
  | .none | .created => true
  | _ => false

/-- `_ensure_gen` creates the generator on first use. -/
def ensure : Gen → Gen
  | .none => .created
  | g => g

/-- Any value but `None` raises a `TypeError` in a generator that is not
started, and a generator that runs or is finished raises. -/
def send (isNone : Bool) : Gen → Gen
  | .created => if isNone then .running false else .created
  | .suspended => .running false
  | g => g

/-- A generator that is not started ends without entering its body. -/
def throw : Gen → Gen
  | .created => .finished
  | .suspended => .running false
  | g => g

/-- `gen.close()`. -/
def close : Gen → Gen
  | .created => .finished
  | .suspended => .running true
  | g => g

/-- It has finished, or its object is `gone` and its body was not entered. -/
def ended (gone : Bool) : Gen → Bool
  | .none | .created => gone
  | .running _ | .suspended => false
  | .finished => true

end Gen

/-- The ways to drive a tracked object, and what its body does. `genSend`,
`genThrow` and `genClose` are calls on the generator that `await` returned. -/
inductive Drive
  | send (isNone : Bool)
  | throw
  | close
  | await
  | genSend (isNone : Bool)
  | genThrow
  | genClose
  | suspends
  | ends
  | destroy
deriving DecidableEq

/-- A `_TrackedCoroutine`, and the calls of `done` made for it. -/
structure TrackedCoroutine where
  stepped : Bool := false
  gen : Gen := .none
  /-- `close` was called. -/
  closed : Bool := false
  destroyed : Bool := false
  /-- Ledger: the calls of `done` for this object. -/
  applied : Nat := 0
  raised : Nat := 0
deriving DecidableEq

namespace TrackedCoroutine

/-- `_TrackedCoroutine.__init__`. -/
def new : TrackedCoroutine := {}

variable {Loop F : Type} (o : TrackedCoroutine) (g : WaitGroupInner Loop F)

/-- `self._wg.done()`. -/
def done : TrackedCoroutine × WaitGroupInner Loop F :=
  match g.done with
  | .ok (_, g) => ({ o with applied := o.applied + 1 }, g)
  | .error _ => ({ o with raised := o.raised + 1 }, g)

/-- The guard of `close` and `__del__`. -/
def settle : TrackedCoroutine × WaitGroupInner Loop F :=
  if o.stepped then (o, g) else { o with stepped := true }.done g

/-- One way to drive the object; `none` if there is no generator to drive. -/
def drive : Drive → Option (TrackedCoroutine × WaitGroupInner Loop F)
  | .send isNone => some ({ o with stepped := true, gen := o.gen.ensure.send isNone }, g)
  | .throw => some ({ o with stepped := true, gen := o.gen.ensure.throw }, g)
  | .close =>
    let (o, g) := o.settle g
    some ({ o with closed := true, gen := o.gen.close }, g)
  | .await => some ({ o with gen := o.gen.ensure }, g)
  | .genSend isNone => if o.gen = .none then none else some ({ o with gen := o.gen.send isNone }, g)
  | .genThrow => if o.gen = .none then none else some ({ o with gen := o.gen.throw }, g)
  | .genClose => if o.gen = .none then none else some ({ o with gen := o.gen.close }, g)
  | .suspends => if o.gen = .running false then some ({ o with gen := .suspended }, g) else none
  | .ends =>
    match o.gen with
    -- The `finally` of `_run`.
    | .running _ => some ({ o with gen := .finished }.done g)
    | _ => none
  | .destroy =>
    match o.gen with
    -- The frame of the body refers to the object.
    | .running _ => none
    | _ =>
      -- `__del__`, and the generator is closed if that has not done it.
      let (o, g) := o.settle g
      some ({ o with destroyed := true, gen := o.gen.close }, g)

/-- It has finished, or was closed or destroyed before its body was entered. -/
def ended : Bool := o.gen.ended (o.closed || o.destroyed)

/-- The drives that leave an object with one call of `done`: its body is not
entered when `close` was called before, the generator is neither thrown into
nor closed before its body is entered unless `close` was called before, and
`close` and `__del__` find that `send` or `throw` was called exactly if the
body was entered. -/
def Ok : Drive → Bool
  | .send isNone | .genSend isNone => !(isNone && o.gen.unstarted && o.closed)
  | .throw | .genThrow | .genClose => !o.gen.unstarted || o.closed
  | .close | .destroy => if o.gen.unstarted then !o.stepped || o.closed else o.stepped
  | .await | .suspends | .ends => true

end TrackedCoroutine

/-- The steps of a run. -/
inductive Action (Loop F : Type)
  | add (delta : Int)
  | done
  | register (w : Loop × F)
  | unregister (fut : F)
  | track
  | drive (i : Nat) (d : Drive)

/-- The wait group and the objects that `track` has made. -/
structure Sys (Loop F : Type) where
  inner : WaitGroupInner Loop F
  objs : List TrackedCoroutine
  /-- Ledger: what callers of `add` and `done` added, less what they took. -/
  adds : Int
  /-- Ledger: callers took more than they had added. -/
  overdrawn : Bool

namespace Sys

variable {Loop F : Type}

/-- A fresh wait group. -/
def new : Sys Loop F := { inner := .new, objs := [], adds := 0, overdrawn := false }

variable (s : Sys Loop F)

/-- A caller changed the counter by `delta`. -/
def post (delta : Int) (inner : WaitGroupInner Loop F) : Sys Loop F :=
  { s with
    inner
    adds := s.adds + delta
    overdrawn := s.overdrawn || decide (s.adds + delta < 0) }

/-- A call of the wait group, or of one of its objects. -/
def step [DecidableEq F] : Action Loop F → Option (Sys Loop F)
  | .add delta =>
    match s.inner.add delta with
    | .ok (_, inner) => some (s.post delta inner)
    | .error _ => some s
  | .done =>
    match s.inner.done with
    | .ok (_, inner) => some (s.post (-1) inner)
    | .error _ => some s
  | .register w => some { s with inner := (s.inner.registerWaiter w).2 }
  | .unregister fut => some { s with inner := (s.inner.unregisterWaiter fut).2 }
  | .track =>
    match s.inner.add 1 with
    | .ok (_, inner) => some { s with inner, objs := s.objs ++ [TrackedCoroutine.new] }
    | .error _ => some s
  | .drive i d =>
    match s.objs[i]? with
    | some o =>
      if o.destroyed ∧ d ≠ .ends then none
      else (o.drive s.inner d).map fun r => { s with inner := r.2, objs := s.objs.set i r.1 }
    | none => none

/-- Every drive of an object is one that `TrackedCoroutine.Ok` allows. -/
def Ok : Action Loop F → Prop
  | .drive i d => ∀ o, s.objs[i]? = some o → o.Ok d = true
  | _ => True

end Sys

/-- The runs over a fresh wait group. -/
def system (Loop F : Type) [DecidableEq F] : System (Sys Loop F) (Action Loop F) where
  init s := s = .new
  step s := s.step

/-! ## One object -/

namespace Gen

variable {gen : Gen} {gone : Bool}

theorem ended_of_unstarted (h : gen.unstarted = true) : gen.ended gone = gone := by
  cases gen with
  | none | created => rfl
  | running _ | suspended | finished => exact absurd h Bool.false_ne_true

theorem ensure_ne : gen.ensure ≠ .none := by
  cases gen <;> exact nofun

@[simp]
theorem ended_ensure : gen.ensure.ended gone = gen.ended gone := by
  cases gen <;> rfl

@[simp]
theorem unstarted_ensure : gen.ensure.unstarted = gen.unstarted := by
  cases gen <;> rfl

/-- Entering the body. -/
theorem ended_send {b : Bool} (h : gen ≠ .none) :
    (gen.send b).ended gone = (gen.ended gone && !(b && gen.unstarted)) := by
  cases gen with
  | none => exact absurd rfl h
  | created => cases b <;> simp [send, ended, unstarted]
  | running _ | suspended | finished => simp [send, ended, unstarted]

/-- The body is never entered after that. -/
theorem ended_throw (h : gen ≠ .none) : gen.throw.ended gone = (gen.ended gone || gen.unstarted) := by
  cases gen with
  | none => exact absurd rfl h
  | _ => simp [throw, ended, unstarted]

theorem ended_close (h : gen ≠ .none ∨ gone = true) : gen.close.ended gone = (gen.ended gone || gen.unstarted) := by
  cases gen with
  | none =>
    rcases h with h | rfl
    · exact absurd rfl h
    · rfl
  | _ => simp [close, ended, unstarted]

/-- Only an object that is not started is ended because it is gone. -/
theorem ended_gone : gen.ended true = (gen.ended gone || gen.unstarted) := by
  cases gen <;> simp [ended, unstarted]

end Gen

namespace TrackedCoroutine

variable {Loop F : Type} {o : TrackedCoroutine} {g : WaitGroupInner Loop F} {d : Drive}

/-- The calls of `done` for an object. -/
def calls (o : TrackedCoroutine) : Nat := o.applied + o.raised

/-- What a call of `done` changes. -/
theorem done_cases (o : TrackedCoroutine) (g : WaitGroupInner Loop F) :
    (o.done g).2.counter + 1 = g.counter ∧ (o.done g).1 = { o with applied := o.applied + 1 } ∨
      g.counter = 0 ∧ o.done g = ({ o with raised := o.raised + 1 }, g) := by
  unfold done
  split
  · rename_i h
    exact .inl ⟨WaitGroupInner.done_counter h, rfl⟩
  · rename_i h
    exact .inr ⟨WaitGroupInner.done_error h, rfl⟩

/-- One more call, and nothing else of the object. -/
theorem done_object (o : TrackedCoroutine) (g : WaitGroupInner Loop F) :
    (o.done g).1.calls = o.calls + 1 ∧ (o.done g).1.stepped = o.stepped ∧ (o.done g).1.gen = o.gen ∧
      (o.done g).1.closed = o.closed ∧ (o.done g).1.destroyed = o.destroyed := by
  rcases o.done_cases g with ⟨-, h⟩ | ⟨-, h⟩
  · rw [h]
    refine ⟨?_, rfl, rfl, rfl, rfl⟩
    show o.applied + 1 + o.raised = o.applied + o.raised + 1
    omega
  · rw [h]
    exact ⟨rfl, rfl, rfl, rfl, rfl⟩

/-- One call if neither `send` nor `throw` was called before. -/
theorem settle_object (o : TrackedCoroutine) (g : WaitGroupInner Loop F) :
    (o.settle g).1.calls = o.calls + (!o.stepped).toNat ∧ (o.settle g).1.stepped = true ∧
      (o.settle g).1.gen = o.gen ∧ (o.settle g).1.closed = o.closed ∧ (o.settle g).1.destroyed = o.destroyed := by
  unfold settle
  split
  · rename_i h
    rw [h]
    exact ⟨rfl, rfl, rfl, rfl, rfl⟩
  · rename_i h
    rw [Bool.not_eq_true] at h
    rw [h]
    exact done_object { o with stepped := true } g

/-- Between drives. -/
structure Sound (o : TrackedCoroutine) : Prop where
  calls : o.calls = o.ended.toNat
  stepped : o.closed = true → o.stepped = true
  destroyed : o.destroyed = true → o.ended = true ∨ o.gen = .running true

theorem sound_new : new.Sound := ⟨rfl, nofun, nofun⟩

theorem toNat_eq_and_not {a b : Bool} : a.toNat = (a && !b).toNat ↔ (a && b) = false := by
  cases a <;> cases b <;> decide

theorem toNat_eq_or {a b : Bool} : a.toNat = (a || b).toNat ↔ (!b || a) = true := by
  cases a <;> cases b <;> decide

section Calls

variable (h : o.Sound) (hdest : o.destroyed = false)
include h hdest

theorem Sound.calls_send {gen : Gen} {b : Bool} (hgen : gen ≠ .none) (hun : gen.unstarted = o.gen.unstarted)
    (hover : gen.ended (o.closed || o.destroyed) = o.ended) :
    o.calls = ((gen.send b).ended (o.closed || o.destroyed)).toNat ↔ o.Ok (.send b) = true := by
  rw [Gen.ended_send hgen, hun, hover, h.calls, toNat_eq_and_not, Ok, Bool.not_eq_true']
  cases hu : o.gen.unstarted
  · simp
  · rw [ended, Gen.ended_of_unstarted hu, hdest]
    cases b <;> cases o.closed <;> decide

theorem Sound.calls_unstarted : o.calls = (o.ended || o.gen.unstarted).toNat ↔ o.Ok .throw = true := by
  rw [h.calls, toNat_eq_or, Ok]
  cases hu : o.gen.unstarted
  · simp
  · rw [ended, Gen.ended_of_unstarted hu, hdest, Bool.or_false]

theorem Sound.calls_settle :
    o.calls + (!o.stepped).toNat = (o.ended || o.gen.unstarted).toNat ↔ o.Ok .close = true := by
  have hstepped := h.stepped
  rw [h.calls, Ok]
  cases hu : o.gen.unstarted
  · simp only [Bool.false_eq_true, if_false, Bool.or_false]
    cases o.ended <;> cases o.stepped <;> decide
  · rw [ended, Gen.ended_of_unstarted hu, hdest, Bool.or_false]
    cases hc : o.closed
    · cases o.stepped <;> decide
    · rw [hstepped hc]
      decide

end Calls

/-- After a drive there is one call of `done` for an object that is ended and
none for one that is not exactly if the drive is one that `Ok` allows. -/
theorem Sound.calls_drive (h : o.Sound) (hd : o.destroyed = false ∨ d = .ends)
    {r : TrackedCoroutine × WaitGroupInner Loop F} (hr : o.drive g d = some r) :
    r.1.calls = r.1.ended.toNat ↔ o.Ok d = true := by
  have hdest : d ≠ .ends → o.destroyed = false := fun hne => hd.resolve_right hne
  cases d with
  | send b =>
    cases hr
    exact h.calls_send (hdest nofun) Gen.ensure_ne Gen.unstarted_ensure Gen.ended_ensure
  | throw =>
    cases hr
    show o.calls = (o.gen.ensure.throw.ended (o.closed || o.destroyed)).toNat ↔ _
    rw [Gen.ended_throw Gen.ensure_ne, Gen.ended_ensure, Gen.unstarted_ensure]
    exact h.calls_unstarted (hdest (by decide))
  | close =>
    cases hr
    obtain ⟨hcalls, -, hgen, -, -⟩ := o.settle_object g
    show (o.settle g).1.calls = ((o.settle g).1.gen.close.ended true).toNat ↔ _
    rw [hcalls, hgen, Gen.ended_close (.inr rfl), Gen.ended_gone, Bool.or_assoc, Bool.or_self]
    exact h.calls_settle (hdest (by decide))
  | await =>
    cases hr
    show o.calls = (o.gen.ensure.ended (o.closed || o.destroyed)).toNat ↔ _
    rw [Gen.ended_ensure]
    exact ⟨fun _ => rfl, fun _ => h.calls⟩
  | genSend b =>
    simp only [drive] at hr
    split at hr
    · cases hr
    · rename_i hne
      cases hr
      exact h.calls_send (hdest nofun) hne rfl rfl
  | genThrow =>
    simp only [drive] at hr
    split at hr
    · cases hr
    · rename_i hne
      cases hr
      show o.calls = (o.gen.throw.ended (o.closed || o.destroyed)).toNat ↔ _
      rw [Gen.ended_throw hne]
      exact h.calls_unstarted (hdest (by decide))
  | genClose =>
    simp only [drive] at hr
    split at hr
    · cases hr
    · rename_i hne
      cases hr
      show o.calls = (o.gen.close.ended (o.closed || o.destroyed)).toNat ↔ _
      rw [Gen.ended_close (.inl hne)]
      exact h.calls_unstarted (hdest (by decide))
  | suspends =>
    simp only [drive] at hr
    split at hr
    · rename_i hgen
      cases hr
      have hcalls : o.calls = 0 := by rw [h.calls, ended, hgen]; rfl
      exact ⟨fun _ => rfl, fun _ => hcalls⟩
    · cases hr
  | ends =>
    simp only [drive] at hr
    split at hr
    · rename_i hgen
      cases hr
      have hcalls : o.calls = 0 := by rw [h.calls, ended, hgen]; rfl
      obtain ⟨hdone, -, hfin, -, -⟩ := done_object { o with gen := .finished } g
      rw [ended, hfin, hdone]
      exact ⟨fun _ => rfl, fun _ => congrArg (· + 1) hcalls⟩
    · cases hr
  | destroy =>
    simp only [drive] at hr
    split at hr
    · cases hr
    · cases hr
      obtain ⟨hcalls, -, hgen, -, -⟩ := o.settle_object g
      show (o.settle g).1.calls = ((o.settle g).1.gen.close.ended ((o.settle g).1.closed || true)).toNat ↔ _
      rw [hcalls, hgen, Bool.or_true, Gen.ended_close (.inr rfl), Gen.ended_gone, Bool.or_assoc, Bool.or_self]
      exact h.calls_settle (hdest (by decide))

/-- What a drive changes besides the phase of the body. -/
theorem drive_shape {r : TrackedCoroutine × WaitGroupInner Loop F} (hr : o.drive g d = some r) :
    (d ≠ .ends ∧ ∃ b gen, r = ({ o with stepped := o.stepped || b, gen }, g)) ∨
    (d = .close ∧ r = ({ (o.settle g).1 with closed := true, gen := (o.settle g).1.gen.close }, (o.settle g).2)) ∨
    (d = .destroy ∧ (∀ c, o.gen ≠ .running c) ∧
      r = ({ (o.settle g).1 with destroyed := true, gen := (o.settle g).1.gen.close }, (o.settle g).2)) ∨
    (d = .ends ∧ r = { o with gen := .finished }.done g) := by
  have hbody : ∀ {gen : Gen} {r' : TrackedCoroutine × WaitGroupInner Loop F}, ({ o with gen }, g) = r' →
      ∃ b gen, r' = ({ o with stepped := o.stepped || b, gen }, g) := by
    intro gen r' h
    exact ⟨false, gen, by rw [← h, Bool.or_false]⟩
  have hdriven : ∀ {gen : Gen} {r' : TrackedCoroutine × WaitGroupInner Loop F},
      ({ o with stepped := true, gen }, g) = r' →
      ∃ b gen, r' = ({ o with stepped := o.stepped || b, gen }, g) := by
    intro gen r' h
    exact ⟨true, gen, by rw [← h, Bool.or_true]⟩
  cases d with
  | send b => exact .inl ⟨nofun, hdriven (Option.some.inj hr)⟩
  | throw => exact .inl ⟨nofun, hdriven (Option.some.inj hr)⟩
  | close => exact .inr (.inl ⟨rfl, (Option.some.inj hr).symm⟩)
  | await => exact .inl ⟨nofun, hbody (Option.some.inj hr)⟩
  | genSend b =>
    simp only [drive] at hr
    split at hr
    · cases hr
    · exact .inl ⟨nofun, hbody (Option.some.inj hr)⟩
  | genThrow =>
    simp only [drive] at hr
    split at hr
    · cases hr
    · exact .inl ⟨nofun, hbody (Option.some.inj hr)⟩
  | genClose =>
    simp only [drive] at hr
    split at hr
    · cases hr
    · exact .inl ⟨nofun, hbody (Option.some.inj hr)⟩
  | suspends =>
    simp only [drive] at hr
    split at hr
    · exact .inl ⟨nofun, hbody (Option.some.inj hr)⟩
    · cases hr
  | ends =>
    simp only [drive] at hr
    split at hr
    · exact .inr (.inr (.inr ⟨rfl, (Option.some.inj hr).symm⟩))
    · cases hr
  | destroy =>
    simp only [drive] at hr
    split at hr
    · cases hr
    · rename_i hne
      exact .inr (.inr (.inl ⟨rfl, hne, (Option.some.inj hr).symm⟩))

/-- The counter pays for the calls of `done` that do not raise, and one raises
only on a counter of 0. -/
def Paid (o : TrackedCoroutine) (g : WaitGroupInner Loop F) (r : TrackedCoroutine × WaitGroupInner Loop F) : Prop :=
  r.2.counter + r.1.applied = g.counter + o.applied ∧
    (r.1.raised = o.raised ∨ g.counter = 0 ∧ r.1.applied = o.applied ∧ r.1.raised = o.raised + 1)

theorem paid_done (o : TrackedCoroutine) (g : WaitGroupInner Loop F) : o.Paid g (o.done g) := by
  rcases o.done_cases g with ⟨hcounter, hdone⟩ | ⟨hzero, hdone⟩
  · rw [Paid, hdone]
    refine ⟨?_, .inl rfl⟩
    show (o.done g).2.counter + (o.applied + 1) = _
    omega
  · rw [Paid, hdone]
    exact ⟨rfl, .inr ⟨hzero, rfl, rfl⟩⟩

theorem paid_settle (o : TrackedCoroutine) (g : WaitGroupInner Loop F) : o.Paid g (o.settle g) := by
  unfold settle
  split
  · exact ⟨rfl, .inl rfl⟩
  · exact paid_done { o with stepped := true } g

theorem paid_drive {r : TrackedCoroutine × WaitGroupInner Loop F} (hr : o.drive g d = some r) : o.Paid g r := by
  rcases drive_shape hr with ⟨-, b, gen, rfl⟩ | ⟨-, rfl⟩ | ⟨-, -, rfl⟩ | ⟨-, rfl⟩
  · exact ⟨rfl, .inl rfl⟩
  · exact o.paid_settle g
  · exact o.paid_settle g
  · exact paid_done { o with gen := .finished } g

/-- A drive that `Ok` allows keeps an object sound. -/
theorem Sound.drive (h : o.Sound) (hd : o.destroyed = false ∨ d = .ends) (hok : o.Ok d = true)
    {r : TrackedCoroutine × WaitGroupInner Loop F} (hr : o.drive g d = some r) : r.1.Sound := by
  have hcalls := (h.calls_drive hd hr).2 hok
  obtain ⟨-, hstepped, hgen, hclosed, hdestroyed⟩ := o.settle_object g
  rcases drive_shape hr with ⟨hne, b, gen, rfl⟩ | ⟨rfl, rfl⟩ | ⟨rfl, hne, rfl⟩ | ⟨rfl, rfl⟩
  · refine ⟨hcalls, fun hc => ?_, fun hdest => ?_⟩
    · show (o.stepped || b) = true
      rw [h.stepped hc, Bool.true_or]
    · rw [hd.resolve_right hne] at hdest
      cases hdest
  · refine ⟨hcalls, fun _ => hstepped, fun hdest => ?_⟩
    rw [show (o.settle g).1.destroyed = true from hdest, hd.resolve_right nofun] at hdestroyed
    cases hdestroyed
  · refine ⟨hcalls, fun _ => hstepped, fun _ => ?_⟩
    show (o.settle g).1.gen.close.ended ((o.settle g).1.closed || true) = true ∨
      (o.settle g).1.gen.close = .running true
    rw [hgen, Bool.or_true]
    cases hg : o.gen with
    | running c => exact absurd hg (hne c)
    | suspended => exact .inr rfl
    | none | created | finished => exact .inl rfl
  · obtain ⟨-, hstep, hfin, hclose, -⟩ := done_object { o with gen := .finished } g
    refine ⟨hcalls, fun hc => ?_, fun _ => .inl ?_⟩
    · rw [hstep]
      exact h.stepped (hclose.symm.trans hc)
    · rw [ended, hfin]
      rfl

end TrackedCoroutine

/-! ## The group -/

namespace Sys

variable {Loop F : Type} {s s' : Sys Loop F}

/-- The tracked objects that are not ended. -/
def live (s : Sys Loop F) : Nat := s.objs.countP fun o => !o.ended

/-- What holds in every state of a run whose drives are all allowed. -/
structure Sound (s : Sys Loop F) : Prop where
  objs : ∀ o ∈ s.objs, o.Sound
  adds : s.overdrawn = false → 0 ≤ s.adds
  raised : s.overdrawn = false → ∀ o ∈ s.objs, o.raised = 0
  counter : s.overdrawn = false → (s.inner.counter : Int) = s.adds + s.live

theorem sound_new : (new : Sys Loop F).Sound :=
  ⟨nofun, fun _ => Int.le_refl 0, fun _ => nofun, fun _ => rfl⟩

/-- A caller changes the counter by `delta`. -/
theorem Sound.post (h : s.Sound) {delta : Int} {inner : WaitGroupInner Loop F}
    (hinner : (inner.counter : Int) = s.inner.counter + delta) : (s.post delta inner).Sound := by
  have hdrawn : (s.post delta inner).overdrawn = false → s.overdrawn = false ∧ ¬ s.adds + delta < 0 := by
    intro hover
    have hboth := Bool.or_eq_false_iff.1 hover
    exact ⟨hboth.1, of_decide_eq_false hboth.2⟩
  refine ⟨h.objs, fun hover => ?_, fun hover => h.raised (hdrawn hover).1, fun hover => ?_⟩
  · show 0 ≤ s.adds + delta
    have hpos := (hdrawn hover).2
    omega
  · show (inner.counter : Int) = s.adds + delta + s.live
    have hcounter := h.counter (hdrawn hover).1
    omega

/-- The waiters come and go. -/
theorem Sound.waiters (h : s.Sound) {inner : WaitGroupInner Loop F} (hinner : inner.counter = s.inner.counter) :
    { s with inner }.Sound :=
  ⟨h.objs, h.adds, h.raised, fun hover => by
    show (inner.counter : Int) = _
    rw [hinner]
    exact h.counter hover⟩

theorem Sound.track (h : s.Sound) {inner : WaitGroupInner Loop F}
    (hinner : (inner.counter : Int) = s.inner.counter + 1) :
    { s with inner, objs := s.objs ++ [TrackedCoroutine.new] }.Sound := by
  refine ⟨fun o ho => ?_, h.adds, fun hover o ho => ?_, fun hover => ?_⟩
  · rcases List.mem_append.1 ho with ho | ho
    · exact h.objs o ho
    · rw [List.mem_singleton.1 ho]
      exact TrackedCoroutine.sound_new
  · rcases List.mem_append.1 ho with ho | ho
    · exact h.raised hover o ho
    · rw [List.mem_singleton.1 ho]
      rfl
  · show (inner.counter : Int) = s.adds + ((s.objs ++ [TrackedCoroutine.new]).countP fun o => !o.ended : Nat)
    have hlive : (s.objs ++ [TrackedCoroutine.new]).countP (fun o => !o.ended) = s.live + 1 := List.countP_append
    have hcounter := h.counter hover
    omega

/-- One object in place of another. -/
theorem live_set {i : Nat} {o : TrackedCoroutine} (hi : s.objs[i]? = some o) (o' : TrackedCoroutine) :
    ((s.objs.set i o').countP fun o => !o.ended) + (!o.ended).toNat = s.live + (!o'.ended).toNat := by
  obtain ⟨hlt, ho⟩ := List.getElem?_eq_some_iff.1 hi
  have hle : (!o.ended).toNat ≤ s.live := by
    cases hover : o.ended
    · exact List.countP_pos_iff.2 ⟨o, List.mem_of_getElem? hi, by rw [hover]; rfl⟩
    · exact Nat.zero_le _
  have hmark : ∀ b : Bool, (if b = true then 1 else 0) = b.toNat := by decide
  rw [List.countP_set hlt, ho, hmark, hmark]
  show s.live - _ + _ + _ = _
  omega

/-- A drive that is allowed. -/
theorem Sound.drive (h : s.Sound) {i : Nat} {o : TrackedCoroutine} {d : Drive} (hi : s.objs[i]? = some o)
    (hd : o.destroyed = false ∨ d = .ends) (hok : o.Ok d = true)
    {r : TrackedCoroutine × WaitGroupInner Loop F} (hr : o.drive s.inner d = some r) :
    { s with inner := r.2, objs := s.objs.set i r.1 }.Sound := by
  have ho : o.Sound := h.objs o (List.mem_of_getElem? hi)
  have ho' : r.1.Sound := ho.drive hd hok hr
  obtain ⟨hpaid, hraised⟩ := TrackedCoroutine.paid_drive hr
  have hlive := live_set hi r.1
  -- An object whose call raises is live, so the counter is not 0.
  have hsame : s.overdrawn = false → r.1.raised = 0 := by
    intro hover
    have hzero := h.raised hover o (List.mem_of_getElem? hi)
    rcases hraised with hsame | ⟨hcounter, happlied, hone⟩
    · rw [hsame, hzero]
    · have hcalls : o.applied + o.raised = o.ended.toNat := ho.calls
      have hcalls' : r.1.applied + r.1.raised = r.1.ended.toNat := ho'.calls
      have hadds := h.adds hover
      have hsum := h.counter hover
      have hlt : r.1.ended.toNat < 2 := Bool.toNat_lt _
      have hnot : o.ended = false := by
        cases hov : o.ended
        · rfl
        · rw [hov] at hcalls
          simp only [Bool.toNat_true] at hcalls
          omega
      have hpos : 0 < s.live := List.countP_pos_iff.2 ⟨o, List.mem_of_getElem? hi, by rw [hnot]; rfl⟩
      omega
  refine ⟨fun p hp => ?_, h.adds, fun hover p hp => ?_, fun hover => ?_⟩
  · rcases List.mem_or_eq_of_mem_set hp with hp | rfl
    · exact h.objs p hp
    · exact ho'
  · rcases List.mem_or_eq_of_mem_set hp with hp | rfl
    · exact h.raised hover p hp
    · exact hsame hover
  · have hcalls : o.applied + o.raised = o.ended.toNat := ho.calls
    have hcalls' : r.1.applied + r.1.raised = r.1.ended.toNat := ho'.calls
    have hzero := h.raised hover o (List.mem_of_getElem? hi)
    have hzero' := hsame hover
    have hsum := h.counter hover
    show (r.2.counter : Int) = s.adds + ((s.objs.set i r.1).countP fun o => !o.ended : Nat)
    have hnot : ∀ b : Bool, (!b).toNat + b.toNat = 1 := by decide
    have hone := hnot o.ended
    have hone' := hnot r.1.ended
    omega

/-- What a drive of an object that exists changes. -/
theorem step_drive [DecidableEq F] {i : Nat} {o : TrackedCoroutine} {d : Drive} (hi : s.objs[i]? = some o)
    (hst : s.step (.drive i d) = some s') :
    ∃ r, (o.destroyed = false ∨ d = .ends) ∧ o.drive s.inner d = some r ∧
      s' = { s with inner := r.2, objs := s.objs.set i r.1 } := by
  simp only [Sys.step, hi] at hst
  split at hst
  · cases hst
  · rename_i hd
    obtain ⟨r, hr, rfl⟩ := Option.map_eq_some_iff.1 hst
    refine ⟨r, ?_, hr, rfl⟩
    rcases not_and_or.1 hd with hd | hd
    · exact .inl (Bool.eq_false_of_not_eq_true hd)
    · exact .inr (not_not.1 hd)

theorem Sound.step [DecidableEq F] (h : s.Sound) {a : Action Loop F} (hok : s.Ok a) (hst : s.step a = some s') :
    s'.Sound := by
  cases a with
  | add delta =>
    simp only [Sys.step] at hst
    split at hst
    · rename_i hadd
      cases hst
      exact h.post (WaitGroupInner.add_counter hadd)
    · cases hst
      exact h
  | done =>
    simp only [Sys.step] at hst
    split at hst
    · rename_i hdone
      cases hst
      have hcounter := WaitGroupInner.done_counter hdone
      exact h.post (by omega)
    · cases hst
      exact h
  | register w =>
    cases hst
    exact h.waiters (WaitGroupInner.registerWaiter_counter w)
  | unregister fut =>
    cases hst
    exact h.waiters (WaitGroupInner.unregisterWaiter_counter fut)
  | track =>
    simp only [Sys.step] at hst
    split at hst
    · rename_i hadd
      cases hst
      exact h.track (WaitGroupInner.add_counter hadd)
    · cases hst
      exact h
  | drive i d =>
    cases hi : s.objs[i]? with
    | none =>
      simp only [Sys.step, hi] at hst
      cases hst
    | some o =>
      obtain ⟨r, hd, hr, rfl⟩ := step_drive hi hst
      exact h.drive hi hd (hok o hi) hr

/-- In every run whose drives are all allowed. -/
theorem sound [DecidableEq F] (h : (system Loop F).ReachableWhen Ok s) : s.Sound :=
  h.inv (fun _ h0 => h0 ▸ sound_new) fun _ _ _ h hok hst => h.step hok hst

end Sys

variable {Loop F : Type} [DecidableEq F] {s : Sys Loop F}

/-- In every run whose drives are all allowed: `done` is called once for every
object that is ended, destroyed ones included, and not for the others; unless
callers took more than they had added, none of these calls raises and the
counter is what callers added and the objects that are not ended. A drive that
is not allowed breaks this at once. -/
theorem tracked_done_once (h : (system Loop F).ReachableWhen Sys.Ok s) :
    (∀ o ∈ s.objs, o.calls = o.ended.toNat ∧ (o.destroyed = true → o.ended = true ∨ o.gen = .running true)) ∧
    (s.overdrawn = false → (∀ o ∈ s.objs, o.raised = 0) ∧ (s.inner.counter : Int) = s.adds + s.live) ∧
    ∀ i o d s', s.objs[i]? = some o → o.Ok d = false → s.step (.drive i d) = some s' →
      ∃ o', s'.objs[i]? = some o' ∧ o'.calls ≠ o'.ended.toNat := by
  have hs : s.Sound := Sys.sound h
  refine ⟨fun o ho => ⟨(hs.objs o ho).calls, (hs.objs o ho).destroyed⟩,
    fun hover => ⟨hs.raised hover, hs.counter hover⟩, fun i o d s' hi hok hst => ?_⟩
  obtain ⟨r, hd, hr, rfl⟩ := Sys.step_drive hi hst
  refine ⟨r.1, ?_, fun hcalls => ?_⟩
  · obtain ⟨hlt, -⟩ := List.getElem?_eq_some_iff.1 hi
    exact List.getElem?_set_self hlt
  · have hallowed := ((hs.objs o (List.mem_of_getElem? hi)).calls_drive hd hr).1 hcalls
    rw [hok] at hallowed
    cases hallowed

/-- One object is driven by a task that is cancelled, and one is closed. -/
theorem tracked_done_once_cancelled : ∃ s : Sys Unit Nat, s.objs.map TrackedCoroutine.ended = [true, true] ∧
    s.overdrawn = false ∧ (s.inner.counter : Int) = s.adds + s.live := by
  have h₀ : (system Unit Nat).ReachableWhen Sys.Ok .new := .init rfl
  have h₁ := (h₀.next .track trivial rfl).next .track trivial rfl
  have h₂ := h₁.next (.drive 0 (.send true)) (fun o ho => by cases ho; rfl) rfl
  have h₃ := h₂.next (.drive 0 .suspends) (fun o ho => by cases ho; rfl) rfl
  have h₄ := h₃.next (.drive 0 .throw) (fun o ho => by cases ho; rfl) rfl
  have h₅ := h₄.next (.drive 0 .ends) (fun o ho => by cases ho; rfl) rfl
  have h₆ := h₅.next (.drive 1 .close) (fun o ho => by cases ho; rfl) rfl
  exact ⟨_, rfl, rfl, ((tracked_done_once h₆).2.1 rfl).2⟩

/-- Two objects, of which the first is awaited and then destroyed: `done` is
called for it twice, and the counter is 0 though the second has not begun. -/
theorem awaited_done_twice : ¬ ∀ s : Sys Unit Nat, (system Unit Nat).Reachable s → s.overdrawn = false →
    (∀ o ∈ s.objs, o.ended = true → o.calls = 1) ∧ (s.inner.counter : Int) = s.adds + s.live := by
  intro hclaim
  have hrun : (system Unit Nat).run .new
      [.track, .track, .drive 0 .await, .drive 0 (.genSend true), .drive 0 .ends, .drive 0 .destroy] = some _ := rfl
  have hcounter := (hclaim _ (System.reachable_of_run rfl hrun) rfl).2
  exact absurd hcounter (by decide)

end Multiloop.WaitGroup
