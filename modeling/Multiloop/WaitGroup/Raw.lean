import Multiloop.Framework.Usize

/-!
# The counter of a wait group

`WaitGroupInner` of `waitgroup.rs`: a counter, and the waiters that are handed
over when it comes back to 0. A waiter is a pair of an event loop and a
future. An operation that raises changes nothing.
-/

namespace Multiloop.WaitGroup

/-- What a call raises. -/
inductive Error
  | runtime (message : String)
  /-- The argument is no `isize`. -/
  | overflow
deriving DecidableEq

/-- `WaitGroupInner` of `waitgroup.rs`. -/
structure WaitGroupInner (Loop F : Type) where
  counter : Nat
  generation : Nat
  waiters : List (Loop × F)

namespace WaitGroupInner

variable {Loop F : Type}

/-- `RawAsyncWaitGroup::new`. -/
def new : WaitGroupInner Loop F := { counter := 0, generation := 0, waiters := [] }

variable (g : WaitGroupInner Loop F)

/-- The counter becomes `n`; at 0 the waiters are handed over. -/
def lower (n : Nat) : Option (List (Loop × F)) × WaitGroupInner Loop F :=
  if n = 0 then
    (some g.waiters, { counter := 0, generation := (g.generation + 1) % 2 ^ 64, waiters := [] })
  else (none, { g with counter := n })

/-- `RawAsyncWaitGroup::add`: the waiters to wake, or an error. -/
def add (delta : Int) : Except Error (Option (List (Loop × F)) × WaitGroupInner Loop F) :=
  if ¬ (-2 ^ 63 ≤ delta ∧ delta < 2 ^ 63) then .error .overflow
  else if delta < 0 then
    if g.counter < delta.natAbs then
      .error (.runtime "WaitGroup counter went negative: add() with negative delta")
    else .ok (g.lower (g.counter - delta.natAbs))
  else if g.counter + delta.toNat < usizeEnd then
    .ok (none, { g with counter := g.counter + delta.toNat })
  else .error (.runtime "WaitGroup counter overflowed: add() with positive delta")

/-- `RawAsyncWaitGroup::done`. -/
def done : Except Error (Option (List (Loop × F)) × WaitGroupInner Loop F) :=
  if g.counter = 0 then .error (.runtime "WaitGroup counter went negative: too many done() calls")
  else .ok (g.lower (g.counter - 1))

/-- Whether the counter is 0 already; otherwise the waiter is registered. -/
def registerWaiter (w : Loop × F) : Bool × WaitGroupInner Loop F :=
  if g.counter = 0 then (true, g) else (false, { g with waiters := g.waiters ++ [w] })

/-- `RawAsyncWaitGroup::unregister_waiter`: whether it was registered. -/
def unregisterWaiter [DecidableEq F] (fut : F) : Bool × WaitGroupInner Loop F :=
  let waiters := g.waiters.filter fun w => w.2 ≠ fut
  (decide (waiters.length ≠ g.waiters.length), { g with waiters })

variable {g} {g' : WaitGroupInner Loop F} {w : Option (List (Loop × F))}

@[simp]
theorem lower_counter (n : Nat) : (g.lower n).2.counter = n := by
  unfold lower
  split
  · rename_i h
    exact h.symm
  · rfl

/-- What an accepted `add` adds to the counter. -/
theorem add_counter {delta : Int} (h : g.add delta = .ok (w, g')) : (g'.counter : Int) = g.counter + delta := by
  unfold add at h
  split at h
  · cases h
  · split at h
    · split at h
      · cases h
      · have hg : (g.lower (g.counter - delta.natAbs)).2 = g' := congrArg Prod.snd (Except.ok.inj h)
        rw [← hg, lower_counter]
        omega
    · split at h
      · have hg : { g with counter := g.counter + delta.toNat } = g' := congrArg Prod.snd (Except.ok.inj h)
        rw [← hg]
        show ((g.counter + delta.toNat : Nat) : Int) = _
        omega
      · cases h

/-- An accepted `done` takes one from the counter. -/
theorem done_counter (h : g.done = .ok (w, g')) : g'.counter + 1 = g.counter := by
  unfold done at h
  split at h
  · cases h
  · have hg : (g.lower (g.counter - 1)).2 = g' := congrArg Prod.snd (Except.ok.inj h)
    rw [← hg, lower_counter]
    omega

/-- `done` raises only on a counter of 0. -/
theorem done_error {e : Error} (h : g.done = .error e) : g.counter = 0 := by
  unfold done at h
  split at h
  · assumption
  · cases h

@[simp]
theorem registerWaiter_counter (w : Loop × F) : (g.registerWaiter w).2.counter = g.counter := by
  unfold registerWaiter
  split <;> rfl

@[simp]
theorem unregisterWaiter_counter [DecidableEq F] (fut : F) : (g.unregisterWaiter fut).2.counter = g.counter := rfl

end WaitGroupInner

end Multiloop.WaitGroup
