import Mathlib.Logic.Function.Basic

/-!
# Futures

What the models of the primitives use of asyncio. A future is known by the
task that created it and how many that task had created before, so a new one
is never an old one; `ch` is the one attribute the code sets on a future
(`_ch`, on a receiver's future). It is pending until the first of
`set_result`, `set_exception` and `cancel`; the later ones raise
`InvalidStateError`.

A task that awaits a pending future is cancelled by cancelling the future. If
the future is done already, or the task awaits none, cancelling sets the
task's `_must_cancel`: the next step of the task raises `CancelledError`
instead of returning the result, and a future it starts to await is cancelled
at once.
-/

namespace Multiloop

structure Fut (Task : Type) where
  owner : Task
  serial : Nat
  ch : Bool := false
deriving DecidableEq

instance (Task : Type) [DecidableEq Task] : LawfulBEq (Fut Task) := inferInstance

inductive FutState (β : Type)
  | pending
  | result (v : β)
  | exception
  | cancelled
deriving DecidableEq

end Multiloop
