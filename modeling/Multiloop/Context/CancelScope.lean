import Multiloop.Framework.Transition

/-!
# Cancellation scopes

One task that enters and leaves `CancelScope`s, while the code of its loop and
of other threads cancels the scopes and sets their shields, and cancels the
task. `__aenter__` and `__aexit__` each take two steps: another thread may come
after the first lock is released. A call of another thread marks the scope, and
leaves a callback to the loop of the task. A callback runs while the task is in
the body of its innermost block.

A block keeps, beside the state of the source, what happened since its scope
was entered: the cancellations of the task from outside its scopes and those
from the scopes around it, and how many the scopes have left in the count, or
lost from it.
-/

namespace Multiloop

/-- A `CancelScope`; `entered` says that its `_task` is the task. -/
structure CancelScope where
  cancelCalled : Bool
  shield : Bool
  cancelledCaught : Bool
  convertToTimeout : Bool
  entered : Bool := false
  savedCancelCount : Nat := 0
  injected : Bool := false
deriving DecidableEq

/-- The exception that ends the body of a block. -/
inductive Exc
  | none
  | cancelledError
  | other
deriving DecidableEq

/-- What `__aexit__` does: it returns `True`, it returns `None`, or it raises
`TimeoutError`. -/
inductive AexitResult
  | swallows
  | returns
  | timeoutError
deriving DecidableEq

/-- What `__aenter__` raises. -/
inductive Refusal
  | timeoutError
  | cancelledError
deriving DecidableEq

/-! ## What happens to a block -/

/-- How the count of the task comes to differ from what it should be. -/
inductive Slip
  /-- A scope is entered without a shield, with a count that it has kept. -/
  | kept (n : Nat)
  /-- A scope injects a second cancellation. -/
  | twice
  /-- An `__aenter__` that raises takes all of the count away. -/
  | cleared (n : Nat)
  /-- A scope is left and does not take its injection back. -/
  | leftBehind
  /-- A scope is left without a shield, with a count that it has saved. -/
  | lost (n : Nat)
deriving DecidableEq

/-- How much of the count there is too much. -/
def Slip.amount : Slip → Int
  | .kept n => n
  | .twice => 1
  | .cleared n => -n
  | .leftBehind => 1
  | .lost n => -n

/-- What slips come to. -/
def Slip.total (xs : List Slip) : Int := xs.foldr (fun x n => x.amount + n) 0

/-- The slip of a count, if there is one. -/
def Slip.ofCount (slip : Nat → Slip) (n : Nat) : List Slip := if n = 0 then [] else [slip n]

/-- A block of an `async with` that the task is in. -/
structure Block where
  scope : Nat
  /-- `cancelling()` just before `__aenter__`. -/
  before : Nat
  /-- The calls of `task.cancel()` since, less those of `task.uncancel()`. -/
  external : Int := 0
  /-- The calls of `task.cancel()` since, and those that were pending, that no
  `task.uncancel()` has undone. -/
  outstanding : Nat := 0
  /-- What the scopes around the block have added to the count since. -/
  enclosing : Int := 0
  slips : List Slip := []
deriving DecidableEq

namespace Block

def drift (b : Block) : Int := Slip.total b.slips

def slip (xs : List Slip) (b : Block) : Block := { b with slips := xs ++ b.slips }

def cancelled (b : Block) : Block := { b with external := b.external + 1, outstanding := b.outstanding + 1 }

def uncancelled (b : Block) : Block := { b with external := b.external - 1, outstanding := b.outstanding - 1 }

end Block

/-- The scope `sc` adds `n` to the count that the blocks inside its own see. -/
def moveInside (sc : Nat) (n : Int) : List Block → List Block
  | [] => []
  | b :: bs => if b.scope = sc then b :: bs else { b with enclosing := b.enclosing + n } :: moveInside sc n bs

/-- A slip of scope `sc`, seen by its block and those around it. -/
def slipFrom (sc : Nat) (xs : List Slip) : List Block → List Block
  | [] => []
  | b :: bs => if b.scope = sc then (b :: bs).map (Block.slip xs) else b :: slipFrom sc xs bs

/-! ## Slips and moves leave the scopes and what is outstanding -/

namespace Block

/-- The scope of a block and its outstanding cancellations. -/
def due (b : Block) : Nat × Nat := (b.scope, b.outstanding)

theorem map_slip_due (xs : List Slip) (bs : List Block) : (bs.map (Block.slip xs)).map due = bs.map due := by
  rw [List.map_map]
  rfl

theorem moveInside_due (sc : Nat) (n : Int) : ∀ bs : List Block, (moveInside sc n bs).map due = bs.map due
  | [] => rfl
  | b :: bs => by
    unfold moveInside
    split
    · rfl
    · show b.due :: (moveInside sc n bs).map due = _
      rw [moveInside_due sc n bs]
      rfl

theorem slipFrom_due (sc : Nat) (xs : List Slip) : ∀ bs : List Block, (slipFrom sc xs bs).map due = bs.map due
  | [] => rfl
  | b :: bs => by
    unfold slipFrom
    split
    · exact map_slip_due xs (b :: bs)
    · show b.due :: (slipFrom sc xs bs).map due = _
      rw [slipFrom_due sc xs bs]
      rfl

theorem scopes_of_due {bs bs' : List Block} (h : bs.map due = bs'.map due) :
    bs.map (·.scope) = bs'.map (·.scope) := by
  have hfst := congrArg (List.map Prod.fst) h
  rwa [List.map_map, List.map_map] at hfst

end Block

/-- A block that is left: the block, and `cancelling()` after `__aexit__`. -/
structure Exit where
  exc : Exc
  result : AexitResult
  block : Block
  after : Nat
deriving DecidableEq

/-- `__aexit__` lets a `CancelledError` propagate. -/
def Exit.Propagates (r : Exit) : Prop := r.exc = .cancelledError ∧ r.result = .returns

/-- `__aexit__` swallows a `CancelledError`, or turns it into `TimeoutError`. -/
def Exit.Absorbs (r : Exit) : Prop := r.exc = .cancelledError ∧ r.result ≠ .returns

instance (r : Exit) : Decidable r.Propagates := inferInstanceAs (Decidable (_ ∧ _))
instance (r : Exit) : Decidable r.Absorbs := inferInstanceAs (Decidable (_ ∧ _))

/-! ## The task -/

inductive ScopePhase
  /-- The task is in the body of its innermost block. -/
  | running
  /-- It is in `__aenter__`, after the first lock. -/
  | entering
  /-- It is in `__aexit__`, after the first lock, with `task` and `injected` of
  that function. -/
  | exiting (exc : Exc) (task injected : Bool)
deriving DecidableEq

/-- What `call_soon_threadsafe` was called with. -/
inductive ScopeCallback
  | deliver (sc : Nat)
  | applyShield (sc : Nat) (value : Bool)
deriving DecidableEq

structure HostTask where
  cancelling : Nat
  /-- The calls of `task.cancel()`, not by a scope and not undone, whose
  `CancelledError` the task has not got yet. -/
  pending : Nat
  scopes : Nat → CancelScope
  /-- The innermost first. -/
  blocks : List Block
  /-- The scope stack that the task was created with, the innermost first. -/
  inherited : List Nat
  phase : ScopePhase
  callbacks : List ScopeCallback
  refused : List (Nat × Refusal)
  exits : List Exit

namespace CancelScope

variable (c : CancelScope)

/-- The count that `_restore_saved_cancel_count` gives back. -/
def restorable : Nat := if c.shield then c.savedCancelCount else 0

def restore : CancelScope := if c.shield then { c with savedCancelCount := 0 } else c

/-- The saved count that `_restore_saved_cancel_count` does not give back to
`task`. -/
def lostSlips (task : Bool) : List Slip :=
  Slip.ofCount .lost (c.savedCancelCount - if task then c.restorable else 0)

/-- `__aexit__` after `_restore_saved_cancel_count`, where `cancelling()` is
`n`: its result, and `cancelling()` after it. -/
def aexit (exc : Exc) (task injected : Bool) (n : Nat) : AexitResult × Nat :=
  if exc = .cancelledError ∧ c.convertToTimeout ∧ c.cancelCalled then
    (.timeoutError, if task ∧ injected ∧ 0 < n then n - 1 else n)
  else if c.cancelledCaught ∧ c.cancelCalled then
    (if exc = .cancelledError then .swallows else .returns, if task ∧ injected ∧ 0 < n then n - 1 else n)
  else if c.cancelCalled ∧ injected ∧ task ∧ exc ≠ .cancelledError ∧ 0 < n then (.returns, n - 1)
  else (.returns, n)

/-- The injection stays when the count is down already, or when a plain scope
is left by `CancelledError`. -/
def injectionSlips (exc : Exc) (injected : Bool) (n : Nat) : List Slip :=
  if injected ∧ (n = 0 ∨ exc = .cancelledError ∧ c.convertToTimeout = false ∧ c.cancelledCaught = false) then
    [.leftBehind]
  else []

end CancelScope

namespace HostTask

variable (s : HostTask)

def setScope (sc : Nat) (c : CancelScope) : HostTask := { s with scopes := Function.update s.scopes sc c }

@[simp] theorem setScope_self (sc : Nat) (c : CancelScope) : (s.setScope sc c).scopes sc = c :=
  Function.update_self ..

theorem setScope_of_ne {sc u : Nat} (c : CancelScope) (h : u ≠ sc) : (s.setScope sc c).scopes u = s.scopes u :=
  Function.update_of_ne h ..

/-- `_scope_stack_var`, the innermost scope first. -/
def stack : List Nat := s.blocks.map (·.scope) ++ s.inherited

/-- Whether one of these scopes is cancelled, up to the first that is
shielded. -/
def cancelledAround : List Nat → Bool
  | [] => false
  | sc :: scs =>
    if (s.scopes sc).cancelCalled then true
    else if (s.scopes sc).shield then false
    else cancelledAround scs

/-- `stack.index` finds the outermost place of the scope. -/
def effectivelyCancelled (sc : Nat) : Bool :=
  if (s.scopes sc).cancelCalled then true
  else if (s.scopes sc).shield then false
  else if sc ∈ s.stack then s.cancelledAround (s.stack.reverse.takeWhile (· ≠ sc)).reverse
  else false

/-- `if task.cancel(): self._injected = True`. -/
def inject (sc : Nat) : HostTask :=
  { s.setScope sc { s.scopes sc with injected := true } with
    cancelling := s.cancelling + 1
    blocks := slipFrom sc (if (s.scopes sc).injected then [.twice] else []) (moveInside sc 1 s.blocks) }

/-- `_apply_shield`. -/
def applyShield (sc : Nat) (value : Bool) : HostTask :=
  let saved := (s.scopes sc).savedCancelCount
  if value then
    { s.setScope sc { s.scopes sc with savedCancelCount := saved + s.cancelling } with
      cancelling := 0, blocks := moveInside sc (-s.cancelling) s.blocks }
  else
    { s.setScope sc { s.scopes sc with savedCancelCount := 0 } with
      cancelling := s.cancelling + saved, blocks := moveInside sc saved s.blocks }

/-- A callback finds the scope left, or does what it was made for. -/
def deliver : ScopeCallback → HostTask
  | .deliver sc => if (s.scopes sc).entered then s.inject sc else s
  | .applyShield sc value => if (s.scopes sc).entered then s.applyShield sc value else s

/-- A scope with task `_task` does something in the loop of the task: at once,
or in a callback when the call is one of another thread. -/
def dispatch (callback : ScopeCallback) (remote entered : Bool) : HostTask :=
  if entered = false then s
  else if remote then { s with callbacks := s.callbacks ++ [callback] }
  else s.deliver callback

/-- `CancelScope.cancel`. -/
def cancel (sc : Nat) (remote : Bool) : HostTask :=
  if (s.scopes sc).cancelCalled then s
  else
    (s.setScope sc { s.scopes sc with cancelCalled := true }).dispatch (.deliver sc) remote (s.scopes sc).entered

/-- The setter of `shield`. -/
def setShield (sc : Nat) (value remote : Bool) : HostTask :=
  if (s.scopes sc).shield = value then s
  else
    (s.setScope sc { s.scopes sc with shield := value }).dispatch (.applyShield sc value) remote (s.scopes sc).entered

/-- `__aenter__` up to the end of its first lock, and the push of the scope. -/
def enter (sc : Nat) : HostTask :=
  let c := s.scopes sc
  if c.shield then
    { s.setScope sc { c with entered := true, injected := false, savedCancelCount := s.cancelling } with
      cancelling := 0, blocks := { scope := sc, before := s.cancelling, outstanding := s.pending } :: s.blocks, phase := .entering }
  else
    { s.setScope sc { c with entered := true, injected := false } with
      blocks := ({ scope := sc, before := s.cancelling, outstanding := s.pending } :: s.blocks).map
        (Block.slip (Slip.ofCount .kept c.savedCancelCount))
      phase := .entering }

/-- `_restore_saved_cancel_count`, `_rollback_aenter` and `raise`. -/
def refuse (sc : Nat) (raised : Refusal) : HostTask :=
  { s.setScope sc { (s.scopes sc).restore with entered := false } with
    cancelling := s.cancelling + (s.scopes sc).restorable
    blocks := s.blocks.tail.map (Block.slip ((s.scopes sc).lostSlips true))
    phase := .running
    refused := s.refused ++ [(sc, raised)] }

/-- `for _ in range(host.cancelling()): host.uncancel()`. -/
def clear : HostTask :=
  { s with cancelling := 0, blocks := s.blocks.map (Block.slip (Slip.ofCount .cleared s.cancelling)) }

/-- `__aenter__` where the deadline has passed. -/
def expire (sc : Nat) : HostTask :=
  let s' := s.setScope sc { s.scopes sc with cancelCalled := true }
  if (s.scopes sc).convertToTimeout then s'.refuse sc .timeoutError
  else if (s.scopes sc).cancelledCaught then { s'.inject sc with phase := .running }
  else s'.refuse sc .cancelledError

/-- `__aenter__` after the deadline is looked at. -/
def proceed (sc : Nat) : HostTask :=
  if s.effectivelyCancelled sc then
    if (s.scopes sc).cancelCalled ∧ (s.scopes sc).convertToTimeout then s.refuse sc .timeoutError
    else if (s.scopes sc).cancelCalled ∧ (s.scopes sc).cancelledCaught then { s.inject sc with phase := .running }
    else if (s.scopes sc).shield then s.refuse sc .cancelledError
    else s.clear.refuse sc .cancelledError
  else { s with phase := .running }

/-- `__aexit__` up to the end of its first lock. -/
def exit (sc : Nat) (exc : Exc) : HostTask :=
  { s.setScope sc { s.scopes sc with entered := false, injected := false } with
    phase := .exiting exc (s.scopes sc).entered (s.scopes sc).injected }

/-- `cancelling()` in `__aexit__` after `_restore_saved_cancel_count`. -/
def restoredCount (sc : Nat) (task : Bool) : Nat :=
  s.cancelling + if task then (s.scopes sc).restorable else 0

/-- The slips of an `__aexit__`. -/
def exitSlips (sc : Nat) (exc : Exc) (task injected : Bool) : List Slip :=
  (s.scopes sc).injectionSlips exc injected (s.restoredCount sc task) ++ (s.scopes sc).lostSlips task

/-- The rest of `__aexit__`, for the innermost block `b` and the others. -/
def exited (b : Block) (bs : List Block) (exc : Exc) (task injected : Bool) : HostTask :=
  let out := (s.scopes b.scope).aexit exc task injected (s.restoredCount b.scope task)
  let slips := s.exitSlips b.scope exc task injected
  { s.setScope b.scope (s.scopes b.scope).restore with
    cancelling := out.2
    blocks := bs.map (Block.slip slips)
    phase := .running
    exits := s.exits ++ [{ exc, result := out.1, block := b.slip slips, after := out.2 }] }

/-- `checkpoint`. -/
def checkpoint : HostTask :=
  match s.stack with
  | [] => s
  | sc :: _ => if s.effectivelyCancelled sc then { s with cancelling := 0 } else s

end HostTask

inductive ScopeAction
  /-- `__aenter__` begins. -/
  | enter (sc : Nat)
  /-- `__aenter__` goes on; whether the deadline of the scope has passed. -/
  | entered (expired : Bool)
  /-- The body of the innermost block ends, and `__aexit__` begins. -/
  | exit (exc : Exc)
  /-- `__aexit__` goes on. -/
  | exited
  /-- `cancel` of a scope, in the loop of the task or on another thread; the
  callback of a deadline calls it in the loop. -/
  | cancel (sc : Nat) (remote : Bool)
  | setShield (sc : Nat) (value remote : Bool)
  /-- The loop runs a callback of another thread. -/
  | callback (i : Nat)
  /-- `task.cancel()`, not by a scope. -/
  | taskCancel
  /-- `task.uncancel()`, not by a scope. -/
  | taskUncancel
  /-- The task gets a `CancelledError` where it is suspended. -/
  | thrown
  | checkpoint
deriving DecidableEq

namespace HostTask

def step (s : HostTask) : ScopeAction → Option HostTask
  | .enter sc => if s.phase = .running then some (s.enter sc) else none
  | .entered expired =>
    match s.phase, s.blocks with
    | .entering, b :: _ => some (if expired then s.expire b.scope else s.proceed b.scope)
    | _, _ => none
  | .exit exc =>
    match s.phase, s.blocks with
    | .running, b :: _ => some (s.exit b.scope exc)
    | _, _ => none
  | .exited =>
    match s.phase, s.blocks with
    | .exiting exc task injected, b :: bs => some (s.exited b bs exc task injected)
    | _, _ => none
  | .cancel sc remote => if remote ∨ s.phase = .running then some (s.cancel sc remote) else none
  | .setShield sc value remote =>
    if remote ∨ s.phase = .running then some (s.setShield sc value remote) else none
  | .callback i =>
    if s.phase = .running then
      s.callbacks[i]?.map fun callback => { s.deliver callback with callbacks := s.callbacks.eraseIdx i }
    else none
  | .taskCancel => some { s with
      cancelling := s.cancelling + 1, pending := s.pending + 1, blocks := s.blocks.map Block.cancelled }
  | .taskUncancel =>
    -- At 0 `uncancel` leaves the count, and undoes nothing.
    if 0 < s.cancelling then
      some { s with
        cancelling := s.cancelling - 1, pending := s.pending - 1, blocks := s.blocks.map Block.uncancelled }
    else some s
  | .thrown => if s.phase = .running then some { s with pending := 0 } else none
  | .checkpoint => if s.phase = .running then some s.checkpoint else none

/-- A task that is in none of the scopes: it may have been cancelled, the scopes
may be cancelled, and it may have been created inside other scopes. -/
def Starts (s : HostTask) : Prop :=
  (∀ sc, (s.scopes sc).entered = false ∧ (s.scopes sc).injected = false) ∧ s.blocks = [] ∧ s.phase = .running ∧
    s.callbacks = [] ∧ s.refused = [] ∧ s.exits = []

def system : System HostTask ScopeAction where
  init := Starts
  step := step

/-! ## What a step does -/

/-- The steps of a task. -/
inductive Stepped (s : HostTask) : ScopeAction → HostTask → Prop
  | enter (sc : Nat) : s.phase = .running → Stepped s (.enter sc) (s.enter sc)
  | expired (b : Block) (bs : List Block) : s.phase = .entering → s.blocks = b :: bs →
    Stepped s (.entered true) (s.expire b.scope)
  | unexpired (b : Block) (bs : List Block) : s.phase = .entering → s.blocks = b :: bs →
    Stepped s (.entered false) (s.proceed b.scope)
  | exit (b : Block) (bs : List Block) (exc : Exc) : s.phase = .running → s.blocks = b :: bs →
    Stepped s (.exit exc) (s.exit b.scope exc)
  | exited (b : Block) (bs : List Block) (exc : Exc) (task injected : Bool) :
    s.phase = .exiting exc task injected → s.blocks = b :: bs →
    Stepped s .exited (s.exited b bs exc task injected)
  | cancel (sc : Nat) (remote : Bool) : remote ∨ s.phase = .running →
    Stepped s (.cancel sc remote) (s.cancel sc remote)
  | setShield (sc : Nat) (value remote : Bool) : remote ∨ s.phase = .running →
    Stepped s (.setShield sc value remote) (s.setShield sc value remote)
  | callback (i : Nat) (callback : ScopeCallback) : s.phase = .running → s.callbacks[i]? = some callback →
    Stepped s (.callback i) { s.deliver callback with callbacks := s.callbacks.eraseIdx i }
  | taskCancel :
    Stepped s .taskCancel { s with
      cancelling := s.cancelling + 1, pending := s.pending + 1, blocks := s.blocks.map Block.cancelled }
  | taskUncancel : 0 < s.cancelling →
    Stepped s .taskUncancel { s with
      cancelling := s.cancelling - 1, pending := s.pending - 1, blocks := s.blocks.map Block.uncancelled }
  | nothing : s.cancelling = 0 → Stepped s .taskUncancel s
  | thrown : s.phase = .running → Stepped s .thrown { s with pending := 0 }
  | checkpoint : s.phase = .running → Stepped s .checkpoint s.checkpoint

theorem stepped {s s' : HostTask} {a : ScopeAction} (hst : s.step a = some s') : Stepped s a s' := by
  cases a with
  | enter sc =>
    obtain ⟨hphase, rfl⟩ : s.phase = .running ∧ s.enter sc = s' := by simpa [step] using hst
    exact .enter sc hphase
  | entered expired =>
    simp only [step] at hst
    split at hst
    · rename_i b bs hphase hblocks
      cases hst
      cases expired with
      | true => exact .expired b bs hphase hblocks
      | false => exact .unexpired b bs hphase hblocks
    · cases hst
  | exit exc =>
    simp only [step] at hst
    split at hst
    · rename_i b bs hphase hblocks
      cases hst
      exact .exit b bs exc hphase hblocks
    · cases hst
  | exited =>
    simp only [step] at hst
    split at hst
    · rename_i exc task injected b bs hphase hblocks
      cases hst
      exact .exited b bs exc task injected hphase hblocks
    · cases hst
  | cancel sc remote =>
    obtain ⟨hmay, rfl⟩ : (remote ∨ s.phase = .running) ∧ s.cancel sc remote = s' := by simpa [step] using hst
    exact .cancel sc remote hmay
  | setShield sc value remote =>
    obtain ⟨hmay, rfl⟩ : (remote ∨ s.phase = .running) ∧ s.setShield sc value remote = s' := by
      simpa [step] using hst
    exact .setShield sc value remote hmay
  | callback i =>
    obtain ⟨hphase, callback, hget, rfl⟩ : s.phase = .running ∧ ∃ callback, s.callbacks[i]? = some callback ∧
        ({ s.deliver callback with callbacks := s.callbacks.eraseIdx i } : HostTask) = s' := by
      simpa [step] using hst
    exact .callback i callback hphase hget
  | taskCancel =>
    cases hst
    exact .taskCancel
  | taskUncancel =>
    simp only [step] at hst
    split at hst
    · rename_i hpos
      cases hst
      exact .taskUncancel hpos
    · rename_i hpos
      cases hst
      exact .nothing (by omega)
  | thrown =>
    obtain ⟨hphase, rfl⟩ : s.phase = .running ∧ ({ s with pending := 0 } : HostTask) = s' := by
      simpa [step] using hst
    exact .thrown hphase
  | checkpoint =>
    obtain ⟨hphase, rfl⟩ : s.phase = .running ∧ s.checkpoint = s' := by simpa [step] using hst
    exact .checkpoint hphase

section Exits

variable (s : HostTask) (sc : Nat)

@[simp] theorem inject_exits : (s.inject sc).exits = s.exits := rfl

@[simp] theorem applyShield_exits (value : Bool) : (s.applyShield sc value).exits = s.exits := by
  cases value <;> rfl

@[simp] theorem deliver_exits (callback : ScopeCallback) : (s.deliver callback).exits = s.exits := by
  cases callback <;> simp only [deliver] <;> split <;> simp

@[simp] theorem dispatch_exits (callback : ScopeCallback) (remote entered : Bool) :
    (s.dispatch callback remote entered).exits = s.exits := by
  unfold dispatch
  split
  · rfl
  · split <;> simp

@[simp] theorem cancel_exits (remote : Bool) : (s.cancel sc remote).exits = s.exits := by
  unfold cancel
  split
  · rfl
  · simp [setScope]

@[simp] theorem setShield_exits (value remote : Bool) : (s.setShield sc value remote).exits = s.exits := by
  unfold setShield
  split
  · rfl
  · simp [setScope]

@[simp] theorem enter_exits : (s.enter sc).exits = s.exits := by
  simp only [enter]
  split <;> rfl

@[simp] theorem refuse_exits (raised : Refusal) : (s.refuse sc raised).exits = s.exits := rfl

@[simp] theorem clear_exits : s.clear.exits = s.exits := rfl

@[simp] theorem expire_exits : (s.expire sc).exits = s.exits := by
  simp only [expire]
  split
  · rfl
  · split <;> rfl

@[simp] theorem proceed_exits : (s.proceed sc).exits = s.exits := by
  unfold proceed
  split
  · split
    · rfl
    · split
      · rfl
      · split <;> rfl
  · rfl

@[simp] theorem checkpoint_exits : s.checkpoint.exits = s.exits := by
  unfold checkpoint
  split
  · rfl
  · split <;> rfl

end Exits

/-- Only the second step of `__aexit__` adds to the exits. -/
theorem Stepped.exits {s s' : HostTask} {a : ScopeAction} (hst : Stepped s a s') :
    s'.exits = s.exits ∨ ∃ b bs exc task injected, a = .exited ∧ s.phase = .exiting exc task injected ∧
      s.blocks = b :: bs ∧ s' = s.exited b bs exc task injected := by
  cases hst with
  | enter sc => exact .inl (enter_exits s sc)
  | expired b => exact .inl (expire_exits s b.scope)
  | unexpired b => exact .inl (proceed_exits s b.scope)
  | exit => exact .inl rfl
  | exited b bs exc task injected hphase hblocks =>
    exact .inr ⟨b, bs, exc, task, injected, rfl, hphase, hblocks, rfl⟩
  | cancel sc remote => exact .inl (cancel_exits s sc remote)
  | setShield sc value remote => exact .inl (setShield_exits s sc value remote)
  | callback i callback => exact .inl (deliver_exits s callback)
  | taskCancel => exact .inl rfl
  | taskUncancel => exact .inl rfl
  | nothing => exact .inl rfl
  | thrown => exact .inl rfl
  | checkpoint => exact .inl (checkpoint_exits s)

end HostTask

end Multiloop
