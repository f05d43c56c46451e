import Multiloop.Asyncio
import Multiloop.Channel.Raw
import Multiloop.Framework.Transition

/-!
# `select_channel`

Any number of tasks that run `select_channel` on any channels, while items are
sent to the channels from any thread. One iteration of `select_channel` probes
its channels, creates an arbiter future and registers it on each of them, and
awaits the arbiter; the channel that sets it is tried once more. Every call of
a Rust method is one atomic step. The order in which an iteration visits the
channels starts at an arbitrary one, chosen by the action. A timeout cancels
the await as `asyncio.wait_for` does, so it is a `cancel` here.

A `_select_wake` callback runs on the event loop of the arbiter's task, hence
only while that task is suspended or has returned.
-/

namespace Multiloop.Channel

/-- Where a task is in its call of `select_channel(*channels)`. -/
inductive SelectPc (C Task : Type)
  | idle
  /-- Phase 1: about to `try_recv` the channels of `rest`. -/
  | probe (channels rest : List C)
  /-- Phase 2: about to register the arbiter on the channels of `rest`. -/
  | register (channels : List C) (arbiter : Fut Task) (registered rest : List C)
  /-- A channel did not register the arbiter: about to `try_recv` it. -/
  | tryNow (channels : List C) (arbiter : Fut Task) (registered : List C) (ch : C) (rest : List C)
  | await (channels : List C) (arbiter : Fut Task) (registered : List C)
  /-- The arbiter was set to `ch`: about to `try_recv` it. -/
  | take (channels : List C) (arbiter : Fut Task) (registered : List C) (ch : C)
  /-- `finally`: about to unregister from the channels of `registered`, and then
  to go on with another iteration (`next`), or to return or raise. -/
  | cleanup (arbiter : Fut Task) (registered : List C) (next : Option (List C))
deriving DecidableEq

inductive SelectAction (C Task α : Type)
  /-- Any thread sends an item. -/
  | trySend (ch : C) (item : α)
  /-- The task calls `select_channel`, and probes from the `start`-th channel on. -/
  | select (t : Task) (channels : List C) (start : Nat)
  /-- The task takes its next step; a loop over the channels it starts begins at
  the `start`-th. -/
  | advance (t : Task) (start : Nat)
  /-- Nothing was ready: the task returns the default, or its time is up. -/
  | leave (t : Task)
  | resume (t : Task)
  | cancel (t : Task)
  /-- The event loop runs the `i`-th scheduled `_select_wake`. -/
  | wake (i : Nat)

/-- A channel as selectors use it: a watcher's token is the channel. -/
abbrev SelectChannel (Loop C Task α : Type) := ChannelState Loop (Fut Task) C α

structure Selectors (Loop C Task α : Type) where
  chan : C → SelectChannel Loop C Task α
  futs : Fut Task → FutState C
  /-- The scheduled `_select_wake(arbiter_fut, ch)`. -/
  scheduled : List (Fut Task × C)
  pc : Task → SelectPc C Task
  mustCancel : Task → Bool
  /-- The arbiters each task has created. -/
  created : Task → Nat

variable {Loop C Task α : Type}

/-- The `_select_wake` a wake schedules; every watcher was registered with a token. -/
def WakeTarget.selectCall? : WakeTarget Loop (Fut Task) C α → Option (Fut Task × C)
  | .selectWatcher w (some ch) => some (w.future, ch)
  | _ => none

namespace Selectors

def new (maxsize : C → Nat) : Selectors Loop C Task α where
  chan ch := Channel.new (maxsize ch)
  futs _ := .pending
  scheduled := []
  pc _ := .idle
  mustCancel _ := false
  created _ := 0

variable (s : Selectors Loop C Task α) [DecidableEq C] [DecidableEq Task]

/-- The state a Rust call on `ch` leaves, its wakes scheduled. -/
def dispatch {β : Type} (ch : C) (o : Outcome Loop (Fut Task) C α β) : Selectors Loop C Task α :=
  { s with
    chan := Function.update s.chan ch o.state
    scheduled := s.scheduled ++ o.toWake.filterMap WakeTarget.selectCall? }

def goto (t : Task) (p : SelectPc C Task) : Selectors Loop C Task α :=
  { s with pc := Function.update s.pc t p }

/-- `ch.is_closed and ch.qsize() == 0`. -/
def drained (ch : C) : Bool := (s.chan ch).isClosed && (s.chan ch).buffer.isEmpty

/-- `loop.create_future()` in task `t`. -/
def createFuture (t : Task) : Fut Task × Selectors Loop C Task α :=
  ({ owner := t, serial := s.created t },
    { s with created := Function.update s.created t (s.created t + 1) })

/-- `ch.try_recv()` by task `t`, which goes to `ready` with an item, and to
`none` on `WouldBlock` and `ChannelClosedError`. -/
def tryRecv (t : Task) (ch : C) (ready none : SelectPc C Task) : Selectors Loop C Task α :=
  let o := (s.chan ch).tryRecv
  match o.reply with
  | .ok (true, _) => (s.dispatch ch o).goto t ready
  | _ => (s.dispatch ch o).goto t none

/-- Task `t` starts to await its arbiter, which a cancellation asked for earlier
cancels at once. -/
def await (t : Task) (f : Fut Task) (p : SelectPc C Task) : Selectors Loop C Task α :=
  { s with
    pc := Function.update s.pc t p
    futs := if s.mustCancel t then Function.update s.futs f .cancelled else s.futs
    mustCancel := Function.update s.mustCancel t false }

/-- The next step of task `t`, whose event loop is `home t`. -/
def advance (home : Task → Loop) (t : Task) (start : Nat) : Option (Selectors Loop C Task α) :=
  match s.pc t with
  | .probe channels (ch :: rest) => some (s.tryRecv t ch .idle (.probe channels rest))
  | .probe channels [] =>
    if channels.all s.drained then some (s.goto t .idle)
    else
      let (f, s) := s.createFuture t
      some (s.goto t (.register channels f [] (channels.rotate start)))
  | .register channels f registered (ch :: rest) =>
    let o := (s.chan ch).registerSelectWatcher (home t) f ch
    if o.reply then
      some ((s.dispatch ch o).goto t (.register channels f (registered ++ [ch]) rest))
    else
      match s.futs f with
      | .pending => some ((s.dispatch ch o).goto t (.tryNow channels f registered ch rest))
      | _ => some ((s.dispatch ch o).goto t (.register channels f registered rest))
  | .tryNow channels f registered ch rest =>
    some (s.tryRecv t ch (.cleanup f registered none) (.register channels f registered rest))
  | .register channels f registered [] =>
    if channels.all s.drained then some (s.goto t (.cleanup f registered none))
    else some (s.await t f (.await channels f registered))
  | .take channels f registered ch =>
    some (s.tryRecv t ch (.cleanup f registered none) (.cleanup f registered (some channels)))
  | .cleanup f (ch :: registered) next =>
    some ((s.dispatch ch ((s.chan ch).unregisterSelectWatcher f)).goto t (.cleanup f registered next))
  | .cleanup _ [] none => some (s.goto t .idle)
  | .cleanup _ [] (some channels) => some (s.goto t (.probe channels (channels.rotate start)))
  | .idle | .await _ _ _ => none

/-- The event loop resumes task `t`. -/
def resume (t : Task) : Option (Selectors Loop C Task α) :=
  match s.pc t with
  | .await channels f registered =>
    match s.futs f with
    | .pending => none
    | .result ch =>
      if s.mustCancel t then
        some ({ s with mustCancel := Function.update s.mustCancel t false }.goto t
          (.cleanup f registered none))
      else some (s.goto t (.take channels f registered ch))
    | .exception | .cancelled =>
      some ({ s with mustCancel := Function.update s.mustCancel t false }.goto t
        (.cleanup f registered none))
  | _ => none

/-- `task.cancel()`. -/
def cancel (t : Task) : Selectors Loop C Task α :=
  match s.pc t with
  | .await _ f _ =>
    match s.futs f with
    | .pending => { s with futs := Function.update s.futs f .cancelled }
    | _ => { s with mustCancel := Function.update s.mustCancel t true }
  | _ => { s with mustCancel := Function.update s.mustCancel t true }

/-- `_select_wake`. -/
def selectWake (f : Fut Task) (ch : C) : Selectors Loop C Task α :=
  match s.futs f with
  | .pending => { s with futs := Function.update s.futs f (.result ch) }
  | _ => s.dispatch ch (s.chan ch).forwardSelectWakeup

/-- Task `t` is between two awaits of its call. -/
def running (t : Task) : Bool :=
  match s.pc t with
  | .idle | .await _ _ _ => false
  | _ => true

def step (home : Task → Loop) (s : Selectors Loop C Task α) :
    SelectAction C Task α → Option (Selectors Loop C Task α)
  | .trySend ch item => some (s.dispatch ch ((s.chan ch).trySend item))
  | .select t channels start =>
    match s.pc t with
    -- Without channels it raises `ValueError`.
    | .idle => if channels = [] then some s else some (s.goto t (.probe channels (channels.rotate start)))
    | _ => none
  | .advance t start => s.advance home t start
  | .leave t =>
    match s.pc t with
    | .probe _ [] => some (s.goto t .idle)
    | _ => none
  | .resume t => s.resume t
  | .cancel t => some (s.cancel t)
  | .wake i =>
    match s.scheduled[i]? with
    | some (f, ch) =>
      if s.running f.owner then none
      else some ({ s with scheduled := s.scheduled.eraseIdx i }.selectWake f ch)
    | none => none

end Selectors

/-- The runs of selectors over fresh channels. -/
def selectors [DecidableEq C] [DecidableEq Task] (home : Task → Loop) (maxsize : C → Nat) :
    System (Selectors Loop C Task α) (SelectAction C Task α) where
  init s := s = Selectors.new maxsize
  step := Selectors.step home

end Multiloop.Channel
