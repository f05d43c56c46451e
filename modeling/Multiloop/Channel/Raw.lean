import Mathlib.Data.List.Basic

/-!
# `RawAsyncChannel`

The state machine of `channel.rs`: a buffer, and three queues of registered
waiters (receivers, senders, selectors). Each method runs under the state's
mutex and collects the waiters to wake; the wakes are dispatched after the
mutex is released. A method is a function to its `Outcome`: what it returns
to the caller, the state it leaves, and the wakes it dispatches, in order.

Event loops, futures, channel tokens and items are Python objects the state
machine only stores, hands on, and (futures) compares by identity, so they
are type parameters.
-/

namespace Multiloop.Channel

/-- A registered waiter: (event loop, future, optional channel token). -/
structure ChannelWaiter (Loop Fut Tok : Type) where
  eventLoop : Loop
  future : Fut
  channelToken : Option Tok
deriving DecidableEq

/-- What is set on a waiter's future: an item, or the exception `close` shares
among the waiters it wakes. -/
inductive Val (Item : Type)
  | item (x : Item)
  | closedExc
deriving DecidableEq

/-- A target to wake outside of the mutex: a receiver or sender, with the
value to set (`none` if it carries none) and whether it is an exception; or a
selector, with the token of the channel that is ready (`none` is `py.None()`). -/
inductive WakeTarget (Loop Fut Tok Item : Type)
  | waiter (w : ChannelWaiter Loop Fut Tok) (val : Option (Val Item)) (isExc : Bool)
  | selectWatcher (w : ChannelWaiter Loop Fut Tok) (token : Option Tok)

/-- `RuntimeError("Channel is closed")`. -/
inductive ChannelError
  | closed
deriving DecidableEq

structure ChannelState (Loop Fut Tok Item : Type) where
  buffer : List Item
  maxsize : Nat
  isClosed : Bool
  getters : List (ChannelWaiter Loop Fut Tok)
  putters : List (ChannelWaiter Loop Fut Tok)
  selectWatchers : List (ChannelWaiter Loop Fut Tok)

/-- What a method returns, the state it leaves, and the wakes it dispatches. -/
structure Outcome (Loop Fut Tok Item β : Type) where
  reply : β
  state : ChannelState Loop Fut Tok Item
  toWake : List (WakeTarget Loop Fut Tok Item)

variable {Loop Fut Tok Item : Type}

/-- The waiter a wake is for. -/
def WakeTarget.target : WakeTarget Loop Fut Tok Item → ChannelWaiter Loop Fut Tok
  | .waiter w _ _ => w
  | .selectWatcher w _ => w

/-- The item a wake hands over, if any. -/
def WakeTarget.item? : WakeTarget Loop Fut Tok Item → Option Item
  | .waiter _ (some (.item x)) _ => some x
  | _ => none

/-- The wake of a selector, with its own channel token. -/
def ChannelWaiter.selectWake (w : ChannelWaiter Loop Fut Tok) : WakeTarget Loop Fut Tok Item :=
  .selectWatcher w w.channelToken

/-- The wake of a sender: no value, no exception. -/
def ChannelWaiter.putterWake (w : ChannelWaiter Loop Fut Tok) : WakeTarget Loop Fut Tok Item :=
  .waiter w none false

/-- The wake of a receiver with the item it is handed. -/
def ChannelWaiter.getterWake (w : ChannelWaiter Loop Fut Tok) (x : Item) :
    WakeTarget Loop Fut Tok Item :=
  .waiter w (some (.item x)) false

/-- The wake of a receiver or sender by `close`. -/
def ChannelWaiter.closeWake (w : ChannelWaiter Loop Fut Tok) : WakeTarget Loop Fut Tok Item :=
  .waiter w (some .closedExc) true

def new (maxsize : Nat) : ChannelState Loop Fut Tok Item :=
  { buffer := [], maxsize, isClosed := false, getters := [], putters := [], selectWatchers := [] }

namespace ChannelState

variable (s : ChannelState Loop Fut Tok Item)

def close : Outcome Loop Fut Tok Item Unit :=
  if s.isClosed then ⟨(), s, []⟩
  else
    { reply := ()
      state := { s with isClosed := true, getters := [], putters := [], selectWatchers := [] }
      toWake := s.getters.map ChannelWaiter.closeWake ++ s.putters.map ChannelWaiter.closeWake ++
        s.selectWatchers.map ChannelWaiter.selectWake }

/-- The loop of `try_send` that wakes senders while the buffer has room: the
senders it leaves queued, and the ones it pops. -/
def drainPutters (len maxsize : Nat) :
    List (ChannelWaiter Loop Fut Tok) →
      List (ChannelWaiter Loop Fut Tok) × List (ChannelWaiter Loop Fut Tok)
  | [] => ([], [])
  | p :: ps =>
    if len < maxsize then
      let (queued, popped) := drainPutters len maxsize ps
      (queued, p :: popped)
    else (p :: ps, [])

def trySend (item : Item) : Outcome Loop Fut Tok Item (Except ChannelError Bool) :=
  if s.isClosed then ⟨.error .closed, s, []⟩
  else
    match s.getters, s.selectWatchers with
    | getter :: getters, _ =>
      if s.maxsize > 0 then
        let (queued, popped) := drainPutters s.buffer.length s.maxsize s.putters
        { reply := .ok true
          state := { s with getters, putters := queued }
          toWake := getter.getterWake item :: popped.map ChannelWaiter.putterWake }
      else ⟨.ok true, { s with getters }, [getter.getterWake item]⟩
    | [], watcher :: watchers =>
      { reply := .ok true
        state := { s with buffer := s.buffer ++ [item], selectWatchers := watchers }
        toWake := [watcher.selectWake] }
    | [], [] =>
      if s.maxsize > 0 ∧ s.buffer.length ≥ s.maxsize then ⟨.ok false, s, []⟩
      else ⟨.ok true, { s with buffer := s.buffer ++ [item] }, []⟩

/-- The sender woken when an item leaves the buffer, and the senders left. -/
def popPutter : List (ChannelWaiter Loop Fut Tok) × List (WakeTarget Loop Fut Tok Item) :=
  match s.putters with
  | putter :: putters =>
    if s.maxsize > 0 then (putters, [putter.putterWake]) else (putter :: putters, [])
  | [] => ([], [])

def tryRecv : Outcome Loop Fut Tok Item (Except ChannelError (Bool × Option Item)) :=
  match s.buffer with
  | item :: buffer =>
    { reply := .ok (true, some item)
      state := { s with buffer, putters := s.popPutter.1 }
      toWake := s.popPutter.2 }
  | [] => if s.isClosed then ⟨.error .closed, s, []⟩ else ⟨.ok (false, none), s, []⟩

def registerGetter (loopObj : Loop) (fut : Fut) :
    Outcome Loop Fut Tok Item (Except ChannelError (Bool × Option Item)) :=
  match s.getters, s.buffer with
  | [], item :: buffer =>
    { reply := .ok (true, some item)
      state := { s with buffer, putters := s.popPutter.1 }
      toWake := s.popPutter.2 }
  | _, _ =>
    if s.isClosed then ⟨.error .closed, s, []⟩
    else
      ⟨.ok (false, none), { s with getters := s.getters ++ [⟨loopObj, fut, none⟩] }, []⟩

def registerPutter (loopObj : Loop) (fut : Fut) :
    Outcome Loop Fut Tok Item (Except ChannelError Bool) :=
  if s.isClosed then ⟨.error .closed, s, []⟩
  else if s.putters.isEmpty ∧ (s.maxsize = 0 ∨ s.buffer.length < s.maxsize) then ⟨.ok true, s, []⟩
  else ⟨.ok false, { s with putters := s.putters ++ [⟨loopObj, fut, none⟩] }, []⟩

def registerSelectWatcher (loopObj : Loop) (arbiterFut : Fut) (channelToken : Tok) :
    Outcome Loop Fut Tok Item Bool :=
  if s.isClosed ∧ s.buffer.isEmpty then ⟨false, s, []⟩
  else if ¬ s.buffer.isEmpty then ⟨false, s, []⟩
  else
    { reply := true
      state := { s with
        selectWatchers := s.selectWatchers ++ [⟨loopObj, arbiterFut, some channelToken⟩] }
      toWake := [] }

def forwardSelectWakeup : Outcome Loop Fut Tok Item Unit :=
  match s.selectWatchers with
  | watcher :: watchers =>
    if ¬ s.buffer.isEmpty ∧ s.getters.isEmpty then
      ⟨(), { s with selectWatchers := watchers }, [watcher.selectWake]⟩
    else ⟨(), s, []⟩
  | [] => ⟨(), s, []⟩

variable [DecidableEq Fut]

/-- `retain(|w| !w.future.is(fut))`. -/
def retain (fut : Fut) (ws : List (ChannelWaiter Loop Fut Tok)) : List (ChannelWaiter Loop Fut Tok) :=
  ws.filter fun w => w.future ≠ fut

def unregisterGetter (fut : Fut) : Outcome Loop Fut Tok Item (Except ChannelError Bool) :=
  let getters := retain fut s.getters
  let removed := decide (getters.length ≠ s.getters.length)
  match removed, s.buffer, getters, s.selectWatchers with
  | false, item :: buffer, nextGetter :: getters, _ =>
    ⟨.ok removed, { s with buffer, getters }, [nextGetter.getterWake item]⟩
  | false, _ :: _, [], watcher :: watchers =>
    ⟨.ok removed, { s with getters := [], selectWatchers := watchers }, [watcher.selectWake]⟩
  | _, _, _, _ => ⟨.ok removed, { s with getters }, []⟩

def unregisterPutter (fut : Fut) : Outcome Loop Fut Tok Item (Except ChannelError Bool) :=
  let putters := retain fut s.putters
  let removed := decide (putters.length ≠ s.putters.length)
  match putters with
  | nextPutter :: rest =>
    if ¬ removed ∧ (s.maxsize = 0 ∨ s.buffer.length < s.maxsize) then
      ⟨.ok removed, { s with putters := rest }, [nextPutter.putterWake]⟩
    else ⟨.ok removed, { s with putters }, []⟩
  | [] => ⟨.ok removed, { s with putters := [] }, []⟩

def unregisterSelectWatcher (fut : Fut) : Outcome Loop Fut Tok Item Bool :=
  let watchers := retain fut s.selectWatchers
  ⟨decide (watchers.length ≠ s.selectWatchers.length), { s with selectWatchers := watchers }, []⟩

end ChannelState

end Multiloop.Channel
