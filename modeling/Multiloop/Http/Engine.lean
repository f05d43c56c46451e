import Multiloop.Framework.Transition
import Multiloop.Http.WebSocket

/-!
# The calls of the engine

`feed_data` and `pump_events` run rounds until one of them stops the loop. A
call that panics leaves the connection as the last complete round left it, and
the events of the call are lost.
-/

namespace Multiloop.Http

/-- The connection after a call, the events that it appended, and how it
failed. -/
structure Outcome where
  conn : FastHttpConnection
  events : List Event
  fault : Option Fault
deriving DecidableEq

namespace FastHttpConnection

variable (m : Arith) (parse : Httparse) (c : FastHttpConnection)

/-- One round of `process_events`. -/
def round : Except Fault Round :=
  match c.mode with
  | .webSocket => c.webSocketRound m
  | .http11 => c.httpRound m parse

/-- At most `fuel` rounds. -/
def rounds : Nat → FastHttpConnection → Outcome
  | 0, c => ⟨c, [], some .unfinished⟩
  | fuel + 1, c =>
    match c.round m parse with
    | .error fault => ⟨c, [], some fault⟩
    | .ok (c', events, .stop) => ⟨c', events, none⟩
    | .ok (c', events, .again) =>
      let rest := rounds fuel c'
      { rest with events := events ++ rest.events }

/-- More rounds than the bytes of the buffer allow for. -/
def enough : Nat := c.buffer.length + 3

def processEvents : Outcome := rounds m parse c.enough c.compactBuffer

def feedData (data : Bytes) : Outcome := { c with buffer := c.buffer ++ data }.processEvents m parse

def pumpEvents : Outcome := c.processEvents m parse

end FastHttpConnection

end Multiloop.Http
