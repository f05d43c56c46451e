import Multiloop.Http.Reading

/-!
# The end of a websocket

Whether `_reader_loop` tells the application that the connection has ended. It
does so where a frame of the client says it or an exception does; where it
breaks out of its loop it does not, and an application that has taken every
message then waits in `receive` for ever.
-/

namespace Multiloop.Http

/-- What `receive` returns. -/
inductive ReceivedMessage
  | connect
  | message (m : Inbound)
deriving DecidableEq

namespace WebSocketConnection

variable (c : WebSocketConnection)

/-- `receive` of an application that has taken the first `taken` messages out of
the channel; none is a wait that does not end, as nobody sends any more. -/
def receive (connectSent : Bool) (taken : Nat) : Option ReceivedMessage :=
  if ¬ connectSent then some .connect
  else if c.closedEvent ∧ c.inbound.drop taken = [] then some (.message (.disconnect 1000))
  else (c.inbound.drop taken).head?.map .message

/-- One message `websocket.disconnect` is sent, the last one of all, and
`_closed_event` is set, so that `receive` always returns. -/
structure ReportsEnd : Prop where
  last : ∃ told code, c.inbound = told ++ [.disconnect code] ∧ ∀ m ∈ told, m.IsData
  closed : c.closedEvent = true
  returns : ∀ connectSent taken, c.receive connectSent taken ≠ none

variable {c}

theorem receive_returns (h : c.closedEvent = true) (connectSent : Bool) (taken : Nat) :
    c.receive connectSent taken ≠ none := by
  unfold receive
  split
  · exact Option.some_ne_none _
  split
  · exact Option.some_ne_none _
  · rename_i hsome
    cases hdrop : c.inbound.drop taken with
    | nil => exact absurd ⟨h, hdrop⟩ hsome
    | cons m ms => exact Option.some_ne_none _

end WebSocketConnection

/-- The frames of a client pass up to one at which the end is told, or up to an
end of the stream that is an exception. -/
def EndIsTold (fast : Bool) (s : StreamReader) : Prop :=
  ∃ evs f rest, Passes .nothing s.bytes evs f rest ∧ ToldEnd fast s.ending f rest

/-- `_reader_loop` returns, and it has reported the end exactly if that is told. -/
theorem readClient_reports_iff (fast : Bool) (state : WebSocketState) (s : StreamReader) :
    ∃ c, readClient fast state s = some c ∧ (c.ReportsEnd ↔ EndIsTold fast s) := by
  obtain ⟨c, hread, evs, f, rest, hpasses, hhalt, hend⟩ := readClient_returns fast state s
  refine ⟨c, hread, ?_⟩
  rcases hend with ⟨htold, ⟨code, hin⟩, hclosed⟩ | ⟨hsilent, -, hclosed⟩
  · have hlast : c.inbound = toldOf evs ++ [.disconnect code] := hin
    exact iff_of_true ⟨⟨toldOf evs, code, hlast, toldOf_data evs⟩, hclosed, c.receive_returns hclosed⟩
      ⟨evs, f, rest, hpasses, htold⟩
  · refine iff_of_false (fun h => ?_) ?_
    · rw [h.closed] at hclosed
      cases hclosed
    · rintro ⟨evs', f', rest', hpasses', htold⟩
      obtain ⟨-, rfl, rfl⟩ := hpasses.unique hhalt hpasses' (.of_told htold)
      exact hsilent htold

/-- A client that sends a frame without a mask. -/
def unmaskedClient : StreamReader := ⟨[⟨[0x81, 0x00], by decide⟩], .eof false⟩

/-- Neither the end of the stream nor a frame without a mask is reported, and
`receive` waits. -/
theorem unreported_end :
    (readClient true .opened ⟨[], .eof true⟩).map (fun c => (c.inbound, c.closedEvent, c.receive true 0)) =
      some ([], false, none) ∧
    (readClient true .opened unmaskedClient).map (fun c => (c.inbound, c.closedEvent, c.receive true 0)) =
      some ([], false, none) ∧
    (readClient false .opened unmaskedClient).map (fun c => (c.inbound, c.closedEvent, c.receive true 0)) =
      some ([], false, none) ∧
    ∃ c, readClient true .opened unmaskedClient = some c ∧ ¬ c.ReportsEnd := by
  refine ⟨by decide, by decide, by decide, _, rfl, fun h => ?_⟩
  exact absurd h.closed (by decide)

end Multiloop.Http
