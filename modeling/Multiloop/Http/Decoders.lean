import Multiloop.Http.Messages
import Multiloop.Http.Reading

/-!
# Two decoders of a client

`_reader_loop` and the engine in websocket mode read the same bytes. They tell
the same data messages up to the first Close frame or error of the engine,
where the reader stops and the engine does not.
-/

namespace Multiloop.Http

open FastHttpConnection

/-! ## The sizes of frames and messages -/

/-- Where a frame begins, if each one before it has a mask and is there
whole. -/
inductive Boundary : Bytes → Bytes → Prop
  | here {u : Bytes} : Boundary u u
  | frame {u rest : Bytes} {opcode : UInt8} {fin : Bool} {payload : Bytes} {size : Nat}
      (hfirst : firstFrame u = .frame opcode fin payload size) (h : Boundary (u.drop size) rest) : Boundary u rest

/-- The payload length that the header of a masked frame says. -/
def announcedPayload (u : Bytes) : Option Nat :=
  match u with
  | _ :: b2 :: _ => if b2 &&& 0x80 = 0 then none else (lengths u (b2 &&& 0x7F).toNat).map (·.1)
  | _ => none

/-- No frame of the client has more than 16 MB. -/
def FramesWithin (u : Bytes) : Prop :=
  ∀ rest, Boundary u rest → ∀ payloadLen, announcedPayload rest = some payloadLen → payloadLen ≤ maxWsFrameSize

/-- No message of the client has more than 32 MB, the one that has begun
included. -/
def MessagesWithin (f : Reassembly) (u : Bytes) : Prop :=
  ∀ evs f' rest fin payload size, Passes f u evs f' rest → firstFrame rest = .frame 0x0 fin payload size →
    f'.payload.length + payload.length ≤ maxWsMessageSize

variable {u v rest : Bytes} {opcode : UInt8} {fin : Bool} {payload : Bytes} {size : Nat}

theorem FramesWithin.frame (hfirst : firstFrame u = .frame opcode fin payload size)
    (hlen : ∀ payloadLen, announcedPayload u = some payloadLen → payloadLen ≤ maxWsFrameSize)
    (h : FramesWithin (u.drop size)) : FramesWithin u := by
  intro rest hrest
  cases hrest with
  | here => exact hlen
  | frame hfirst' hrest =>
    rw [hfirst] at hfirst'
    injection hfirst' with hop hfin hpayload hsize
    subst hsize
    exact h rest hrest

theorem MessagesWithin.frame {f : Reassembly} (hfirst : firstFrame u = .frame opcode fin payload size)
    (hlen : opcode = 0x0 → f.payload.length + payload.length ≤ maxWsMessageSize)
    (h : ∀ f' evs, Admits f opcode fin payload f' evs → MessagesWithin f' (u.drop size)) : MessagesWithin f u := by
  intro evs f' rest fin' payload' size' hpasses hrest
  cases hpasses with
  | done =>
    rw [hfirst] at hrest
    injection hrest with hop hfin hpayload hsize
    rw [← hpayload]
    exact hlen hop
  | frame hfirst' _ hpass hpasses =>
    rw [hfirst] at hfirst'
    injection hfirst' with hop hfin hpayload hsize
    subst hop hfin hpayload hsize
    exact h _ _ hpass _ _ _ _ _ _ hpasses hrest

theorem Boundary.trans (h : Boundary u v) (h' : Boundary v rest) : Boundary u rest := by
  induction h with
  | here => exact h'
  | frame hfirst _ ih => exact .frame hfirst (ih h')

theorem announcedPayload_size (h : announcedSize u = some size) :
    ∃ payloadLen, announcedPayload u = some payloadLen ∧ size ≤ payloadLen + 14 := by
  rcases hu : u with _ | ⟨b1, _ | ⟨b2, tail⟩⟩
  · rw [hu] at h
    cases h
  · rw [hu] at h
    cases h
  rw [← hu]
  by_cases hmask : b2 &&& 0x80 = 0
  · rw [hu] at h
    cases (if_pos hmask).symm.trans h
  · have hpayload : announcedPayload u = (lengths u (b2 &&& 0x7F).toNat).map (·.1) := by
      rw [hu]
      exact if_neg hmask
    rw [announcedSize_masked hu hmask] at h
    obtain ⟨⟨payloadLen, headerLen⟩, hl, rfl⟩ := Option.map_eq_some_iff.1 h
    have hheader := lengths_header hl
    refine ⟨payloadLen, by rw [hpayload, hl]; rfl, ?_⟩
    dsimp only
    omega

theorem announcedPayload_frame (h : firstFrame u = .frame opcode fin payload size) :
    announcedPayload u = some payload.length := by
  rcases hu : u with _ | ⟨b1, _ | ⟨b2, tail⟩⟩
  · rw [hu] at h
    cases h
  · rw [hu] at h
    cases h
  rw [← hu]
  by_cases hmask : b2 &&& 0x80 = 0
  · rw [hu] at h
    cases (if_pos hmask).symm.trans h
  · have hpayload : announcedPayload u = (lengths u (b2 &&& 0x7F).toNat).map (·.1) := by
      rw [hu]
      exact if_neg hmask
    rw [firstFrame_masked hu hmask] at h
    cases hl : lengths u (b2 &&& 0x7F).toNat with
    | none =>
      rw [hl] at h
      cases h
    | some p =>
      obtain ⟨payloadLen, headerLen⟩ := p
      rw [hl] at h
      dsimp only at h
      split at h
      · cases h
      · rename_i hlong
        injection h with hop hfin hbytes hsize
        have hlen : payload.length = payloadLen := by
          rw [← hbytes]
          unfold fastWebsocketUnmask
          rw [List.length_mapIdx, List.length_take_of_le]
          rw [List.length_drop]
          omega
        rw [hpayload, hl, hlen]
        rfl

/-- Frames of such sizes are below the end of a `usize`. -/
theorem FramesWithin.announced (h : FramesWithin u) (hrest : Boundary u rest) :
    ∀ size, announcedSize rest = some size → size < usizeEnd := by
  intro size hsize
  obtain ⟨payloadLen, hpayload, hle⟩ := announcedPayload_size hsize
  have hwithin := h rest hrest payloadLen hpayload
  unfold maxWsFrameSize at hwithin
  unfold usizeEnd
  omega

/-! ## The engine has no fault -/

namespace FastHttpConnection

variable {parse : Httparse} {c : FastHttpConnection} {future : Bytes}

/-- A frame that is unmasked or not goes on in bytes that begin at a frame. -/
theorem acceptFrame_unread (c : FastHttpConnection) (opcode : UInt8) (fin : Bool) (payload : Bytes) :
    (c.acceptFrame opcode fin payload).1.unread = c.unread ∧ (c.acceptFrame opcode fin payload).1.mode = c.mode := by
  unfold acceptFrame
  dsimp only
  repeat' split
  all_goals exact ⟨rfl, rfl⟩

/-- Where a call leaves the connection, if no frame has more bytes than a
`usize` can say. -/
def Sound (u future : Bytes) (o : Outcome) : Prop :=
  o.fault = none ∧ o.conn.Bounded ∧ o.conn.mode = .webSocket ∧ Boundary u (o.conn.unread ++ future)

theorem rounds_sound (hparse : InRange parse) {fuel : Nat} (hb : c.Bounded) (hm : c.mode = .webSocket)
    (hfuel : c.unread.length < fuel) (hu : Boundary u (c.unread ++ future))
    (hlimit : ∀ rest, Boundary u rest → ∀ size, announcedSize rest = some size → size < usizeEnd) :
    Sound u future (rounds .release parse fuel c) := by
  induction fuel generalizing c with
  | zero => exact absurd hfuel (Nat.not_lt_zero _)
  | succ fuel ih =>
    have hround : c.round .release parse = c.webSocketRound .release := by
      unfold round
      rw [hm]
    have hbounded : ∀ r, c.webSocketRound .release = .ok r → r.1.Bounded :=
      fun r hr => hb.round hparse (hround.trans hr)
    have hcases := webSocketRound_cases hb.fits
    unfold rounds
    rw [hround]
    generalize hr : c.webSocketRound .release = r at hcases
    cases hcases with
    | short hfirst => exact ⟨rfl, hb, hm, hu⟩
    | @wraps hfirst size hsize hwraps e =>
      exact absurd (hlimit _ hu size (announcedSize_append hsize future)) (Nat.not_lt.2 hwraps)
    | unmasked hfirst => exact ⟨rfl, hbounded _ hr, hm, hu⟩
    | @frame opcode fin payload size hfirst =>
      obtain ⟨hle, hsix, -⟩ := firstFrame_size hfirst
      have hread : firstFrame c.unread ≠ .short := fun hshort => by cases hfirst.symm.trans hshort
      have hfirst := firstFrame_append hread future ▸ hfirst
      obtain ⟨hunread, hmode⟩ := acceptFrame_unread { c with cursor := c.cursor + size } opcode fin payload
      have hdrop : ({ c with cursor := c.cursor + size } : FastHttpConnection).unread = c.unread.drop size :=
        (List.drop_drop ..).symm
      rw [hdrop] at hunread
      generalize acceptFrame { c with cursor := c.cursor + size } opcode fin payload = round at hr hunread hmode
      obtain ⟨c', evs, flow⟩ := round
      have hu' : Boundary u (c'.unread ++ future) := by
        refine hu.trans (.frame hfirst ?_)
        rw [List.drop_append_of_le_length hle, ← hunread]
        exact .here
      cases flow with
      | stop => exact ⟨rfl, hbounded _ hr, hmode.trans hm, hu'⟩
      | again =>
        have hless : c'.unread.length < fuel := by
          rw [hunread, List.length_drop]
          omega
        exact ih (hbounded _ hr) (hmode.trans hm) hless hu'

theorem feedData_sound (hparse : InRange parse) {seg : Bytes} (hb : c.Bounded) (hm : c.mode = .webSocket)
    (hroom : (c.buffer ++ seg).length < 2 ^ 63) (hu : Boundary u (c.unread ++ (seg ++ future)))
    (hlimit : ∀ rest, Boundary u rest → ∀ size, announcedSize rest = some size → size < usizeEnd) :
    Sound u future (c.feedData .release parse seg) := by
  have ha := hb.append hroom
  obtain ⟨hv, hmode, -⟩ := view_compact (c := { c with buffer := c.buffer ++ seg })
  have hunread : (compactBuffer { c with buffer := c.buffer ++ seg }).unread = c.unread ++ seg :=
    (congrArg Decoder.unread hv).trans (List.drop_append_of_le_length hb.fits.cursor)
  refine rounds_sound hparse ha.compact (hmode.trans hm) ?_ ?_ hlimit
  · rw [hunread]
    show (c.unread ++ seg).length < (c.buffer ++ seg).length + 3
    rw [List.length_append, List.length_append, unread_length]
    omega
  · rw [hunread, List.append_assoc]
    exact hu

theorem feedAll_sound (hparse : InRange parse) {segs : List Bytes} (hb : c.Bounded) (hm : c.mode = .webSocket)
    (hroom : HasRoom .release parse c segs) (hu : Boundary u (c.unread ++ segs.flatten))
    (hlimit : ∀ rest, Boundary u rest → ∀ size, announcedSize rest = some size → size < usizeEnd) :
    (feedAll .release parse c segs).fault = none := by
  induction segs generalizing c with
  | nil => rfl
  | cons seg segs ih =>
    obtain ⟨hfault, hb', hm', hu'⟩ := feedData_sound hparse hb hm hroom.1 hu hlimit
    have hall : feedAll .release parse c (seg :: segs) =
        { feedAll .release parse (c.feedData .release parse seg).conn segs with
          events := (c.feedData .release parse seg).events ++
            (feedAll .release parse (c.feedData .release parse seg).conn segs).events } := if_pos hfault
    rw [hall]
    exact ih hb' hm' hroom.2 hu'

end FastHttpConnection

/-! ## Up to the end -/

/-- The events at which the owner of the engine ends the connection. -/
def Event.Ends : Event → Prop
  | .error _ _ => True
  | .message opcode _ _ => opcode = 0x8
  | _ => False

instance : DecidablePred Event.Ends := fun e => by
  cases e <;> unfold Event.Ends <;> infer_instance

/-- The events before the first that ends the connection. -/
def beforeEnd (evs : List Event) : List Event := evs.takeWhile fun e => ¬ e.Ends

theorem beforeEnd_append {evs more : List Event} (hevs : ∀ e ∈ evs, ¬ e.Ends)
    (hmore : ∀ e more', more = e :: more' → e.Ends) : beforeEnd (evs ++ more) = evs := by
  unfold beforeEnd
  rw [List.takeWhile_append_of_pos fun e he => decide_eq_true (hevs e he)]
  cases more with
  | nil => exact List.append_nil _
  | cons e more' =>
    have hends : ¬ (decide (¬ e.Ends) = true) := fun h => of_decide_eq_true h (hmore e more' rfl)
    rw [List.takeWhile_cons, if_neg hends, List.append_nil]

/-- A frame that passes tells nothing that ends the connection, and begins no
message of close frames. -/
theorem Admits.goes_on {f f' : Reassembly} {evs : List Event} (h : Admits f opcode fin payload f' evs)
    (hf : f.opcode ≠ 0x8) : (∀ e ∈ evs, ¬ e.Ends) ∧ f'.opcode ≠ 0x8 := by
  have hone : ∀ {op : UInt8} {p : Bytes}, op ≠ 0x8 → ∀ e ∈ [Event.message op fin p], ¬ e.Ends := by
    intro op p hop e he
    rw [List.mem_singleton.1 he]
    exact hop
  have hnone : ∀ e ∈ ([] : List Event), ¬ e.Ends := fun e he => absurd he List.not_mem_nil
  obtain ⟨haccept, hopen, -⟩ := h
  unfold Reassembly.accept at haccept
  split at haccept
  · split at haccept
    · cases haccept
    · cases haccept
      exact ⟨hone hopen, hf⟩
  split at haccept
  · split at haccept
    · cases haccept
    split at haccept
    · split at haccept
      · cases haccept
      · cases haccept
        exact ⟨hone hopen, hf⟩
    · cases haccept
      exact ⟨hnone, hopen⟩
  split at haccept
  · split at haccept
    · cases haccept
    split at haccept
    · split at haccept
      · cases haccept
      · cases haccept
        exact ⟨hone hf, by decide⟩
    · cases haccept
      exact ⟨hnone, hf⟩
  · cases haccept
    exact ⟨hnone, hf⟩

variable {f f' : Reassembly} {evs : List Event}

theorem Passes.goes_on (h : Passes f u evs f' rest) (hf : f.opcode ≠ 0x8) : ∀ e ∈ evs, ¬ e.Ends := by
  induction h with
  | done => exact fun e he => absurd he List.not_mem_nil
  | frame _ _ hpass _ ih =>
    obtain ⟨hevs, hf'⟩ := hpass.goes_on hf
    intro e he
    rcases List.mem_append.1 he with he | he
    · exact hevs e he
    · exact ih hf' e he

theorem Passes.boundary (h : Passes f u evs f' rest) : Boundary u rest := by
  induction h with
  | done => exact .here
  | frame hfirst _ _ _ ih => exact .frame hfirst ih

/-- The engine accepts the frames that pass. -/
theorem Passes.reads (h : Passes f u evs f' rest) : Reassembly.Reads f u evs f' rest := by
  induction h with
  | done => exact .done
  | frame hfirst hcheck hpass _ ih =>
    have hsize := (firstFrame_size hfirst).2.2
    have hlen := (checkHeader_none hcheck).2
    unfold maxWsFrameSize at hlen
    exact .frame hfirst (by unfold usizeEnd; omega) hpass.1 ih

/-- Where no frame passes, the engine finds a frame that offends or closes. -/
theorem Halts.offends (hhalt : Halts f rest) (hfirst : firstFrame rest = .frame opcode fin payload size)
    (hlen : payload.length ≤ maxWsFrameSize)
    (hmessage : opcode = 0x0 → f.payload.length + payload.length ≤ maxWsMessageSize) :
    f.accept opcode fin payload = none ∨
      opcode = 0x8 ∧ f.accept opcode fin payload = some (f, [.message 0x8 fin payload]) := by
  cases haccept : f.accept opcode fin payload with
  | none => exact .inl rfl
  | some p =>
    obtain ⟨f', evs⟩ := p
    have hcheck : checkHeader opcode fin payload.length = none := by
      have hcontrol : ¬ (0x8 ≤ opcode ∧ (125 < payload.length ∨ ¬ fin = true)) := by
        rintro ⟨hcontrol, hbad⟩
        unfold Reassembly.accept at haccept
        rw [if_pos hcontrol, if_pos hbad] at haccept
        cases haccept
      unfold checkHeader
      rw [if_neg hcontrol, if_neg (Nat.not_lt.2 hlen)]
    have hno := hhalt _ _ _ _ hfirst hcheck f' evs
    by_cases hclose : opcode = 0x8
    · refine .inr ⟨hclose, ?_⟩
      subst hclose
      unfold Reassembly.accept at haccept
      rw [if_pos (by decide)] at haccept
      split at haccept
      · cases haccept
      · exact haccept.symm
    · exact absurd ⟨haccept, hclose, hmessage⟩ hno

namespace Life

variable {parse : Httparse} {l : Life}

/-- The reader sends the data messages that the engine tells before the first
Close frame or error, however the bytes are cut for the one and the other. -/
theorem decoders_agree (hparse : InRange parse) (h : (life parse).Reachable l) (hm : l.conn.mode = .http11)
    (hunread : l.conn.unread = []) {s : StreamReader} {segs : List Bytes} (hsame : segs.flatten = s.bytes)
    (hroom : HasRoom .release parse l.conn.switchToWebsocket segs) (hframes : FramesWithin s.bytes)
    (hmessages : MessagesWithin .nothing s.bytes) (fast : Bool) (state : WebSocketState) :
    ∃ c, readClient fast state s = some c ∧
      (feedAll .release parse l.conn.switchToWebsocket segs).fault = none ∧
      c.inbound.filter (·.IsData) =
        toldOf (beforeEnd (feedAll .release parse l.conn.switchToWebsocket segs).events) := by
  obtain ⟨c, hread, evs, f, rest, hpasses, hhalt, hend⟩ := readClient_returns fast state s
  obtain ⟨hb, hunbegun⟩ := unbegun_of_reachable hparse h
  have hswitched : l.conn.switchToWebsocket.reassembly = .nothing := hunbegun hm
  have hempty : l.conn.switchToWebsocket.unread = [] := hunread
  have hshort : firstFrame l.conn.switchToWebsocket.unread = .short := by rw [hempty]; rfl
  have hall : l.conn.switchToWebsocket.unread ++ segs.flatten = s.bytes := by rw [hempty, hsame]; rfl
  have hb : l.conn.switchToWebsocket.Bounded :=
    ⟨⟨hb.fits.cursor, hb.fits.length⟩, hb.count, hb.keepalive, hb.data⟩
  have hfault := feedAll_sound hparse hb rfl hroom .here (by rw [hall]; exact fun rest => hframes.announced)
  refine ⟨c, hread, hfault, ?_⟩
  have hdata : c.inbound.filter (·.IsData) = toldOf evs := by
    have hkept : (toldOf evs).filter (·.IsData) = toldOf evs :=
      List.filter_eq_self.2 fun m hm => decide_eq_true (toldOf_data evs m hm)
    rcases hend with ⟨-, ⟨code, hin⟩, -⟩ | ⟨-, hin, -⟩
    · have hin : c.inbound = toldOf evs ++ [.disconnect code] := hin
      rw [hin, List.filter_append, hkept]
      exact List.append_nil _
    · have hin : c.inbound = toldOf evs := hin
      rw [hin, hkept]
  have hgoes := hpasses.goes_on (by decide)
  have hlimit := hframes.announced hpasses.boundary
  suffices hevents : ∃ more, (feedAll .release parse l.conn.switchToWebsocket segs).events = evs ++ more ∧
      ∀ e more', more = e :: more' → e.Ends by
    obtain ⟨more, hmore, hends⟩ := hevents
    rw [hdata, hmore, beforeEnd_append hgoes hends]
  have hreads : Reassembly.Reads l.conn.switchToWebsocket.reassembly (l.conn.switchToWebsocket.unread ++ segs.flatten)
      evs f rest := by
    rw [hswitched, hall]
    exact hpasses.reads
  have hnone : ∀ e more', ([] : List Event) = e :: more' → e.Ends := fun e more' h => by cases h
  have hoffends : Offends f rest → ∃ more,
      (feedAll .release parse l.conn.switchToWebsocket segs).events = evs ++ more ∧
        ∀ e more', more = e :: more' → e.Ends := by
    intro hoffends
    rcases feedAll_reads hparse hb rfl hroom hshort hreads hlimit with ⟨c', hc', -⟩ | ⟨-, more, hmore, herror⟩
    · exact ⟨[], by rw [hc', List.append_nil], hnone⟩
    · obtain ⟨code, response, more', rfl⟩ := herror hoffends
      refine ⟨_, hmore, fun e more' he => ?_⟩
      cases he
      trivial
  cases hfirst : firstFrame rest with
  | short =>
    rcases feedAll_reads hparse hb rfl hroom hshort hreads hlimit with ⟨c', hc', -⟩ | ⟨hlong, -⟩
    · exact ⟨[], by rw [hc', List.append_nil], hnone⟩
    · exact absurd hfirst hlong
  | unmasked => exact hoffends (.inl hfirst)
  | frame opcode fin payload size =>
    have hlen := hframes rest hpasses.boundary payload.length (announcedPayload_frame hfirst)
    have hmessage : opcode = 0x0 → f.payload.length + payload.length ≤ maxWsMessageSize := by
      rintro rfl
      exact hmessages _ _ _ _ _ _ hpasses hfirst
    rcases hhalt.offends hfirst hlen hmessage with hrefused | ⟨rfl, hclose⟩
    · exact hoffends (.inr ⟨opcode, fin, payload, size, hfirst, hrefused⟩)
    · -- The engine goes on after a Close frame, which it tells.
      have hsize : size < usizeEnd := hlimit size (announcedSize_of_frame hfirst)
      have hon := hreads.trans (.frame hfirst hsize hclose .done)
      have hlimit' := hframes.announced (hpasses.boundary.trans (.frame hfirst .here))
      have htells : ∀ more : List Event, ∀ e more', .message 0x8 fin payload :: more = e :: more' → e.Ends := by
        intro more e more' he
        cases he
        rfl
      rcases feedAll_reads hparse hb rfl hroom hshort hon hlimit' with ⟨c', hc', -⟩ | ⟨-, more, hmore, -⟩
      · exact ⟨[.message 0x8 fin payload], by rw [hc']; rfl, htells []⟩
      · exact ⟨_, by rw [hmore, List.append_assoc]; rfl, htells more⟩

/-- A text, a Close frame and a second text. -/
def closingClient : StreamReader :=
  ⟨[⟨[0x81, 0x81, 0, 0, 0, 0, 0x41, 0x88, 0x80, 0, 0, 0, 0], by decide⟩, ⟨[0x81, 0x81, 0, 0, 0, 0, 0x42], by decide⟩],
    .eof true⟩

theorem decoders_agree_closing : ∃ c, readClient true .opened closingClient = some c ∧
    (feedAll .release parseChunkedHead (new 1000 1000 1000).switchToWebsocket
      [[0x81, 0x81, 0], [0, 0, 0, 0x41, 0x88, 0x80, 0, 0, 0, 0, 0x81, 0x81, 0, 0, 0, 0, 0x42]]).fault = none ∧
    c.inbound.filter (·.IsData) = toldOf (beforeEnd (feedAll .release parseChunkedHead
      (new 1000 1000 1000).switchToWebsocket
      [[0x81, 0x81, 0], [0, 0, 0, 0x41, 0x88, 0x80, 0, 0, 0, 0, 0x81, 0x81, 0, 0, 0, 0, 0x42]]).events) := by
  have hl : (life parseChunkedHead).Reachable ⟨.new 1000 1000 1000, []⟩ := .init ⟨_, _, _, by decide, rfl⟩
  have hlen : ∀ u n, announcedPayload u = some n → (announcedPayload u).getD 0 ≤ maxWsFrameSize → n ≤ maxWsFrameSize :=
    fun u n h hle => by rwa [h] at hle
  have hfirst : firstFrame closingClient.bytes = .frame 1 true [0x41] 7 := by decide
  have hsecond : firstFrame (closingClient.bytes.drop 7) = .frame 8 true [] 6 := by decide
  have hthird : firstFrame ((closingClient.bytes.drop 7).drop 6) = .frame 1 true [0x42] 7 := by decide
  have hframes : FramesWithin closingClient.bytes := by
    refine .frame hfirst (fun n h => hlen _ n h (by decide)) ?_
    refine .frame hsecond (fun n h => hlen _ n h (by decide)) ?_
    refine .frame hthird (fun n h => hlen _ n h (by decide)) ?_
    rintro rest (⟨⟩ | hlast) n h
    · cases h
    · cases hlast
  have hmessages : MessagesWithin .nothing closingClient.bytes := by
    refine .frame hfirst (by decide) fun f' evs h => ?_
    refine .frame hsecond (fun h0 => absurd h0 (by decide)) fun f'' evs h' => ?_
    exact absurd rfl h'.2.1
  exact decoders_agree parseChunkedHead_inRange hl rfl rfl (by decide) (by decide +kernel) hframes hmessages true
    .opened

/-- A text, a continuation of nothing and a second text. -/
def offendingClient : StreamReader :=
  ⟨[⟨[0x81, 0x81, 0, 0, 0, 0, 0x41, 0x80, 0x80, 0, 0, 0, 0], by decide⟩, ⟨[0x81, 0x81, 0, 0, 0, 0, 0x42], by decide⟩],
    .eof true⟩

/-- The engine tells the text after the Close frame, which the reader does not
send; and so it does with the text after a frame that offends, when that comes
in a later call. -/
theorem closing_differs :
    ((readClient true .opened closingClient).map (fun c => c.inbound.filter (·.IsData)) = some [.text ['A']] ∧
      toldOf (feedAll .release parseChunkedHead (new 1000 1000 1000).switchToWebsocket [closingClient.bytes]).events =
        [.text ['A'], .text ['B']]) ∧
    (readClient true .opened offendingClient).map (fun c => c.inbound.filter (·.IsData)) = some [.text ['A']] ∧
      toldOf (feedAll .release parseChunkedHead (new 1000 1000 1000).switchToWebsocket
        [[0x81, 0x81, 0, 0, 0, 0, 0x41, 0x80, 0x80, 0, 0, 0, 0], [0x81, 0x81, 0, 0, 0, 0, 0x42]]).events =
          [.text ['A'], .text ['B']] := by
  decide +kernel

end Life

end Multiloop.Http
