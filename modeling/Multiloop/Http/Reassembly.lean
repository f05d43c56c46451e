import Multiloop.Http.Chunks
import Multiloop.Http.Frames

/-!
# Messages from frames

What the frames of a client come to, said of the bytes alone: a frame that is
accepted continues the message that is being put together, and may complete it.
However the bytes of accepted frames arrive, the calls of `feed_data` tell what
the frames come to.
-/

namespace Multiloop.Http

/-- A message whose last fragment has not arrived; opcode 0 is no message. -/
structure Reassembly where
  opcode : UInt8
  payload : Bytes
deriving DecidableEq

namespace Reassembly

/-- No message has begun. -/
def nothing : Reassembly := ⟨0, []⟩

/-- What a frame makes of the message, and the events that it completes; none
for one that is refused. -/
def accept (r : Reassembly) (opcode : UInt8) (fin : Bool) (payload : Bytes) : Option (Reassembly × List Event) :=
  if opcode ≥ 0x8 then
    if payload.length > 125 ∨ ¬ fin then none else some (r, [.message opcode fin payload])
  else if opcode = 0x1 ∨ opcode = 0x2 then
    if r.opcode ≠ 0 then none
    else if fin then
      if opcode = 0x1 ∧ fromUtf8 payload = none then none else some (r, [.message opcode fin payload])
    else some (⟨opcode, payload⟩, [])
  else if opcode = 0x0 then
    if r.opcode = 0 then none
    else if fin then
      if r.opcode = 0x1 ∧ fromUtf8 (r.payload ++ payload) = none then none
      else some (nothing, [.message r.opcode fin (r.payload ++ payload)])
    else some (⟨r.opcode, r.payload ++ payload⟩, [])
  else some (r, [])

/-- The bytes begin with frames that are accepted, one after the other, up to
`rest`. -/
inductive Reads : Reassembly → Bytes → List Event → Reassembly → Bytes → Prop
  | done {r : Reassembly} {u : Bytes} : Reads r u [] r u
  | frame {r r' r'' : Reassembly} {u rest : Bytes} {evs evs' : List Event} {opcode : UInt8} {fin : Bool}
      {payload : Bytes} {size : Nat} (hfirst : firstFrame u = .frame opcode fin payload size) (hsize : size < usizeEnd)
      (haccept : r.accept opcode fin payload = some (r', evs)) (h : Reads r' (u.drop size) evs' r'' rest) :
      Reads r u (evs ++ evs') r'' rest

variable {r r' r'' : Reassembly} {u rest : Bytes} {evs evs' : List Event}

/-- Frames that are followed by others. -/
theorem Reads.trans {v : Bytes} (h : Reads r u evs r' v) (h' : Reads r' v evs' r'' rest) :
    Reads r u (evs ++ evs') r'' rest := by
  induction h with
  | done => exact h'
  | frame hfirst hsize haccept _ ih =>
    rw [List.append_assoc]
    exact .frame hfirst hsize haccept (ih h')

/-- Bytes that do not begin with a whole frame. -/
theorem Reads.short (h : Reads r u evs r' rest) (hshort : firstFrame u = .short) : evs = [] ∧ r' = r ∧ rest = u := by
  cases h with
  | done => exact ⟨rfl, rfl, rfl⟩
  | frame hfirst =>
    rw [hshort] at hfirst
    cases hfirst

end Reassembly

namespace FastHttpConnection

open Reassembly (Reads)

variable {parse : Httparse} {c c' : FastHttpConnection} {r : Reassembly} {rest : Bytes} {evs : List Event}

/-- The message that the connection is putting together. -/
def reassembly (c : FastHttpConnection) : Reassembly := ⟨c.wsFragmentOpcode, c.wsFragmentBuffer⟩

/-- The connection with another message. -/
def withReassembly (c : FastHttpConnection) (r : Reassembly) : FastHttpConnection :=
  { c with wsFragmentOpcode := r.opcode, wsFragmentBuffer := r.payload }

theorem reassembly_compact (c : FastHttpConnection) : c.compactBuffer.reassembly = c.reassembly := by
  unfold compactBuffer
  split
  · rfl
  split
  · rfl
  · rfl

theorem acceptFrame_accepted {opcode : UInt8} {fin : Bool} {payload : Bytes}
    (h : c.reassembly.accept opcode fin payload = some (r, evs)) :
    c.acceptFrame opcode fin payload = (c.withReassembly r, evs, .again) := by
  unfold Reassembly.accept at h
  unfold acceptFrame
  dsimp only
  split at h
  · rename_i hcontrol
    rw [if_pos hcontrol]
    split at h
    · cases h
    · rename_i hok
      rw [if_neg hok]
      cases h
      rfl
  · rename_i hcontrol
    rw [if_neg hcontrol]
    split at h
    · rename_i hdata
      rw [if_pos hdata]
      split at h
      · cases h
      · rename_i hfree
        change ¬ c.wsFragmentOpcode ≠ 0 at hfree
        rw [if_neg hfree]
        split at h
        · rename_i hfin
          rw [if_pos hfin]
          split at h
          · cases h
          · rename_i htext
            rw [if_neg htext]
            cases h
            rfl
        · rename_i hfin
          rw [if_neg hfin]
          cases h
          rfl
    · rename_i hdata
      rw [if_neg hdata]
      split at h
      · rename_i hcont
        rw [if_pos hcont]
        split at h
        · cases h
        · rename_i hbegun
          change ¬ c.wsFragmentOpcode = 0 at hbegun
          rw [if_neg hbegun]
          split at h
          · rename_i hfin
            rw [if_pos hfin]
            split at h
            · cases h
            · rename_i htext
              change ¬ (c.wsFragmentOpcode = 0x1 ∧ fromUtf8 (c.wsFragmentBuffer ++ payload) = none) at htext
              rw [if_neg htext]
              cases h
              rfl
          · rename_i hfin
            rw [if_neg hfin]
            cases h
            rfl
      · rename_i hcont
        rw [if_neg hcont]
        cases h
        rfl

theorem acceptFrame_refused {opcode : UInt8} {fin : Bool} {payload : Bytes}
    (h : c.reassembly.accept opcode fin payload = none) :
    ∃ c' code, c.acceptFrame opcode fin payload = closeFrame c' code := by
  unfold Reassembly.accept at h
  unfold acceptFrame
  dsimp only
  split at h
  · rename_i hcontrol
    rw [if_pos hcontrol]
    split at h
    · rename_i hbad
      exact ⟨_, _, if_pos hbad⟩
    · cases h
  · rename_i hcontrol
    rw [if_neg hcontrol]
    split at h
    · rename_i hdata
      rw [if_pos hdata]
      split at h
      · rename_i hbegun
        exact ⟨_, _, if_pos hbegun⟩
      · rename_i hfree
        change ¬ c.wsFragmentOpcode ≠ 0 at hfree
        rw [if_neg hfree]
        split at h
        · rename_i hfin
          rw [if_pos hfin]
          split at h
          · rename_i htext
            exact ⟨_, _, if_pos htext⟩
          · cases h
        · cases h
    · rename_i hdata
      rw [if_neg hdata]
      split at h
      · rename_i hcont
        rw [if_pos hcont]
        split at h
        · rename_i hfree
          exact ⟨_, _, if_pos hfree⟩
        · rename_i hbegun
          change ¬ c.wsFragmentOpcode = 0 at hbegun
          rw [if_neg hbegun]
          split at h
          · rename_i hfin
            rw [if_pos hfin]
            split at h
            · rename_i htext
              change c.wsFragmentOpcode = 0x1 ∧ fromUtf8 (c.wsFragmentBuffer ++ payload) = none at htext
              exact ⟨_, _, if_pos htext⟩
            · cases h
          · cases h
      · cases h

/-- The bytes begin with a frame that has no mask or is refused. -/
def Offends (r : Reassembly) (rest : Bytes) : Prop :=
  firstFrame rest = .unmasked ∨
    ∃ opcode fin payload size, firstFrame rest = .frame opcode fin payload size ∧ r.accept opcode fin payload = none

/-- Where the calls are in bytes of which accepted frames go up to `rest`: they
wait for more, or they have come to `rest` and gone on, with an error if a frame
there offends. -/
def Proceeds (future : Bytes) (evs : List Event) (r : Reassembly) (rest : Bytes) (o : Outcome) : Prop :=
  (∃ evs₂, o.fault = none ∧ evs = o.events ++ evs₂ ∧ Reads o.conn.reassembly (o.conn.unread ++ future) evs₂ r rest ∧
      firstFrame o.conn.unread = .short ∧ o.conn.mode = .webSocket ∧ o.conn.Bounded) ∨
    (firstFrame rest ≠ .short ∧ ∃ more, o.events = evs ++ more ∧
      (Offends r rest → ∃ code response more', more = .error code response :: more'))

theorem rounds_reads (hparse : InRange parse) {fuel : Nat} {future : Bytes} (hb : c.Bounded) (hm : c.mode = .webSocket)
    (hfuel : c.unread.length < fuel) (h : Reads c.reassembly (c.unread ++ future) evs r rest)
    (hrest : ∀ size, announcedSize rest = some size → size < usizeEnd) :
    Proceeds future evs r rest (rounds .release parse fuel c) := by
  induction fuel generalizing c evs with
  | zero => exact absurd hfuel (Nat.not_lt_zero _)
  | succ fuel ih =>
    have hround : c.round .release parse = c.webSocketRound .release := by
      unfold round
      rw [hm]
    have hbounded : ∀ r, c.webSocketRound .release = .ok r → r.1.Bounded :=
      fun r hr => hb.round hparse (hround.trans hr)
    have hcases := webSocketRound_cases hb.fits
    unfold rounds
    rw [hround]
    generalize hr : c.webSocketRound .release = r at hcases
    cases hcases with
    | short hfirst => exact .inl ⟨evs, rfl, rfl, h, hfirst, hm, hb⟩
    | @wraps hfirst size hsize hwraps e =>
      have hsize := announcedSize_append hsize future
      cases h with
      | done => exact absurd (hrest size hsize) (Nat.not_lt.2 hwraps)
      | frame hfirst' hsize' =>
        have hsame := announcedSize_of_frame hfirst'
        rw [hsize] at hsame
        cases hsame
        exact absurd hsize' (Nat.not_lt.2 hwraps)
    | unmasked hfirst =>
      have hread : firstFrame c.unread ≠ .short := fun hshort => by cases hfirst.symm.trans hshort
      have hfirst := firstFrame_append hread future ▸ hfirst
      cases h with
      | done => exact .inr ⟨fun hshort => (by cases hfirst.symm.trans hshort), _, rfl, fun _ => ⟨_, _, _, rfl⟩⟩
      | frame hfirst' =>
        rw [hfirst] at hfirst'
        cases hfirst'
    | @frame opcode fin payload size hfirst =>
      obtain ⟨hle, hsix, -⟩ := firstFrame_size hfirst
      have hread : firstFrame c.unread ≠ .short := fun hshort => by cases hfirst.symm.trans hshort
      have hfirst := firstFrame_append hread future ▸ hfirst
      cases h with
      | done =>
        refine .inr ⟨fun hshort => (by cases hfirst.symm.trans hshort), _, rfl, ?_⟩
        rintro (hunmasked | ⟨opcode', fin', payload', size', hfirst', hrefused⟩)
        · cases hfirst.symm.trans hunmasked
        · rw [hfirst] at hfirst'
          injection hfirst' with hop hfin hpayload hsz
          subst hop hfin hpayload hsz
          obtain ⟨c', code, hround'⟩ := acceptFrame_refused (c := { c with cursor := c.cursor + size }) hrefused
          rw [hround']
          exact ⟨_, _, _, rfl⟩
      | @frame _ r' _ _ _ evs evs' _ _ _ _ hfirst' hsize' haccept hreads =>
        rw [hfirst] at hfirst'
        injection hfirst' with hop hfin hpayload hsz
        subst hop hfin hpayload hsz
        have hround' := acceptFrame_accepted (c := { c with cursor := c.cursor + size }) haccept
        rw [hround'] at hr ⊢
        have hunread : (withReassembly { c with cursor := c.cursor + size } r').unread = c.unread.drop size :=
          (List.drop_drop ..).symm
        have hreads : Reads r' ((withReassembly { c with cursor := c.cursor + size } r').unread ++ future)
            evs' r rest := by
          rw [hunread, ← List.drop_append_of_le_length hle]
          exact hreads
        have hmore := ih (hbounded _ hr) hm (by rw [hunread, List.length_drop]; omega) hreads
        dsimp only
        rcases hmore with ⟨evs₂, hfault, hevs, hwaits⟩ | ⟨hrest', more, hmore, hoffends⟩
        · exact .inl ⟨evs₂, hfault, by rw [hevs, List.append_assoc], hwaits⟩
        · exact .inr ⟨hrest', more, by rw [hmore, List.append_assoc], hoffends⟩

/-- A call of `feed_data`. -/
theorem feedData_reads (hparse : InRange parse) {seg future : Bytes} (hb : c.Bounded) (hm : c.mode = .webSocket)
    (hroom : (c.buffer ++ seg).length < 2 ^ 63) (h : Reads c.reassembly (c.unread ++ (seg ++ future)) evs r rest)
    (hrest : ∀ size, announcedSize rest = some size → size < usizeEnd) :
    Proceeds future evs r rest (c.feedData .release parse seg) := by
  have ha := hb.append hroom
  obtain ⟨hv, hmode, -⟩ := view_compact (c := { c with buffer := c.buffer ++ seg })
  have hunread : (compactBuffer { c with buffer := c.buffer ++ seg }).unread = c.unread ++ seg :=
    (congrArg Decoder.unread hv).trans (List.drop_append_of_le_length hb.fits.cursor)
  have hsame : (compactBuffer { c with buffer := c.buffer ++ seg }).reassembly = c.reassembly := reassembly_compact _
  refine rounds_reads hparse ha.compact (hmode.trans hm) ?_ ?_ hrest
  · rw [hunread]
    show (c.unread ++ seg).length < (c.buffer ++ seg).length + 3
    rw [List.length_append, List.length_append, unread_length]
    omega
  · rw [hunread, hsame, List.append_assoc]
    exact h

/-- Calls of `feed_data` with the bytes of accepted frames, however they are
cut: once the calls have come to `rest`, they have told what the frames come
to, and then an error if a frame there offends. -/
theorem feedAll_reads (hparse : InRange parse) {segs : List Bytes} (hb : c.Bounded) (hm : c.mode = .webSocket)
    (hroom : HasRoom .release parse c segs) (hshort : firstFrame c.unread = .short)
    (h : Reads c.reassembly (c.unread ++ segs.flatten) evs r rest)
    (hrest : ∀ size, announcedSize rest = some size → size < usizeEnd) :
    (∃ c', feedAll .release parse c segs = ⟨c', evs, none⟩ ∧ c'.reassembly = r ∧ c'.unread = rest) ∨
      (firstFrame rest ≠ .short ∧ ∃ more, (feedAll .release parse c segs).events = evs ++ more ∧
        (Offends r rest → ∃ code response more', more = .error code response :: more')) := by
  induction segs generalizing c evs with
  | nil =>
    have hall : c.unread ++ ([] : List Bytes).flatten = c.unread := List.append_nil _
    rw [hall] at h
    obtain ⟨rfl, rfl, rfl⟩ := h.short hshort
    exact .inl ⟨c, rfl, rfl, rfl⟩
  | cons seg segs ih =>
    have hcall := feedData_reads hparse hb hm hroom.1 h hrest
    rcases hcall with ⟨evs₂, hfault, rfl, hreads, hshort', hm', hb'⟩ | ⟨hlast, more, hmore, hoffends⟩
    · have hall : feedAll .release parse c (seg :: segs) =
          { feedAll .release parse (c.feedData .release parse seg).conn segs with
            events := (c.feedData .release parse seg).events ++
              (feedAll .release parse (c.feedData .release parse seg).conn segs).events } := if_pos hfault
      rw [hall]
      rcases ih hb' hm' hroom.2 hshort' hreads with ⟨c', hc', hr, hu⟩ | ⟨hlast, more, hmore, hoffends⟩
      · exact .inl ⟨c', by rw [hc'], hr, hu⟩
      · exact .inr ⟨hlast, more, by rw [hmore, List.append_assoc], hoffends⟩
    · refine .inr ⟨hlast, ?_⟩
      by_cases hfault : (c.feedData .release parse seg).fault = none
      · have hall : feedAll .release parse c (seg :: segs) =
            { feedAll .release parse (c.feedData .release parse seg).conn segs with
              events := (c.feedData .release parse seg).events ++
                (feedAll .release parse (c.feedData .release parse seg).conn segs).events } := if_pos hfault
        rw [hall, hmore]
        refine ⟨_, List.append_assoc _ _ _, fun h => ?_⟩
        obtain ⟨code, response, more', hfirst⟩ := hoffends h
        exact ⟨code, response, _, by rw [hfirst]; rfl⟩
      · have hall : feedAll .release parse c (seg :: segs) = c.feedData .release parse seg := if_neg hfault
        rw [hall]
        exact ⟨more, hmore, hoffends⟩

end FastHttpConnection

end Multiloop.Http
