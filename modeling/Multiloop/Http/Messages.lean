import Multiloop.Http.Absorbing
import Multiloop.Http.Reassembly

/-!
# Messages of a client

How a client writes messages and control frames as bytes, and that the
connection reads them back: one event for each message and each control frame,
in the order of their last frames, however a message is cut into fragments and
the bytes into segments.
-/

namespace Multiloop.Http

/-! ## The bytes of a frame -/

/-- Where a frame says the length of its payload. -/
inductive LengthForm
  | short
  | medium
  | long
deriving DecidableEq

/-- One more than the longest payload. -/
def LengthForm.limit : LengthForm → Nat
  | .short => 126
  | .medium => 2 ^ 16
  | .long => 2 ^ 63

/-- The header of a masked frame, from its second byte on. -/
def LengthForm.header (n : Nat) : LengthForm → Bytes
  | .short => [0x80 ||| UInt8.ofNat n]
  | .medium => (0x80 ||| 126) :: toBeBytes 2 n
  | .long => (0x80 ||| 127) :: toBeBytes 8 n

/-- A payload, and how one frame carries it. -/
structure Fragment where
  payload : Bytes
  mask : Bytes
  form : LengthForm
  mask_length : mask.length = 4
  fits : payload.length < form.limit

/-- Byte `i` of a payload is combined with byte `i % 4` of the mask. -/
def Fragment.masked (g : Fragment) : Bytes := g.payload.mapIdx fun i b => b ^^^ g.mask.getD (i % 4) 0

def firstByte (fin : Bool) (opcode : UInt8) : UInt8 := (if fin then 0x80 else 0) ||| opcode

def Fragment.bytes (g : Fragment) (fin : Bool) (opcode : UInt8) : Bytes :=
  firstByte fin opcode :: (g.form.header g.payload.length ++ (g.mask ++ g.masked))

/-- A control frame. -/
structure Control extends Fragment where
  opcode : UInt8
  control : 8 ≤ opcode ∧ opcode < 16
  small : payload.length ≤ 125

def Control.bytes (g : Control) : Bytes := g.toFragment.bytes true g.opcode

def Control.event (g : Control) : Event := .message g.opcode true g.payload

/-! ## Messages -/

inductive DataKind
  | text
  | binary
deriving DecidableEq

def DataKind.opcode : DataKind → UInt8
  | .text => 1
  | .binary => 2

/-- A message in fragments, each but the first after some control frames. -/
structure DataMessage where
  kind : DataKind
  first : Fragment
  rest : List (List Control × Fragment)
  valid : kind = .text → fromUtf8 (first.payload ++ rest.flatMap fun p => p.2.payload) ≠ none

def DataMessage.payload (g : DataMessage) : Bytes := g.first.payload ++ g.rest.flatMap fun p => p.2.payload

/-- The fragments after the first one. -/
def restBytes : List (List Control × Fragment) → Bytes
  | [] => []
  | (controls, g) :: rest => controls.flatMap Control.bytes ++ (g.bytes rest.isEmpty 0 ++ restBytes rest)

def DataMessage.bytes (g : DataMessage) : Bytes := g.first.bytes g.rest.isEmpty g.kind.opcode ++ restBytes g.rest

/-- What a client sends, apart from the control frames inside a message. -/
inductive Item
  | control (g : Control)
  | message (g : DataMessage)

def Item.bytes : Item → Bytes
  | .control g => g.bytes
  | .message g => g.bytes

/-- The events of the control frames inside a message come before its own. -/
def Item.events : Item → List Event
  | .control g => [g.event]
  | .message g => (g.rest.flatMap fun p => p.1.map Control.event) ++ [.message g.kind.opcode true g.payload]

/-! ## Reading a frame back -/

theorem length_toBeBytes (n value : Nat) : (toBeBytes n value).length = n := by
  induction n generalizing value with
  | zero => rfl
  | succ n ih => rw [toBeBytes, List.length_append, ih, List.length_singleton]

theorem fromBeBytes_toBeBytes {n value : Nat} (h : value < 256 ^ n) : fromBeBytes (toBeBytes n value) = value := by
  induction n generalizing value with
  | zero =>
    have hzero : value = 0 := Nat.lt_one_iff.1 h
    rw [hzero]
    rfl
  | succ n ih =>
    have hhigh : value / 256 < 256 ^ n := by
      rw [Nat.pow_succ] at h
      omega
    have hlast : fromBeBytes (toBeBytes n (value / 256) ++ [UInt8.ofNat value]) =
        fromBeBytes (toBeBytes n (value / 256)) * 256 + (UInt8.ofNat value).toNat := List.foldl_append
    rw [toBeBytes, hlast, ih hhigh, UInt8.toNat_ofNat']
    omega

theorem firstByte_opcode {fin : Bool} {opcode : UInt8} (h : opcode < 16) : firstByte fin opcode &&& 0x0F = opcode := by
  have hall : ∀ (fin : Bool) (k : Fin 16), firstByte fin (UInt8.ofNat k) &&& 0x0F = UInt8.ofNat k := by decide
  have hopcode := hall fin ⟨opcode.toNat, UInt8.lt_iff_toNat_lt.1 h⟩
  rwa [show UInt8.ofNat opcode.toNat = opcode from UInt8.ofNat_toNat] at hopcode

theorem firstByte_fin {fin : Bool} {opcode : UInt8} (h : opcode < 16) :
    decide (firstByte fin opcode &&& 0x80 ≠ 0) = fin := by
  have hall : ∀ (fin : Bool) (k : Fin 16), decide (firstByte fin (UInt8.ofNat k) &&& 0x80 ≠ 0) = fin := by decide
  have hfin := hall fin ⟨opcode.toNat, UInt8.lt_iff_toNat_lt.1 h⟩
  rwa [show UInt8.ofNat opcode.toNat = opcode from UInt8.ofNat_toNat] at hfin

/-- The lengths of a frame, from its header. -/
theorem lengths_header_bytes (form : LengthForm) {n : Nat} (h : n < form.limit) (b1 : UInt8) (more : Bytes) :
    ∃ b2 tail, form.header n = b2 :: tail ∧ b2 &&& 0x80 ≠ 0 ∧
      FastHttpConnection.lengths (b1 :: b2 :: (tail ++ more)) (b2 &&& 0x7F).toNat = some (n, 2 + tail.length) := by
  cases form with
  | short =>
    have hall : ∀ k : Fin 126, (0x80 ||| UInt8.ofNat k) &&& 0x80 ≠ 0 ∧
        ((0x80 ||| UInt8.ofNat k) &&& 0x7F).toNat = k := by
      decide
    obtain ⟨hmask, hraw⟩ := hall ⟨n, h⟩
    refine ⟨_, _, rfl, hmask, ?_⟩
    unfold FastHttpConnection.lengths
    have hsmall : n < 126 := h
    rw [hraw, if_neg (by dsimp only; omega), if_neg (by dsimp only; omega)]
    rfl
  | medium =>
    refine ⟨_, _, rfl, by decide, ?_⟩
    have hlen := length_toBeBytes 2 n
    have hall : (toBeBytes 2 n ++ more).length = 2 + more.length := by
      rw [List.length_append, hlen]
    unfold FastHttpConnection.lengths
    rw [if_pos (by decide), if_neg (by rw [List.length_cons, List.length_cons]; omega)]
    show some (fromBeBytes ((toBeBytes 2 n ++ more).take 2), 4) = _
    rw [List.take_append_of_le_length (by omega), List.take_of_length_le (by omega), fromBeBytes_toBeBytes h, hlen]
  | long =>
    refine ⟨_, _, rfl, by decide, ?_⟩
    have hlen := length_toBeBytes 8 n
    have hall : (toBeBytes 8 n ++ more).length = 8 + more.length := by
      rw [List.length_append, hlen]
    have hsmall : n < 256 ^ 8 := Nat.lt_trans h (by decide)
    unfold FastHttpConnection.lengths
    rw [if_neg (by decide), if_pos (by decide), if_neg (by rw [List.length_cons, List.length_cons]; omega)]
    show some (fromBeBytes ((toBeBytes 8 n ++ more).take 8), 10) = _
    rw [List.take_append_of_le_length (by omega), List.take_of_length_le (by omega), fromBeBytes_toBeBytes hsmall, hlen]

/-- Unmasking undoes masking. -/
theorem unmask_masked (g : Fragment) : fastWebsocketUnmask g.masked g.mask = g.payload := by
  unfold fastWebsocketUnmask Fragment.masked
  rw [List.mapIdx_mapIdx, List.mapIdx_eq_iff]
  intro i
  have hsame : ∀ b : UInt8, (b ^^^ g.mask.getD (i % 4) 0) ^^^ g.mask.getD (i % 4) 0 = b := by
    intro b
    rw [UInt8.xor_assoc, UInt8.xor_self, UInt8.xor_zero]
  cases g.payload[i]? with
  | none => rfl
  | some b => exact congrArg some (hsame b).symm

theorem length_masked (g : Fragment) : g.masked.length = g.payload.length := List.length_mapIdx

theorem firstFrame_bytes (g : Fragment) (fin : Bool) {opcode : UInt8} (h : opcode < 16) (more : Bytes) :
    firstFrame (g.bytes fin opcode ++ more) = .frame opcode fin g.payload (g.bytes fin opcode).length := by
  have hbytes : g.bytes fin opcode =
      firstByte fin opcode :: (g.form.header g.payload.length ++ (g.mask ++ g.masked)) := rfl
  obtain ⟨b2, tail, hheader, hmask, hlengths⟩ :=
    lengths_header_bytes g.form g.fits (firstByte fin opcode) (g.mask ++ g.masked ++ more)
  have hu : g.bytes fin opcode ++ more = firstByte fin opcode :: b2 :: (tail ++ (g.mask ++ g.masked ++ more)) := by
    rw [hbytes, hheader, List.cons_append, List.append_assoc, List.cons_append, List.append_assoc]
  have hsize : (g.bytes fin opcode).length = 2 + tail.length + 4 + g.payload.length := by
    rw [hbytes, hheader, List.length_cons, List.length_append, List.length_cons, List.length_append, g.mask_length,
      length_masked]
    omega
  have hdrop : (g.bytes fin opcode ++ more).drop (2 + tail.length) = g.mask ++ (g.masked ++ more) := by
    have hsplit : g.bytes fin opcode ++ more =
        (firstByte fin opcode :: b2 :: tail) ++ (g.mask ++ (g.masked ++ more)) := by
      rw [hu, List.append_assoc]
      rfl
    rw [hsplit, show 2 + tail.length = (firstByte fin opcode :: b2 :: tail).length from Nat.add_comm _ _]
    exact List.drop_left
  have hpayload : (g.bytes fin opcode ++ more).drop (2 + tail.length + 4) = g.masked ++ more := by
    rw [← List.drop_drop, hdrop, ← g.mask_length]
    exact List.drop_left
  rw [FastHttpConnection.firstFrame_masked hu hmask, hu, hlengths, ← hu]
  dsimp only
  rw [if_neg (by rw [List.length_append]; omega), firstByte_opcode h, firstByte_fin h, hpayload, hdrop, ← hsize,
    ← length_masked g, List.take_left, ← g.mask_length, List.take_left, unmask_masked]

theorem length_bytes_lt (g : Fragment) (fin : Bool) (opcode : UInt8) : (g.bytes fin opcode).length < usizeEnd := by
  have hform : g.form.limit ≤ 2 ^ 63 ∧ (g.form.header g.payload.length).length ≤ 9 := by
    cases g.form with
    | short => exact ⟨by decide, by show 1 ≤ 9; omega⟩
    | medium => exact ⟨by decide, by rw [LengthForm.header, List.length_cons, length_toBeBytes]; omega⟩
    | long => exact ⟨by decide, by rw [LengthForm.header, List.length_cons, length_toBeBytes]⟩
  have hbig : 2 ^ 63 + 14 < usizeEnd := by decide
  have hfits := g.fits
  have hbytes : (g.bytes fin opcode).length = (g.form.header g.payload.length).length + (4 + g.payload.length) + 1 := by
    unfold Fragment.bytes
    rw [List.length_cons, List.length_append, List.length_append, g.mask_length, length_masked]
  omega

/-! ## Reading messages back -/

section

open Reassembly (Reads nothing)

variable {r r' : Reassembly} {evs : List Event}

/-- A frame that is accepted. -/
theorem reads_frame (g : Fragment) {fin : Bool} {opcode : UInt8} (hopcode : opcode < 16) (more : Bytes)
    (h : r.accept opcode fin g.payload = some (r', evs)) : Reads r (g.bytes fin opcode ++ more) evs r' more := by
  have hread := Reads.frame (firstFrame_bytes g fin hopcode more) (length_bytes_lt g fin opcode) h .done
  rw [List.append_nil, List.drop_left] at hread
  exact hread

theorem reads_control (g : Control) (r : Reassembly) (more : Bytes) : Reads r (g.bytes ++ more) [g.event] r more := by
  apply reads_frame g.toFragment g.control.2
  have hsmall : ¬ (g.payload.length > 125 ∨ ¬ true = true) := by
    rintro (h | h)
    · exact absurd g.small (Nat.not_le.2 h)
    · exact h rfl
  unfold Reassembly.accept
  rw [if_pos g.control.1, if_neg hsmall]
  rfl

theorem reads_controls (gs : List Control) (r : Reassembly) (more : Bytes) :
    Reads r (gs.flatMap Control.bytes ++ more) (gs.map Control.event) r more := by
  induction gs with
  | nil => exact .done
  | cons g gs ih =>
    rw [List.flatMap_cons, List.append_assoc]
    exact (reads_control g r _).trans ih

/-- The fragments of a message after the first one. -/
theorem reads_rest {kind : DataKind} {begun : Bytes} {rest : List (List Control × Fragment)} (hne : rest ≠ [])
    (hvalid : kind = .text → fromUtf8 (begun ++ rest.flatMap fun p => p.2.payload) ≠ none) (more : Bytes) :
    Reads ⟨kind.opcode, begun⟩ (restBytes rest ++ more)
      ((rest.flatMap fun p => p.1.map Control.event) ++
        [.message kind.opcode true (begun ++ rest.flatMap fun p => p.2.payload)]) nothing more := by
  have hbegun : kind.opcode ≠ 0 := by cases kind <;> decide
  have htext : kind.opcode = 1 → kind = .text := by cases kind <;> decide
  induction rest generalizing begun with
  | nil => exact absurd rfl hne
  | cons p rest ih =>
    obtain ⟨controls, g⟩ := p
    rw [restBytes, List.append_assoc, List.append_assoc, List.flatMap_cons, List.flatMap_cons, List.append_assoc]
    refine (reads_controls controls _ _).trans ?_
    cases rest with
    | nil =>
      -- The last fragment completes the message.
      have hlast : ([] : List (List Control × Fragment)).flatMap (fun p => p.2.payload) = [] := rfl
      rw [List.flatMap_cons, hlast, List.append_nil] at hvalid
      have hfull : ¬ (kind.opcode = 0x1 ∧ fromUtf8 (begun ++ g.payload) = none) := fun h => hvalid (htext h.1) h.2
      have hframe : Reassembly.accept ⟨kind.opcode, begun⟩ 0 true g.payload =
          some (nothing, [.message kind.opcode true (begun ++ g.payload)]) := by
        unfold Reassembly.accept
        rw [if_neg (by decide), if_neg (by decide), if_pos rfl, if_neg hbegun, if_pos rfl, if_neg hfull]
      rw [hlast, List.append_nil]
      exact reads_frame g (by decide) _ hframe
    | cons p' rest =>
      rw [List.flatMap_cons, ← List.append_assoc] at hvalid
      have hmore := @ih (begun ++ g.payload) (List.cons_ne_nil _ _) hvalid
      rw [List.append_assoc begun] at hmore
      have hframe : Reassembly.accept ⟨kind.opcode, begun⟩ 0 false g.payload =
          some (⟨kind.opcode, begun ++ g.payload⟩, []) := by
        unfold Reassembly.accept
        rw [if_neg (by decide), if_neg (by decide), if_pos rfl, if_neg hbegun]
        rfl
      exact (reads_frame g (by decide) _ hframe).trans hmore

theorem reads_message (g : DataMessage) (more : Bytes) :
    Reads nothing (g.bytes ++ more) (Item.message g).events nothing more := by
  have hdata : g.kind.opcode < 16 ∧ ¬ g.kind.opcode ≥ 8 ∧ (g.kind.opcode = 0x1 ∨ g.kind.opcode = 0x2) := by
    cases g.kind <;> decide
  obtain ⟨hopcode, hcontrol, hdata⟩ := hdata
  have htext : g.kind.opcode = 1 → g.kind = .text := by cases g.kind <;> decide
  have hnone : ¬ nothing.opcode ≠ 0 := fun h => h rfl
  unfold DataMessage.bytes Item.events DataMessage.payload
  dsimp only
  rw [List.append_assoc]
  have hvalid := g.valid
  cases hrest : g.rest with
  | nil =>
    have hlast : ([] : List (List Control × Fragment)).flatMap (fun p => p.2.payload) = [] := rfl
    rw [hrest, hlast, List.append_nil] at hvalid
    have hfull : ¬ (g.kind.opcode = 0x1 ∧ fromUtf8 g.first.payload = none) := fun h => hvalid (htext h.1) h.2
    have hframe : Reassembly.accept nothing g.kind.opcode true g.first.payload =
        some (nothing, [.message g.kind.opcode true g.first.payload]) := by
      unfold Reassembly.accept
      rw [if_neg hcontrol, if_pos hdata, if_neg hnone, if_pos rfl, if_neg hfull]
    rw [hlast, List.append_nil]
    exact reads_frame g.first hopcode _ hframe
  | cons p rest =>
    rw [hrest] at hvalid
    have hfirst : Reassembly.accept nothing g.kind.opcode false g.first.payload =
        some (⟨g.kind.opcode, g.first.payload⟩, []) := by
      unfold Reassembly.accept
      rw [if_neg hcontrol, if_pos hdata, if_neg hnone]
      rfl
    exact (reads_frame g.first hopcode _ hfirst).trans (reads_rest (List.cons_ne_nil _ _) hvalid more)

theorem reads_items (items : List Item) :
    Reads nothing (items.flatMap Item.bytes) (items.flatMap Item.events) nothing [] := by
  induction items with
  | nil => exact .done
  | cons item items ih =>
    rw [List.flatMap_cons, List.flatMap_cons]
    cases item with
    | control g => exact (reads_control g _ _).trans ih
    | message g => exact (reads_message g _).trans ih

end

/-! ## A connection that is switched -/

namespace Life

open FastHttpConnection

variable {parse : Httparse} {l : Life}

/-- In HTTP mode no message has begun. -/
def Unbegun (c : FastHttpConnection) : Prop := c.mode = .http11 → c.reassembly = .nothing

theorem unbegun_processEvents (hparse : InRange parse) {c : FastHttpConnection} (hb : c.Bounded) (h : Unbegun c) :
    (c.processEvents .release parse).conn.Bounded ∧ Unbegun (c.processEvents .release parse).conn := by
  obtain ⟨hbounded, hsame, -⟩ := reports_processEvents hparse hb
  refine ⟨hbounded, fun hmode => ?_⟩
  cases hm : c.mode with
  | webSocket =>
    rw [hsame, hm] at hmode
    cases hmode
  | http11 =>
    -- No round in HTTP mode changes the message.
    have hkept : Kept (fun (_ : Unit) (_ : Event) => some ()) (fun c _ => c.reassembly = .nothing) parse :=
      kept_of_step hparse (fun _ _ _ h => ⟨(), rfl, h⟩) fun _ _ _ _ h => ⟨(), learns_nothing _, h⟩
    have hcompact : c.compactBuffer.reassembly = .nothing := (reassembly_compact c).trans (h hm)
    have hobs := observed_processEvents hparse hkept (v := ()) hb hm hcompact
    by_cases hfault : (c.processEvents .release parse).fault = none
    · obtain ⟨-, -, -, hR⟩ := hobs.told hfault
      exact hR
    · obtain ⟨-, -, hR⟩ := hobs.panicked hfault
      exact hR

theorem unbegun_of_reachable (hparse : InRange parse) (h : (life parse).Reachable l) :
    l.conn.Bounded ∧ Unbegun l.conn := by
  refine h.inv (I := fun l => l.conn.Bounded ∧ Unbegun l.conn) ?_ ?_
  · rintro l ⟨maxBodySize, maxHeaderSize, maxKeepaliveRequests, hk, rfl⟩
    exact ⟨bounded_new _ _ _ hk, fun _ => rfl⟩
  · rintro l a l' ⟨hb, hunbegun⟩ hst
    cases a with
    | feedData data =>
      change (if _ then _ else _) = some l' at hst
      split at hst
      · rename_i hroom
        cases hst
        exact unbegun_processEvents hparse (hb.append hroom) hunbegun
      · cases hst
    | pumpEvents =>
      cases hst
      exact unbegun_processEvents hparse hb hunbegun
    | resetForNextRequest =>
      cases hst
      refine ⟨hb.reset, ?_⟩
      show Unbegun l.conn.resetForNextRequest
      unfold resetForNextRequest
      split
      · split
        · exact hunbegun
        · exact hunbegun
      · exact hunbegun
    | switchToWebsocket =>
      cases hst
      exact ⟨⟨⟨hb.fits.cursor, hb.fits.length⟩, hb.count, hb.keepalive, hb.data⟩, nofun⟩
    | close =>
      cases hst
      exact ⟨hb.closed, hunbegun⟩

/-- The bytes of any messages and control frames, in any segments, come back as
one event each. -/
theorem feedAll_messages (hparse : InRange parse) (h : (life parse).Reachable l) (hm : l.conn.mode = .http11)
    (hunread : l.conn.unread = []) {items : List Item} {segs : List Bytes}
    (hsegs : segs.flatten = items.flatMap Item.bytes)
    (hroom : HasRoom .release parse l.conn.switchToWebsocket segs) :
    ∃ c', feedAll .release parse l.conn.switchToWebsocket segs = ⟨c', items.flatMap Item.events, none⟩ ∧
      c'.unread = [] := by
  obtain ⟨hb, hunbegun⟩ := unbegun_of_reachable hparse h
  have hswitched : l.conn.switchToWebsocket.reassembly = .nothing := hunbegun hm
  have hempty : l.conn.switchToWebsocket.unread = [] := hunread
  have hreads : Reassembly.Reads l.conn.switchToWebsocket.reassembly (l.conn.switchToWebsocket.unread ++ segs.flatten)
      (items.flatMap Item.events) .nothing [] := by
    rw [hswitched, hempty, List.nil_append, hsegs]
    exact reads_items items
  have hb : l.conn.switchToWebsocket.Bounded :=
    ⟨⟨hb.fits.cursor, hb.fits.length⟩, hb.count, hb.keepalive, hb.data⟩
  have hall := feedAll_reads hparse hb rfl hroom (by rw [hempty]; rfl) hreads fun _ => nofun
  rcases hall with ⟨c', hc', -, hu⟩ | ⟨hne, -⟩
  · exact ⟨c', hc', hu⟩
  · exact absurd rfl hne

/-- A ping between two fragments that split a character, in two segments. -/
theorem feedAll_messages_split : ∃ c',
    feedAll .release parseChunkedHead (new 1000 1000 1000).switchToWebsocket
      [[0x01, 0x81, 1, 2, 3, 4, 0xC2, 0x89], [0x81, 0, 0, 0, 0, 7, 0x80, 0xFE, 0, 1, 5, 6, 7, 8, 0xAC]] =
      ⟨c', [.message 9 true [7], .message 1 true [0xC3, 0xA9]], none⟩ ∧ c'.unread = [] := by
  have hl : (life parseChunkedHead).Reachable ⟨.new 1000 1000 1000, []⟩ := .init ⟨_, _, _, by decide, rfl⟩
  have hsegs : ([[0x01, 0x81, 1, 2, 3, 4, 0xC2, 0x89], [0x81, 0, 0, 0, 0, 7, 0x80, 0xFE, 0, 1, 5, 6, 7, 8, 0xAC]] :
      List Bytes).flatten = [Item.message ⟨.text, ⟨[0xC3], [1, 2, 3, 4], .short, rfl, by decide⟩,
        [([⟨⟨[7], [0, 0, 0, 0], .short, rfl, by decide⟩, 9, by decide, by decide⟩],
          ⟨[0xA9], [5, 6, 7, 8], .medium, rfl, by decide⟩)], fun _ => by decide +kernel⟩].flatMap Item.bytes := by
    decide +kernel
  exact feedAll_messages parseChunkedHead_inRange hl rfl rfl hsegs (by decide +kernel)

end Life

end Multiloop.Http
