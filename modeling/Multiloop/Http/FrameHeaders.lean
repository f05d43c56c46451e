import Multiloop.Http.Outbound

/-!
# Frame headers

The header that `format_ws_frame` of `http.rs` and `_send_frame` of
`_websocket.py` write, and the one that `parse_frame_header` reads. A header is
its first two bytes and as many more as the second one announces (`WsHeader`),
and that is when it can be read: not before its last byte, and then as it is,
whatever follows (`parseFrameHeader_cut`, `parseFrameHeader_bytes`).
-/

namespace Multiloop.Http

/-! ## The header of `_send_frame` -/

/-- `header.append(x)`, where `none` is a `ValueError`. -/
def appendByte (header : Bytes) (x : Nat) : Option Bytes :=
  if x < 256 then some (header ++ [UInt8.ofNat x]) else none

/-- `struct.pack` of an unsigned number of `size` bytes, the most significant
one first, where `none` is a `struct.error`. -/
def structPack (size x : Nat) : Option Bytes := if x < 256 ^ size then some (toBeBytes size x) else none

/-- `frame_data` of `_send_frame`. -/
def sendFrameData (opcode : Nat) (payload : Bytes) : Option Bytes := do
  let header ← appendByte [] (0x80 ||| (opcode &&& 0x0F))
  let length := payload.length
  let header ←
    if length < 126 then appendByte header length
    else if length ≤ 0xFFFF then do
      let header ← appendByte header 126
      let packed ← structPack 2 length
      pure (header ++ packed)
    else do
      let header ← appendByte header 127
      let packed ← structPack 8 length
      pure (header ++ packed)
  return header ++ payload

theorem first_byte (opcode : UInt8) :
    0x80 ||| (opcode.toNat &&& 0x0F) < 256 ∧
      UInt8.ofNat (0x80 ||| (opcode.toNat &&& 0x0F)) = 0x80 ||| (opcode &&& 0x0F) ∧
      (0x80 ||| (opcode &&& 0x0F)) &&& 0x0F = opcode % 16 ∧
      decide ((0x80 ||| (opcode &&& 0x0F)) &&& 0x80 ≠ 0) = true := by
  have hall : ∀ n < 256, 0x80 ||| ((UInt8.ofNat n).toNat &&& 0x0F) < 256 ∧
      UInt8.ofNat (0x80 ||| ((UInt8.ofNat n).toNat &&& 0x0F)) = 0x80 ||| (UInt8.ofNat n &&& 0x0F) ∧
      (0x80 ||| (UInt8.ofNat n &&& 0x0F)) &&& 0x0F = UInt8.ofNat n % 16 ∧
      decide ((0x80 ||| (UInt8.ofNat n &&& 0x0F)) &&& 0x80 ≠ 0) = true := by decide +kernel
  have hspec := hall opcode.toNat (UInt8.toNat_lt opcode)
  rw [UInt8.ofNat_toNat] at hspec
  exact hspec

/-- `_send_frame` writes what `format_ws_frame` returns. -/
theorem sendFrameData_eq (opcode : UInt8) {payload : Bytes} (hlen : payload.length < 2 ^ 63) :
    sendFrameData opcode.toNat payload = some (formatWsFrame opcode payload) := by
  obtain ⟨hsmall, hfirst, -⟩ := first_byte opcode
  have happend : ∀ {header : Bytes} {x : Nat}, x < 256 → appendByte header x = some (header ++ [UInt8.ofNat x]) :=
    fun hx => if_pos hx
  have hpack : ∀ {size x : Nat}, x < 256 ^ size → structPack size x = some (toBeBytes size x) := fun hx => if_pos hx
  unfold sendFrameData formatWsFrame
  rw [happend hsmall, hfirst]
  dsimp only [Option.bind_eq_bind, Option.bind_some]
  split
  · rename_i hshort
    rw [happend (by omega)]
    rfl
  split
  · rename_i hmedium
    rw [happend (by decide), hpack (by omega)]
    rfl
  · rw [happend (by decide), hpack (by omega)]
    rfl

/-! ## Headers -/

/-- How many bytes of a longer length are announced. -/
def extLength (rawLen : Nat) : Nat := if rawLen = 126 then 2 else if rawLen = 127 then 8 else 0

/-- How many bytes of a mask are announced. -/
def maskLength (b2 : UInt8) : Nat := if b2 &&& 0x80 ≠ 0 then 4 else 0

/-- The header of a frame, masked or not, with any form of the length. -/
structure WsHeader where
  b1 : UInt8
  b2 : UInt8
  ext : Bytes
  mask : Bytes
  length_ext : ext.length = extLength (b2 &&& 0x7F).toNat
  length_mask : mask.length = maskLength b2

namespace WsHeader

variable (h : WsHeader)

def bytes : Bytes := h.b1 :: h.b2 :: (h.ext ++ h.mask)

def payloadLen : Nat := if h.ext = [] then (h.b2 &&& 0x7F).toNat else fromBeBytes h.ext

/-- What is to be read. -/
def parsed : FrameHeader where
  opcode := h.b1 &&& 0x0F
  fin := h.b1 &&& 0x80 ≠ 0
  masked := h.b2 &&& 0x80 ≠ 0
  payloadLen := h.payloadLen
  maskKey := if h.b2 &&& 0x80 ≠ 0 then some h.mask else none
  headerLen := h.bytes.length

theorem length_bytes : h.bytes.length = 2 + extLength (h.b2 &&& 0x7F).toNat + maskLength h.b2 := by
  have hext := h.length_ext
  have hmask := h.length_mask
  unfold bytes
  rw [List.length_cons, List.length_cons, List.length_append, hext, hmask]
  omega

theorem lengths_bytes (more : Bytes) : FastHttpConnection.lengths (h.b1 :: h.b2 :: (h.ext ++ more))
    (h.b2 &&& 0x7F).toNat = some (h.payloadLen, 2 + h.ext.length) := by
  have hext := h.length_ext
  have hbytes : (h.b1 :: h.b2 :: (h.ext ++ more)).length = h.ext.length + more.length + 2 := by
    rw [List.length_cons, List.length_cons, List.length_append]
  have htake : ∀ n, h.ext.length = n → ((h.b1 :: h.b2 :: (h.ext ++ more)).drop 2).take n = h.ext := by
    rintro n rfl
    exact List.take_left
  unfold extLength at hext
  unfold FastHttpConnection.lengths payloadLen
  split
  · rename_i hraw
    rw [if_pos hraw] at hext
    rw [if_neg (by omega), htake 2 hext, hext, if_neg (List.ne_nil_of_length_pos (by omega))]
  rename_i hshort
  rw [if_neg hshort] at hext
  split
  · rename_i hraw
    rw [if_pos hraw] at hext
    rw [if_neg (by omega), htake 8 hext, hext, if_neg (List.ne_nil_of_length_pos (by omega))]
  · rename_i hlong
    rw [if_neg hlong] at hext
    rw [if_pos (List.length_eq_zero_iff.1 hext), hext]

/-- A whole header is read, whatever follows it. -/
theorem parseFrameHeader_bytes (more : Bytes) : parseFrameHeader (h.bytes ++ more) = some h.parsed := by
  have hmask := h.length_mask
  have hu : h.bytes ++ more = h.b1 :: h.b2 :: (h.ext ++ (h.mask ++ more)) := by
    show h.b1 :: h.b2 :: (h.ext ++ h.mask ++ more) = _
    rw [List.append_assoc]
  have hlen : (h.bytes ++ more).length = h.bytes.length + more.length := List.length_append
  have hbytes : h.bytes.length = 2 + h.ext.length + h.mask.length := by
    rw [length_bytes, h.length_ext, hmask]
  rw [parseFrameHeader_cons hu, hu, h.lengths_bytes, Option.bind_some]
  dsimp only
  rw [← hu]
  unfold maskLength at hmask
  unfold parsed
  by_cases hmasked : h.b2 &&& 0x80 ≠ 0
  · rw [if_pos hmasked] at hmask
    have hkey : ((h.bytes ++ more).drop (2 + h.ext.length)).take 4 = h.mask := by
      rw [hu, ← List.drop_drop]
      show (List.drop h.ext.length (h.ext ++ (h.mask ++ more))).take 4 = h.mask
      rw [List.drop_left, ← hmask, List.take_left]
    rw [if_pos hmasked, if_neg (by omega), if_pos hmasked, hkey, hbytes, hmask, decide_eq_true hmasked]
  · rw [if_neg hmasked] at hmask
    rw [if_neg hmasked, if_neg hmasked, hbytes, hmask, decide_eq_false hmasked, Nat.add_zero]

/-- Fewer bytes than a header announces are no header yet. -/
theorem parseFrameHeader_short {b1 b2 : UInt8} {rest : Bytes}
    (hshort : (b1 :: b2 :: rest).length < 2 + extLength (b2 &&& 0x7F).toNat + maskLength b2) :
    parseFrameHeader (b1 :: b2 :: rest) = none := by
  rw [parseFrameHeader_cons rfl]
  generalize hu : b1 :: b2 :: rest = u at hshort ⊢
  unfold extLength at hshort
  have hmasked : ∀ {payloadLen offset : Nat}, u.length < offset + maskLength b2 → offset ≤ u.length →
      (if b2 &&& 0x80 ≠ 0 then
        if u.length < offset + 4 then none
        else some (FrameHeader.mk (b1 &&& 0x0F) (b1 &&& 0x80 ≠ 0) true payloadLen (some ((u.drop offset).take 4))
          (offset + 4))
      else some ⟨b1 &&& 0x0F, b1 &&& 0x80 ≠ 0, false, payloadLen, none, offset⟩) = none := by
    intro payloadLen offset hmask hle
    unfold maskLength at hmask
    split at hmask
    · rename_i hbit
      rw [if_pos hbit, if_pos hmask]
    · omega
  have htwo : 2 ≤ u.length := by
    rw [← hu]
    exact Nat.le_add_left 2 rest.length
  unfold FastHttpConnection.lengths
  split
  · rename_i hraw
    rw [if_pos hraw] at hshort
    split
    · rfl
    · rename_i henough
      rw [Option.bind_some]
      exact hmasked (by omega) (by omega)
  rename_i h126
  rw [if_neg h126] at hshort
  split
  · rename_i hraw
    rw [if_pos hraw] at hshort
    split
    · rfl
    · rename_i henough
      rw [Option.bind_some]
      exact hmasked (by omega) (by omega)
  · rename_i h127
    rw [if_neg h127] at hshort
    rw [Option.bind_some]
    exact hmasked (by omega) htwo

/-- Nothing is read of a header that is cut off. -/
theorem parseFrameHeader_cut {p : Bytes} (hpre : p <+: h.bytes) (hne : p ≠ h.bytes) : parseFrameHeader p = none := by
  have hlen : p.length < h.bytes.length := by
    refine Nat.lt_of_le_of_ne hpre.length_le fun heq => hne (hpre.eq_of_length heq)
  rw [length_bytes] at hlen
  rcases p with _ | ⟨b1, _ | ⟨b2, rest⟩⟩
  · rfl
  · rfl
  · obtain ⟨hb1, hpre'⟩ := List.cons_prefix_cons.1 hpre
    obtain ⟨hb2, -⟩ := List.cons_prefix_cons.1 hpre'
    subst hb1 hb2
    exact parseFrameHeader_short hlen

end WsHeader

/-! ## Frames without a mask -/

/-- The header of a frame is read back, with all bits of the opcode that it has
room for. -/
theorem parseFrameHeader_formatWsFrame (opcode : UInt8) {payload : Bytes} (hlen : payload.length < 2 ^ 63) :
    ∃ headerLen, ∀ suffix,
      parseFrameHeader (formatWsFrame opcode payload ++ suffix) =
        some ⟨opcode % 16, true, false, payload.length, none, headerLen⟩ ∧
      (formatWsFrame opcode payload ++ suffix).drop headerLen = payload ++ suffix := by
  obtain ⟨-, -, hopcode, hfin⟩ := first_byte opcode
  refine ⟨1 + (lengthBytes payload.length).length, fun suffix => ?_⟩
  obtain ⟨b2, tail, hbytes, hmask, hl⟩ := lengths_lengthBytes hlen (0x80 ||| (opcode &&& 0x0F)) (payload ++ suffix)
  have hframe : formatWsFrame opcode payload ++ suffix =
      (0x80 ||| (opcode &&& 0x0F)) :: b2 :: (tail ++ (payload ++ suffix)) := by
    show ((0x80 ||| (opcode &&& 0x0F)) :: lengthBytes payload.length ++ payload) ++ suffix = _
    rw [hbytes, List.append_assoc]
    rfl
  have hheader : 1 + (lengthBytes payload.length).length = 2 + tail.length := by
    rw [hbytes, List.length_cons]
    omega
  rw [hframe, hheader]
  constructor
  · rw [parseFrameHeader_unmasked hmask hl, hopcode, hfin]
  · rw [← List.drop_drop]
    exact List.drop_left

/-- Both writers write the same frame, and its header is read back as the opcode
modulo 16 and the length, with the payload behind it; of any header, masked or
not, nothing is read before its last byte, and then one result, whatever
follows. -/
theorem frame_headers_round_trip :
    (∀ (opcode : UInt8) (payload : Bytes), payload.length < 2 ^ 63 →
      sendFrameData opcode.toNat payload = some (formatWsFrame opcode payload) ∧
      ∃ headerLen, ∀ suffix,
        parseFrameHeader (formatWsFrame opcode payload ++ suffix) =
          some ⟨opcode % 16, true, false, payload.length, none, headerLen⟩ ∧
        (formatWsFrame opcode payload ++ suffix).drop headerLen = payload ++ suffix) ∧
    ∀ h : WsHeader, (∀ p, p <+: h.bytes → p ≠ h.bytes → parseFrameHeader p = none) ∧
      h.parsed.headerLen = h.bytes.length ∧ ∀ more, parseFrameHeader (h.bytes ++ more) = some h.parsed :=
  ⟨fun opcode _ hlen => ⟨sendFrameData_eq opcode hlen, parseFrameHeader_formatWsFrame opcode hlen⟩,
    fun h => ⟨fun _ hpre hne => h.parseFrameHeader_cut hpre hne, rfl, h.parseFrameHeader_bytes⟩⟩

/-- A ping, and a masked header in two parts. -/
theorem frame_headers_ping :
    sendFrameData 0x19 [7] = some [0x89, 1, 7] ∧ parseFrameHeader [0x81, 0xFE, 0, 130, 1, 2, 3] = none := by
  have hboth := frame_headers_round_trip
  refine ⟨(hboth.1 0x19 [7] (by decide)).1, ?_⟩
  exact (hboth.2 ⟨0x81, 0xFE, [0, 130], [1, 2, 3, 4], by decide, by decide⟩).1 _ ⟨[4], rfl⟩ (by decide)

end Multiloop.Http
