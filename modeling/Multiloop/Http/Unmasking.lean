import Multiloop.Framework.Preallocated
import Multiloop.Http.WebSocket

/-!
# Unmasking into a new buffer

`fast_websocket_unmask_raw` and `fast_websocket_unmask_slice` of `websocket.rs` as
they are written: three loops of strides 32, 8 and 1 share an index into the
payload and into the bytes of a new object, and the words are those of either
byte order. Where an index is a multiple of four, the bytes of the mask word are
those of the mask from that index on, so every block is unmasked byte by byte.
-/

namespace Multiloop.Http

/-- What a call does but return: a panic, or an exception. -/
inductive PyFault
  | panic (fault : Fault)
  | valueError (message : String)
deriving DecidableEq

/-- The order of the bytes of a word in memory. -/
inductive ByteOrder
  | little
  | big
deriving DecidableEq

/-! ## The model -/

/-- `u64::from_le_bytes`, of eight bytes. -/
def fromLeBytes (bs : Bytes) : BitVec 64 :=
  let b (i : Nat) : BitVec 8 := (bs.getD i 0).toBitVec
  b 7 ++ b 6 ++ b 5 ++ b 4 ++ b 3 ++ b 2 ++ b 1 ++ b 0

/-- `u64::to_le_bytes`. -/
def toLeBytes (w : BitVec 64) : Bytes :=
  (List.range 8).map fun i => UInt8.ofBitVec (w.extractLsb' (8 * i) 8)

namespace ByteOrder

variable (e : ByteOrder)

/-- `u64::from_ne_bytes`. -/
def fromNeBytes (bs : Bytes) : BitVec 64 :=
  match e with
  | .little => fromLeBytes bs
  | .big => fromLeBytes bs.reverse

/-- `u64::to_ne_bytes`. -/
def toNeBytes (w : BitVec 64) : Bytes :=
  match e with
  | .little => toLeBytes w
  | .big => (toLeBytes w).reverse

/-- The mask, twice. -/
def maskU64 (mask : Vector UInt8 4) : BitVec 64 :=
  e.fromNeBytes [mask[0], mask[1], mask[2], mask[3], mask[0], mask[1], mask[2], mask[3]]

/-- `u64::from_ne_bytes(slice[i..i + 8].try_into()?)`. -/
def word (slice : Bytes) (i : Nat) : Except PyFault (BitVec 64) :=
  match Multiloop.slice slice i (i + 8) with
  | .error fault => .error (.panic fault)
  | .ok bs => if bs.length = 8 then .ok (e.fromNeBytes bs) else .error (.valueError "Invalid buffer chunk")

/-- `out[i..i + 8].copy_from_slice(&w.to_ne_bytes())`. -/
def putWord (out : Cells UInt8) (i : Nat) (w : BitVec 64) : Except PyFault (Cells UInt8) :=
  (copyTo out i (i + 8) (e.toNeBytes w)).mapError .panic

/-- A block of four words: all are read before the first one is written. -/
def blockOf32 (slice : Bytes) (maskU64 : BitVec 64) (i : Nat) (out : Cells UInt8) : Except PyFault (Cells UInt8) := do
  let c0 ← e.word slice i
  let c1 ← e.word slice (i + 8)
  let c2 ← e.word slice (i + 16)
  let c3 ← e.word slice (i + 24)
  let out ← e.putWord out i (c0 ^^^ maskU64)
  let out ← e.putWord out (i + 8) (c1 ^^^ maskU64)
  let out ← e.putWord out (i + 16) (c2 ^^^ maskU64)
  e.putWord out (i + 24) (c3 ^^^ maskU64)

def blockOf8 (slice : Bytes) (maskU64 : BitVec 64) (i : Nat) (out : Cells UInt8) : Except PyFault (Cells UInt8) := do
  let chunk ← e.word slice i
  e.putWord out i (chunk ^^^ maskU64)

/-- `out[i] = slice[i] ^ mask[i % 4]`. -/
def blockOf1 (slice : Bytes) (mask : Vector UInt8 4) (i : Nat) (out : Cells UInt8) : Except PyFault (Cells UInt8) :=
  match index slice i with
  | .error fault => .error (.panic fault)
  | .ok b => (copyTo out i (i + 1) [b ^^^ mask[i % 4]]).mapError .panic

/-- The body of both functions. A slice has at most `isize::MAX` bytes, so no
index wraps around. -/
def unmaskLoops (slice : Bytes) (mask : Vector UInt8 4) (len : Nat) (out : Cells UInt8) :
    Except PyFault (Cells UInt8) := do
  let blocks ← strided 32 len (e.blockOf32 slice (e.maskU64 mask)) 0 out
  let words ← strided 8 len (e.blockOf8 slice (e.maskU64 mask)) blocks.1 blocks.2
  let trailing ← strided 1 len (blockOf1 slice mask) words.1 words.2
  return trailing.2

/-- `PyBytes::new_with`: the bytes that are not written are zero. -/
def newWith (len : Nat) (init : Cells UInt8 → Except PyFault (Cells UInt8)) : Except PyFault Bytes :=
  (init (List.replicate len none)).map fun out => out.map fun cell => cell.getD 0

def fastWebsocketUnmaskRaw (slice : Bytes) (mask : Vector UInt8 4) : Except PyFault Bytes :=
  newWith slice.length (e.unmaskLoops slice mask slice.length)

end ByteOrder

/-- `offset.checked_add(length)`. -/
def checkedAdd (a b : Nat) : Option Nat := if a + b < usizeEnd then some (a + b) else none

/-- The bytes of an object, whose number is at most `isize::MAX`. -/
structure PyBuffer where
  bytes : Bytes
  fits : bytes.length < 2 ^ 63

/-- The end of the slice is checked without an overflow. -/
def ByteOrder.fastWebsocketUnmaskSlice (e : ByteOrder) (payload : PyBuffer) (offset length : Nat)
    (mask : Vector UInt8 4) : Except PyFault Bytes :=
  if (checkedAdd offset length).all fun end_ => payload.bytes.length < end_ then
    .error (.valueError "slice out of bounds")
  else
    newWith length (e.unmaskLoops ((payload.bytes.drop offset).take length) mask length)

/-- `bytes(b ^ mask_bytes[i % 4] for i, b in enumerate(raw_payload))` of
`_reader_loop`. -/
def readerLoopUnmask (rawPayload : Bytes) (mask : Vector UInt8 4) : Bytes :=
  rawPayload.zipIdx.map fun p => p.1 ^^^ mask[p.2 % 4]

/-! ## Words -/

/-- The bytes of a word. -/
theorem fromLeBytes_byte (bs : Bytes) {i : Nat} (hi : i < 8) :
    (fromLeBytes bs).extractLsb' (8 * i) 8 = (bs.getD i 0).toBitVec := by
  apply BitVec.eq_of_getLsbD_eq
  intro j hj
  rw [BitVec.getLsbD_extractLsb', decide_eq_true hj, Bool.true_and]
  unfold fromLeBytes
  simp only [BitVec.getLsbD_append]
  -- Bit `8 * i + j` lies in one of the eight bytes.
  have hcases : i = 0 ∨ i = 1 ∨ i = 2 ∨ i = 3 ∨ i = 4 ∨ i = 5 ∨ i = 6 ∨ i = 7 := by omega
  rcases hcases with rfl | rfl | rfl | rfl | rfl | rfl | rfl | rfl
  all_goals
    repeat rw [if_neg (by omega)]
    try rw [if_pos (by omega)]
    congr 1
    omega

theorem toLeBytes_xor {bs bs' : Bytes} (h : bs.length = 8) (h' : bs'.length = 8) :
    toLeBytes (fromLeBytes bs ^^^ fromLeBytes bs') = bs.zipWith (· ^^^ ·) bs' := by
  unfold toLeBytes
  apply List.ext_getElem
  · rw [List.length_map, List.length_range, List.length_zipWith, h, h', Nat.min_self]
  · intro k hk _
    rw [List.length_map, List.length_range] at hk
    rw [List.getElem_map, List.getElem_range, List.getElem_zipWith, BitVec.extractLsb'_xor, fromLeBytes_byte _ hk,
      fromLeBytes_byte _ hk, List.getD_eq_getElem?_getD, List.getD_eq_getElem?_getD,
      List.getElem?_eq_getElem (by omega), List.getElem?_eq_getElem (by omega)]
    rfl

/-- What unmasking does from byte `i` of the payload on. -/
def unmaskFrom (mask : Bytes) (i : Nat) (bs : Bytes) : Bytes :=
  bs.mapIdx fun k b => b ^^^ mask.getD ((i + k) % 4) 0

theorem unmaskFrom_append (mask : Bytes) (i : Nat) (bs bs' : Bytes) :
    unmaskFrom mask i (bs ++ bs') = unmaskFrom mask i bs ++ unmaskFrom mask (i + bs.length) bs' := by
  unfold unmaskFrom
  rw [List.mapIdx_append]
  congr 2
  funext k b
  rw [Nat.add_assoc, Nat.add_comm bs.length k]

/-- The mask, twice. -/
theorem getD_twice {mask : Bytes} (hmask : mask.length = 4) {i : Nat} (hi : i < 8) :
    (mask.take 4 ++ mask.take 4).getD i 0 = mask.getD (i % 4) 0 := by
  rw [List.take_of_length_le (Nat.le_of_eq hmask)]
  rw [List.getD_eq_getElem?_getD, List.getD_eq_getElem?_getD]
  rcases Nat.lt_or_ge i 4 with h | h
  · rw [List.getElem?_append_left (by omega), Nat.mod_eq_of_lt h]
  · rw [List.getElem?_append_right (by omega), hmask, Nat.mod_eq_sub_mod h, Nat.mod_eq_of_lt (by omega)]

namespace ByteOrder

variable (e : ByteOrder)

/-- In either order, the bytes of a sum of words are the sums of their bytes. -/
theorem toNeBytes_xor {bs bs' : Bytes} (h : bs.length = 8) (h' : bs'.length = 8) :
    e.toNeBytes (e.fromNeBytes bs ^^^ e.fromNeBytes bs') = bs.zipWith (· ^^^ ·) bs' := by
  cases e with
  | little => exact toLeBytes_xor h h'
  | big =>
    show (toLeBytes (fromLeBytes bs.reverse ^^^ fromLeBytes bs'.reverse)).reverse = _
    rw [toLeBytes_xor (by rw [List.length_reverse, h]) (by rw [List.length_reverse, h']),
      ← List.reverse_zipWith (h.trans h'.symm), List.reverse_reverse]

/-! ## Progress -/

variable (slice : Bytes) (mask : Vector UInt8 4)

/-- The output before index `i`: everything before it is unmasked, and nothing
else is written. -/
def progress (i : Nat) : Cells UInt8 := written slice.length (unmaskFrom mask.toList 0 (slice.take i))

variable {slice mask} {i : Nat}

theorem length_unmaskFrom (mask : Bytes) (i : Nat) (bs : Bytes) : (unmaskFrom mask i bs).length = bs.length :=
  List.length_mapIdx

/-- The bytes from `i` to `j` are written behind those before `i`. -/
theorem copyTo_progress {j : Nat} (hij : i ≤ j) (hj : j ≤ slice.length) :
    copyTo (progress slice mask i) i j (unmaskFrom mask.toList i ((slice.take j).drop i)) =
      .ok (progress slice mask j) := by
  have hdone : (unmaskFrom mask.toList 0 (slice.take i)).length = i := by
    rw [length_unmaskFrom, List.length_take_of_le (by omega)]
  have hsrc : (unmaskFrom mask.toList i ((slice.take j).drop i)).length = j - i := by
    rw [length_unmaskFrom, List.length_drop, List.length_take_of_le hj]
  have hcopy := @copyTo_written UInt8 slice.length (unmaskFrom mask.toList 0 (slice.take i))
    (unmaskFrom mask.toList i ((slice.take j).drop i)) (by omega)
  rw [hdone, hsrc, show i + (j - i) = j by omega] at hcopy
  have happend := unmaskFrom_append mask.toList 0 (slice.take i) ((slice.take j).drop i)
  rw [List.length_take_of_le (by omega : i ≤ slice.length), Nat.zero_add] at happend
  have hsplit : slice.take i ++ (slice.take j).drop i = slice.take j := by
    conv_rhs => rw [← List.take_append_drop i (slice.take j), List.take_take, Nat.min_eq_left hij]
  rw [hsplit] at happend
  unfold progress
  rw [happend]
  exact hcopy

theorem toList_mask (mask : Vector UInt8 4) :
    [mask[0], mask[1], mask[2], mask[3], mask[0], mask[1], mask[2], mask[3]] =
      mask.toList.take 4 ++ mask.toList.take 4 := by
  obtain ⟨⟨l⟩, hl⟩ := mask
  change l.length = 4 at hl
  obtain ⟨a, b, c, d, rfl⟩ := List.length_eq_four.1 hl
  rfl

/-- The mask word unmasks the eight bytes from a multiple of four on. -/
theorem unmask_word (hi : i % 4 = 0) {bs : Bytes} (hbs : bs.length = 8) :
    e.toNeBytes (e.fromNeBytes bs ^^^ e.maskU64 mask) = unmaskFrom mask.toList i bs := by
  have hmask : mask.toList.length = 4 := Vector.length_toList
  have htwice : (mask.toList.take 4 ++ mask.toList.take 4).length = 8 := by
    rw [List.length_append, List.length_take, hmask]
    rfl
  unfold maskU64
  rw [toList_mask, toNeBytes_xor e hbs htwice]
  unfold unmaskFrom
  apply List.ext_getElem
  · rw [List.length_zipWith, List.length_mapIdx, hbs, htwice, Nat.min_self]
  · intro k hk _
    rw [List.length_zipWith, hbs, htwice, Nat.min_self] at hk
    have hget := getD_twice hmask hk
    rw [List.getD_eq_getElem?_getD, List.getElem?_eq_getElem (by rw [htwice]; exact hk), Option.getD_some] at hget
    rw [List.getElem_zipWith, List.getElem_mapIdx, hget, show (i + k) % 4 = k % 4 by omega]

theorem word_eq (hi : i + 8 ≤ slice.length) :
    e.word slice i = .ok (e.fromNeBytes ((slice.take (i + 8)).drop i)) := by
  have hlen : ((slice.take (i + 8)).drop i).length = 8 := by
    rw [List.length_drop, List.length_take_of_le hi]
    omega
  unfold word
  rw [slice_of_le (by omega) hi]
  exact if_pos hlen

theorem putWord_progress (hi : i % 4 = 0) (hlen : i + 8 ≤ slice.length) :
    e.putWord (progress slice mask i) i (e.fromNeBytes ((slice.take (i + 8)).drop i) ^^^ e.maskU64 mask) =
      .ok (progress slice mask (i + 8)) := by
  have hbs : ((slice.take (i + 8)).drop i).length = 8 := by
    rw [List.length_drop, List.length_take_of_le hlen]
    omega
  unfold putWord
  rw [unmask_word e hi hbs, copyTo_progress (by omega) hlen]
  rfl

/-! ## Blocks -/

theorem blockOf32_progress (hi : i % 4 = 0) (hlen : i + 32 ≤ slice.length) :
    e.blockOf32 slice (e.maskU64 mask) i (progress slice mask i) = .ok (progress slice mask (i + 32)) := by
  have hword : ∀ k, k % 4 = 0 → k + 8 ≤ 32 →
      e.word slice (i + k) = .ok (e.fromNeBytes ((slice.take (i + k + 8)).drop (i + k))) ∧
        e.putWord (progress slice mask (i + k)) (i + k)
          (e.fromNeBytes ((slice.take (i + k + 8)).drop (i + k)) ^^^ e.maskU64 mask) =
          .ok (progress slice mask (i + k + 8)) :=
    fun k hk hle => ⟨e.word_eq (by omega), e.putWord_progress (by omega) (by omega)⟩
  obtain ⟨hw0, hp0⟩ := hword 0 rfl (by omega)
  obtain ⟨hw1, hp1⟩ := hword 8 rfl (by omega)
  obtain ⟨hw2, hp2⟩ := hword 16 rfl (by omega)
  obtain ⟨hw3, hp3⟩ := hword 24 rfl (by omega)
  unfold blockOf32
  rw [Nat.add_zero] at hw0 hp0
  rw [hw0, ok_bind, hw1, ok_bind, hw2, ok_bind, hw3, ok_bind, hp0, ok_bind, hp1, ok_bind, hp2, ok_bind]
  exact hp3

theorem blockOf8_progress (hi : i % 4 = 0) (hlen : i + 8 ≤ slice.length) :
    e.blockOf8 slice (e.maskU64 mask) i (progress slice mask i) = .ok (progress slice mask (i + 8)) := by
  unfold blockOf8
  rw [e.word_eq hlen]
  exact e.putWord_progress hi hlen

theorem blockOf1_progress (hlen : i + 1 ≤ slice.length) :
    blockOf1 slice mask i (progress slice mask i) = .ok (progress slice mask (i + 1)) := by
  have hindex : index slice i = .ok slice[i] := by
    unfold index
    rw [List.getElem?_eq_getElem (by omega)]
  have hone : unmaskFrom mask.toList i ((slice.take (i + 1)).drop i) = [slice[i] ^^^ mask[i % 4]] := by
    have hnext : (slice.take (i + 1)).drop i = [slice[i]] := by
      rw [List.take_succ_eq_append_getElem (by omega), List.drop_append_of_le_length
        (by rw [List.length_take_of_le (by omega)]), List.drop_eq_nil_of_le (by rw [List.length_take_of_le (by omega)])]
      rfl
    have hget : mask.toList.getD (i % 4) 0 = mask[i % 4] := by
      rw [List.getD_eq_getElem?_getD, List.getElem?_eq_getElem (by rw [Vector.length_toList]; omega), Option.getD_some]
      exact Vector.getElem_toList _
    rw [hnext]
    show [slice[i] ^^^ mask.toList.getD ((i + 0) % 4) 0] = _
    rw [Nat.add_zero, hget]
  unfold blockOf1
  rw [hindex]
  show (copyTo _ _ _ _).mapError _ = _
  rw [← hone, copyTo_progress (by omega) hlen]
  rfl

/-! ## The loops -/

/-- The three loops write the whole payload, unmasked byte by byte. -/
theorem unmaskLoops_eq (slice : Bytes) (mask : Vector UInt8 4) :
    e.unmaskLoops slice mask slice.length (List.replicate slice.length none) =
      .ok ((unmaskFrom mask.toList 0 slice).map some) := by
  have hstart : List.replicate slice.length none = progress slice mask 0 := by
    unfold progress
    rw [List.take_zero]
    exact (written_nil _).symm
  have haligned : ∀ {k : Nat} {body : Nat → Cells UInt8 → Except PyFault (Cells UInt8)}, k % 4 = 0 →
      (∀ i, i % 4 = 0 → i + k ≤ slice.length → body i (progress slice mask i) = .ok (progress slice mask (i + k))) →
      ∀ i out, (i % 4 = 0 ∧ out = progress slice mask i) → i + k ≤ slice.length →
        ∃ out', body i out = .ok out' ∧ (i + k) % 4 = 0 ∧ out' = progress slice mask (i + k) := by
    rintro k body hk hbody i out ⟨hi, rfl⟩ hlen
    exact ⟨_, hbody i hi hlen, by omega, rfl⟩
  obtain ⟨i, out, hblocks, ⟨hi, rfl⟩, hle, -⟩ := strided_inv (P := fun i out => i % 4 = 0 ∧ out = progress slice mask i)
    (by decide) (haligned rfl fun i hi hlen => e.blockOf32_progress hi hlen) ⟨rfl, rfl⟩ (Nat.zero_le slice.length)
  obtain ⟨j, out, hwords, ⟨-, rfl⟩, hle', -⟩ := strided_inv (P := fun i out => i % 4 = 0 ∧ out = progress slice mask i)
    (by decide) (haligned rfl fun i hi hlen => e.blockOf8_progress hi hlen) ⟨hi, rfl⟩ hle
  have hsingle : ∀ i out, out = progress slice mask i → i + 1 ≤ slice.length →
      ∃ out', blockOf1 slice mask i out = .ok out' ∧ out' = progress slice mask (i + 1) := by
    rintro i out rfl hlen
    exact ⟨_, blockOf1_progress hlen, rfl⟩
  obtain ⟨k, out, hbytes, rfl, hle'', hend⟩ := strided_inv (P := fun i out => out = progress slice mask i) Nat.one_pos
    hsingle rfl hle'
  obtain rfl : k = slice.length := by omega
  unfold unmaskLoops
  rw [hstart, hblocks, ok_bind, hwords, ok_bind, hbytes, ok_bind]
  show Except.ok (progress slice mask slice.length) = _
  unfold progress
  have hall := written_all (unmaskFrom mask.toList 0 slice)
  rw [length_unmaskFrom] at hall
  rw [List.take_length, hall]

theorem newWith_unmask (slice : Bytes) (mask : Vector UInt8 4) :
    newWith slice.length (e.unmaskLoops slice mask slice.length) = .ok (unmaskFrom mask.toList 0 slice) := by
  unfold newWith
  rw [unmaskLoops_eq]
  show Except.ok (((unmaskFrom mask.toList 0 slice).map some).map fun cell => cell.getD 0) = _
  rw [List.map_map]
  exact congrArg Except.ok (List.map_id _)

end ByteOrder

/-! ## Byte by byte -/

/-- The bytes of a payload, each combined with its byte of the mask. -/
def xorMask (mask : Vector UInt8 4) (payload : Bytes) : Bytes := payload.mapIdx fun i b => b ^^^ mask[i % 4]

section

variable (e : ByteOrder) (mask : Vector UInt8 4) (payload : Bytes)

theorem unmaskFrom_zero (mask : Bytes) : unmaskFrom mask 0 payload = fastWebsocketUnmask payload mask := by
  unfold unmaskFrom fastWebsocketUnmask
  congr 1
  funext i b
  rw [Nat.zero_add]

theorem fastWebsocketUnmask_eq : fastWebsocketUnmask payload mask.toList = xorMask mask payload := by
  unfold fastWebsocketUnmask xorMask
  congr 1
  funext i b
  have hlt : i % 4 < mask.toList.length := by
    rw [Vector.length_toList]
    omega
  rw [List.getD_eq_getElem?_getD, List.getElem?_eq_getElem hlt, Option.getD_some]
  exact congrArg (b ^^^ ·) (Vector.getElem_toList hlt)

theorem xorMask_twice : xorMask mask (xorMask mask payload) = payload := by
  unfold xorMask
  rw [List.mapIdx_mapIdx]
  apply List.ext_getElem
  · exact List.length_mapIdx
  · intro i _ _
    rw [List.getElem_mapIdx]
    show payload[i] ^^^ mask[i % 4] ^^^ mask[i % 4] = payload[i]
    rw [UInt8.xor_assoc, UInt8.xor_self, UInt8.xor_zero]

theorem readerLoopUnmask_eq : readerLoopUnmask payload mask = xorMask mask payload := by
  unfold readerLoopUnmask xorMask
  rw [List.mapIdx_eq_zipIdx_map]

/-- By blocks, in either order, as the engine and `_reader_loop` unmask their
frames. -/
theorem fastWebsocketUnmaskRaw_eq :
    e.fastWebsocketUnmaskRaw payload mask = .ok (fastWebsocketUnmask payload mask.toList) := by
  unfold ByteOrder.fastWebsocketUnmaskRaw
  rw [ByteOrder.newWith_unmask, unmaskFrom_zero]

theorem fastWebsocketUnmaskRaw_xor : e.fastWebsocketUnmaskRaw payload mask = .ok (xorMask mask payload) := by
  rw [fastWebsocketUnmaskRaw_eq, fastWebsocketUnmask_eq]

theorem fastWebsocketUnmaskSlice_xor (payload : PyBuffer) (offset length : Nat) :
    e.fastWebsocketUnmaskSlice payload offset length mask =
      if offset + length ≤ payload.bytes.length then .ok (xorMask mask ((payload.bytes.drop offset).take length))
      else .error (.valueError "slice out of bounds") := by
  have hfits := payload.fits
  unfold ByteOrder.fastWebsocketUnmaskSlice
  by_cases hrange : offset + length ≤ payload.bytes.length
  · have hlen : ((payload.bytes.drop offset).take length).length = length :=
      List.length_take_of_le (by rw [List.length_drop]; omega)
    have hunmask := e.newWith_unmask ((payload.bytes.drop offset).take length) mask
    rw [hlen, unmaskFrom_zero, fastWebsocketUnmask_eq] at hunmask
    have hchecked : checkedAdd offset length = some (offset + length) :=
      if_pos (show offset + length < 2 ^ 64 by omega)
    have hinside : ¬ (some (offset + length)).all (fun end_ => payload.bytes.length < end_) = true :=
      fun hend => Nat.not_lt.2 hrange (of_decide_eq_true hend)
    rw [if_pos hrange, hchecked, if_neg hinside]
    exact hunmask
  · rw [if_neg hrange]
    refine if_pos ?_
    unfold checkedAdd
    split
    · exact decide_eq_true (Nat.not_le.1 hrange)
    · rfl

end

/-- On a machine of either byte order: what `fast_websocket_unmask_raw` returns
is the payload combined with the mask byte by byte, and so is what
`fast_websocket_unmask_slice` returns of a range of the payload, which raises
exactly if the range ends behind the payload. The fallback of `_reader_loop` is
the same function, and it is its own inverse. -/
theorem unmask_bytewise (e : ByteOrder) (mask : Vector UInt8 4) :
    (∀ payload : Bytes,
      e.fastWebsocketUnmaskRaw payload mask = .ok (payload.mapIdx fun i b => b ^^^ mask[i % 4]) ∧
      e.fastWebsocketUnmaskRaw payload mask = .ok (readerLoopUnmask payload mask) ∧
      (e.fastWebsocketUnmaskRaw payload mask).bind (e.fastWebsocketUnmaskRaw · mask) = .ok payload) ∧
    ∀ (payload : PyBuffer) (offset length : Nat),
      if offset + length ≤ payload.bytes.length then
        e.fastWebsocketUnmaskSlice payload offset length mask =
          .ok (((payload.bytes.drop offset).take length).mapIdx fun i b => b ^^^ mask[i % 4]) ∧
        e.fastWebsocketUnmaskSlice payload offset length mask =
          .ok (readerLoopUnmask ((payload.bytes.drop offset).take length) mask) ∧
        ∃ once : PyBuffer, e.fastWebsocketUnmaskSlice payload offset length mask = .ok once.bytes ∧
          e.fastWebsocketUnmaskSlice once 0 length mask = .ok ((payload.bytes.drop offset).take length)
      else e.fastWebsocketUnmaskSlice payload offset length mask = .error (.valueError "slice out of bounds") := by
  constructor
  · intro payload
    refine ⟨fastWebsocketUnmaskRaw_xor e mask payload, ?_, ?_⟩
    · rw [fastWebsocketUnmaskRaw_xor, readerLoopUnmask_eq]
    · rw [fastWebsocketUnmaskRaw_xor]
      show e.fastWebsocketUnmaskRaw (xorMask mask payload) mask = _
      rw [fastWebsocketUnmaskRaw_xor, xorMask_twice]
  · intro payload offset length
    have hslice := fastWebsocketUnmaskSlice_xor e mask payload offset length
    split
    · rename_i hrange
      rw [if_pos hrange] at hslice
      have hlen : ((payload.bytes.drop offset).take length).length = length :=
        List.length_take_of_le (by rw [List.length_drop]; omega)
      have honce : (xorMask mask ((payload.bytes.drop offset).take length)).length = length :=
        List.length_mapIdx.trans hlen
      have hfits := payload.fits
      refine ⟨hslice, by rw [hslice, readerLoopUnmask_eq], ⟨xorMask mask _, by rw [honce]; omega⟩, hslice, ?_⟩
      rw [fastWebsocketUnmaskSlice_xor, if_pos (by rw [honce, Nat.zero_add]), List.drop_zero,
        List.take_of_length_le (Nat.le_of_eq honce), xorMask_twice]
    · rename_i hrange
      rw [if_neg hrange] at hslice
      exact hslice

end Multiloop.Http
