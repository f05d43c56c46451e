import Multiloop.Http.Reader

/-!
# What a reader makes of the bytes

However the bytes of a client are cut into chunks, `_reader_loop` lets pass the
frames that they begin with, one after the other, up to one that ends it or to
the end of the stream.
-/

namespace Multiloop.Http

/-- What the bytes that a reader has not used begin with. -/
inductive ClientStart
  | short
  | protocolError (code : Nat) (reason : String)
  | frame (opcode : UInt8) (fin : Bool) (payload : Bytes) (size : Nat)
deriving DecidableEq

/-- The parser of the extension module waits for the whole header; without it the
header is looked at byte by byte. -/
def clientStart (fast : Bool) (u : Bytes) : ClientStart :=
  match u with
  | b1 :: b2 :: _ =>
    if b2 &&& 0x80 = 0 then
      if fast ∧ FastHttpConnection.lengths u (b2 &&& 0x7F).toNat = none then .short
      else .protocolError 1002 "Unmasked Frame"
    else match FastHttpConnection.lengths u (b2 &&& 0x7F).toNat with
      | none => .short
      | some (payloadLen, headerLen) =>
        if fast ∧ u.length < headerLen + 4 then .short
        else match checkHeader (b1 &&& 0x0F) (b1 &&& 0x80 ≠ 0) payloadLen with
          | some (code, reason) => .protocolError code reason
          | none =>
            if u.length < headerLen + 4 + payloadLen then .short
            else .frame (b1 &&& 0x0F) (b1 &&& 0x80 ≠ 0)
              (fastWebsocketUnmask ((u.drop (headerLen + 4)).take payloadLen) ((u.drop headerLen).take 4))
              (headerLen + 4 + payloadLen)
  | _ => .short

open FastHttpConnection (lengths lengths_append firstFrame_masked firstFrame_size)

theorem clientStart_cons {fast : Bool} {b1 b2 : UInt8} {rest u : Bytes} (hu : u = b1 :: b2 :: rest) :
    clientStart fast u =
      if b2 &&& 0x80 = 0 then
        if fast ∧ lengths u (b2 &&& 0x7F).toNat = none then .short
        else .protocolError 1002 "Unmasked Frame"
      else match lengths u (b2 &&& 0x7F).toNat with
        | none => .short
        | some (payloadLen, headerLen) =>
          if fast ∧ u.length < headerLen + 4 then .short
          else match checkHeader (b1 &&& 0x0F) (b1 &&& 0x80 ≠ 0) payloadLen with
            | some (code, reason) => .protocolError code reason
            | none =>
              if u.length < headerLen + 4 + payloadLen then .short
              else .frame (b1 &&& 0x0F) (b1 &&& 0x80 ≠ 0)
                (fastWebsocketUnmask ((u.drop (headerLen + 4)).take payloadLen) ((u.drop headerLen).take 4))
                (headerLen + 4 + payloadLen) := by
  subst hu
  rfl

/-- A frame that a reader sees is one that the bytes begin with. -/
theorem clientStart_frame {fast : Bool} {u : Bytes} {opcode : UInt8} {fin : Bool} {payload : Bytes} {size : Nat} :
    clientStart fast u = .frame opcode fin payload size ↔
      firstFrame u = .frame opcode fin payload size ∧ checkHeader opcode fin payload.length = none := by
  rcases hu : u with _ | ⟨b1, _ | ⟨b2, rest⟩⟩
  · exact ⟨fun h => (by cases h), fun h => (by cases h.1)⟩
  · exact ⟨fun h => (by cases h), fun h => (by cases h.1)⟩
  rw [← hu, clientStart_cons hu]
  by_cases hmask : b2 &&& 0x80 = 0
  · have hunmasked : firstFrame u = .unmasked := by
      rw [hu]
      exact if_pos hmask
    rw [if_pos hmask, hunmasked]
    refine ⟨fun h => ?_, fun h => (by cases h.1)⟩
    split at h <;> cases h
  rw [if_neg hmask, firstFrame_masked hu hmask]
  cases hl : lengths u (b2 &&& 0x7F).toNat with
  | none => exact ⟨fun h => (by cases h), fun h => (by cases h.1)⟩
  | some p =>
    obtain ⟨payloadLen, headerLen⟩ := p
    dsimp only
    by_cases hshort : u.length < headerLen + 4 + payloadLen
    · rw [if_pos hshort, if_pos hshort]
      refine ⟨fun h => ?_, fun h => (by cases h.1)⟩
      split at h
      · cases h
      · split at h <;> cases h
    · have hheader : ¬ (fast = true ∧ u.length < headerLen + 4) := fun h => hshort (by omega)
      have hlen : (fastWebsocketUnmask ((u.drop (headerLen + 4)).take payloadLen) ((u.drop headerLen).take 4)).length =
          payloadLen := by
        unfold fastWebsocketUnmask
        rw [List.length_mapIdx, List.length_take_of_le]
        rw [List.length_drop]
        omega
      rw [if_neg hshort, if_neg hheader, if_neg hshort]
      constructor
      · intro h
        split at h
        · cases h
        · rename_i hcheck
          injection h with hop hfin hpayload hsize
          subst hop hfin hpayload hsize
          exact ⟨rfl, by rw [hlen]; exact hcheck⟩
      · rintro ⟨h, hcheck⟩
        injection h with hop hfin hpayload hsize
        subst hop hfin hpayload hsize
        rw [hlen] at hcheck
        rw [hcheck]

/-! ## With the extension module -/

theorem parseFrameHeader_cons {b1 b2 : UInt8} {rest u : Bytes} (hu : u = b1 :: b2 :: rest) :
    parseFrameHeader u = (lengths u (b2 &&& 0x7F).toNat).bind fun (payloadLen, offset) =>
      if b2 &&& 0x80 ≠ 0 then
        if u.length < offset + 4 then none
        else some ⟨b1 &&& 0x0F, b1 &&& 0x80 ≠ 0, true, payloadLen, some ((u.drop offset).take 4), offset + 4⟩
      else some ⟨b1 &&& 0x0F, b1 &&& 0x80 ≠ 0, false, payloadLen, none, offset⟩ := by
  subst hu
  rfl

/-- More bytes do not change a header. -/
theorem parseFrameHeader_append {u : Bytes} {h : FrameHeader} (hparse : parseFrameHeader u = some h) (v : Bytes) :
    parseFrameHeader (u ++ v) = some h := by
  rcases hu : u with _ | ⟨b1, _ | ⟨b2, rest⟩⟩
  · rw [hu] at hparse
    cases hparse
  · rw [hu] at hparse
    cases hparse
  have huv : u ++ v = b1 :: b2 :: (rest ++ v) := by rw [hu]; rfl
  rw [← hu, parseFrameHeader_cons huv]
  rw [parseFrameHeader_cons hu] at hparse
  obtain ⟨⟨payloadLen, offset⟩, hl, hparse⟩ := Option.bind_eq_some_iff.1 hparse
  rw [lengths_append hl, Option.bind_some]
  dsimp only at hparse ⊢
  split at hparse
  · rename_i hmask
    rw [if_pos hmask]
    split at hparse
    · cases hparse
    · rename_i hlong
      have hlong' : ¬ (u ++ v).length < offset + 4 := by
        rw [List.length_append]
        omega
      have htake : ((u ++ v).drop offset).take 4 = (u.drop offset).take 4 := by
        rw [List.drop_append_of_le_length (by omega), List.take_append_of_le_length]
        rw [List.length_drop]
        omega
      rw [if_neg hlong', htake]
      exact hparse
  · rename_i hmask
    rw [if_neg hmask]
    exact hparse

theorem clientStart_headerless {u : Bytes} (hparse : parseFrameHeader u = none) : clientStart true u = .short := by
  rcases hu : u with _ | ⟨b1, _ | ⟨b2, rest⟩⟩
  · rfl
  · rfl
  rw [parseFrameHeader_cons hu] at hparse
  rw [← hu, clientStart_cons hu]
  cases hl : lengths u (b2 &&& 0x7F).toNat with
  | none =>
    split
    · exact if_pos ⟨rfl, rfl⟩
    · rfl
  | some p =>
    obtain ⟨payloadLen, offset⟩ := p
    rw [hl, Option.bind_some] at hparse
    dsimp only at hparse
    split at hparse
    · rename_i hmask
      split at hparse
      · rename_i hshort
        rw [if_neg hmask]
        exact if_pos ⟨rfl, hshort⟩
      · cases hparse
    · cases hparse

/-- The bytes from their header on. -/
theorem clientStart_header {u : Bytes} {h : FrameHeader} (hparse : parseFrameHeader u = some h) :
    clientStart true u =
      if ¬ h.masked then .protocolError 1002 "Unmasked Frame"
      else match checkHeader h.opcode h.fin h.payloadLen with
        | some (code, reason) => .protocolError code reason
        | none =>
          if u.length < h.headerLen + h.payloadLen then .short
          else .frame h.opcode h.fin
            (match h.maskKey with
              | some maskKey => fastWebsocketUnmask ((u.drop h.headerLen).take h.payloadLen) maskKey
              | none => (u.drop h.headerLen).take h.payloadLen)
            (h.headerLen + h.payloadLen) := by
  rcases hu : u with _ | ⟨b1, _ | ⟨b2, rest⟩⟩
  · rw [hu] at hparse
    cases hparse
  · rw [hu] at hparse
    cases hparse
  rw [parseFrameHeader_cons hu] at hparse
  obtain ⟨⟨payloadLen, offset⟩, hl, hparse⟩ := Option.bind_eq_some_iff.1 hparse
  rw [← hu, clientStart_cons hu]
  dsimp only at hparse
  split at hparse
  · rename_i hmask
    split at hparse
    · cases hparse
    · rename_i hlong
      cases hparse
      rw [if_neg hmask, hl]
      dsimp only
      rw [if_neg fun hshort => hlong hshort.2, if_neg (not_not.2 rfl)]
  · rename_i hmask
    cases hparse
    have hmask := not_not.1 hmask
    have hnone : ¬ (true = true ∧ lengths u (b2 &&& 0x7F).toNat = none) := by
      rintro ⟨-, hnone⟩
      rw [hl] at hnone
      cases hnone
    rw [if_pos hmask, if_neg hnone]
    rfl

variable {r r' : Reader} {s s' : StreamReader}

theorem Reader.unread_extend (chunk : Bytes) : (r.extend chunk).unread = r.unread ++ chunk :=
  List.drop_append_of_le_length r.fits

theorem Reader.unread_advance {size : Nat} (h : ¬ r.unread.length < size) :
    (r.advance size h).unread = r.unread.drop size :=
  List.drop_drop.symm

theorem Reader.unread_compact : r.compactRawBuf.unread = r.unread := by
  unfold compactRawBuf
  split
  · rfl
  · rfl

theorem Reader.fragments_compact : r.compactRawBuf.fragments = r.fragments := by
  unfold compactRawBuf
  split
  · rfl
  · rfl

/-- What a round leaves of the stream, for each thing that it can come to. -/
inductive Comes (fast : Bool) (r : Reader) (s : StreamReader) : NextFrame → Prop
  | again {r' : Reader} {s' : StreamReader} (hfast : fast = true) (hrest : r'.unread ++ s'.bytes = r.unread ++ s.bytes)
      (hless : s'.chunks.length < s.chunks.length) (hsame : r'.fragments = r.fragments ∧ s'.ending = s.ending) :
      Comes fast r s (.again r' s')
  | stop (hshort : clientStart fast (r.unread ++ s.bytes) = .short) (hfast : fast = true) (hend : s.ending ≠ .failed) :
      Comes fast r s .stop
  | raised (hshort : clientStart fast (r.unread ++ s.bytes) = .short) (hend : fast = false ∨ s.ending = .failed) :
      Comes fast r s .raised
  | protocolError {code : Nat} {reason : String}
      (herror : clientStart fast (r.unread ++ s.bytes) = .protocolError code reason) :
      Comes fast r s (.protocolError code reason)
  | frame {opcode : UInt8} {fin : Bool} {payload : Bytes} {size : Nat} {r' : Reader} {s' : StreamReader}
      (hframe : clientStart fast (r.unread ++ s.bytes) = .frame opcode fin payload size)
      (hrest : r'.unread ++ s'.bytes = (r.unread ++ s.bytes).drop size) (hle : s'.chunks.length ≤ s.chunks.length)
      (hsame : r'.fragments = r.fragments ∧ s'.ending = s.ending) (hslow : fast = false → r'.unread = r.unread) :
      Comes fast r s (.frame opcode fin payload r' s')

/-- The bytes that the inner loop reads. -/
theorem fill_cases {total : Nat} {ending : StreamEnd} {chunks : List Chunk} :
    (fill total ending chunks r = .error () ∧ (r.unread ++ StreamReader.bytes ⟨chunks, ending⟩).length < total ∧
      ending = .failed) ∨
    ∃ r' s', fill total ending chunks r = .ok (r', s') ∧
      r'.unread ++ s'.bytes = r.unread ++ StreamReader.bytes ⟨chunks, ending⟩ ∧ s'.chunks.length ≤ chunks.length ∧
      (r'.fragments = r.fragments ∧ s'.ending = ending) ∧
      (r'.unread.length < total → s'.bytes = [] ∧ ending ≠ .failed) := by
  induction chunks generalizing r with
  | nil =>
    unfold fill
    by_cases hfail : r.unread.length < total ∧ ending = .failed
    · rw [if_pos hfail]
      refine .inl ⟨rfl, ?_, hfail.2⟩
      show (r.unread ++ []).length < total
      rw [List.append_nil]
      exact hfail.1
    · rw [if_neg hfail]
      exact .inr ⟨_, _, rfl, rfl, Nat.le_refl _, ⟨rfl, rfl⟩, fun hshort => ⟨rfl, fun hend => hfail ⟨hshort, hend⟩⟩⟩
  | cons chunk chunks ih =>
    unfold fill
    have hbytes : (r.extend chunk.val).unread ++ StreamReader.bytes ⟨chunks, ending⟩ =
        r.unread ++ StreamReader.bytes ⟨chunk :: chunks, ending⟩ := by
      rw [Reader.unread_extend, List.append_assoc]
      rfl
    by_cases hshort : r.unread.length < total
    · rw [if_pos hshort]
      dsimp only
      by_cases heof : (r.extend chunk.val).unread.length < total ∧ StreamReader.atEof ⟨chunks, ending⟩ = true
      · rw [if_pos heof]
        obtain ⟨hempty, hend⟩ := Bool.and_eq_true_iff.1 heof.2
        have hnil : chunks = [] := List.isEmpty_iff.1 hempty
        have hend : ending = .eof true := of_decide_eq_true hend
        refine .inr ⟨_, _, rfl, hbytes, Nat.le_succ _, ⟨rfl, rfl⟩, fun _ => ⟨?_, ?_⟩⟩
        · show chunks.flatMap _ = []
          rw [hnil]
          rfl
        · rw [hend]
          exact StreamEnd.noConfusion
      · rw [if_neg heof]
        rcases @ih (r.extend chunk.val) with ⟨hfill, hlen, hend⟩ | ⟨r', s', hfill, hrest, hle, hsame, hstop⟩
        · rw [hbytes] at hlen
          exact .inl ⟨hfill, hlen, hend⟩
        · rw [hbytes] at hrest
          exact .inr ⟨r', s', hfill, hrest, Nat.le_succ_of_le hle, hsame, hstop⟩
    · rw [if_neg hshort]
      exact .inr ⟨_, _, rfl, rfl, Nat.le_refl _, ⟨rfl, rfl⟩, fun h => absurd h hshort⟩

theorem nextFast_comes : Comes true r s (nextFast r s) := by
  unfold nextFast
  cases hparse : parseFrameHeader r.unread with
  | none =>
    obtain ⟨chunks, ending⟩ := s
    cases chunks with
    | nil =>
      have hshort : clientStart true (r.unread ++ StreamReader.bytes ⟨[], ending⟩) = .short := by
        rw [show r.unread ++ StreamReader.bytes ⟨[], ending⟩ = r.unread from List.append_nil _]
        exact clientStart_headerless hparse
      cases ending with
      | eof fed => exact .stop hshort rfl StreamEnd.noConfusion
      | failed => exact .raised hshort (.inr rfl)
    | cons chunk chunks =>
      show Comes true r _ (if chunk.val = [] then .stop else .again (r.extend chunk.val) ⟨chunks, ending⟩)
      rw [if_neg chunk.property.1]
      refine .again rfl ?_ (Nat.lt_succ_self _) ⟨rfl, rfl⟩
      rw [Reader.unread_extend, List.append_assoc]
      rfl
  | some h =>
    have hstart := clientStart_header (parseFrameHeader_append hparse s.bytes)
    dsimp only
    by_cases hmask : ¬ h.masked = true
    · rw [if_pos hmask] at hstart ⊢
      exact .protocolError hstart
    rw [if_neg hmask] at hstart ⊢
    cases hcheck : checkHeader h.opcode h.fin h.payloadLen with
    | some p =>
      rw [hcheck] at hstart
      exact .protocolError hstart
    | none =>
      rw [hcheck] at hstart
      dsimp only at hstart ⊢
      rcases @fill_cases r (h.headerLen + h.payloadLen) s.ending s.chunks with
        ⟨hfill, hlen, hend⟩ | ⟨r', s', hfill, hrest, hle, hsame, hstop⟩
      · rw [hfill]
        rw [if_pos hlen] at hstart
        exact .raised hstart (.inr hend)
      · rw [hfill]
        dsimp only
        change r'.unread ++ s'.bytes = r.unread ++ s.bytes at hrest
        split
        · rename_i hlen
          obtain ⟨hempty, hend⟩ := hstop hlen
          rw [hempty, List.append_nil] at hrest
          rw [← hrest, if_pos hlen] at hstart
          rw [hrest] at hstart
          exact .stop hstart rfl hend
        · rename_i hlen
          have hlong : ¬ (r.unread ++ s.bytes).length < h.headerLen + h.payloadLen := by
            rw [← hrest, List.length_append]
            omega
          have hpayload : ((r.unread ++ s.bytes).drop h.headerLen).take h.payloadLen =
              (r'.unread.drop h.headerLen).take h.payloadLen := by
            rw [← hrest, List.drop_append_of_le_length (by omega), List.take_append_of_le_length]
            rw [List.length_drop]
            omega
          rw [if_neg hlong, hpayload] at hstart
          refine .frame hstart ?_ hle ⟨Reader.fragments_compact.trans hsame.1, hsame.2⟩ (fun hfast => by cases hfast)
          rw [Reader.unread_compact, Reader.unread_advance, ← hrest, List.drop_append_of_le_length (by omega)]

/-! ## Without the extension module -/

theorem takeChunks_cases (n : Nat) (chunks : List Chunk) :
    (StreamReader.takeChunks n chunks = none ∧ (chunks.flatMap (·.val)).length < n) ∨
    ∃ rest, StreamReader.takeChunks n chunks = some ((chunks.flatMap (·.val)).take n, rest) ∧
      n ≤ (chunks.flatMap (·.val)).length ∧ rest.flatMap (·.val) = (chunks.flatMap (·.val)).drop n ∧
      rest.length ≤ chunks.length := by
  induction chunks generalizing n with
  | nil =>
    by_cases hn : n = 0
    · subst hn
      exact .inr ⟨[], rfl, Nat.le_refl _, rfl, Nat.le_refl _⟩
    · exact .inl ⟨if_neg hn, Nat.pos_of_ne_zero hn⟩
  | cons chunk chunks ih =>
    unfold StreamReader.takeChunks
    rw [List.flatMap_cons, List.length_append]
    by_cases hn : n < chunk.val.length
    · rw [dif_pos hn]
      have htake : (chunk.val ++ chunks.flatMap (·.val)).take n = chunk.val.take n :=
        List.take_append_of_le_length (Nat.le_of_lt hn)
      refine .inr ⟨_, congrArg some (Prod.ext htake.symm rfl), by omega, ?_, Nat.le_refl _⟩
      exact (List.drop_append_of_le_length (Nat.le_of_lt hn)).symm
    · have hle := Nat.not_lt.1 hn
      rw [dif_neg hn]
      rcases ih (n - chunk.val.length) with ⟨hnone, hlen⟩ | ⟨rest, hsome, hlen, hrest, hless⟩
      · rw [hnone]
        exact .inl ⟨rfl, by omega⟩
      · rw [hsome]
        refine .inr ⟨rest, ?_, by omega, ?_, Nat.le_succ_of_le hless⟩
        · rw [List.take_append, List.take_of_length_le hle]
          rfl
        · rw [hrest, List.drop_append, List.drop_of_length_le hle, List.nil_append]

theorem readexactly_cases (n : Nat) (s : StreamReader) :
    (s.readexactly n = none ∧ s.bytes.length < n) ∨
    ∃ s', s.readexactly n = some (s.bytes.take n, s') ∧ n ≤ s.bytes.length ∧ s'.bytes = s.bytes.drop n ∧
      s'.chunks.length ≤ s.chunks.length ∧ s'.ending = s.ending := by
  unfold StreamReader.readexactly
  rcases takeChunks_cases n s.chunks with ⟨hnone, hlen⟩ | ⟨rest, hsome, hlen, hrest, hless⟩
  · rw [hnone]
    exact .inl ⟨rfl, hlen⟩
  · rw [hsome]
    exact .inr ⟨_, rfl, hlen, hrest, hless, rfl⟩

/-- The lengths of a frame of which two bytes have been read. -/
theorem readLength_cases {b1 b2 : UInt8} {u : Bytes} (hu : u = b1 :: b2 :: s.bytes) (rawLen : Nat) :
    (readLength s rawLen = none ∧ lengths u rawLen = none) ∨
    ∃ payloadLen headerLen s', readLength s rawLen = some (payloadLen, s') ∧
      lengths u rawLen = some (payloadLen, headerLen) ∧ s'.bytes = u.drop headerLen ∧
      s'.chunks.length ≤ s.chunks.length ∧ s'.ending = s.ending := by
  have hlen : u.length = s.bytes.length + 2 := by rw [hu]; rfl
  have hdrop : ∀ n, s.bytes.drop n = u.drop (n + 2) := by
    intro n
    rw [hu]
    rfl
  unfold readLength lengths
  by_cases h126 : rawLen = 126
  · rw [if_pos h126, if_pos h126]
    rcases readexactly_cases 2 s with ⟨hnone, hshort⟩ | ⟨s', hsome, hlong, hrest, hless, hend⟩
    · rw [hnone, if_pos (by omega)]
      exact .inl ⟨rfl, rfl⟩
    · rw [hsome, if_neg (by omega), show (u.drop 2).take 2 = s.bytes.take 2 by rw [← hdrop 0]; rfl]
      exact .inr ⟨_, 4, s', rfl, rfl, hrest.trans (hdrop 2), hless, hend⟩
  rw [if_neg h126, if_neg h126]
  by_cases h127 : rawLen = 127
  · rw [if_pos h127, if_pos h127]
    rcases readexactly_cases 8 s with ⟨hnone, hshort⟩ | ⟨s', hsome, hlong, hrest, hless, hend⟩
    · rw [hnone, if_pos (by omega)]
      exact .inl ⟨rfl, rfl⟩
    · rw [hsome, if_neg (by omega), show (u.drop 2).take 8 = s.bytes.take 8 by rw [← hdrop 0]; rfl]
      exact .inr ⟨_, 10, s', rfl, rfl, hrest.trans (hdrop 8), hless, hend⟩
  · rw [if_neg h127, if_neg h127]
    exact .inr ⟨_, 2, s, rfl, rfl, hdrop 0, Nat.le_refl _, rfl⟩

theorem clientStart_two {fast : Bool} {u : Bytes} (h : u.length < 2) : clientStart fast u = .short := by
  rcases u with _ | ⟨b1, _ | ⟨b2, rest⟩⟩
  · rfl
  · rfl
  · simp only [List.length_cons] at h
    omega

theorem nextSlow_comes (hr : r.unread = []) : Comes false r s (nextSlow r s) := by
  have hall : r.unread ++ s.bytes = s.bytes := by rw [hr]; rfl
  unfold nextSlow
  rcases readexactly_cases 2 s with ⟨hnone, hshort⟩ | ⟨s₁, hsome, hlong, hrest₁, hless₁, hend₁⟩
  · rw [hnone]
    exact .raised (by rw [hall]; exact clientStart_two hshort) (.inl rfl)
  rcases hu : s.bytes with _ | ⟨b1, _ | ⟨b2, rest⟩⟩
  · rw [hu] at hlong
    cases hlong
  · rw [hu] at hlong
    exact absurd hlong (Nat.lt_irrefl 1)
  have hstart := @clientStart_cons false _ _ _ _ hu
  rw [hu] at hsome hrest₁
  rw [hsome]
  change s₁.bytes = rest at hrest₁
  dsimp only [List.take]
  rw [show [b1, b2].getD 0 0 = b1 from rfl, show [b1, b2].getD 1 0 = b2 from rfl]
  have hfast : ∀ p : Prop, ¬ ((false = true) ∧ p) := fun p h => Bool.false_ne_true h.1
  by_cases hmask : b2 &&& 0x80 = 0
  · rw [if_pos hmask, if_neg (hfast _)] at hstart
    rw [if_pos hmask]
    exact .protocolError (by rw [hall]; exact hstart)
  rw [if_neg hmask] at hstart ⊢
  rcases readLength_cases (hu.trans (by rw [hrest₁])) (b2 &&& 0x7F).toNat with
    ⟨hlen, hl⟩ | ⟨payloadLen, headerLen, s₂, hlen, hl, hrest₂, hless₂, hend₂⟩
  · rw [hl] at hstart
    rw [hlen]
    exact .raised (by rw [hall]; exact hstart) (.inl rfl)
  rw [hl] at hstart
  rw [hlen]
  dsimp only at hstart ⊢
  rw [if_neg (hfast _)] at hstart
  cases hcheck : checkHeader (b1 &&& 0x0F) (b1 &&& 0x80 ≠ 0) payloadLen with
  | some p =>
    rw [hcheck] at hstart
    exact .protocolError (by rw [hall]; exact hstart)
  | none =>
    rw [hcheck] at hstart
    dsimp only at hstart ⊢
    have hlen₂ : s₂.bytes.length = s.bytes.length - headerLen := by rw [hrest₂, List.length_drop]
    rcases readexactly_cases 4 s₂ with ⟨hnone, hshort⟩ | ⟨s₃, hsome₃, hlong₃, hrest₃, hless₃, hend₃⟩
    · rw [if_pos (by omega)] at hstart
      rw [hnone]
      exact .raised (by rw [hall]; exact hstart) (.inl rfl)
    rw [hsome₃]
    dsimp only
    have hlen₃ : s₃.bytes.length = s.bytes.length - headerLen - 4 := by rw [hrest₃, List.length_drop, hlen₂]
    rcases readexactly_cases payloadLen s₃ with ⟨hnone, hshort⟩ | ⟨s₄, hsome₄, hlong₄, hrest₄, hless₄, hend₄⟩
    · rw [if_pos (by omega)] at hstart
      rw [hnone]
      exact .raised (by rw [hall]; exact hstart) (.inl rfl)
    rw [hsome₄, hrest₃, hrest₂, List.drop_drop]
    rw [if_neg (by omega)] at hstart
    refine .frame (by rw [hall]; exact hstart) ?_ (by omega) ⟨rfl, by rw [hend₄, hend₃, hend₂, hend₁]⟩ fun _ => rfl
    rw [hall, hr, hrest₄, hrest₃, hrest₂, List.drop_drop, List.drop_drop, Nat.add_assoc]
    rfl

/-- What a round of the loop comes to. -/
theorem nextFrame_comes {fast : Bool} (hr : fast = false → r.unread = []) : Comes fast r s (nextFrame fast r s) := by
  cases fast with
  | true => exact nextFast_comes
  | false => exact nextSlow_comes (hr rfl)

/-! ## The frames that pass -/

/-- The messages that events come to. -/
def toldOf : List Event → List Inbound
  | [] => []
  | .message opcode _ payload :: evs =>
    (if opcode = 0x1 then ((fromUtf8 payload).map Inbound.text).toList
      else if opcode = 0x2 then [.bytes payload] else []) ++ toldOf evs
  | _ :: evs => toldOf evs

theorem toldOf_append (evs evs' : List Event) : toldOf (evs ++ evs') = toldOf evs ++ toldOf evs' := by
  induction evs with
  | nil => rfl
  | cons e evs ih =>
    cases e with
    | message opcode fin payload =>
      show _ ++ toldOf (evs ++ evs') = _ ++ toldOf evs ++ toldOf evs'
      rw [ih, List.append_assoc]
    | _ => exact ih

/-- A frame passes: it is accepted, it does not close the connection and its
message has no more bytes than a message may have. -/
def Admits (f : Reassembly) (opcode : UInt8) (fin : Bool) (payload : Bytes) (f' : Reassembly) (evs : List Event) :
    Prop :=
  f.accept opcode fin payload = some (f', evs) ∧ opcode ≠ 0x8 ∧
    (opcode = 0x0 → f.payload.length + payload.length ≤ maxWsMessageSize)

/-- The frames at which the end is told: a close frame, and a frame that makes
its message too long or completes a text that is not UTF-8. -/
def TellsEnd (f : Reassembly) (opcode : UInt8) (fin : Bool) (payload : Bytes) : Prop :=
  opcode = 0x8 ∨
  opcode = 0x0 ∧ f.opcode ≠ 0 ∧ (maxWsMessageSize < f.payload.length + payload.length ∨
    fin = true ∧ f.opcode = 0x1 ∧ fromUtf8 (f.payload ++ payload) = none) ∨
  opcode = 0x1 ∧ f.opcode = 0 ∧ fin = true ∧ fromUtf8 payload = none

instance {f : Reassembly} {opcode : UInt8} {fin : Bool} {payload : Bytes} :
    Decidable (TellsEnd f opcode fin payload) := by
  unfold TellsEnd
  infer_instance

variable {fast : Bool} {f f' f'' : Reassembly} {u rest rest' : Bytes} {evs evs' : List Event} {opcode : UInt8}
  {fin : Bool} {payload : Bytes}

/-- What a frame whose header has been checked comes to. -/
inductive Handled (f : Reassembly) (opcode : UInt8) (fin : Bool) (payload : Bytes) : Reaction → Prop
  | goOn {f' : Reassembly} {evs : List Event} (h : Admits f opcode fin payload f' evs) :
      Handled f opcode fin payload (.goOn f' (toldOf evs))
  | pong {evs : List Event} (h : Admits f opcode fin payload f evs) (hnone : toldOf evs = []) :
      Handled f opcode fin payload (.pong payload)
  | protocolError (code : Nat) (reason : String) (haccept : f.accept opcode fin payload = none)
      (hend : ¬ TellsEnd f opcode fin payload) : Handled f opcode fin payload (.protocolError code reason)
  | refuse (code : Nat) (reason : String) (hend : TellsEnd f opcode fin payload) :
      Handled f opcode fin payload (.refuse code reason)
  | close (hend : opcode = 0x8) : Handled f opcode fin payload (.close payload)

/-- Where the end is told no frame passes. -/
theorem TellsEnd.not_admits (h : TellsEnd f opcode fin payload) : ¬ Admits f opcode fin payload f' evs := by
  rintro ⟨haccept, hopen, hsize⟩
  unfold Reassembly.accept at haccept
  rcases h with rfl | ⟨rfl, hbegun, hlong | ⟨hfin, htext, hutf⟩⟩ | ⟨rfl, hfree, hfin, hutf⟩
  · exact hopen rfl
  · have hle := hsize rfl
    omega
  · rw [if_neg (by decide), if_neg (by decide), if_pos rfl, if_neg hbegun, if_pos hfin, if_pos ⟨htext, hutf⟩] at haccept
    cases haccept
  · rw [if_neg (by decide), if_pos (.inl rfl), if_neg (not_not.2 hfree), if_pos hfin, if_pos ⟨rfl, hutf⟩] at haccept
    cases haccept

theorem checkHeader_none {payloadLen : Nat} (h : checkHeader opcode fin payloadLen = none) :
    ¬ (0x8 ≤ opcode ∧ (125 < payloadLen ∨ ¬ fin)) ∧ payloadLen ≤ maxWsFrameSize := by
  unfold checkHeader at h
  split at h
  · cases h
  · rename_i hcontrol
    split at h
    · cases h
    · rename_i hsize
      exact ⟨hcontrol, Nat.not_lt.1 hsize⟩

/-- The message that a completed one is told as. -/
theorem toldOf_message (opcode : UInt8) (fin : Bool) (payload : Bytes) :
    toldOf [.message opcode fin payload] =
      if opcode = 0x1 then ((fromUtf8 payload).map Inbound.text).toList
      else if opcode = 0x2 then [.bytes payload] else [] :=
  List.append_nil _

/-- A continuation. -/
theorem handleFrame_continuation : Handled f 0x0 fin payload (handleFrame f 0x0 fin payload) := by
  unfold handleFrame
  rw [if_pos rfl]
  by_cases hbegun : f.opcode = 0
  · rw [if_pos hbegun]
    refine .protocolError _ _ (by simp [Reassembly.accept, hbegun]) ?_
    rintro (h | ⟨-, h, -⟩ | ⟨h, -⟩)
    · exact absurd h (by decide)
    · exact h hbegun
    · exact absurd h (by decide)
  rw [if_neg hbegun]
  by_cases hlong : maxWsMessageSize < f.payload.length + payload.length
  · rw [if_pos hlong]
    exact .refuse _ _ (.inr (.inl ⟨rfl, hbegun, .inl hlong⟩))
  have hadmits : ∀ f' evs, f.accept 0x0 fin payload = some (f', evs) → Admits f 0x0 fin payload f' evs :=
    fun f' evs h => ⟨h, by decide, fun _ => Nat.not_lt.1 hlong⟩
  rw [if_neg hlong]
  dsimp only
  by_cases hfin : fin = true
  · rw [if_pos hfin]
    by_cases htext : f.opcode = 0x1
    · rw [if_pos htext]
      cases hutf : fromUtf8 (f.payload ++ payload) with
      | none => exact .refuse _ _ (.inr (.inl ⟨rfl, hbegun, .inr ⟨hfin, htext, hutf⟩⟩))
      | some text =>
        have hsome := hadmits .nothing [.message f.opcode fin (f.payload ++ payload)] (by
          simp [Reassembly.accept, hfin, htext, hutf])
        have hgo := Handled.goOn hsome
        rw [toldOf_message, if_pos htext, hutf] at hgo
        exact hgo
    · have hsome := hadmits .nothing [.message f.opcode fin (f.payload ++ payload)] (by
        simp [Reassembly.accept, hbegun, hfin, htext])
      have hgo := Handled.goOn hsome
      rw [toldOf_message, if_neg htext] at hgo
      rw [if_neg htext]
      by_cases hbinary : f.opcode = 0x2
      · rw [if_pos hbinary] at hgo ⊢
        exact hgo
      · rw [if_neg hbinary] at hgo ⊢
        exact hgo
  · rw [if_neg hfin]
    exact @Handled.goOn _ _ _ _ _ [] (hadmits _ _ (by simp [Reassembly.accept, hbegun, hfin]))

/-- The first frame of a message. -/
theorem handleFrame_data (hcheck : checkHeader opcode fin payload.length = none) (hdata : opcode = 0x1 ∨ opcode = 0x2) :
    Handled f opcode fin payload (handleFrame f opcode fin payload) := by
  have hzero : opcode ≠ 0x0 := by rcases hdata with rfl | rfl <;> decide
  have hcontrol : ¬ 0x8 ≤ opcode := by rcases hdata with rfl | rfl <;> decide
  have hclose : opcode ≠ 0x8 := by rcases hdata with rfl | rfl <;> decide
  unfold handleFrame
  rw [if_neg hzero, if_pos hdata]
  by_cases hbegun : f.opcode ≠ 0
  · rw [if_pos hbegun]
    refine .protocolError _ _ (by simp [Reassembly.accept, hcontrol, hdata, hbegun]) ?_
    rintro (h | ⟨h, -⟩ | ⟨-, h, -⟩)
    · exact hclose h
    · exact hzero h
    · exact hbegun h
  rw [if_neg hbegun]
  have hfree := not_not.1 hbegun
  have hadmits : ∀ f' evs, f.accept opcode fin payload = some (f', evs) → Admits f opcode fin payload f' evs :=
    fun f' evs h => ⟨h, hclose, fun h0 => absurd h0 hzero⟩
  by_cases hfin : fin = true
  · rw [if_pos hfin]
    by_cases htext : opcode = 0x1
    · rw [if_pos htext]
      cases hutf : fromUtf8 payload with
      | none => exact .refuse _ _ (.inr (.inr ⟨htext, hfree, hfin, hutf⟩))
      | some text =>
        have hsome := hadmits f [.message opcode fin payload] (by
          simp [Reassembly.accept, hfree, hfin, htext, hutf])
        have hgo := Handled.goOn hsome
        rw [toldOf_message, if_pos htext, hutf] at hgo
        exact hgo
    · have hbinary : opcode = 0x2 := hdata.resolve_left htext
      have hsome := hadmits f [.message opcode fin payload] (by
        simp [Reassembly.accept, hfree, hfin, hbinary])
      have hgo := Handled.goOn hsome
      rw [toldOf_message, if_neg htext, if_pos hbinary] at hgo
      rw [if_neg htext]
      exact hgo
  · have hshort : ¬ maxWsMessageSize < payload.length := by
      have hsize := (checkHeader_none hcheck).2
      unfold maxWsFrameSize at hsize
      unfold maxWsMessageSize
      omega
    rw [if_neg hfin, if_neg hshort]
    exact @Handled.goOn _ _ _ _ _ [] (hadmits _ _ (by simp [Reassembly.accept, hcontrol, hdata, hfree, hfin]))

/-- A control frame, or one with an opcode that nothing is done for. -/
theorem handleFrame_control (hcheck : checkHeader opcode fin payload.length = none) (hzero : opcode ≠ 0x0)
    (hdata : ¬ (opcode = 0x1 ∨ opcode = 0x2)) : Handled f opcode fin payload (handleFrame f opcode fin payload) := by
  unfold handleFrame
  rw [if_neg hzero, if_neg hdata]
  obtain ⟨evs, haccept, hnone⟩ : ∃ evs, f.accept opcode fin payload = some (f, evs) ∧ toldOf evs = [] := by
    unfold Reassembly.accept
    by_cases hcontrol : opcode ≥ 0x8
    · have hlegal : ¬ (payload.length > 125 ∨ ¬ fin = true) := fun h => (checkHeader_none hcheck).1 ⟨hcontrol, h⟩
      rw [if_pos hcontrol, if_neg hlegal]
      refine ⟨_, rfl, ?_⟩
      rw [toldOf_message, if_neg fun h => hdata (.inl h), if_neg fun h => hdata (.inr h)]
    · rw [if_neg hcontrol, if_neg hdata, if_neg hzero]
      exact ⟨[], rfl, rfl⟩
  by_cases hping : opcode = 0x9
  · rw [if_pos hping]
    exact .pong ⟨haccept, by rw [hping]; decide, fun h0 => absurd h0 hzero⟩ hnone
  rw [if_neg hping]
  by_cases hclose : opcode = 0x8
  · rw [if_pos hclose]
    exact .close hclose
  · rw [if_neg hclose]
    have hgo := Handled.goOn (f := f) ⟨haccept, hclose, fun h0 => absurd h0 hzero⟩
    rw [hnone] at hgo
    exact hgo

theorem handleFrame_handled (hcheck : checkHeader opcode fin payload.length = none) :
    Handled f opcode fin payload (handleFrame f opcode fin payload) := by
  by_cases hzero : opcode = 0x0
  · subst hzero
    exact handleFrame_continuation
  by_cases hdata : opcode = 0x1 ∨ opcode = 0x2
  · exact handleFrame_data hcheck hdata
  · exact handleFrame_control hcheck hzero hdata

/-! ## The frames up to the end -/

/-- The bytes begin with frames that pass, one after the other, up to `rest`. -/
inductive Passes : Reassembly → Bytes → List Event → Reassembly → Bytes → Prop
  | done {f : Reassembly} {u : Bytes} : Passes f u [] f u
  | frame {f f' f'' : Reassembly} {u rest : Bytes} {evs evs' : List Event} {opcode : UInt8} {fin : Bool}
      {payload : Bytes} {size : Nat} (hfirst : firstFrame u = .frame opcode fin payload size)
      (hcheck : checkHeader opcode fin payload.length = none) (hpass : Admits f opcode fin payload f' evs)
      (h : Passes f' (u.drop size) evs' f'' rest) : Passes f u (evs ++ evs') f'' rest

/-- No frame passes. -/
def Halts (f : Reassembly) (rest : Bytes) : Prop :=
  ∀ opcode fin payload size, firstFrame rest = .frame opcode fin payload size →
    checkHeader opcode fin payload.length = none → ∀ f' evs, ¬ Admits f opcode fin payload f' evs

/-- The end is told: at a frame that tells it, or where the stream ends within a
frame and that is an exception. -/
def ToldEnd (fast : Bool) (ending : StreamEnd) (f : Reassembly) (rest : Bytes) : Prop :=
  match clientStart fast rest with
  | .short => fast = false ∨ ending = .failed
  | .protocolError _ _ => False
  | .frame opcode fin payload _ => TellsEnd f opcode fin payload

variable {ending : StreamEnd}

instance : Decidable (ToldEnd fast ending f rest) := by
  unfold ToldEnd
  split <;> infer_instance

theorem Admits.unique {f₁ f₂ : Reassembly} {evs₁ evs₂ : List Event} (h₁ : Admits f opcode fin payload f₁ evs₁)
    (h₂ : Admits f opcode fin payload f₂ evs₂) : f₁ = f₂ ∧ evs₁ = evs₂ := by
  have heq := h₁.1.symm.trans h₂.1
  cases heq
  exact ⟨rfl, rfl⟩

/-- Frames pass in one way up to where none does. -/
theorem Passes.unique (h : Passes f u evs f' rest) (hhalt : Halts f' rest) (h' : Passes f u evs' f'' rest')
    (hhalt' : Halts f'' rest') : evs = evs' ∧ f' = f'' ∧ rest = rest' := by
  induction h generalizing evs' with
  | done =>
    cases h' with
    | done => exact ⟨rfl, rfl, rfl⟩
    | frame hfirst hcheck hpass _ => exact absurd hpass (hhalt _ _ _ _ hfirst hcheck _ _)
  | frame hfirst hcheck hpass _ ih =>
    cases h' with
    | done => exact absurd hpass (hhalt' _ _ _ _ hfirst hcheck _ _)
    | frame hfirst' _ hpass' hrest' =>
      rw [hfirst] at hfirst'
      injection hfirst' with hop hfin hpayload hsize
      subst hop hfin hpayload hsize
      obtain ⟨rfl, rfl⟩ := hpass.unique hpass'
      obtain ⟨hevs, hf, hrest⟩ := ih hhalt hrest'
      exact ⟨by rw [hevs], hf, hrest⟩

theorem Halts.of_start (h : ∀ opcode fin payload size, clientStart fast rest ≠ .frame opcode fin payload size) :
    Halts f rest :=
  fun opcode fin payload size hfirst hcheck => absurd (clientStart_frame.2 ⟨hfirst, hcheck⟩) (h opcode fin payload size)

theorem Halts.of_frame {size : Nat} (hframe : clientStart fast rest = .frame opcode fin payload size)
    (hno : ∀ f' evs, ¬ Admits f opcode fin payload f' evs) : Halts f rest := by
  intro opcode' fin' payload' size' hfirst _
  rw [(clientStart_frame.1 hframe).1] at hfirst
  injection hfirst with hop hfin hpayload hsize
  subst hop hfin hpayload hsize
  exact hno

theorem Halts.of_told (h : ToldEnd fast ending f rest) : Halts f rest := by
  intro opcode fin payload size hfirst hcheck f' evs
  unfold ToldEnd at h
  rw [clientStart_frame.2 ⟨hfirst, hcheck⟩] at h
  exact h.not_admits

def Inbound.IsData : Inbound → Prop
  | .disconnect _ => False
  | _ => True

instance : DecidablePred Inbound.IsData := fun m => by
  cases m <;> unfold Inbound.IsData <;> infer_instance

theorem toldOf_data (evs : List Event) : ∀ m ∈ toldOf evs, m.IsData := by
  induction evs with
  | nil => exact fun m hm => absurd hm List.not_mem_nil
  | cons e evs ih =>
    cases e with
    | message opcode fin payload =>
      intro m hm
      rcases List.mem_append.1 hm with hm | hm
      · split at hm
        · obtain ⟨text, -, rfl⟩ := Option.map_eq_some_iff.1 (Option.mem_toList.1 hm)
          trivial
        · split at hm
          · rw [List.mem_singleton.1 hm]
            trivial
          · exact absurd hm List.not_mem_nil
      · exact ih m hm
    | _ => exact ih

/-! ## The loop -/

/-- What the reader has done when it returns: it has let frames pass and told
what they say, and it has told the end or not. -/
def Returned (fast : Bool) (ending : StreamEnd) (f : Reassembly) (u : Bytes) (c c' : WebSocketConnection) : Prop :=
  ∃ evs f' rest, Passes f u evs f' rest ∧ Halts f' rest ∧
    (ToldEnd fast ending f' rest ∧ (∃ code, c'.inbound = c.inbound ++ toldOf evs ++ [.disconnect code]) ∧
        c'.closedEvent = true ∨
      ¬ ToldEnd fast ending f' rest ∧ c'.inbound = c.inbound ++ toldOf evs ∧ c'.closedEvent = false)

variable {c c' : WebSocketConnection}

theorem Returned.silent (hhalt : Halts f u) (hend : ¬ ToldEnd fast ending f u) (hin : c'.inbound = c.inbound)
    (hclosed : c'.closedEvent = false) : Returned fast ending f u c c' :=
  ⟨[], f, u, .done, hhalt, .inr ⟨hend, hin.trans (List.append_nil _).symm, hclosed⟩⟩

theorem Returned.ended {code : Nat} (hend : ToldEnd fast ending f u)
    (hin : c'.inbound = c.inbound ++ [.disconnect code]) (hclosed : c'.closedEvent = true) :
    Returned fast ending f u c c' := by
  refine ⟨[], f, u, .done, .of_told hend, .inl ⟨hend, ⟨code, ?_⟩, hclosed⟩⟩
  rw [hin]
  show _ = c.inbound ++ [] ++ _
  rw [List.append_nil]

/-- A frame passes, and then the rest is read. -/
theorem Returned.frame {size : Nat} {c₁ : WebSocketConnection}
    (hframe : clientStart fast u = .frame opcode fin payload size) (hpass : Admits f opcode fin payload f' evs)
    (hin : c₁.inbound = c.inbound ++ toldOf evs) (h : Returned fast ending f' (u.drop size) c₁ c') :
    Returned fast ending f u c c' := by
  obtain ⟨hfirst, hcheck⟩ := clientStart_frame.1 hframe
  obtain ⟨evs', f₂, rest, hpasses, hhalt, hend⟩ := h
  refine ⟨evs ++ evs', f₂, rest, .frame hfirst hcheck hpass hpasses, hhalt, ?_⟩
  rw [hin] at hend
  rw [toldOf_append, ← List.append_assoc]
  exact hend

/-- The rounds of the loop, whatever the chunks. -/
theorem readerLoop_returns {fuel : Nat} (hclosed : c.closedEvent = false) (hr : fast = false → r.unread = [])
    (hfuel : (r.unread ++ s.bytes).length + s.chunks.length < fuel) :
    ∃ c', readerLoop fast fuel r s c = some c' ∧ Returned fast s.ending r.fragments (r.unread ++ s.bytes) c c' := by
  induction fuel generalizing r s c with
  | zero => exact absurd hfuel (Nat.not_lt_zero _)
  | succ fuel ih =>
    have hround := nextFrame_comes (s := s) hr
    unfold readerLoop
    rw [if_neg (ne_true_of_eq_false hclosed)]
    generalize nextFrame fast r s = next at hround
    cases hround with
    | again hfast hrest hless hsame =>
      obtain ⟨c', hloop, hret⟩ := ih hclosed (fun hslow => by rw [hfast] at hslow; cases hslow) (by rw [hrest]; omega)
      rw [hrest, hsame.1, hsame.2] at hret
      exact ⟨c', hloop, hret⟩
    | stop hshort hfast hend =>
      have hhalt : Halts r.fragments (r.unread ++ s.bytes) :=
        Halts.of_start (by rw [hshort]; exact fun _ _ _ _ => ClientStart.noConfusion)
      refine ⟨c, rfl, .silent hhalt ?_ rfl hclosed⟩
      unfold ToldEnd
      rw [hshort, hfast]
      exact fun h => h.elim (fun h => by cases h) hend
    | raised hshort hend =>
      refine ⟨_, rfl, .ended ?_ rfl rfl⟩
      unfold ToldEnd
      rw [hshort]
      exact hend
    | protocolError herror =>
      have hhalt : Halts r.fragments (r.unread ++ s.bytes) :=
        Halts.of_start (by rw [herror]; exact fun _ _ _ _ => ClientStart.noConfusion)
      refine ⟨_, rfl, .silent hhalt ?_ rfl hclosed⟩
      unfold ToldEnd
      rw [herror]
      exact id
    | @frame opcode fin payload size r' s' hframe hrest hle hsame hslow =>
      obtain ⟨hfirst, hcheck⟩ := clientStart_frame.1 hframe
      have hsize := firstFrame_size hfirst
      have hslow' : fast = false → r'.unread = [] := fun h => (hslow h).trans (hr h)
      have hless : (r'.unread ++ s'.bytes).length + s'.chunks.length < fuel := by
        rw [hrest, List.length_drop]
        omega
      have hend : ToldEnd fast s.ending r.fragments (r.unread ++ s.bytes) =
          TellsEnd r.fragments opcode fin payload := by
        unfold ToldEnd
        rw [hframe]
      have hhandled := @handleFrame_handled r.fragments opcode fin payload hcheck
      dsimp only
      rw [hsame.1]
      generalize handleFrame r.fragments opcode fin payload = reaction at hhandled
      cases hhandled with
      | @goOn f' evs hadmits =>
        obtain ⟨c', hloop, hret⟩ :=
          @ih { r' with fragments := f' } s' { c with inbound := c.inbound ++ toldOf evs } hclosed hslow' hless
        change Returned fast s'.ending f' (r'.unread ++ s'.bytes) _ _ at hret
        rw [hrest, hsame.2] at hret
        exact ⟨c', hloop, .frame hframe hadmits rfl hret⟩
      | @pong evs hadmits hnone =>
        obtain ⟨c', hloop, hret⟩ := @ih r' s' (c.sendFrame 0xA payload) hclosed hslow' hless
        rw [hrest, hsame.1, hsame.2] at hret
        exact ⟨c', hloop, .frame hframe hadmits (by rw [hnone, List.append_nil]; rfl) hret⟩
      | protocolError code reason haccept hno =>
        have hhalt : Halts r.fragments (r.unread ++ s.bytes) :=
          .of_frame hframe fun f' evs h => Option.some_ne_none _ (h.1.symm.trans haccept)
        exact ⟨_, rfl, .silent hhalt (hend ▸ hno) rfl hclosed⟩
      | refuse code reason htells => exact ⟨_, rfl, .ended (hend ▸ htells) rfl rfl⟩
      | close hclose =>
        have hin : (c.closeReceived payload).inbound =
            c.inbound ++ [.disconnect (WebSocketConnection.closeCode payload)] := by
          unfold WebSocketConnection.closeReceived
          split <;> rfl
        exact ⟨_, rfl, .ended (hend ▸ .inl hclose) hin rfl⟩

/-- The reader returns, having read the client's bytes up to where no frame
passes. -/
theorem readClient_returns (fast : Bool) (state : WebSocketState) (s : StreamReader) :
    ∃ c, readClient fast state s = some c ∧ Returned fast s.ending .nothing s.bytes (.accepted state) c := by
  have hfuel : (Reader.new.unread ++ s.bytes).length + s.chunks.length < s.enough := Nat.lt_succ_self _
  exact readerLoop_returns rfl (fun _ => rfl) hfuel

end Multiloop.Http
