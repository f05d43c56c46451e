import Multiloop.Framework.Preallocated
import Multiloop.Http.Response
import Multiloop.Http.WebSocket

/-!
# Filling the output

`format_response`, `format_chunk` and `format_ws_frame` of `http.rs` write into a
new object whose length they add up before. Here the sum and the copies are as
they are written, each with its own conditions; `Response.lean` has what the
copies are together. A copy that is out of range panics.
-/

namespace Multiloop.Http

/-! ## The model -/

/-- A new object of the length that was added up, and the copies into it: the
cursor after them, and the bytes. -/
def newWithCopies (m : Arith) (totalLen : Except Fault Nat) (srcs : List Bytes) : Except Fault (Nat × Cells UInt8) :=
  totalLen.bind fun total => copies m srcs 0 (List.replicate total none)

/-- A copy that is made unless the source is empty. -/
def unlessEmpty (src : Bytes) : List Bytes := if src = [] then [] else [src]

/-- What `format_response` writes. -/
structure ResponseParts where
  statusBytes : Bytes
  sHdr : Bytes
  dHdr : Bytes
  parsedHeaders : List Header
  injectedCl : Bytes
  injectedTe : Bytes
  injectedConn : Bytes
  isNoBodyStatus : Bool
  isRespChunked : Bool
  moreBody : Bool
  body : Bytes
  chunkPrefix : Bytes
  chunkSuffix : Bytes

def responseParts (statusCode : Nat) (serverHeader dateHeader : Bytes) (headers : List Header) (body : Bytes)
    (moreBody isNoBodyStatus keepAlive : Bool) : ResponseParts :=
  let hasCl := hasField "content-length" headers
  let isRespChunked := !isNoBodyStatus && moreBody && !hasCl
  let chunked := !isNoBodyStatus && isRespChunked && body ≠ []
  { statusBytes := bytes "HTTP/1.1 " ++ decimal statusCode ++ bytes " " ++ reason statusCode ++ crlf
    sHdr := if hasField "server" headers then [] else serverHeader
    dHdr := if hasField "date" headers then [] else dateHeader
    parsedHeaders := headers
    injectedCl :=
      if isNoBodyStatus ∨ moreBody ∨ hasCl then []
      else bytes "content-length: " ++ decimal body.length ++ crlf
    injectedTe := if isRespChunked then bytes "transfer-encoding: chunked\r\n" else []
    injectedConn :=
      if hasField "connection" headers then []
      else if keepAlive && !asksClose headers then bytes "connection: keep-alive\r\n"
      else bytes "connection: close\r\n"
    isNoBodyStatus := isNoBodyStatus
    isRespChunked := isRespChunked
    moreBody := moreBody
    body := body
    chunkPrefix := if chunked then upperHex body.length ++ crlf else []
    chunkSuffix := if chunked then crlf else [] }

namespace ResponseParts

variable (m : Arith) (p : ResponseParts)

/-- What a header field adds to the length. -/
def fieldLen (h : Header) : Except Fault Nat := addAll m [2, h.value.length, 2] h.name.length

def totalLen : Except Fault Nat := do
  let total ← addAll m [p.sHdr.length, p.dHdr.length, p.injectedCl.length, p.injectedTe.length,
    p.injectedConn.length, 2] p.statusBytes.length
  let total ← p.parsedHeaders.foldlM (fun total h => (fieldLen m h).bind (m.add total)) total
  if p.isNoBodyStatus then return total
  else if p.isRespChunked then
    let more ← addAll m [p.body.length, p.chunkSuffix.length] p.chunkPrefix.length
    let total ← m.add total more
    if p.moreBody then return total else m.add total 5
  else m.add total p.body.length

/-- The copies behind the head. -/
def bodyCopies : List Bytes :=
  if p.isNoBodyStatus then []
  else if p.isRespChunked then
    (if p.body = [] then [] else [p.chunkPrefix, p.body, p.chunkSuffix]) ++
      (if p.moreBody then [] else [bytes "0\r\n\r\n"])
  else unlessEmpty p.body

/-- The copies of a header field. -/
def fieldAppends (h : Header) : List Bytes := [h.name, bytes ": ", h.value, crlf]

/-- The calls of `append`, in their order. -/
def appends : List Bytes :=
  [p.statusBytes] ++ unlessEmpty p.sHdr ++ unlessEmpty p.dHdr ++
    p.parsedHeaders.flatMap fieldAppends ++
    unlessEmpty p.injectedCl ++ unlessEmpty p.injectedTe ++ unlessEmpty p.injectedConn ++ [crlf] ++ p.bodyCopies

def fill : Except Fault (Nat × Cells UInt8) := newWithCopies m (p.totalLen m) p.appends

end ResponseParts

/-- `format_chunk`. -/
def fillChunk (m : Arith) (chunk : Bytes) (moreBody : Bool) : Except Fault (Nat × Cells UInt8) :=
  let chunkPrefix := if chunk = [] then [] else upperHex chunk.length ++ crlf
  let suffix := if chunk = [] then [] else crlf
  let totalLen : Except Fault Nat := do
    let total ← if chunk = [] then pure 0
      else (addAll m [chunk.length, suffix.length] chunkPrefix.length).bind (m.add 0)
    if moreBody then return total else m.add total 5
  newWithCopies m totalLen
    ((if chunk = [] then [] else [chunkPrefix, chunk, suffix]) ++ (if moreBody then [] else [bytes "0\r\n\r\n"]))

/-- The header of a frame. -/
def wsHeader (opcode : UInt8) (len : Nat) : Bytes :=
  (0x80 ||| (opcode &&& 0x0F)) ::
    (if len < 126 then [UInt8.ofNat len]
      else if len ≤ 0xFFFF then 126 :: toBeBytes 2 len
      else 127 :: toBeBytes 8 len)

/-- `format_ws_frame`: one copy up to the end of the header, and one from there
on. -/
def fillWsFrame (m : Arith) (opcode : UInt8) (payload : Bytes) : Except Fault (Cells UInt8) := do
  let header := wsHeader opcode payload.length
  let total ← m.add header.length payload.length
  let out ← copyTo (List.replicate total none) 0 header.length header
  copyTo out header.length out.length payload

/-! ## Lengths -/

theorem flatten_unlessEmpty (src : Bytes) : (unlessEmpty src).flatten = src := by
  unfold unlessEmpty
  split
  · rename_i hnil
    exact hnil.symm
  · exact List.append_nil src

/-- If the length that is added up is the one of all copies together, these fill
the object. -/
theorem newWithCopies_exact (m : Arith) {totalLen : Except Fault Nat} {srcs : List Bytes}
    (hlen : srcs.flatten.length < usizeEnd) (htotal : totalLen = .ok srcs.flatten.length) :
    newWithCopies m totalLen srcs = .ok (srcs.flatten.length, srcs.flatten.map some) := by
  rw [htotal]
  exact copies_exact m hlen

namespace ResponseParts

variable (m : Arith) {p : ResponseParts}

/-- The length of the lines of header fields. -/
def fieldsLen (hs : List Header) : Nat := (hs.map fun h => h.name.length + (2 + (h.value.length + 2))).sum

theorem length_fields (hs : List Header) : (hs.flatMap fieldAppends).flatten.length = fieldsLen hs := by
  induction hs with
  | nil => rfl
  | cons h hs ih =>
    have hline : (fieldAppends h).flatten.length = h.name.length + (2 + (h.value.length + 2)) := by
      unfold fieldAppends
      simp only [List.flatten_cons, List.flatten_nil, List.append_nil, List.length_append]
      rfl
    rw [List.flatMap_cons, List.flatten_append, List.length_append, ih, hline]
    rfl

theorem flatten_fields (hs : List Header) : (hs.flatMap fieldAppends).flatten = headerLines hs := by
  induction hs with
  | nil => rfl
  | cons h hs ih =>
    have hline : (fieldAppends h).flatten = h.line ++ crlf := by
      unfold fieldAppends Header.line
      simp only [List.flatten_cons, List.flatten_nil, List.append_nil, List.append_assoc]
    rw [List.flatMap_cons, List.flatten_append, ih, hline]
    rfl

theorem addFields_of_lt {hs : List Header} {total : Nat} (h : total + fieldsLen hs < usizeEnd) :
    hs.foldlM (fun total h => (fieldLen m h).bind (m.add total)) total = .ok (total + fieldsLen hs) := by
  induction hs generalizing total with
  | nil => rfl
  | cons x hs ih =>
    have hcons : fieldsLen (x :: hs) = x.name.length + (2 + (x.value.length + 2)) + fieldsLen hs := rfl
    rw [hcons] at h ⊢
    have hfield : fieldLen m x = .ok (x.name.length + (2 + (x.value.length + 2))) :=
      addAll_of_lt m (by simp only [List.sum_cons, List.sum_nil]; omega)
    generalize x.name.length + (2 + (x.value.length + 2)) = n at h hfield ⊢
    have hrest := @ih (total + n) (by omega)
    rw [List.foldlM_cons, hfield]
    show (m.add total n).bind _ = _
    rw [Arith.add_of_lt (by omega), ← Nat.add_assoc]
    exact hrest

/-- How long the copies behind the head are. -/
def bodyLen (p : ResponseParts) : Nat :=
  if p.isNoBodyStatus then 0
  else if p.isRespChunked then
    p.chunkPrefix.length + (p.body.length + p.chunkSuffix.length) + if p.moreBody then 0 else 5
  else p.body.length

/-- An empty body has no chunk. -/
def ChunkOfBody (p : ResponseParts) : Prop := p.body = [] → p.chunkPrefix = [] ∧ p.chunkSuffix = []

theorem length_bodyCopies (h : p.ChunkOfBody) : p.bodyCopies.flatten.length = p.bodyLen := by
  unfold bodyCopies bodyLen
  split
  · rfl
  split
  · rw [List.flatten_append, List.length_append]
    congr 1
    · split
      · rename_i hnil
        rw [(h hnil).1, (h hnil).2, hnil]
        rfl
      · simp only [List.flatten_cons, List.flatten_nil, List.append_nil, List.length_append]
    · split
      · rfl
      · rfl
  · rw [flatten_unlessEmpty]

theorem length_appends (h : p.ChunkOfBody) : p.appends.flatten.length =
    p.statusBytes.length + (p.sHdr.length + (p.dHdr.length + (p.injectedCl.length + (p.injectedTe.length +
      (p.injectedConn.length + 2))))) + fieldsLen p.parsedHeaders + p.bodyLen := by
  unfold appends
  simp only [List.flatten_append, List.length_append, flatten_unlessEmpty, length_fields, length_bodyCopies h,
    List.flatten_cons, List.flatten_nil, List.append_nil]
  have hcrlf : crlf.length = 2 := rfl
  omega

/-- The sum is the length of all copies. -/
theorem totalLen_eq (h : p.ChunkOfBody) (hlen : p.appends.flatten.length < usizeEnd) :
    p.totalLen m = .ok p.appends.flatten.length := by
  rw [length_appends h] at hlen ⊢
  have hhead : addAll m [p.sHdr.length, p.dHdr.length, p.injectedCl.length, p.injectedTe.length,
      p.injectedConn.length, 2] p.statusBytes.length = .ok (p.statusBytes.length + (p.sHdr.length + (p.dHdr.length +
      (p.injectedCl.length + (p.injectedTe.length + (p.injectedConn.length + 2)))))) :=
    addAll_of_lt m (by simp only [List.sum_cons, List.sum_nil]; omega)
  generalize p.statusBytes.length + (p.sHdr.length + (p.dHdr.length + (p.injectedCl.length + (p.injectedTe.length +
    (p.injectedConn.length + 2))))) = head at hhead hlen ⊢
  unfold totalLen
  rw [hhead, ok_bind, addFields_of_lt m (by omega), ok_bind]
  generalize head + fieldsLen p.parsedHeaders = total at hlen ⊢
  unfold bodyLen at hlen ⊢
  split
  · rfl
  split
  · rename_i hbody hchunked
    rw [if_neg hbody, if_pos hchunked] at hlen
    have hmore : addAll m [p.body.length, p.chunkSuffix.length] p.chunkPrefix.length =
        .ok (p.chunkPrefix.length + (p.body.length + p.chunkSuffix.length)) :=
      addAll_of_lt m (by simp only [List.sum_cons, List.sum_nil]; omega)
    generalize p.chunkPrefix.length + (p.body.length + p.chunkSuffix.length) = more at hmore hlen ⊢
    rw [hmore, ok_bind, Arith.add_of_lt (by omega), ok_bind]
    split
    · rfl
    · rename_i hlast
      rw [if_neg hlast] at hlen
      rw [Arith.add_of_lt (by omega), Nat.add_assoc]
  · rename_i hbody hplain
    rw [if_neg hbody, if_neg hplain] at hlen
    exact Arith.add_of_lt hlen

/-- The copies of `format_response` fill its object. -/
theorem fill_exact (h : p.ChunkOfBody) (hlen : p.appends.flatten.length < usizeEnd) :
    p.fill m = .ok (p.appends.flatten.length, p.appends.flatten.map some) :=
  newWithCopies_exact m hlen (totalLen_eq m h hlen)

end ResponseParts

/-! ## What is written -/

section

variable (m : Arith)

theorem chunkOfBody_responseParts (statusCode : Nat) (serverHeader dateHeader : Bytes) (headers : List Header)
    (body : Bytes) (moreBody isNoBodyStatus keepAlive : Bool) :
    (responseParts statusCode serverHeader dateHeader headers body moreBody isNoBodyStatus keepAlive).ChunkOfBody := by
  intro hnil
  change body = [] at hnil
  have hno : ∀ b : Bool, (b && decide (body ≠ [])) = false := by
    intro b
    rw [decide_eq_false (not_not.2 hnil), Bool.and_false]
  unfold responseParts
  dsimp only
  rw [hno]
  exact ⟨rfl, rfl⟩

theorem flatten_chunkCopies (chunk : Bytes) (moreBody : Bool) :
    ((if chunk = [] then [] else [upperHex chunk.length ++ crlf, chunk, crlf]) ++
      if moreBody then [] else [bytes "0\r\n\r\n"]).flatten = formatChunk chunk moreBody := by
  unfold formatChunk
  rw [List.flatten_append]
  congr 1
  · split
    · rfl
    · simp only [List.flatten_cons, List.flatten_nil, List.append_nil, List.append_assoc]
  · split
    · rfl
    · exact List.append_nil _

theorem flatten_bodyCopies (statusCode : Nat) (serverHeader dateHeader : Bytes) (headers : List Header) (body : Bytes)
    (moreBody isNoBodyStatus keepAlive : Bool) :
    (responseParts statusCode serverHeader dateHeader headers body moreBody isNoBodyStatus
      keepAlive).bodyCopies.flatten =
      if isNoBodyStatus then []
      else if !isNoBodyStatus && moreBody && !hasField "content-length" headers then formatChunk body moreBody
      else body := by
  unfold ResponseParts.bodyCopies responseParts
  dsimp only
  cases isNoBodyStatus with
  | true => rfl
  | false =>
    rw [if_neg Bool.false_ne_true, if_neg Bool.false_ne_true]
    split
    · rename_i hchunked
      rw [hchunked, ← flatten_chunkCopies]
      by_cases hnil : body = []
      · rw [if_pos hnil, if_pos hnil]
      · rw [if_neg hnil, if_neg hnil, decide_eq_true hnil]
        rfl
    · exact flatten_unlessEmpty body

/-- Together the copies are what `format_response` returns. -/
theorem flatten_appends {statusCode : Nat} {serverHeader dateHeader : Bytes} {headers : List Header} {body : Bytes}
    {moreBody isNoBodyStatus keepAlive : Bool} {out : Bytes × Bool × Bool}
    (h : formatResponse statusCode serverHeader dateHeader headers body moreBody isNoBodyStatus keepAlive = .ok out) :
    (responseParts statusCode serverHeader dateHeader headers body moreBody isNoBodyStatus keepAlive).appends.flatten =
      out.1 := by
  unfold formatResponse at h
  split at h
  · cases h
  split at h
  · cases h
  dsimp only at h
  rw [← Except.ok.inj h]
  unfold ResponseParts.appends
  simp only [List.flatten_append, flatten_unlessEmpty, ResponseParts.flatten_fields, flatten_bodyCopies,
    List.flatten_cons, List.flatten_nil, List.append_nil]
  rfl

/-- The copies of `format_chunk` fill its object. -/
theorem fillChunk_exact {chunk : Bytes} {moreBody : Bool} (hlen : (formatChunk chunk moreBody).length < usizeEnd) :
    fillChunk m chunk moreBody =
      .ok ((formatChunk chunk moreBody).length, (formatChunk chunk moreBody).map some) := by
  unfold fillChunk
  dsimp only
  rw [← flatten_chunkCopies] at hlen ⊢
  by_cases hnil : chunk = []
  · rw [if_pos hnil] at hlen
    rw [if_pos hnil, if_pos hnil, if_pos hnil]
    refine newWithCopies_exact m hlen ?_
    cases moreBody with
    | true => rfl
    | false =>
      have hfive : m.add 0 5 = .ok 5 := Arith.add_of_lt (by decide)
      exact hfive
  · rw [if_neg hnil] at hlen
    rw [if_neg hnil, if_neg hnil, if_neg hnil, if_neg hnil]
    generalize upperHex chunk.length ++ crlf = chunkPrefix at hlen ⊢
    refine newWithCopies_exact m hlen ?_
    have hchunk : [chunkPrefix, chunk, crlf].flatten.length = chunkPrefix.length + (chunk.length + crlf.length) := by
      simp only [List.flatten_cons, List.flatten_nil, List.append_nil, List.length_append]
    rw [List.flatten_append, List.length_append, hchunk] at hlen ⊢
    have hsum : addAll m [chunk.length, crlf.length] chunkPrefix.length =
        .ok (chunkPrefix.length + (chunk.length + crlf.length)) :=
      addAll_of_lt m (by simp only [List.sum_cons, List.sum_nil]; omega)
    generalize chunkPrefix.length + (chunk.length + crlf.length) = n at hsum hlen ⊢
    have hzero : m.add 0 n = .ok n := by
      rw [Arith.add_of_lt (by omega), Nat.zero_add]
    rw [hsum]
    show ((m.add 0 n) >>= fun total => _) = _
    rw [hzero, ok_bind]
    cases moreBody with
    | true => rfl
    | false => exact Arith.add_of_lt hlen

/-- The two copies of `format_ws_frame` fill its object. -/
theorem fillWsFrame_exact {opcode : UInt8} {payload : Bytes} (hlen : (formatWsFrame opcode payload).length < usizeEnd) :
    fillWsFrame m opcode payload = .ok ((formatWsFrame opcode payload).map some) := by
  have hframe : formatWsFrame opcode payload = wsHeader opcode payload.length ++ payload := rfl
  rw [hframe] at hlen ⊢
  generalize hheader : wsHeader opcode payload.length = header at hlen ⊢
  rw [List.length_append] at hlen
  have htotal : header.length + payload.length = (header ++ payload).length := List.length_append.symm
  have hfirst := @copyTo_written UInt8 (header.length + payload.length) [] header
    (by rw [List.length_nil, Nat.zero_add]; omega)
  have hsecond := @copyTo_written UInt8 (header.length + payload.length) header payload (Nat.le_refl _)
  rw [List.length_nil, Nat.zero_add, List.nil_append, written_nil] at hfirst
  have hout : (written (header.length + payload.length) header).length = header.length + payload.length :=
    length_written (by omega)
  unfold fillWsFrame
  dsimp only
  rw [hheader, Arith.add_of_lt hlen, ok_bind, hfirst, ok_bind, hout, hsecond, htotal, written_all]

end

/-- In either arithmetic, for all that they accept: the copies of
`format_response`, `format_chunk` and `format_ws_frame` write each byte of the
object that was made for them, none of them is out of range, and the cursor ends
at its end; if the length of what they write together is a `usize`. -/
theorem serializers_fill (m : Arith) :
    (∀ statusCode serverHeader dateHeader headers body moreBody isNoBodyStatus keepAlive out,
      formatResponse statusCode serverHeader dateHeader headers body moreBody isNoBodyStatus keepAlive = .ok out →
      out.1.length < usizeEnd →
      (responseParts statusCode serverHeader dateHeader headers body moreBody isNoBodyStatus keepAlive).fill m =
        .ok (out.1.length, out.1.map some)) ∧
      (∀ chunk moreBody, (formatChunk chunk moreBody).length < usizeEnd →
        fillChunk m chunk moreBody =
          .ok ((formatChunk chunk moreBody).length, (formatChunk chunk moreBody).map some)) ∧
      ∀ opcode payload, (formatWsFrame opcode payload).length < usizeEnd →
        fillWsFrame m opcode payload = .ok ((formatWsFrame opcode payload).map some) := by
  refine ⟨?_, fun chunk moreBody => fillChunk_exact m, fun opcode payload => fillWsFrame_exact m⟩
  intro statusCode serverHeader dateHeader headers body moreBody isNoBodyStatus keepAlive out hout hlen
  have hchunk := chunkOfBody_responseParts statusCode serverHeader dateHeader headers body moreBody isNoBodyStatus
    keepAlive
  rw [← flatten_appends hout] at hlen ⊢
  exact ResponseParts.fill_exact m hchunk hlen

/-- A part of a streamed response, a last chunk, and a frame. -/
theorem serializers_fill_parts :
    (∃ out, formatResponse 200 serverHeader [] [] (bytes "ab") true false true = .ok out ∧
      (responseParts 200 serverHeader [] [] (bytes "ab") true false true).fill .release =
        .ok (out.1.length, out.1.map some)) ∧
    fillChunk .release (bytes "ab") false = .ok (12, (bytes "2\r\nab\r\n0\r\n\r\n").map some) ∧
    fillWsFrame .release 1 (bytes "ab") = .ok ([0x81, 2, 97, 98].map some) :=
  ⟨⟨_, rfl, (serializers_fill .release).1 _ _ _ _ _ _ _ _ _ rfl (by decide +kernel)⟩,
    (serializers_fill .release).2.1 (bytes "ab") false (by decide +kernel),
    (serializers_fill .release).2.2 1 (bytes "ab") (by decide +kernel)⟩

end Multiloop.Http
