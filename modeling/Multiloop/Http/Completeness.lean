import Multiloop.Http.WsgiApp

/-!
# Complete and truncated responses

What a client reads of the response to a WSGI application: the whole body if
the application ended without an exception, the response of an internal error
if it raised before its first chunk, and a chunked body without an end if it
raised later. A `BrokenPipeError` of the application is taken for one that the
server raised itself when the client went away, and ends the response as if
nothing had been raised.
-/

namespace Multiloop.Http

/-! ## The client on a legal head -/

/-- A header as the bytes of a field. -/
def encoded (h : Str × Str) : Header := { name := h.1.map byteOf, value := h.2.map byteOf }

/-- The bytes of a head. -/
def wsgiHead (status : Str) (headers : List (Str × Str)) : Bytes :=
  ((wsgiLines status headers).map (·.map byteOf)).flatMap (· ++ crlf) ++ crlf

theorem fieldLine_encoded (h : Str × Str) : (fieldLine h).map byteOf = (encoded h).line := by
  unfold fieldLine Header.line
  rw [List.map_append, List.map_append, show ": ".toList.map byteOf = bytes ": " by decide]
  rfl

theorem wsgiHead_eq (status : Str) (headers : List (Str × Str)) (rest : Bytes) :
    wsgiHead status headers ++ rest = bytes "HTTP/1.1 " ++ status.map byteOf ++ crlf ++
      (headerLines (headers.map encoded) ++ (crlf ++ rest)) := by
  have hfields : ((headers.map fieldLine).map (·.map byteOf)).flatMap (· ++ crlf) =
      headerLines (headers.map encoded) := by
    unfold headerLines
    rw [List.map_map, List.flatMap_map, List.flatMap_map]
    congr 1
    funext h
    show (fieldLine h).map byteOf ++ crlf = _
    rw [fieldLine_encoded]
  unfold wsgiHead wsgiLines
  rw [List.map_cons, List.flatMap_cons, hfields, List.map_append,
    show "HTTP/1.1 ".toList.map byteOf = bytes "HTTP/1.1 " by decide]
  simp only [List.append_assoc]

theorem map_byteOf_inj {a b : Str} (ha : ∀ c ∈ a, c.toNat < 256) (hb : ∀ c ∈ b, c.toNat < 256)
    (h : a.map byteOf = b.map byteOf) : a = b := by
  induction a generalizing b with
  | nil =>
    cases b with
    | nil => rfl
    | cons c b => cases h
  | cons c a ih =>
    cases b with
    | nil => cases h
    | cons d b =>
      obtain ⟨hhead, htail⟩ := List.cons.inj h
      rw [(byteOf_eq_iff (ha c (.head _)) (hb d (.head _))).1 hhead,
        ih (fun c hc => ha c (.tail _ hc)) (fun c hc => hb c (.tail _ hc)) htail]

theorem lower_byteOf {c : Char} (hc : c.toNat < 128) :
    toAsciiLowercase (byteOf c) = byteOf c.toLower ∧ c.toLower.toNat < 256 := by
  have hall : ∀ n : Fin 128, toAsciiLowercase (byteOf (Char.ofNat n)) = byteOf (Char.ofNat n).toLower ∧
      (Char.ofNat n).toLower.toNat < 256 := by decide
  have hchar := hall ⟨c.toNat, hc⟩
  rwa [show Char.ofNat (⟨c.toNat, hc⟩ : Fin 128) = c from Char.ofNat_toNat c] at hchar

theorem lowercase_encoded {name : Str} (hname : ∀ c ∈ name, c.toNat < 128) :
    lowercase (name.map byteOf) = (name.map Char.toLower).map byteOf := by
  unfold lowercase
  rw [List.map_map, List.map_map]
  exact List.map_congr_left fun c hc => (lower_byteOf (hname c hc)).1

/-- A name is another one as bytes too. -/
theorem lowercase_ne {name other : Str} (hname : ∀ c ∈ name, c.toNat < 128) (hother : ∀ c ∈ other, c.toNat < 256)
    (hne : name.map Char.toLower ≠ other) : lowercase (name.map byteOf) ≠ other.map byteOf := by
  rw [lowercase_encoded hname]
  intro h
  refine hne (map_byteOf_inj (fun c hc => ?_) hother h)
  obtain ⟨d, hd, rfl⟩ := List.mem_map.1 hc
  exact (lower_byteOf (hname d hd)).2

theorem byteOf_mem {s : Str} (hs : ∀ c ∈ s, c.toNat < 256) {b : Char} (hb : b.toNat < 256)
    (hmem : byteOf b ∈ s.map byteOf) : b ∈ s := by
  obtain ⟨c, hc, heq⟩ := List.mem_map.1 hmem
  rwa [← (byteOf_eq_iff (hs c hc) hb).1 heq]

namespace LegalStart

variable {status : Str} {headers : List (Str × Str)} (h : LegalStart status headers)
include h

/-- The status line is one line, with the number of the status. -/
theorem statusLine : 13 ∉ bytes "HTTP/1.1 " ++ status.map byteOf ∧
    200 ≤ statusOf (bytes "HTTP/1.1 " ++ status.map byteOf) ∧
    statusOf (bytes "HTTP/1.1 " ++ status.map byteOf) ≠ 204 ∧
    statusOf (bytes "HTTP/1.1 " ++ status.map byteOf) ≠ 304 := by
  constructor
  · rw [List.mem_append, not_or]
    refine ⟨by decide, fun hmem => ?_⟩
    have hcr := byteOf_mem (fun c hc => (h.text c hc).2) (b := '\r') (by decide) hmem
    exact absurd (h.text '\r' hcr).1 (by decide)
  · obtain ⟨n, reason, hstatus, hn, -, hn204, hn304⟩ := h.code
    have hline : bytes "HTTP/1.1 " ++ status.map byteOf =
        bytes "HTTP/1.1" ++ 32 :: (decimal n ++ 32 :: reason.map byteOf) := by
      rw [hstatus, List.map_append, List.map_cons, show bytes "HTTP/1.1 " = bytes "HTTP/1.1" ++ [32] by decide,
        List.append_assoc]
      rfl
    have hvalue : statusOf (bytes "HTTP/1.1 " ++ status.map byteOf) = n := by
      unfold statusOf
      rw [hline, List.dropWhile_append_of_pos (List.all_eq_true.1 rfl), List.dropWhile_cons_of_neg (by decide),
        List.drop_one, List.tail_cons, List.takeWhile_append_of_pos (isDigit_decimal n),
        List.takeWhile_cons_of_neg (by decide), List.append_nil, digitsValue_decimal]
    rw [hvalue]
    exact ⟨hn, hn204, hn304⟩

/-- Every header is one line, with its name before the first colon. -/
theorem fields {x : Header} (hx : x ∈ headers.map encoded) : x.line ≠ [] ∧ 13 ∉ x.line ∧ 58 ∉ x.name ∧
    lowercase x.name ≠ bytes "transfer-encoding" ∧ lowercase x.name ≠ bytes "content-length" := by
  obtain ⟨hd, hhd, rfl⟩ := List.mem_map.1 hx
  obtain ⟨hne, hname⟩ := h.name hd hhd
  obtain ⟨hcoding, hlength⟩ := h.framing hd hhd
  have hascii : ∀ c ∈ hd.1, c.toNat < 128 := fun c hc => Nat.lt_succ_of_lt (hname c hc).2.1
  have hlatin : ∀ c ∈ hd.1, c.toNat < 256 := fun c hc => Nat.lt_trans (hascii c hc) (by decide)
  have hcr : 13 ∉ (encoded hd).name := fun hmem => by
    have hmem := byteOf_mem hlatin (b := '\r') (by decide) hmem
    exact absurd (hname '\r' hmem).1 (by decide)
  have hcr' : 13 ∉ (encoded hd).value := fun hmem => by
    have hmem := byteOf_mem (fun c hc => (h.value hd hhd c hc).2) (b := '\r') (by decide) hmem
    exact absurd (h.value hd hhd '\r' hmem).1 (by decide)
  refine ⟨?_, ?_, fun hmem => ?_, ?_, ?_⟩
  · unfold Header.line
    rw [show bytes ": " = [58, 32] by decide]
    simp
  · unfold Header.line
    simp only [List.mem_append, not_or]
    exact ⟨⟨hcr, by decide⟩, hcr'⟩
  · have hmem := byteOf_mem hlatin (b := ':') (by decide) hmem
    exact (hname ':' hmem).2.2 rfl
  · rw [show bytes "transfer-encoding" = "transfer-encoding".toList.map byteOf by decide]
    exact lowercase_ne hascii (all_latin1 (by decide)) hcoding
  · rw [show bytes "content-length" = "content-length".toList.map byteOf by decide]
    exact lowercase_ne hascii (all_latin1 (by decide)) hlength

/-- The application gives no framing of its own. -/
theorem values {name : String} (hname : name = "transfer-encoding" ∨ name = "content-length") :
    Multiloop.Http.values name (received (headers.map encoded)) = [] := by
  have hall : ∀ x ∈ headers.map encoded, lowercase (readField x.line).name ≠ bytes name := by
    intro x hx
    obtain ⟨-, -, hcolon, hcoding, hlength⟩ := h.fields hx
    rw [readField_line hcolon]
    rcases hname with rfl | rfl
    · exact hcoding
    · exact hlength
  unfold Multiloop.Http.values
  rw [List.map_eq_nil_iff, List.filter_eq_nil_iff]
  intro y hy
  obtain ⟨x, hx, rfl⟩ := List.mem_map.1 hy
  simpa using hall x hx

theorem unframed {name : String} (hname : name = "transfer-encoding" ∨ name = "content-length") :
    hasName name headers = false := by
  refine List.any_eq_false.2 fun hd hhd hlower => ?_
  obtain ⟨hcoding, hlength⟩ := h.framing hd hhd
  rcases hname with rfl | rfl
  · exact hcoding (of_decide_eq_true hlower)
  · exact hlength (of_decide_eq_true hlower)

theorem dataHeaders : dataHeaders headers = headers ++
    [("transfer-encoding".toList, "chunked".toList), ("connection".toList, "close".toList)] := by
  have hnone : ¬ (hasName "content-length" headers = true ∨ hasName "transfer-encoding" headers = true) := by
    rw [h.unframed (.inl rfl), h.unframed (.inr rfl)]
    decide
  unfold Multiloop.Http.dataHeaders
  rw [if_neg hnone, List.append_assoc]
  rfl

theorem endHeaders : endHeaders headers = headers ++
    [("content-length".toList, "0".toList), ("connection".toList, "close".toList)] := by
  unfold Multiloop.Http.endHeaders
  rw [if_neg (by rw [h.unframed (.inr rfl)]; decide), List.append_assoc]
  rfl

/-- A client reads the body after the fields that the server adds. -/
theorem client_head {method : Bytes} (hmethod : method ≠ bytes "HEAD") {added : List (Str × Str)}
    (hadded : ∀ x ∈ added.map encoded, x.line ≠ [] ∧ 13 ∉ x.line) (rest : Bytes) :
    client method (wsgiHead status (headers ++ added) ++ rest) =
      clientBody (received (headers.map encoded ++ added.map encoded)) rest := by
  obtain ⟨hline, -, h204, h304⟩ := h.statusLine
  have hfields : ∀ x ∈ (headers ++ added).map encoded, x.line ≠ [] ∧ 13 ∉ x.line := by
    rw [List.map_append]
    intro x hx
    rcases List.mem_append.1 hx with hx | hx
    · exact ⟨(h.fields hx).1, (h.fields hx).2.1⟩
    · exact hadded x hx
  rw [wsgiHead_eq, client_lines method hline hfields, if_neg, List.map_append]
  rintro (hno | hno | hno)
  · exact h204 hno
  · exact h304 hno
  · exact hmethod hno

theorem client_chunked {method : Bytes} (hmethod : method ≠ bytes "HEAD") (rest : Bytes) :
    client method (wsgiHead status (Multiloop.Http.dataHeaders headers) ++ rest) =
      decodeChunked rest.length rest := by
  rw [h.dataHeaders, h.client_head hmethod (by decide)]
  refine clientBody_chunked ?_ rest
  rw [values_received_append, h.values (.inl rfl)]
  decide

theorem client_empty {method : Bytes} (hmethod : method ≠ bytes "HEAD") :
    client method (wsgiHead status (Multiloop.Http.endHeaders headers)) = some ([], []) := by
  have hcl : Multiloop.Http.values "content-length" (received (headers.map encoded ++
      [("content-length".toList, "0".toList), ("connection".toList, "close".toList)].map encoded)) = [bytes "0"] := by
    rw [values_received_append, h.values (.inr rfl)]
    decide
  have hte : Multiloop.Http.values "transfer-encoding" (received (headers.map encoded ++
      [("content-length".toList, "0".toList), ("connection".toList, "close".toList)].map encoded)) = [] := by
    rw [values_received_append, h.values (.inl rfl)]
    decide
  rw [h.endHeaders, ← List.append_nil (wsgiHead _ _), h.client_head hmethod (by decide),
    clientBody_sized hte (by rw [hcl]; exact List.cons_ne_nil _ _) (n := 0)]
  · rfl
  · intro v hv
    rw [hcl, List.mem_singleton] at hv
    rw [hv]
    decide

end LegalStart

/-! ## The chunks -/

/-- Chunks without an end. -/
def openChunks (got : List Bytes) : Bytes := got.flatMap (formatChunk · true)

theorem openChunks_end (got : List Bytes) :
    openChunks got ++ bytes "0\r\n\r\n" = formatChunks (got ++ [[]]) := by
  induction got with
  | nil => decide
  | cons b got ih =>
    rw [List.cons_append, formatChunks_cons b (by simp), ← ih]
    unfold openChunks
    rw [List.flatMap_cons, List.append_assoc]

theorem decodeChunked_whole (got : List Bytes) :
    decodeChunked (openChunks got ++ bytes "0\r\n\r\n").length (openChunks got ++ bytes "0\r\n\r\n") =
      some (got.flatten, []) := by
  have hread := @decodeChunked_formatChunks (got ++ [[]]) (by simp) [] _ (Nat.le_refl _)
  rwa [← openChunks_end, List.append_nil, List.flatten_append, List.flatten_cons, List.flatten_nil, List.append_nil,
    List.append_nil] at hread

/-- Without an end no body is read. -/
theorem decodeChunked_open {got : List Bytes} (hgot : ∀ b ∈ got, b ≠ []) (fuel : Nat) :
    decodeChunked fuel (openChunks got) = none := by
  induction got generalizing fuel with
  | nil =>
    cases fuel with
    | zero => rfl
    | succ fuel => rfl
  | cons b got ih =>
    cases fuel with
    | zero => rfl
    | succ fuel =>
      have hb := hgot b (.head _)
      have hchunk : openChunks (b :: got) = upperHex b.length ++ crlf ++ (b ++ (crlf ++ openChunks got)) := by
        unfold openChunks formatChunk
        rw [List.flatMap_cons, if_neg hb]
        simp
      rw [hchunk, decodeChunked_chunk hb, ih fun b hb => hgot b (.tail _ hb)]
      rfl

/-! ## The loop -/

namespace LegalStart

variable {status : Str} {headers : List (Str × Str)} (h : LegalStart status headers)
include h

/-- A legal head can be encoded, with any headers that the server adds. -/
theorem writeHead {w : WsgiResponse} (hstatus : w.activeStatus = status) (hwire : w.wire = [])
    {added : List (Str × Str)} (hadded : ∀ x ∈ added, ∀ c ∈ fieldLine x, c.toNat < 256) (isChunked : Bool) :
    w.writeHead (headers ++ added) isChunked =
      some { w with
        headersSent := true, isChunked, responseHeaders := headers ++ added,
        wire := wsgiHead status (headers ++ added) } := by
  have hlines : ∀ l ∈ wsgiLines status (headers ++ added), ∀ c ∈ l, c.toNat < 256 := by
    intro l hl
    rcases List.mem_cons.1 hl with rfl | hl
    · intro c hc
      rcases List.mem_append.1 hc with hc | hc
      · exact all_latin1 (s := "HTTP/1.1 ".toList) (by decide) c hc
      · exact (h.text c hc).2
    · obtain ⟨x, hx, rfl⟩ := List.mem_map.1 hl
      rcases List.mem_append.1 hx with hx | hx
      · intro c hc
        unfold fieldLine at hc
        rcases List.mem_append.1 hc with hc | hc
        · rcases List.mem_append.1 hc with hc | hc
          · exact Nat.lt_trans ((h.name x hx).2 c hc).2.1 (by decide)
          · exact all_latin1 (s := ": ".toList) (by decide) c hc
        · exact (h.value x hx c hc).2
      · exact hadded x hx
  have hsome : (w.writeHead (headers ++ added) isChunked).isSome = true := by
    unfold WsgiResponse.writeHead latin1
    rw [hstatus, Option.isSome_map, wsgiLines]
    have htext : joinLines (("HTTP/1.1 ".toList ++ status) :: (headers ++ added).map fieldLine) ++ "\r\n\r\n".toList =
        (wsgiLines status (headers ++ added)).flatMap (· ++ ['\r', '\n']) ++ ['\r', '\n'] := by
      rw [wsgiLines, ← joinLines_end, List.append_assoc]
      rfl
    rw [htext, if_pos]
    · rfl
    · refine List.all_eq_true.2 fun c hc => decide_eq_true ?_
      rcases List.mem_append.1 hc with hc | hc
      · obtain ⟨l, hl, hc⟩ := List.mem_flatMap.1 hc
        rcases List.mem_append.1 hc with hc | hc
        · exact hlines l hl c hc
        · exact all_latin1 (s := ['\r', '\n']) (by decide) c hc
      · exact all_latin1 (s := ['\r', '\n']) (by decide) c hc
  obtain ⟨w₁, hw₁⟩ := Option.isSome_iff_exists.1 hsome
  obtain ⟨-, -, hwire₁⟩ := WsgiResponse.writeHead_lines hwire hw₁
  obtain ⟨bs, -, rfl⟩ := Option.map_eq_some_iff.1 hw₁
  rw [hw₁, ← hstatus]
  exact congrArg (fun bs => some { w with
    headersSent := true, isChunked, responseHeaders := headers ++ added, wire := bs }) hwire₁

end LegalStart

/-- The headers that the server adds can be encoded. -/
theorem added_latin1 :
    (∀ x ∈ [("transfer-encoding".toList, "chunked".toList), ("connection".toList, "close".toList)],
      ∀ c ∈ fieldLine x, c.toNat < 256) ∧
    (∀ x ∈ [("content-length".toList, "0".toList), ("connection".toList, "close".toList)],
      ∀ c ∈ fieldLine x, c.toNat < 256) := by
  constructor
  · intro x hx
    simp only [List.mem_cons, List.not_mem_nil, or_false] at hx
    rcases hx with rfl | rfl
    · exact all_latin1 (by decide)
    · exact all_latin1 (by decide)
  · intro x hx
    simp only [List.mem_cons, List.not_mem_nil, or_false] at hx
    rcases hx with rfl | rfl
    · exact all_latin1 (by decide)
    · exact all_latin1 (by decide)

/-- The bytes of a response whose chunks so far are `got`, and no end. -/
def Begun (got : List Bytes) (wire : Bytes) : Prop :=
  ∃ status headers, LegalStart status headers ∧ wire = wsgiHead status (dataHeaders headers) ++ openChunks got

namespace WsgiResponse

/-- The loop goes on, and has written the chunks `got`. -/
structure Wrote (w : WsgiResponse) (got : List Bytes) : Prop where
  done : w.done = false
  headersSent : w.headersSent = true ↔ got ≠ []
  isChunked : w.isChunked = true ↔ got ≠ []
  unsent : got = [] → w.wire = [] ∧ LegalStart w.activeStatus w.responseHeaders
  sent : got ≠ [] → Begun got w.wire

variable {w w' : WsgiResponse} {got : List Bytes}

theorem wrote_new : new.Wrote [] where
  done := rfl
  headersSent := ⟨fun h => (by cases h), fun h => absurd rfl h⟩
  isChunked := ⟨fun h => (by cases h), fun h => absurd rfl h⟩
  unsent _ := ⟨rfl, legalStart_new⟩
  sent h := absurd rfl h

theorem Wrote.start (h : w.Wrote got) {status : Str} {headers : List (Str × Str)} (hlegal : LegalStart status headers) :
    ∃ w', w.step (.start status headers) = some w' ∧ w'.Wrote got :=
  ⟨_, rfl, h.done, h.headersSent, h.isChunked, fun hgot => ⟨(h.unsent hgot).1, hlegal⟩, h.sent⟩

theorem openChunks_snoc (got : List Bytes) {chunk : Bytes} (hchunk : chunk ≠ []) :
    openChunks (got ++ [chunk]) = openChunks got ++ (upperHex chunk.length ++ crlf ++ chunk ++ crlf) := by
  unfold openChunks formatChunk
  rw [List.flatMap_append, List.flatMap_singleton, if_neg hchunk, if_pos rfl, List.append_nil]

theorem Wrote.data (h : w.Wrote got) {chunk : Bytes} (hchunk : chunk ≠ []) :
    ∃ w', w.step (.data chunk) = some w' ∧ w'.Wrote (got ++ [chunk]) := by
  have hne : got ++ [chunk] ≠ [] := List.append_ne_nil_of_right_ne_nil _ (List.cons_ne_nil _ _)
  by_cases hgot : got = []
  · obtain ⟨hwire, hlegal⟩ := h.unsent hgot
    have hsent : ¬ w.headersSent = true := fun hs => (h.headersSent.1 hs) hgot
    have hhead := hlegal.writeHead rfl hwire added_latin1.1 true
    rw [← hlegal.dataHeaders] at hhead
    have hstep : w.step (.data chunk) = (w.writeHead (dataHeaders w.responseHeaders) true).map
        (·.writeChunk chunk) := by
      refine (if_neg hsent).trans ?_
      rw [hlegal.unframed (.inl rfl), hlegal.unframed (.inr rfl)]
      rfl
    rw [hhead] at hstep
    refine ⟨_, hstep, h.done, iff_of_true rfl hne, iff_of_true rfl hne, fun he => absurd he hne, fun _ => ?_⟩
    refine ⟨_, _, hlegal, ?_⟩
    show wsgiHead _ _ ++ (if true = true then _ else _) = _
    rw [if_pos rfl, openChunks_snoc got hchunk, hgot]
    rfl
  · obtain ⟨status, headers, hlegal, hwire⟩ := h.sent hgot
    refine ⟨w.writeChunk chunk, if_pos (h.headersSent.2 hgot), ?_⟩
    refine ⟨h.done, iff_of_true (h.headersSent.2 hgot) hne, iff_of_true (h.isChunked.2 hgot) hne,
      fun he => absurd he hne, fun _ => ⟨status, headers, hlegal, ?_⟩⟩
    show w.wire ++ (if w.isChunked = true then _ else _) = _
    rw [if_pos (h.isChunked.2 hgot), hwire, openChunks_snoc got hchunk, List.append_assoc]

/-- The response of an internal error. -/
def internalError : Bytes := wsgiError.flatMap (fun l => l.map byteOf ++ crlf) ++ (crlf ++ bytes "Internal Server Error")

theorem Wrote.error (h : w.Wrote got) : ∃ w', w.step .error = some w' ∧ w'.done = true ∧
    (got = [] → w'.wire = internalError) ∧ (got ≠ [] → Begun got w'.wire) := by
  refine ⟨_, rfl, rfl, fun hgot => ?_, fun hgot => ?_⟩
  · have hsent : ¬ w.headersSent = true := fun hs => (h.headersSent.1 hs) hgot
    show w.wire ++ (if w.headersSent = true then _ else _) = _
    rw [if_neg hsent, (h.unsent hgot).1]
    rfl
  · show Begun got (w.wire ++ (if w.headersSent = true then _ else _))
    rw [if_pos (h.headersSent.2 hgot), List.append_nil]
    exact h.sent hgot

theorem Wrote.fin (h : w.Wrote got) : ∃ w', w.step .fin = some w' ∧ w'.done = true ∧
    (got = [] → ∃ status headers, LegalStart status headers ∧ w'.wire = wsgiHead status (endHeaders headers)) ∧
    (got ≠ [] → ∃ wire, Begun got wire ∧ w'.wire = wire ++ bytes "0\r\n\r\n") := by
  by_cases hgot : got = []
  · obtain ⟨hwire, hlegal⟩ := h.unsent hgot
    have hsent : ¬ w.headersSent = true := fun hs => (h.headersSent.1 hs) hgot
    have hhead := hlegal.writeHead rfl hwire added_latin1.2 w.isChunked
    rw [← hlegal.endHeaders] at hhead
    have hstep : w.step .fin = (w.writeHead (endHeaders w.responseHeaders) w.isChunked).map
        fun w => { w with done := true } := if_neg hsent
    rw [hhead] at hstep
    exact ⟨_, hstep, rfl, fun _ => ⟨_, _, hlegal, rfl⟩, fun hne => absurd hgot hne⟩
  · refine ⟨_, if_pos (h.headersSent.2 hgot), rfl, fun he => absurd he hgot, fun _ => ⟨_, h.sent hgot, ?_⟩⟩
    show w.wire ++ (if w.isChunked = true then _ else _) = _
    rw [if_pos (h.isChunked.2 hgot)]

end WsgiResponse

/-! ## Runs -/

/-- Messages of an application that has not ended, with the chunks `rest`. -/
inductive Waiting : List ChunkMessage → List Bytes → Prop
  | nil : Waiting [] []
  | start {status : Str} {headers : List (Str × Str)} {ms : List ChunkMessage} {rest : List Bytes} :
      LegalStart status headers → Waiting ms rest → Waiting (.start status headers :: ms) rest
  | data {chunk : Bytes} {ms : List ChunkMessage} {rest : List Bytes} :
      chunk ≠ [] → Waiting ms rest → Waiting (.data chunk :: ms) (chunk :: rest)

theorem Waiting.append {ms ms' : List ChunkMessage} {rest rest' : List Bytes} (h : Waiting ms rest)
    (h' : Waiting ms' rest') : Waiting (ms ++ ms') (rest ++ rest') := by
  induction h with
  | nil => exact h'
  | start hlegal _ ih => exact .start hlegal ih
  | data hchunk _ ih => exact .data hchunk ih

namespace WsgiRun

/-- What the thread has sent since the application ended. -/
def closing (s : WsgiRun) : List ChunkMessage :=
  let errors := if s.outcome = some (some .other) then [.error] else []
  match s.thread with
  | .running | .reports => []
  | .ends => errors
  | .finished => errors ++ [.fin]

/-- The response, once the loop has ended. -/
inductive Ended (s : WsgiRun) : Prop
  | error : s.outcome = some (some .other) → (s.produced = [] → s.response.wire = WsgiResponse.internalError) →
      (s.produced ≠ [] → Begun s.produced s.response.wire) → Ended s
  | fin {e : Option WsgiException} : s.outcome = some e → e ≠ some .other →
      (s.produced = [] → ∃ status headers, LegalStart status headers ∧
        s.response.wire = wsgiHead status (endHeaders headers)) →
      (s.produced ≠ [] → ∃ wire, Begun s.produced wire ∧ s.response.wire = wire ++ bytes "0\r\n\r\n") → Ended s

structure Relays (s : WsgiRun) : Prop where
  running : s.thread = .running → s.outcome = none ∧ s.response.done = false
  reports : s.thread = .reports → s.outcome = some (some .other) ∧ s.response.done = false
  outcome : s.thread ≠ .running → s.outcome ≠ none
  full : ∀ b ∈ s.produced, b ≠ []
  going : s.response.done = false → ∃ got body rest, s.response.Wrote got ∧ Waiting body rest ∧
    s.channel = body ++ s.closing ∧ s.produced = got ++ rest
  ended : s.response.done = true → s.Ended

variable {s s' : WsgiRun}

theorem relays_new : new.Relays where
  running _ := ⟨rfl, rfl⟩
  reports h := by cases h
  outcome h := absurd rfl h
  full _ hb := by cases hb
  going _ := ⟨[], [], [], WsgiResponse.wrote_new, .nil, rfl, rfl⟩
  ended h := by cases h

/-- The application goes on, with more messages. -/
theorem Relays.sends (h : s.Relays) (hrunning : s.thread = .running) {ms : List ChunkMessage} {rest : List Bytes}
    (hms : Waiting ms rest) (hrest : ∀ b ∈ rest, b ≠ []) (headersSet : Bool) :
    Relays { s with channel := s.channel ++ ms, produced := s.produced ++ rest, headersSet } where
  running := h.running
  reports := h.reports
  outcome := h.outcome
  full b hb := by
    rcases List.mem_append.1 hb with hb | hb
    · exact h.full b hb
    · exact hrest b hb
  going hdone := by
    obtain ⟨got, body, before, hwrote, hwaiting, hchannel, hproduced⟩ := h.going hdone
    have hclosing : s.closing = [] := by
      unfold closing
      rw [hrunning]
    rw [hclosing, List.append_nil] at hchannel
    refine ⟨got, body ++ ms, before ++ rest, hwrote, hwaiting.append hms, ?_, ?_⟩
    · show s.channel ++ ms = body ++ ms ++ s.closing
      rw [hclosing, hchannel, List.append_nil]
    · show s.produced ++ rest = _
      rw [hproduced, List.append_assoc]
  ended hdone := by
    have hopen := (h.running hrunning).2
    rw [show s.response.done = true from hdone] at hopen
    cases hopen

theorem sendSync_some {m : ChunkMessage} (hdone : s.response.done = false) (hst : s.sendSync m = some s') :
    s' = { s with channel := s.channel ++ [m] } := by
  unfold sendSync at hst
  rw [if_neg (by rw [hdone]; decide)] at hst
  obtain ⟨-, hst⟩ := Option.ite_none_right_eq_some.1 hst
  exact (Option.some.inj hst).symm

theorem Relays.sendChunk (h : s.Relays) (hrunning : s.thread = .running) {chunk : Bytes}
    (hst : s.sendChunk chunk = some s') : s'.Relays := by
  unfold WsgiRun.sendChunk at hst
  split at hst
  · cases hst
    exact h
  · rename_i hchunk
    obtain ⟨s₁, hsend, rfl⟩ := Option.map_eq_some_iff.1 hst
    rw [sendSync_some (h.running hrunning).2 hsend]
    refine h.sends hrunning (Waiting.data hchunk .nil) ?_ s.headersSet
    intro b hb
    exact List.mem_singleton.1 hb ▸ hchunk

theorem Relays.startResponse (h : s.Relays) (hrunning : s.thread = .running) {status : Str}
    {headers : List (Str × Str)} (hlegal : LegalStart status headers) {excInfo : Bool}
    (hst : s.startResponse status headers excInfo = some s') : s'.Relays := by
  have hsends : ∀ s', { s with headersSet := true }.sendSync (.start status headers) = some s' → s'.Relays := by
    intro s' hsend
    rw [sendSync_some (s := { s with headersSet := true }) (h.running hrunning).2 hsend]
    have hrelays := h.sends hrunning (Waiting.start hlegal .nil) (fun _ hb => by cases hb) true
    rwa [List.append_nil] at hrelays
  unfold WsgiRun.startResponse at hst
  split at hst
  · split at hst
    · cases hst
      exact h
    · exact hsends s' hst
  · split at hst
    · cases hst
      exact h
    · exact hsends s' hst

theorem Relays.finish (h : s.Relays) (hrunning : s.thread = .running) (exc : Option WsgiException) :
    (s.finish exc).Relays := by
  obtain ⟨-, hdone⟩ := h.running hrunning
  have hthread : (s.finish exc).thread ≠ .running ∧ ((s.finish exc).thread = .reports → exc = some .other) := by
    rcases exc with _ | _ | _
    · exact ⟨fun hr => (by cases hr), fun hr => (by cases hr)⟩
    · exact ⟨fun hr => (by cases hr), fun hr => (by cases hr)⟩
    · exact ⟨fun hr => (by cases hr), fun _ => rfl⟩
  refine ⟨fun hr => absurd hr hthread.1, fun hr => ⟨congrArg some (hthread.2 hr), hdone⟩,
    fun _ hno => (by cases hno), h.full, fun _ => ?_, fun hd => ?_⟩
  · obtain ⟨got, body, rest, hwrote, hwaiting, hchannel, hproduced⟩ := h.going hdone
    refine ⟨got, body, rest, hwrote, hwaiting, hchannel.trans ?_, hproduced⟩
    have hbefore : s.closing = [] := by
      unfold closing
      rw [hrunning]
    rw [hbefore]
    rcases exc with _ | _ | _ <;> rfl
  · rw [show s.response.done = true from hd] at hdone
    cases hdone

theorem Relays.sendError (h : s.Relays) (hreports : s.thread = .reports) {s₁ : WsgiRun}
    (hst : s.sendSync .error = some s₁) : Relays { s₁ with thread := .ends } := by
  obtain ⟨houtcome, hdone⟩ := h.reports hreports
  rw [sendSync_some hdone hst]
  refine ⟨fun hr => (by cases hr), fun hr => (by cases hr), fun _ => ?_, h.full, fun _ => ?_, fun hd => ?_⟩
  · rw [show _ = s.outcome from rfl, houtcome]
    exact fun hno => by cases hno
  · obtain ⟨got, body, rest, hwrote, hwaiting, hchannel, hproduced⟩ := h.going hdone
    refine ⟨got, body, rest, hwrote, hwaiting, ?_, hproduced⟩
    have hbefore : s.closing = [] := by
      unfold closing
      rw [hreports]
    have hafter : closing { s with channel := s.channel ++ [.error], thread := .ends } = [.error] := by
      unfold closing
      dsimp only
      rw [if_pos houtcome]
    rw [hbefore, List.append_nil] at hchannel
    rw [hafter]
    show s.channel ++ [.error] = _
    rw [hchannel]
  · rw [show s.response.done = true from hd] at hdone
    cases hdone

theorem Relays.sendEnd (h : s.Relays) (hends : s.thread = .ends) {s₁ : WsgiRun}
    (hst : s.sendSync .fin = some s₁) : Relays { s₁ with thread := .finished } := by
  have houtcome := h.outcome (by rw [hends]; exact fun hr => by cases hr)
  cases hdone : s.response.done with
  | true =>
    unfold sendSync at hst
    rw [if_pos hdone] at hst
    cases hst
    refine ⟨fun hr => (by cases hr), fun hr => (by cases hr), fun _ => houtcome, h.full, fun hd => ?_, fun _ => ?_⟩
    · rw [show s.response.done = false from hd] at hdone
      cases hdone
    · cases h.ended hdone with
      | error houtcome hempty hbegun => exact .error houtcome hempty hbegun
      | fin houtcome hother hempty hbegun => exact .fin houtcome hother hempty hbegun
  | false =>
    rw [sendSync_some hdone hst]
    refine ⟨fun hr => (by cases hr), fun hr => (by cases hr), fun _ => houtcome, h.full, fun _ => ?_, fun hd => ?_⟩
    · obtain ⟨got, body, rest, hwrote, hwaiting, hchannel, hproduced⟩ := h.going hdone
      refine ⟨got, body, rest, hwrote, hwaiting, ?_, hproduced⟩
      have hafter : closing { s with channel := s.channel ++ [.fin], thread := .finished } = s.closing ++ [.fin] := by
        unfold closing
        rw [hends]
      rw [hafter, ← List.append_assoc, ← hchannel]
    · rw [show s.response.done = true from hd] at hdone
      cases hdone

/-- What the loop writes after the last message of the application. -/
theorem closing_cases {m : ChunkMessage} {channel : List ChunkMessage} (h : s.closing = m :: channel) :
    s.thread ≠ .running ∧ s.thread ≠ .reports ∧
      (m = .error ∧ s.outcome = some (some .other) ∨ m = .fin ∧ s.outcome ≠ some (some .other)) := by
  unfold closing at h
  dsimp only at h
  split at h
  · cases h
  · cases h
  · rename_i hthread
    split_ifs at h with hother
    cases h
    refine ⟨?_, ?_, .inl ⟨rfl, hother⟩⟩
    · rw [hthread]
      exact fun hr => by cases hr
    · rw [hthread]
      exact fun hr => by cases hr
  · rename_i hthread
    refine ⟨?_, ?_, ?_⟩
    · rw [hthread]
      exact fun hr => by cases hr
    · rw [hthread]
      exact fun hr => by cases hr
    · split_ifs at h with hother
      · cases h
        exact .inl ⟨rfl, hother⟩
      · cases h
        exact .inr ⟨rfl, hother⟩

theorem Relays.recv (h : s.Relays) (hdone : s.response.done = false) {m : ChunkMessage}
    {channel : List ChunkMessage} (hchannel : s.channel = m :: channel) : (s.recv m channel).Relays := by
  obtain ⟨got, body, rest, hwrote, hwaiting, hbody, hproduced⟩ := h.going hdone
  rw [hchannel] at hbody
  -- A message of the application is written, and the loop goes on.
  have hgoes : ∀ {w' : WsgiResponse} {got' body' rest'}, s.response.step m = some w' → w'.Wrote got' →
      Waiting body' rest' → channel = body' ++ s.closing → s.produced = got' ++ rest' → (s.recv m channel).Relays := by
    intro w' got' body' rest' hstep hwrote' hwaiting' hchannel' hproduced'
    unfold WsgiRun.recv
    rw [hstep]
    refine ⟨fun hr => ⟨(h.running hr).1, hwrote'.done⟩, fun hr => ⟨(h.reports hr).1, hwrote'.done⟩, h.outcome,
      h.full, fun _ => ⟨got', body', rest', hwrote', hwaiting', hchannel', hproduced'⟩, fun hd => ?_⟩
    have hopen := hwrote'.done
    rw [show w'.done = true from hd] at hopen
    cases hopen
  cases hwaiting with
  | start hlegal hrest =>
    obtain ⟨rfl, htail⟩ := List.cons.inj hbody
    obtain ⟨w', hstep, hwrote'⟩ := hwrote.start hlegal
    exact hgoes hstep hwrote' hrest htail hproduced
  | data hchunk hrest =>
    obtain ⟨rfl, htail⟩ := List.cons.inj hbody
    obtain ⟨w', hstep, hwrote'⟩ := hwrote.data hchunk
    exact hgoes hstep hwrote' hrest htail (by rw [hproduced, List.append_assoc]; rfl)
  | nil =>
    rw [List.append_nil] at hproduced
    obtain ⟨hrunning, hreports, hlast⟩ := closing_cases hbody.symm
    rcases hlast with ⟨rfl, houtcome⟩ | ⟨rfl, houtcome⟩
    · obtain ⟨w', hstep, hdone', hempty, hbegun⟩ := hwrote.error
      unfold WsgiRun.recv
      rw [hstep]
      refine ⟨fun hr => absurd hr hrunning, fun hr => absurd hr hreports, h.outcome, h.full, fun hd => ?_, fun _ => ?_⟩
      · rw [show w'.done = false from hd] at hdone'
        cases hdone'
      · exact .error houtcome (fun hp => hempty (hproduced ▸ hp)) (fun hp => hproduced ▸ hbegun (hproduced ▸ hp))
    · obtain ⟨w', hstep, hdone', hempty, hbegun⟩ := hwrote.fin
      obtain ⟨e, he⟩ := Option.ne_none_iff_exists'.1 (h.outcome hrunning)
      unfold WsgiRun.recv
      rw [hstep]
      refine ⟨fun hr => absurd hr hrunning, fun hr => absurd hr hreports, h.outcome, h.full, fun hd => ?_, fun _ => ?_⟩
      · rw [show w'.done = false from hd] at hdone'
        cases hdone'
      · refine .fin he (fun ho => houtcome (he.trans (congrArg some ho))) (fun hp => hempty (hproduced ▸ hp)) ?_
        exact fun hp => hproduced ▸ hbegun (hproduced ▸ hp)

theorem step_relays {a : WsgiAction} (h : s.Relays) (hlegal : s.Legal a) (hst : s.step a = some s') : s'.Relays := by
  cases a with
  | startResponse status headers excInfo =>
    obtain ⟨hrunning, hst⟩ := Option.ite_none_right_eq_some.1 hst
    exact h.startResponse hrunning hlegal hst
  | write data =>
    obtain ⟨hrunning, hst⟩ := Option.ite_none_right_eq_some.1 hst
    exact h.sendChunk hrunning hst
  | yields chunk =>
    obtain ⟨hrunning, hst⟩ := Option.ite_none_right_eq_some.1 hst
    exact h.sendChunk hrunning hst
  | finish exc =>
    obtain ⟨hrunning, hst⟩ := Option.ite_none_right_eq_some.1 hst
    cases hst
    exact h.finish hrunning exc
  | sendError =>
    obtain ⟨hreports, hst⟩ := Option.ite_none_right_eq_some.1 hst
    obtain ⟨s₁, hsend, rfl⟩ := Option.map_eq_some_iff.1 hst
    exact h.sendError hreports hsend
  | sendEnd =>
    obtain ⟨hends, hst⟩ := Option.ite_none_right_eq_some.1 hst
    obtain ⟨s₁, hsend, rfl⟩ := Option.map_eq_some_iff.1 hst
    exact h.sendEnd hends hsend
  | recv =>
    simp only [step] at hst
    split at hst
    · rename_i m channel hchannel
      split at hst
      · cases hst
      · rename_i hdone
        cases hst
        exact h.recv (eq_false_of_ne_true hdone) hchannel
    · cases hst

theorem relays (h : system.ReachableWhen Legal s) : s.Relays := by
  refine h.inv (I := Relays) ?_ ?_
  · rintro s rfl
    exact relays_new
  · intro s a s' hi hlegal hst
    exact step_relays hi hlegal hst

/-- The client reads the body if the application ended without an exception. -/
def Answers (s : WsgiRun) (method : Bytes) : Prop :=
  match s.outcome with
  | some none => client method s.response.wire = some (s.produced.flatten, [])
  | some (some _) =>
    if s.produced = [] then s.response.wire = WsgiResponse.internalError ∧
      client method s.response.wire = some (bytes "Internal Server Error", [])
    else client method s.response.wire = none
  | none => False

theorem client_begun {method : Bytes} (hmethod : method ≠ bytes "HEAD") {got : List Bytes} {wire : Bytes}
    (h : Begun got wire) : client method (wire ++ bytes "0\r\n\r\n") = some (got.flatten, []) ∧
      ((∀ b ∈ got, b ≠ []) → client method wire = none) := by
  obtain ⟨status, headers, hlegal, rfl⟩ := h
  constructor
  · rw [List.append_assoc, hlegal.client_chunked hmethod]
    exact decodeChunked_whole got
  · intro hfull
    rw [hlegal.client_chunked hmethod]
    exact decodeChunked_open hfull _

theorem client_internalError {method : Bytes} (hmethod : method ≠ bytes "HEAD") :
    client method WsgiResponse.internalError = some (bytes "Internal Server Error", []) := by
  have hwire : WsgiResponse.internalError = bytes "HTTP/1.1 500 Internal Server Error" ++ crlf ++
      (headerLines [⟨bytes "content-type", bytes "text/plain"⟩, ⟨bytes "content-length", bytes "21"⟩,
        ⟨bytes "connection", bytes "close"⟩] ++ (crlf ++ bytes "Internal Server Error")) := by decide
  rw [hwire, client_lines method (by decide) (by decide), if_neg]
  · decide
  · rintro (hno | hno | hno)
    · exact absurd hno (by decide)
    · exact absurd hno (by decide)
    · exact hmethod hno

/-- A client that stays connected reads what the application did, in every run
in which the calls are legal, exactly when no `BrokenPipeError` left the
application; and the response is ended once the thread is. -/
theorem wsgi_answers_iff (method : Bytes) (s : WsgiRun) (hmethod : method ≠ bytes "HEAD")
    (h : system.ReachableWhen Legal s) :
    (s.thread = .finished → s.channel = [] → s.response.done = true) ∧
    (s.response.done = true → (s.Answers method ↔ s.outcome ≠ some (some .brokenPipe))) := by
  have hrelays := relays h
  constructor
  · intro hthread hchannel
    by_contra hopen
    obtain ⟨-, body, -, -, -, hbody, -⟩ := hrelays.going (eq_false_of_ne_true hopen)
    have hclosing : s.closing ≠ [] := by
      unfold closing
      rw [hthread]
      exact List.append_ne_nil_of_right_ne_nil _ (List.cons_ne_nil _ _)
    rw [hchannel] at hbody
    exact hclosing (List.append_eq_nil_iff.1 hbody.symm).2
  · intro hdone
    cases hrelays.ended hdone with
    | error houtcome hempty hbegun =>
      refine iff_of_true ?_ (by rw [houtcome]; decide)
      unfold Answers
      rw [houtcome]
      dsimp only
      split
      · rename_i hproduced
        rw [hempty hproduced]
        exact ⟨rfl, client_internalError hmethod⟩
      · rename_i hproduced
        exact (client_begun hmethod (hbegun hproduced)).2 hrelays.full
    | @fin e houtcome hother hempty hbegun =>
      have hread : client method s.response.wire = some (s.produced.flatten, []) := by
        by_cases hproduced : s.produced = []
        · obtain ⟨status, headers, hlegal, hwire⟩ := hempty hproduced
          rw [hwire, hlegal.client_empty hmethod, hproduced]
          rfl
        · obtain ⟨wire, hwritten, hwire⟩ := hbegun hproduced
          rw [hwire]
          exact (client_begun hmethod hwritten).1
      unfold Answers
      rw [houtcome]
      rcases e with _ | _ | _
      · exact iff_of_true hread (by decide)
      · refine iff_of_false ?_ (not_not.2 rfl)
        dsimp only
        split
        · rename_i hproduced
          rintro ⟨-, herror⟩
          rw [hread, hproduced] at herror
          exact absurd (congrArg Prod.fst (Option.some.inj herror)) (by decide)
        · rw [hread]
          exact fun hno => by cases hno
      · exact absurd rfl hother

/-! ## A greeting -/

def textPlain : List (Str × Str) := [("content-type".toList, "text/plain".toList)]

theorem textPlain_legal : LegalStart "200 OK".toList textPlain where
  code := ⟨200, "OK".toList, by decide, by decide, by decide, by decide, by decide⟩
  text := forall_of_all (by decide)
  name x hx := by
    cases List.mem_singleton.1 hx
    exact ⟨by decide, forall_of_all (by decide)⟩
  value x hx := by
    cases List.mem_singleton.1 hx
    exact forall_of_all (by decide)
  framing x hx := by
    cases List.mem_singleton.1 hx
    exact ⟨by decide, by decide⟩

/-- An application yields one chunk, and ends so. -/
def greeting (exc : Option WsgiException) : List WsgiAction :=
  [.startResponse "200 OK".toList textPlain false, .yields (bytes "hello"), .recv, .recv, .finish exc, .sendEnd, .recv]

theorem greeting_legal (exc : Option WsgiException) {s : WsgiRun} (hrun : system.run new (greeting exc) = some s) :
    system.ReachableWhen Legal s := by
  refine System.ReachableWhen.follow (M := system) ?_ (.init rfl) hrun
  intro a ha s
  simp only [greeting, List.mem_cons, List.not_mem_nil, or_false] at ha
  rcases ha with rfl | rfl | rfl | rfl | rfl | rfl | rfl
  · exact textPlain_legal
  all_goals exact trivial

/-- The greeting is read by a client. -/
theorem wsgi_answers_greeting : ∃ s, system.run new (greeting none) = some s ∧ s.Answers (bytes "GET") := by
  obtain ⟨s, hrun, hdone, houtcome⟩ : ∃ s, system.run new (greeting none) = some s ∧ s.response.done = true ∧
      s.outcome = some none := ⟨_, rfl, rfl, rfl⟩
  refine ⟨s, hrun, ((wsgi_answers_iff (bytes "GET") s (by decide) (greeting_legal none hrun)).2 hdone).2 ?_⟩
  rw [houtcome]
  decide

/-- The application raises a `BrokenPipeError` after its chunk, and the response
is a complete one. -/
theorem broken_pipe_completed : ∃ s, system.ReachableWhen Legal s ∧ s.response.done = true ∧
    s.outcome = some (some .brokenPipe) ∧
    client (bytes "GET") s.response.wire = some (bytes "hello", []) ∧ ¬ s.Answers (bytes "GET") := by
  obtain ⟨s, hrun, hdone, houtcome, hproduced, hread⟩ : ∃ s, system.run new (greeting (some .brokenPipe)) = some s ∧
      s.response.done = true ∧ s.outcome = some (some .brokenPipe) ∧ s.produced = [bytes "hello"] ∧
      client (bytes "GET") s.response.wire = some (bytes "hello", []) := ⟨_, rfl, rfl, rfl, rfl, by decide⟩
  refine ⟨s, greeting_legal _ hrun, hdone, houtcome, hread, ?_⟩
  unfold Answers
  rw [houtcome, hproduced]
  dsimp only
  rw [if_neg (List.cons_ne_nil _ _), hread]
  exact fun hno => by cases hno

end WsgiRun

end Multiloop.Http
