import Multiloop.Http.Client

/-!
# Responses on the wire

What a client reads of the bytes that `send` writes for a response whose body
comes in parts. It reads the body back, and nothing after it, if the body is
one part or chunked; a body in parts is only chunked if the response has a
body and the application gives no length of its own.
-/

namespace Multiloop.Http

/-! ## Chunks -/

theorem ne_of_hexDigit {a b : UInt8} (ha : isHexDigit a = true) (hb : isHexDigit b = false) : a ≠ b := by
  intro h
  rw [h, hb] at ha
  cases ha

theorem isOws_hexDigit {b : UInt8} (h : isHexDigit b = true) : isOws b = false := by
  apply decide_eq_false
  intro hb
  rcases hb with hb | hb
  · exact ne_of_hexDigit h (by decide) hb
  · exact ne_of_hexDigit h (by decide) hb

theorem isHexDigit_digit {b : UInt8} (h : isDigit b = true) : isHexDigit b = true := decide_eq_true (.inl h)

theorem stripOws_of_not {v : Bytes} (hv : ∀ b ∈ v, isOws b = false) : stripOws v = v := by
  have h := strip_append (a := []) (b := []) nofun hv nofun
  rwa [List.nil_append, List.append_nil] at h

theorem stripOws_space {v : Bytes} (hv : ∀ b ∈ v, isOws b = false) : stripOws (32 :: v) = v := by
  have h := strip_append (a := [32]) (b := []) (List.all_eq_true.1 rfl) hv nofun
  rwa [List.append_nil] at h

theorem number_decimal (n : Nat) : number? (stripOws (32 :: decimal n)) = some n := by
  have hows : ∀ b ∈ decimal n, isOws b = false := fun b hb =>
    isOws_hexDigit (isHexDigit_digit (isDigit_decimal n b hb))
  rw [stripOws_space hows, number?, stripOws_of_not hows]
  rw [if_pos ⟨decimal_ne_nil n, List.all_eq_true.2 (isDigit_decimal n)⟩, digitsValue_decimal]

theorem chunkSize_upperHex (n : Nat) : chunkSize? (upperHex n) = some n := by
  have hhex := isHexDigit_upperHex n
  have hline : (upperHex n).takeWhile (· ≠ 59) = upperHex n :=
    List.takeWhile_eq_self_iff.2 fun b hb => decide_eq_true (ne_of_hexDigit (hhex b hb) (by decide))
  unfold chunkSize?
  rw [hline, stripOws_of_not fun b hb => isOws_hexDigit (hhex b hb)]
  show (if _ then _ else _) = _
  rw [if_pos ⟨upperHex_ne_nil n, List.all_eq_true.2 hhex⟩, hexValue_upperHex]

theorem decodeChunked_chunk {chunk : Bytes} (hchunk : chunk ≠ []) (rest : Bytes) (fuel : Nat) :
    decodeChunked (fuel + 1) (upperHex chunk.length ++ crlf ++ (chunk ++ (crlf ++ rest))) =
      (decodeChunked fuel rest).map fun q => (chunk ++ q.1, q.2) := by
  have hline : 13 ∉ upperHex chunk.length := fun h =>
    ne_of_hexDigit (isHexDigit_upperHex _ 13 h) (by decide) rfl
  have hsize : chunk.length ≠ 0 := fun h => hchunk (List.length_eq_zero_iff.1 h)
  have hdrop : (chunk ++ (crlf ++ rest)).drop (chunk.length + 2) = rest := by
    rw [← List.append_assoc]
    exact List.drop_left' (by rw [List.length_append]; rfl)
  rw [decodeChunked, readLine_append hline, Option.bind_some, chunkSize_upperHex, Option.bind_some, if_neg hsize,
    List.drop_left, if_pos (List.isPrefixOf_iff_prefix.2 (List.prefix_append _ _)), hdrop, List.take_left]

theorem decodeChunked_end (rest : Bytes) (fuel : Nat) :
    decodeChunked (fuel + 1) (bytes "0\r\n\r\n" ++ rest) = some ([], rest) := by
  have hend : bytes "0\r\n\r\n" ++ rest = bytes "0" ++ crlf ++ (crlf ++ rest) := rfl
  rw [hend, decodeChunked, readLine_append (by decide), Option.bind_some,
    show chunkSize? (bytes "0") = some 0 by decide, Option.bind_some, if_pos rfl]
  rfl

/-- What `format_chunk` returns for the parts of a body. -/
def formatChunks : List Bytes → Bytes
  | [] => []
  | [b] => formatChunk b false
  | b :: bs => formatChunk b true ++ formatChunks bs

theorem formatChunks_cons (b : Bytes) {bs : List Bytes} (hbs : bs ≠ []) :
    formatChunks (b :: bs) = formatChunk b true ++ formatChunks bs := by
  cases bs with
  | nil => exact absurd rfl hbs
  | cons c bs => rfl

theorem formatChunk_last (b : Bytes) : formatChunk b false = formatChunk b true ++ bytes "0\r\n\r\n" := by
  simp [formatChunk]

theorem length_formatChunk (b : Bytes) : b.length ≤ (formatChunk b true).length := by
  unfold formatChunk
  split
  · rename_i h
    rw [h]
    exact Nat.zero_le _
  · simp only [List.length_append]
    omega

/-- A part is read before the parts after it. -/
theorem decodeChunked_part (b : Bytes) {rest x y : Bytes}
    (hrest : ∀ fuel, rest.length ≤ fuel → decodeChunked fuel rest = some (x, y)) {fuel : Nat}
    (hfuel : (formatChunk b true ++ rest).length ≤ fuel) :
    decodeChunked fuel (formatChunk b true ++ rest) = some (b ++ x, y) := by
  by_cases hb : b = []
  · have hnil : formatChunk b true = [] := by rw [hb]; rfl
    rw [hnil, List.nil_append] at hfuel
    rw [hnil, hb]
    exact hrest fuel hfuel
  · have hchunk : formatChunk b true ++ rest = upperHex b.length ++ crlf ++ (b ++ (crlf ++ rest)) := by
      simp [formatChunk, hb]
    have hpos := List.length_pos_iff.2 hb
    rw [hchunk] at hfuel
    simp only [List.length_append] at hfuel
    obtain ⟨fuel, rfl⟩ : ∃ k, fuel = k + 1 := ⟨fuel - 1, by omega⟩
    rw [hchunk, decodeChunked_chunk hb, hrest fuel (by omega)]
    rfl

/-- The parts of a chunked body are read back. -/
theorem decodeChunked_formatChunks {bs : List Bytes} (hbs : bs ≠ []) (rest : Bytes) :
    ∀ fuel, (formatChunks bs ++ rest).length ≤ fuel → decodeChunked fuel (formatChunks bs ++ rest) =
      some (bs.flatten, rest) := by
  induction bs with
  | nil => exact absurd rfl hbs
  | cons b bs ih =>
    by_cases hnil : bs = []
    · have hlast : formatChunks (b :: bs) ++ rest = formatChunk b true ++ (bytes "0\r\n\r\n" ++ rest) := by
        rw [hnil, ← List.append_assoc, ← formatChunk_last]
        rfl
      rw [hlast, hnil]
      intro fuel hfuel
      apply decodeChunked_part b (fun fuel hfuel => ?_) hfuel
      rw [List.length_append] at hfuel
      have hlen : (bytes "0\r\n\r\n").length = 5 := by decide
      obtain ⟨fuel, rfl⟩ : ∃ k, fuel = k + 1 := ⟨fuel - 1, by omega⟩
      exact decodeChunked_end rest fuel
    · rw [formatChunks_cons b hnil, List.append_assoc]
      intro fuel hfuel
      exact decodeChunked_part b (ih hnil) hfuel

/-- Every part is in the chunks, and more. -/
theorem length_formatChunks {bs : List Bytes} (hbs : bs ≠ []) : bs.flatten.length < (formatChunks bs).length := by
  induction bs with
  | nil => exact absurd rfl hbs
  | cons b bs ih =>
    have hb := length_formatChunk b
    rw [List.flatten_cons, List.length_append]
    by_cases hnil : bs = []
    · have hlen : (bytes "0\r\n\r\n").length = 5 := by decide
      have hlast : (formatChunks (b :: bs)).length = (formatChunk b true).length + 5 := by
        rw [hnil, ← hlen, ← List.length_append, ← formatChunk_last]
        rfl
      rw [hlast, hnil]
      show b.length + 0 < _
      omega
    · have hrest := ih hnil
      rw [formatChunks_cons b hnil, List.length_append]
      omega

theorem formatChunks_eq_nil {bs : List Bytes} : formatChunks bs = [] ↔ bs = [] := by
  constructor
  · intro h
    by_cases hbs : bs = []
    · exact hbs
    · have hlen := length_formatChunks hbs
      rw [h] at hlen
      exact absurd hlen (Nat.not_lt_zero _)
  · intro h
    rw [h]
    rfl

/-! ## Header fields -/

/-- The fields that `format_response` writes. -/
def sentFields (date : Bytes) (headers : List Header) (body : Bytes) (moreBody isNoBodyStatus keepAlive : Bool) :
    List Header :=
  (if hasField "server" headers then [] else [⟨bytes "server", bytes "multiloop"⟩]) ++
  (if hasField "date" headers then [] else [⟨bytes "date", date⟩]) ++
  headers ++
  (if isNoBodyStatus ∨ moreBody ∨ hasField "content-length" headers then []
    else [⟨bytes "content-length", decimal body.length⟩]) ++
  (if !isNoBodyStatus && moreBody && !hasField "content-length" headers then
    [⟨bytes "transfer-encoding", bytes "chunked"⟩] else []) ++
  (if hasField "connection" headers then []
    else [⟨bytes "connection", if keepAlive && !asksClose headers then bytes "keep-alive" else bytes "close"⟩])

/-- The fields of a response, as a client reads them. -/
def received (headers : List Header) : List Header := headers.map fun h => readField h.line

def statusLine (status : Nat) : Bytes := bytes "HTTP/1.1 " ++ decimal status ++ bytes " " ++ reason status

theorem headerLines_append (hs hs' : List Header) : headerLines (hs ++ hs') = headerLines hs ++ headerLines hs' :=
  List.flatMap_append

theorem headerLines_one (h : Header) : headerLines [h] = h.name ++ bytes ": " ++ h.value ++ crlf := List.append_nil _

theorem headerLines_ite (c : Prop) [Decidable c] (hs hs' : List Header) :
    headerLines (if c then hs else hs') = if c then headerLines hs else headerLines hs' :=
  apply_ite headerLines c hs hs'

theorem formatResponse_eq {status : Nat} {headers : List Header} (hstatus : status < 2 ^ 16)
    (hcrlf : ∀ h ∈ headers, hasCrlf h.name = false ∧ hasCrlf h.value = false) (date body : Bytes)
    (moreBody isNoBodyStatus keepAlive : Bool) :
    formatResponse status serverHeader (dateHeader date) headers body moreBody isNoBodyStatus keepAlive =
      .ok (statusLine status ++ crlf ++ (headerLines (sentFields date headers body moreBody isNoBodyStatus keepAlive) ++
          (crlf ++ if isNoBodyStatus then []
            else if moreBody && !hasField "content-length" headers then formatChunk body moreBody else body)),
        !isNoBodyStatus && moreBody && !hasField "content-length" headers, keepAlive && !asksClose headers) := by
  have hlegal : ¬ (headers.any fun h => hasCrlf h.name || hasCrlf h.value) = true := by
    intro h
    obtain ⟨x, hx, hbad⟩ := List.any_eq_true.1 h
    rw [(hcrlf x hx).1, (hcrlf x hx).2] at hbad
    cases hbad
  have hserver : serverHeader = headerLines [⟨bytes "server", bytes "multiloop"⟩] := by decide
  have hdate : dateHeader date = headerLines [⟨bytes "date", date⟩] := by
    rw [headerLines_one, show bytes "date" ++ bytes ": " = bytes "date: " by decide]
    rfl
  have hlength : bytes "content-length: " ++ decimal body.length ++ crlf =
      headerLines [⟨bytes "content-length", decimal body.length⟩] := by
    rw [headerLines_one, show bytes "content-length" ++ bytes ": " = bytes "content-length: " by decide]
  have hcoding : bytes "transfer-encoding: chunked\r\n" =
      headerLines [⟨bytes "transfer-encoding", bytes "chunked"⟩] := by decide
  have hconn : (if keepAlive && !asksClose headers then bytes "connection: keep-alive\r\n"
      else bytes "connection: close\r\n") = headerLines [⟨bytes "connection",
        if keepAlive && !asksClose headers then bytes "keep-alive" else bytes "close"⟩] := by
    split
    · decide
    · decide
  have hrest : (if isNoBodyStatus then [] else if !isNoBodyStatus && moreBody && !hasField "content-length" headers then
      formatChunk body moreBody else body) = if isNoBodyStatus then []
        else if moreBody && !hasField "content-length" headers then formatChunk body moreBody else body := by
    cases isNoBodyStatus with
    | false => rfl
    | true => rfl
  have hnil : headerLines [] = [] := rfl
  unfold formatResponse sentFields
  rw [if_neg (by omega), if_neg hlegal]
  dsimp only
  rw [hserver, hdate, hlength, hcoding, hconn, hrest]
  simp only [headerLines_append, headerLines_ite, hnil, statusLine, List.append_assoc]

theorem hasCrlf_not_mem {bs : Bytes} (h : hasCrlf bs = false) : 13 ∉ bs := by
  intro hmem
  have hcontains : bs.contains 13 = true := List.contains_iff_mem.2 hmem
  rw [hasCrlf, hcontains] at h
  cases h

theorem decimal_not_mem (n : Nat) : 13 ∉ decimal n := fun h =>
  ne_of_hexDigit (isHexDigit_digit (isDigit_decimal n 13 h)) (by decide) rfl

theorem line_of_not_mem {h : Header} (hname : 13 ∉ h.name) (hvalue : 13 ∉ h.value) : h.line ≠ [] ∧ 13 ∉ h.line := by
  unfold Header.line
  rw [show bytes ": " = [58, 32] by decide]
  constructor
  · simp
  · simp only [List.mem_append, not_or]
    exact ⟨⟨hname, by decide⟩, hvalue⟩

/-- What `format_response` writes are lines. -/
theorem line_sentFields {headers : List Header}
    (hcrlf : ∀ h ∈ headers, hasCrlf h.name = false ∧ hasCrlf h.value = false) {date : Bytes} (hdate : hasCrlf date = false) (body : Bytes) (moreBody isNoBodyStatus keepAlive : Bool) :
    ∀ h ∈ sentFields date headers body moreBody isNoBodyStatus keepAlive, h.line ≠ [] ∧ 13 ∉ h.line := by
  have hite : ∀ {c : Prop} [Decidable c] {x h : Header}, h ∈ (if c then [] else [x]) → h = x := by
    intro c _ x h hh
    split at hh
    · cases hh
    · exact List.mem_singleton.1 hh
  intro h hh
  unfold sentFields at hh
  simp only [List.mem_append] at hh
  rcases hh with ((((hh | hh) | hh) | hh) | hh) | hh
  · rw [hite hh]
    exact line_of_not_mem (show 13 ∉ bytes "server" by decide) (show 13 ∉ bytes "multiloop" by decide)
  · rw [hite hh]
    exact line_of_not_mem (show 13 ∉ bytes "date" by decide) (hasCrlf_not_mem hdate)
  · exact line_of_not_mem (hasCrlf_not_mem (hcrlf h hh).1) (hasCrlf_not_mem (hcrlf h hh).2)
  · rw [hite hh]
    exact line_of_not_mem (show 13 ∉ bytes "content-length" by decide) (decimal_not_mem _)
  · rw [← ite_not] at hh
    rw [hite hh]
    exact line_of_not_mem (show 13 ∉ bytes "transfer-encoding" by decide) (show 13 ∉ bytes "chunked" by decide)
  · rw [hite hh]
    apply line_of_not_mem (show 13 ∉ bytes "connection" by decide)
    show 13 ∉ if keepAlive && !asksClose headers then bytes "keep-alive" else bytes "close"
    split
    · decide
    · decide

theorem readField_line {h : Header} (hname : 58 ∉ h.name) :
    readField h.line = ⟨h.name, stripOws (32 :: h.value)⟩ := by
  have hall : ∀ b ∈ h.name, decide (b ≠ 58) = true := fun b hb => decide_eq_true fun he => hname (he ▸ hb)
  have hline : h.line = h.name ++ 58 :: 32 :: h.value := by
    unfold Header.line
    rw [show bytes ": " = [58, 32] by decide, List.append_assoc]
    rfl
  unfold readField
  rw [hline, List.takeWhile_append_of_pos hall, List.dropWhile_append_of_pos hall]
  simp

theorem values_append (name : String) (hs hs' : List Header) :
    values name (hs ++ hs') = values name hs ++ values name hs' := by
  simp only [values, List.filter_append, List.map_append]

theorem values_received_append (name : String) (hs hs' : List Header) :
    values name (received (hs ++ hs')) = values name (received hs) ++ values name (received hs') := by
  rw [← values_append]
  exact congrArg (values name) List.map_append

section Named

variable {name : String} {n : Bytes} (v : Bytes)

/-- A field of another name. -/
theorem values_received_other (hn : 58 ∉ n) (hne : lowercase n ≠ bytes name) :
    values name (received [⟨n, v⟩]) = [] := by
  show values name [readField (Header.line ⟨n, v⟩)] = []
  rw [readField_line hn, values, List.filter_cons_of_neg (by simpa using hne)]
  rfl

theorem values_received_self (hn : 58 ∉ n) (heq : lowercase n = bytes name) :
    values name (received [⟨n, v⟩]) = [stripOws (32 :: v)] := by
  show values name [readField (Header.line ⟨n, v⟩)] = _
  rw [readField_line hn, values, List.filter_cons_of_pos (by simpa using heq)]
  rfl

end Named

theorem values_received_ite (name : String) (c : Prop) [Decidable c] (hs hs' : List Header) :
    values name (received (if c then hs else hs')) =
      if c then values name (received hs) else values name (received hs') :=
  apply_ite (fun l => values name (received l)) c hs hs'

section Sent

variable (date : Bytes) (headers : List Header) (body : Bytes) (moreBody isNoBodyStatus keepAlive : Bool)

theorem values_sent_length :
    values "content-length" (received (sentFields date headers body moreBody isNoBodyStatus keepAlive)) =
      values "content-length" (received headers) ++
        if isNoBodyStatus ∨ moreBody ∨ hasField "content-length" headers then []
        else [stripOws (32 :: decimal body.length)] := by
  have hnil : values "content-length" (received []) = [] := rfl
  have hself : values "content-length" (received [⟨bytes "content-length", decimal body.length⟩]) =
      [stripOws (32 :: decimal body.length)] :=
    values_received_self _ (by decide) (by decide)
  have hserver : values "content-length" (received [⟨bytes "server", bytes "multiloop"⟩]) = [] := by decide
  have hdate : values "content-length" (received [⟨bytes "date", date⟩]) = [] :=
    values_received_other _ (by decide) (by decide)
  have hcoding : values "content-length" (received [⟨bytes "transfer-encoding", bytes "chunked"⟩]) = [] := by decide
  have hconn : ∀ v, values "content-length" (received [⟨bytes "connection", v⟩]) = [] := fun v =>
    values_received_other _ (by decide) (by decide)
  unfold sentFields
  simp only [values_received_append, values_received_ite, hnil, hself, hserver, hdate, hcoding, hconn, ite_self,
    List.nil_append, List.append_nil]

theorem values_sent_coding :
    values "transfer-encoding" (received (sentFields date headers body moreBody isNoBodyStatus keepAlive)) =
      values "transfer-encoding" (received headers) ++
        if !isNoBodyStatus && moreBody && !hasField "content-length" headers then [bytes "chunked"] else [] := by
  have hnil : values "transfer-encoding" (received []) = [] := rfl
  have hself : values "transfer-encoding" (received [⟨bytes "transfer-encoding", bytes "chunked"⟩]) =
      [bytes "chunked"] := by decide
  have hserver : values "transfer-encoding" (received [⟨bytes "server", bytes "multiloop"⟩]) = [] := by decide
  have hdate : values "transfer-encoding" (received [⟨bytes "date", date⟩]) = [] :=
    values_received_other _ (by decide) (by decide)
  have hlength : values "transfer-encoding" (received [⟨bytes "content-length", decimal body.length⟩]) = [] :=
    values_received_other _ (by decide) (by decide)
  have hconn : ∀ v, values "transfer-encoding" (received [⟨bytes "connection", v⟩]) = [] := fun v =>
    values_received_other _ (by decide) (by decide)
  unfold sentFields
  simp only [values_received_append, values_received_ite, hnil, hself, hserver, hdate, hlength, hconn, ite_self,
    List.nil_append, List.append_nil]

end Sent

theorem mem_stripOws {b : UInt8} {v : Bytes} (hb : isOws b = false) (h : b ∈ v) : b ∈ stripOws v := by
  obtain ⟨p, t, hp, ht, hv⟩ := exists_strip (p := isOws) v
  rw [hv] at h
  have hout : ∀ {l : Bytes}, (∀ x ∈ l, isOws x = true) → b ∉ l := by
    intro l hl hmem
    rw [hl b hmem] at hb
    cases hb
  rcases List.mem_append.1 h with h | h
  · exact (List.mem_append.1 h).resolve_left (hout hp)
  · exact absurd h (hout ht)

theorem digits_of_number {v : Bytes} {n : Nat} (h : number? v = some n) : (stripOws v).all isDigit = true := by
  unfold number? at h
  split at h
  · rename_i hv
    exact hv.2
  · cases h

/-- A length that the application gives is a length for the client. -/
theorem values_of_hasField {headers : List Header} (h : hasField "content-length" headers = true) :
    values "content-length" (received headers) ≠ [] := by
  obtain ⟨x, hx, heq⟩ := List.any_eq_true.1 h
  have hname : lowercase x.name = bytes "content-length" := (of_decide_eq_true heq).trans (by decide)
  have hcolon : 58 ∉ x.name := by
    intro hmem
    have hlower : toAsciiLowercase 58 ∈ lowercase x.name := List.mem_map_of_mem hmem
    rw [hname] at hlower
    exact absurd hlower (by decide)
  have hread : readField x.line ∈ received headers := List.mem_map_of_mem hx
  have hmem : (readField x.line).value ∈ values "content-length" (received headers) := by
    apply List.mem_map_of_mem
    apply List.mem_filter.2
    refine ⟨hread, decide_eq_true ?_⟩
    rw [readField_line hcolon]
    exact hname
  exact List.ne_nil_of_mem hmem

/-- A length for the client is one that the application gives, if it is a
number. -/
theorem hasField_of_values {headers : List Header} {n : Nat}
    (hcl : ∀ v ∈ values "content-length" (received headers), number? v = some n)
    (h : hasField "content-length" headers = false) : values "content-length" (received headers) = [] := by
  apply List.eq_nil_iff_forall_not_mem.2
  intro v hv
  have hn := hcl v hv
  obtain ⟨f, hf, rfl⟩ := List.mem_map.1 hv
  obtain ⟨hread, hname⟩ := List.mem_filter.1 hf
  obtain ⟨x, hx, rfl⟩ := List.mem_map.1 hread
  by_cases hcolon : 58 ∈ x.name
  · -- The value begins in the name, so the colon after the name is in it.
    obtain ⟨p, t, hx, hp⟩ := List.eq_append_cons_of_mem hcolon
    have hall : ∀ b ∈ p, decide (b ≠ 58) = true := fun b hb => decide_eq_true fun he => hp (he ▸ hb)
    have hline : x.line = p ++ 58 :: (t ++ 58 :: 32 :: x.value) := by
      unfold Header.line
      rw [show bytes ": " = [58, 32] by decide, hx]
      simp
    have hvalue : (readField x.line).value = stripOws (t ++ 58 :: 32 :: x.value) := by
      unfold readField
      rw [hline, List.dropWhile_append_of_pos hall]
      simp
    have hmem : 58 ∈ stripOws (readField x.line).value := by
      rw [hvalue]
      apply mem_stripOws (by decide)
      apply mem_stripOws (by decide)
      exact List.mem_append_right t (.head _)
    have hdigit := List.all_eq_true.1 (digits_of_number hn) 58 hmem
    exact absurd hdigit (by decide)
  · rw [readField_line hcolon] at hname
    have hlower : lowercase x.name = lowercase (bytes "content-length") :=
      (of_decide_eq_true hname).trans (by decide)
    have hhas : hasField "content-length" headers = true := List.any_eq_true.2 ⟨x, hx, decide_eq_true hlower⟩
    rw [hhas] at h
    cases h

theorem statusOf_statusLine (status : Nat) : statusOf (statusLine status) = status := by
  have hline : statusLine status = bytes "HTTP/1.1" ++ 32 :: (decimal status ++ 32 :: reason status) := by
    unfold statusLine
    rw [show bytes "HTTP/1.1 " = bytes "HTTP/1.1" ++ [32] by decide, show bytes " " = [32] by decide]
    simp
  have hdigits : (decimal status ++ 32 :: reason status).takeWhile isDigit = decimal status := by
    rw [List.takeWhile_append_of_pos (isDigit_decimal status), List.takeWhile_cons_of_neg (by decide), List.append_nil]
  unfold statusOf
  rw [hline, List.dropWhile_append_of_pos (List.all_eq_true.1 rfl), List.dropWhile_cons_of_neg (by decide),
    List.drop_one, List.tail_cons, hdigits, digitsValue_decimal]

theorem statusLine_not_mem (status : Nat) : 13 ∉ statusLine status := by
  have hreason : 13 ∉ reason status := by
    unfold reason
    split <;> decide
  unfold statusLine
  simp only [List.mem_append, not_or]
  exact ⟨⟨⟨by decide, decimal_not_mem status⟩, by decide⟩, hreason⟩

theorem length_headerLines (hs : List Header) : hs.length ≤ (headerLines hs).length := by
  induction hs with
  | nil => exact Nat.le_refl 0
  | cons h hs ih =>
    have hcons : headerLines (h :: hs) = h.line ++ crlf ++ headerLines hs := rfl
    rw [hcons, List.length_cons, List.length_append, List.length_append, show crlf.length = 2 from rfl]
    omega

/-- Lines of fields are read up to the empty line. -/
theorem readFields_headerLines {hs : List Header} (hline : ∀ h ∈ hs, h.line ≠ [] ∧ 13 ∉ h.line) (rest : Bytes) :
    readFields ((headerLines hs ++ (crlf ++ rest)).length + 1) (headerLines hs ++ (crlf ++ rest)) =
      some (received hs, rest) := by
  have hlines : headerLines hs = (hs.map Header.line).flatMap (· ++ crlf) := by rw [List.flatMap_map]; rfl
  have hall : ∀ line ∈ hs.map Header.line, line ≠ [] ∧ 13 ∉ line := by
    intro line hmem
    obtain ⟨h, hh, rfl⟩ := List.mem_map.1 hmem
    exact hline h hh
  have hlen : (hs.map Header.line).length < (headerLines hs ++ (crlf ++ rest)).length + 1 := by
    have hle := length_headerLines hs
    rw [List.length_map, List.length_append]
    omega
  have hread := readFields_append hall rest hlen
  rw [← hlines, List.map_map] at hread
  exact hread

/-- A client reads the status line and the fields, and then the body. -/
theorem client_lines (method : Bytes) {line : Bytes} (hstatus : 13 ∉ line) {hs : List Header}
    (hline : ∀ h ∈ hs, h.line ≠ [] ∧ 13 ∉ h.line) (rest : Bytes) :
    client method (line ++ crlf ++ (headerLines hs ++ (crlf ++ rest))) =
      if statusOf line = 204 ∨ statusOf line = 304 ∨ method = bytes "HEAD" then some ([], rest)
      else clientBody (received hs) rest := by
  unfold client
  rw [readLine_append hstatus, Option.bind_some]
  dsimp only
  rw [readFields_headerLines hline rest, Option.bind_some]

theorem client_eq (method : Bytes) (status : Nat) {hs : List Header}
    (hline : ∀ h ∈ hs, h.line ≠ [] ∧ 13 ∉ h.line) (rest : Bytes) :
    client method (statusLine status ++ crlf ++ (headerLines hs ++ (crlf ++ rest))) =
      if isNoBody method status then some ([], rest) else clientBody (received hs) rest := by
  rw [client_lines method (statusLine_not_mem status) hline, statusOf_statusLine]
  unfold isNoBody
  simp only [decide_eq_true_eq]

/-! ## Bodies -/

theorem sendAll_cons (method date : Bytes) (r : Response) (m : Message) (ms : List Message) :
    r.sendAll method date (m :: ms) = (r.send method date m).bind fun r' => r'.sendAll method date ms := rfl

theorem bodyMessages_cons (b : Bytes) (bs : List Bytes) :
    bodyMessages (b :: bs) = .body b (bs ≠ []) :: bodyMessages bs := by
  cases bs with
  | nil => rfl
  | cons c bs => rfl

/-- The rest of a body that is begun. -/
theorem sendAll_streaming (method date : Bytes) {r : Response} (hr : r.respStatus = .streaming) {bs : List Bytes}
    (hbs : bs ≠ []) : r.sendAll method date (bodyMessages bs) =
      .ok { r with respStatus := .complete, wire := r.wire ++ formatChunks bs } := by
  induction bs generalizing r with
  | nil => exact absurd rfl hbs
  | cons b bs ih =>
    have hsend : ∀ moreBody, r.send method date (.body b moreBody) =
        .ok { r with respStatus := if moreBody then .streaming else .complete
                     wire := r.wire ++ formatChunk b moreBody } := by
      intro moreBody
      unfold Response.send
      rw [hr]
    rw [bodyMessages_cons, sendAll_cons, hsend]
    by_cases hnil : bs = []
    · rw [hnil]
      rfl
    · have hmore : decide (bs ≠ []) = true := decide_eq_true hnil
      rw [hmore, formatChunks_cons b hnil, ← List.append_assoc]
      exact ih rfl hnil

/-- What a response with a body in parts puts on the wire. -/
theorem sendAll_wire (method date : Bytes) (keepAlive : Bool) {status : Nat} {headers : List Header}
    (hstatus : status < 2 ^ 16) (hcrlf : ∀ h ∈ headers, hasCrlf h.name = false ∧ hasCrlf h.value = false)
    (b : Bytes) (bs : List Bytes) :
    ∃ r, Response.sendAll method date (.new keepAlive) (.start status headers :: bodyMessages (b :: bs)) = .ok r ∧
      r.wire = statusLine status ++ crlf ++
        (headerLines (sentFields date headers b (bs ≠ []) (isNoBody method status) keepAlive) ++
          (crlf ++ ((if isNoBody method status then []
            else if decide (bs ≠ []) && !hasField "content-length" headers then formatChunk b (bs ≠ []) else b) ++
              formatChunks bs))) := by
  have hresponse := formatResponse_eq hstatus hcrlf date b (bs ≠ []) (isNoBody method status) keepAlive
  have hstart : Response.send method date (.new keepAlive) (.start status headers) =
      .ok { Response.new keepAlive with respStatus := .headersSent status headers } := rfl
  rw [sendAll_cons, hstart, bodyMessages_cons]
  show ∃ r, Response.sendAll method date _ (.body b (bs ≠ []) :: bodyMessages bs) = .ok r ∧ _
  rw [sendAll_cons, Response.send]
  dsimp only
  rw [show ({ Response.new keepAlive with respStatus := .headersSent status headers } : Response).keepAlive = keepAlive
    from rfl, hresponse]
  by_cases hnil : bs = []
  · rw [hnil]
    exact ⟨_, rfl, by simp [formatChunks, Response.new]⟩
  · have hmore : decide (bs ≠ []) = true := decide_eq_true hnil
    rw [hmore]
    refine ⟨_, sendAll_streaming method date rfl hnil, ?_⟩
    simp only [Response.new, List.nil_append, List.append_assoc]

theorem clientBody_sized {fields : List Header} (hte : values "transfer-encoding" fields = [])
    (hne : values "content-length" fields ≠ []) {n : Nat}
    (hcl : ∀ v ∈ values "content-length" fields, number? v = some n) (rest : Bytes) :
    clientBody fields rest = if n ≤ rest.length then some (rest.take n, rest.drop n) else none := by
  obtain ⟨v, vs, hvalues⟩ := List.exists_cons_of_ne_nil hne
  rw [hvalues] at hcl
  unfold clientBody
  rw [hte, hvalues]
  show ((number? v).bind fun n => if (∀ w ∈ vs, number? w = some n) ∧ n ≤ rest.length then
    some (rest.take n, rest.drop n) else none) = _
  rw [hcl v (.head _), Option.bind_some]
  have hall : (∀ w ∈ vs, number? w = some n) ∧ n ≤ rest.length ↔ n ≤ rest.length :=
    ⟨fun h => h.2, fun h => ⟨fun w hw => hcl w (.tail _ hw), h⟩⟩
  simp only [hall]

theorem clientBody_chunked {fields : List Header} (hte : values "transfer-encoding" fields = [bytes "chunked"])
    (rest : Bytes) : clientBody fields rest = decodeChunked rest.length rest := by
  unfold clientBody
  rw [hte]
  show (if lastIsChunked (bytes "chunked") then decodeChunked rest.length rest else none) = _
  rw [if_pos (by decide)]

/-- A body in parts after which something is left, as every chunk is written. -/
theorem sized_round_trip (b : Bytes) (bs : List Bytes) :
    (if (b :: bs).flatten.length ≤ (b ++ formatChunks bs).length then
        some ((b ++ formatChunks bs).take (b :: bs).flatten.length,
          (b ++ formatChunks bs).drop (b :: bs).flatten.length)
      else none) = some ((b :: bs).flatten, []) ↔ bs = [] := by
  constructor
  · intro h
    by_cases hbs : bs = []
    · exact hbs
    · split at h
      · have hleft := congrArg (fun p => p.2.length) (Option.some.inj h)
        have hlen := length_formatChunks hbs
        dsimp only at hleft
        rw [List.length_drop, List.length_append, List.flatten_cons, List.length_append, List.length_nil] at hleft
        omega
      · cases h
  · intro h
    rw [h]
    simp [formatChunks]

/-- A client reads back a body that `send` was given, and nothing after it, if
and only if it is one part, or the response has a body and the application
gives no length. -/
theorem response_round_trip (method date : Bytes) (keepAlive : Bool) (status : Nat) (headers : List Header)
    (bodies : List Bytes) (hstatus : status < 2 ^ 16)
    (hcrlf : ∀ h ∈ headers, hasCrlf h.name = false ∧ hasCrlf h.value = false) (hdate : hasCrlf date = false)
    (hte : values "transfer-encoding" (received headers) = [])
    (hcl : isNoBody method status = false →
      ∀ v ∈ values "content-length" (received headers), number? v = some bodies.flatten.length)
    (hbodies : bodies ≠ []) :
    ∃ r, Response.sendAll method date (.new keepAlive) (.start status headers :: bodyMessages bodies) = .ok r ∧
      (client method r.wire = some (if isNoBody method status then [] else bodies.flatten, []) ↔
        bodies.length = 1 ∨ (isNoBody method status = false ∧ hasField "content-length" headers = false)) := by
  obtain ⟨b, bs, rfl⟩ := List.exists_cons_of_ne_nil hbodies
  obtain ⟨r, hsend, hwire⟩ := sendAll_wire method date keepAlive hstatus hcrlf b bs
  refine ⟨r, hsend, ?_⟩
  have hone : (b :: bs).length = 1 ↔ bs = [] := by simp
  have hcoding := values_sent_coding date headers b (bs ≠ []) (isNoBody method status) keepAlive
  have hlength := values_sent_length date headers b (bs ≠ []) (isNoBody method status) keepAlive
  rw [hwire, client_eq method status (line_sentFields hcrlf hdate b _ _ _), hone]
  rw [hte, List.nil_append] at hcoding
  cases hno : isNoBody method status with
  | true => simp [formatChunks_eq_nil]
  | false =>
    have hcl := hcl hno
    rw [hno] at hcoding hlength
    rw [if_neg Bool.false_ne_true, if_neg Bool.false_ne_true, if_neg Bool.false_ne_true]
    cases hhas : hasField "content-length" headers with
    | true =>
      -- The length is the application's, also where later parts are chunks.
      rw [hhas] at hcoding hlength
      rw [if_neg (by simp)] at hcoding
      rw [if_pos (.inr (.inr rfl)), List.append_nil] at hlength
      have hfirst : (if (decide (bs ≠ []) && !true) = true then formatChunk b (bs ≠ []) else b) = b :=
        if_neg (by simp)
      rw [hfirst, clientBody_sized hcoding (hlength ▸ values_of_hasField hhas) (hlength ▸ hcl), sized_round_trip]
      simp
    | false =>
      have hnone := hasField_of_values hcl hhas
      rw [hhas, hnone, List.nil_append] at hlength
      rw [hhas] at hcoding
      by_cases hbs : bs = []
      · rw [hbs] at hcoding hlength hcl ⊢
        rw [clientBody_sized (n := b.length) hcoding (by rw [hlength]; simp) (by rw [hlength]; simp [number_decimal])]
        simp [formatChunks]
      · have hmore : decide (bs ≠ []) = true := decide_eq_true hbs
        rw [hmore] at hcoding ⊢
        show clientBody _ (formatChunk b true ++ formatChunks bs) = _ ↔ _
        rw [clientBody_chunked hcoding, ← formatChunks_cons b hbs]
        have hdecode := decodeChunked_formatChunks (List.cons_ne_nil b bs) [] (formatChunks (b :: bs)).length
        rw [List.append_nil] at hdecode
        rw [hdecode (Nat.le_refl _)]
        simp

theorem response_round_trip_parts : ∃ r : Response,
    Response.sendAll (bytes "GET") (bytes "Thu, 01 Jan 1970 00:00:00 GMT") (.new true)
      (.start 200 [⟨bytes "content-type", bytes "text/plain"⟩] ::
        bodyMessages [bytes "hello ", [], bytes "world"]) = .ok r ∧
    client (bytes "GET") r.wire = some (bytes "hello world", []) := by
  obtain ⟨r, hsend, hclient⟩ := response_round_trip (bytes "GET") (bytes "Thu, 01 Jan 1970 00:00:00 GMT") true 200
    [⟨bytes "content-type", bytes "text/plain"⟩] [bytes "hello ", [], bytes "world"]
    (by decide) (by decide) (by decide) (by decide) (by decide) (by decide)
  exact ⟨r, hsend, hclient.2 (.inr (by decide))⟩

/-- The application's own length does not keep `send` from writing the second
part as a chunk. -/
theorem sized_parts_misread : ∃ r : Response,
    Response.sendAll (bytes "GET") (bytes "Thu, 01 Jan 1970 00:00:00 GMT") (.new true)
      (.start 200 [⟨bytes "content-length", bytes "2"⟩] :: bodyMessages [bytes "a", bytes "b"]) = .ok r ∧
    values "content-length" (received [⟨bytes "content-length", bytes "2"⟩]) = [bytes "2"] ∧
    number? (bytes "2") = some ([bytes "a", bytes "b"].flatten.length) ∧
    client (bytes "GET") r.wire = some (bytes "a1", bytes "\r\nb\r\n0\r\n\r\n") :=
  ⟨_, rfl, by decide, by decide, by decide⟩

end Multiloop.Http
