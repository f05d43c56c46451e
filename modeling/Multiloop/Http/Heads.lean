import Multiloop.Http.Wire

/-!
# Response heads

The three places that write the head of a response: `format_response`, the WSGI
server and the handshake of a websocket. The head is one line for each thing
that was to be written if no line has a line break in it; only
`format_response` looks for one.
-/

namespace Multiloop.Http

/-! ## Lines up to an empty line -/

/-- The lines before the first empty line. -/
def headLines : Nat → Bytes → Option (List Bytes)
  | 0, _ => none
  | fuel + 1, bs =>
    (readLine bs).bind fun p =>
      if p.1 = [] then some [] else (headLines fuel p.2).map (p.1 :: ·)

def writtenHead (bs : Bytes) : Option (List Bytes) := headLines (bs.length + 1) bs

/-- A line without a break is read up to its end. -/
theorem readLine_whole {line : Bytes} (h : readLine line = none) (rest : Bytes) :
    readLine (line ++ crlf ++ rest) = some (line, rest) := by
  induction line with
  | nil => rfl
  | cons b line ih =>
    unfold readLine at h
    split at h
    · cases h
    · rename_i hb
      have htail := ih (Option.map_eq_none_iff.1 h)
      have hb' : ¬ (b = 13 ∧ (line ++ crlf ++ rest).head? = some 10) := by
        rintro ⟨hcr, hlf⟩
        cases line with
        | nil => cases hlf
        | cons b' line => exact hb ⟨hcr, hlf⟩
      rw [List.cons_append, List.cons_append]
      unfold readLine
      rw [if_neg hb', htail]
      rfl

/-- What is read as a line has no break. -/
theorem readLine_unbroken {bs line rest : Bytes} (h : readLine bs = some (line, rest)) : readLine line = none := by
  induction bs generalizing line with
  | nil => cases h
  | cons b bs ih =>
    unfold readLine at h
    split at h
    · cases h
      rfl
    · rename_i hb
      obtain ⟨⟨line', rest'⟩, hread, heq⟩ := Option.map_eq_some_iff.1 h
      cases heq
      have htail := ih hread
      have hb' : ¬ (b = 13 ∧ line'.head? = some 10) := by
        rintro ⟨hcr, hlf⟩
        -- The line goes on with the bytes that follow `b`.
        cases bs with
        | nil => cases hread
        | cons b' bs =>
          unfold readLine at hread
          split at hread
          · cases hread
            cases hlf
          · obtain ⟨p, -, heq⟩ := Option.map_eq_some_iff.1 hread
            cases heq
            cases hlf
            exact hb ⟨hcr, rfl⟩
      unfold readLine
      rw [if_neg hb', htail]
      rfl

theorem headLines_unbroken {fuel : Nat} {bs : Bytes} {lines : List Bytes} (h : headLines fuel bs = some lines) :
    ∀ line ∈ lines, readLine line = none := by
  induction fuel generalizing bs lines with
  | zero => cases h
  | succ fuel ih =>
    obtain ⟨⟨first, rest⟩, hread, h⟩ := Option.bind_eq_some_iff.1 h
    dsimp only at h
    split at h
    · cases h
      exact nofun
    · obtain ⟨lines', hlines, rfl⟩ := Option.map_eq_some_iff.1 h
      intro line hline
      rcases List.mem_cons.1 hline with rfl | hline
      · exact readLine_unbroken hread
      · exact ih hlines line hline

theorem headLines_lines {lines : List Bytes} (hlines : ∀ line ∈ lines, line ≠ [] ∧ readLine line = none) (rest : Bytes)
    {fuel : Nat} (hfuel : lines.length < fuel) :
    headLines fuel (lines.flatMap (· ++ crlf) ++ (crlf ++ rest)) = some lines := by
  induction lines generalizing fuel with
  | nil =>
    obtain ⟨fuel, rfl⟩ : ∃ k, fuel = k + 1 := ⟨fuel - 1, by omega⟩
    rfl
  | cons line lines ih =>
    obtain ⟨fuel, rfl⟩ : ∃ k, fuel = k + 1 := ⟨fuel - 1, by omega⟩
    rw [List.length_cons] at hfuel
    obtain ⟨hne, hline⟩ := hlines line (.head _)
    have hrest := ih (fun l hl => hlines l (.tail _ hl)) (show lines.length < fuel by omega)
    unfold headLines
    rw [List.flatMap_cons, List.append_assoc (line ++ crlf), readLine_whole hline, Option.bind_some]
    dsimp only
    rw [if_neg hne, hrest]
    rfl

/-- Lines are read back exactly if none of them has a break in it. -/
theorem writtenHead_iff {lines : List Bytes} (hne : ∀ line ∈ lines, line ≠ []) (rest : Bytes) :
    writtenHead (lines.flatMap (· ++ crlf) ++ (crlf ++ rest)) = some lines ↔ ∀ line ∈ lines, readLine line = none := by
  constructor
  · exact headLines_unbroken
  · intro hlines
    apply headLines_lines (fun line hline => ⟨hne line hline, hlines line hline⟩)
    have hlen : ∀ ls : List Bytes, ls.length ≤ (ls.flatMap (· ++ crlf)).length := by
      intro ls
      induction ls with
      | nil => exact Nat.zero_le _
      | cons l ls ih =>
        rw [List.flatMap_cons, List.length_append, List.length_append, List.length_cons, show crlf.length = 2 from rfl]
        omega
    have hle := hlen lines
    rw [List.length_append]
    omega

/-! ## Strings -/

/-- A `str`. -/
abbrev Str : Type := List Char

def byteOf (c : Char) : UInt8 := UInt8.ofNat c.toNat

/-- `s.encode("latin1")`; none is a `UnicodeEncodeError`. -/
def latin1 (s : Str) : Option Bytes := if s.all (·.toNat < 256) then some (s.map byteOf) else none

/-- `"\r\n".join(lines)`. -/
def joinLines (lines : List Str) : Str := ['\r', '\n'].intercalate lines

/-- `"\r\n" in s`. -/
def breaks : Str → Bool
  | [] => false
  | c :: cs => c = '\r' ∧ cs.head? = some '\n' ∨ breaks cs

theorem byteOf_eq_iff {c b : Char} (hc : c.toNat < 256) (hb : b.toNat < 256) : byteOf c = byteOf b ↔ c = b := by
  constructor
  · intro h
    have hnat := congrArg UInt8.toNat h
    unfold byteOf at hnat
    rw [UInt8.toNat_ofNat', UInt8.toNat_ofNat', Nat.mod_eq_of_lt hc, Nat.mod_eq_of_lt hb] at hnat
    exact Char.toNat_inj.1 hnat
  · rintro rfl
    rfl

theorem all_latin1 {s : Str} (h : s.all (·.toNat < 256) = true) : ∀ c ∈ s, c.toNat < 256 :=
  fun c hc => of_decide_eq_true (List.all_eq_true.1 h c hc)

/-- A string has a break where its bytes have one. -/
theorem breaks_encoded {s : Str} (hs : ∀ c ∈ s, c.toNat < 256) : (readLine (s.map byteOf)).isSome = breaks s := by
  induction s with
  | nil => rfl
  | cons c s ih =>
    have hc := hs c (.head _)
    have htail := ih fun c hc => hs c (.tail _ hc)
    have hhead : (s.map byteOf).head? = some 10 ↔ s.head? = some '\n' := by
      cases s with
      | nil => exact ⟨nofun, nofun⟩
      | cons c' s =>
        have hc' := hs c' (.tail _ (.head _))
        rw [List.map_cons, List.head?_cons, List.head?_cons, Option.some.injEq, Option.some.injEq]
        exact byteOf_eq_iff hc' (b := '\n') (by decide)
    have hcr : byteOf c = 13 ↔ c = '\r' := byteOf_eq_iff hc (b := '\r') (by decide)
    rw [List.map_cons]
    unfold readLine breaks
    by_cases hbreak : c = '\r' ∧ s.head? = some '\n'
    · rw [if_pos ⟨hcr.2 hbreak.1, hhead.2 hbreak.2⟩]
      exact (decide_eq_true (.inl hbreak)).symm
    · have hbytes : ¬ (byteOf c = 13 ∧ (s.map byteOf).head? = some 10) := fun h => hbreak ⟨hcr.1 h.1, hhead.1 h.2⟩
      rw [if_neg hbytes, Option.isSome_map, htail]
      simp [hbreak]

/-- A string is put after one that does not end in the middle of a break. -/
theorem breaks_append {a : Str} (ha : '\r' ∉ a) (s : Str) : breaks (a ++ s) = breaks s := by
  induction a with
  | nil => rfl
  | cons c a ih =>
    have hc : c ≠ '\r' := fun h => ha (h ▸ .head _)
    rw [List.cons_append, breaks, ih fun h => ha (.tail _ h)]
    simp [hc]

/-- A name and a value, with `": "` between them. -/
theorem breaks_field (k v : Str) : breaks (k ++ ": ".toList ++ v) = true ↔ breaks k = true ∨ breaks v = true := by
  induction k with
  | nil =>
    have hsep : breaks (": ".toList ++ v) = breaks v := breaks_append (by decide) v
    rw [List.nil_append, hsep]
    exact ⟨.inr, fun h => h.resolve_left Bool.false_ne_true⟩
  | cons c k ih =>
    have hhead : (k ++ ": ".toList ++ v).head? = some '\n' ↔ k.head? = some '\n' := by
      cases k with
      | nil => exact ⟨nofun, nofun⟩
      | cons c' k => exact Iff.rfl
    rw [List.cons_append, List.cons_append, breaks, breaks, decide_eq_true_iff, decide_eq_true_iff, ih, hhead]
    exact or_assoc.symm

theorem joinLines_end (line : Str) (lines : List Str) :
    joinLines (line :: lines) ++ ['\r', '\n'] = (line :: lines).flatMap (· ++ ['\r', '\n']) := by
  unfold joinLines
  induction lines generalizing line with
  | nil => simp
  | cons line' lines ih =>
    have hrest := ih line'
    rw [List.intercalate_cons_cons, List.flatMap_cons, ← hrest, List.append_assoc, List.append_assoc]

/-- Two empty lines at the end. -/
theorem joinLines_empty (line : Str) (lines : List Str) :
    joinLines (line :: lines ++ [[], []]) = joinLines (line :: lines) ++ "\r\n\r\n".toList := by
  unfold joinLines
  induction lines generalizing line with
  | nil =>
    rw [List.singleton_append, List.intercalate_cons_cons, List.intercalate_cons_cons, List.intercalate_singleton,
      List.intercalate_singleton, List.append_nil, List.append_assoc]
    rfl
  | cons line' lines ih =>
    have hrest := ih line'
    rw [List.cons_append] at hrest
    rw [List.cons_append, List.cons_append, List.intercalate_cons_cons, List.intercalate_cons_cons, hrest,
      List.append_assoc, List.append_assoc, List.append_assoc]

/-- The bytes of lines up to an empty line. -/
theorem latin1_lines {line : Str} {lines : List Str} {bs : Bytes}
    (h : latin1 (joinLines (line :: lines) ++ "\r\n\r\n".toList) = some bs) :
    (∀ l ∈ line :: lines, ∀ c ∈ l, c.toNat < 256) ∧
      bs = ((line :: lines).map (·.map byteOf)).flatMap (· ++ crlf) ++ crlf := by
  have htext : joinLines (line :: lines) ++ "\r\n\r\n".toList =
      (line :: lines).flatMap (· ++ ['\r', '\n']) ++ ['\r', '\n'] := by
    rw [← joinLines_end, List.append_assoc]
    rfl
  rw [htext] at h
  unfold latin1 at h
  split at h
  · rename_i hall
    cases h
    refine ⟨fun l hl c hc => all_latin1 hall c ?_, ?_⟩
    · exact List.mem_append_left _ (List.mem_flatMap.2 ⟨l, hl, List.mem_append_left _ hc⟩)
    · rw [List.map_append, List.map_flatMap, List.flatMap_map]
      simp only [List.map_append]
      rfl
  · cases h

/-! ## The WSGI server -/

/-- What the thread that runs the application sends to the event loop. -/
inductive ChunkMessage
  | start (status : Str) (headers : List (Str × Str))
  | data (chunk : Bytes)
  | error
  | fin

/-- `any(k.lower() == name for k, _ in headers)`, for a name of ASCII letters. -/
def hasName (name : String) (headers : List (Str × Str)) : Bool :=
  headers.any fun h => h.1.map Char.toLower = name.toList

/-- The headers that are sent before a chunk of the body. -/
def dataHeaders (headers : List (Str × Str)) : List (Str × Str) :=
  (if hasName "content-length" headers ∨ hasName "transfer-encoding" headers then headers
    else headers ++ [("transfer-encoding".toList, "chunked".toList)]) ++ [("connection".toList, "close".toList)]

/-- The headers that are sent without a body. -/
def endHeaders (headers : List (Str × Str)) : List (Str × Str) :=
  (if hasName "content-length" headers then headers
    else headers ++ [("content-length".toList, "0".toList)]) ++ [("connection".toList, "close".toList)]

def fieldLine (h : Str × Str) : Str := h.1 ++ ": ".toList ++ h.2

/-- `header_lines`. -/
def wsgiLines (status : Str) (headers : List (Str × Str)) : List Str :=
  ("HTTP/1.1 ".toList ++ status) :: headers.map fieldLine

def wsgiError : List Str :=
  ["HTTP/1.1 500 Internal Server Error".toList, "content-type: text/plain".toList, "content-length: 21".toList,
    "connection: close".toList]

/-- The variables of the loop of `_handle_connection` that writes the response. -/
structure WsgiResponse where
  headersSent : Bool
  isChunked : Bool
  activeStatus : Str
  responseHeaders : List (Str × Str)
  wire : Bytes
  /-- The loop has ended. -/
  done : Bool

namespace WsgiResponse

def new : WsgiResponse where
  headersSent := false
  isChunked := false
  activeStatus := "200 OK".toList
  responseHeaders := []
  wire := []
  done := false

variable (w : WsgiResponse)

/-- The head, unless it cannot be encoded. -/
def writeHead (headers : List (Str × Str)) (isChunked : Bool) : Option WsgiResponse :=
  (latin1 (joinLines (wsgiLines w.activeStatus headers) ++ "\r\n\r\n".toList)).map fun bs =>
    { w with headersSent := true, isChunked, responseHeaders := headers, wire := w.wire ++ bs }

def writeChunk (chunk : Bytes) : WsgiResponse :=
  { w with wire := w.wire ++ if w.isChunked then upperHex chunk.length ++ crlf ++ chunk ++ crlf else chunk }

/-- One round of the loop; none is an exception. -/
def step : ChunkMessage → Option WsgiResponse
  | .start status headers => some { w with activeStatus := status, responseHeaders := headers }
  | .data chunk =>
    if w.headersSent then some (w.writeChunk chunk)
    else (w.writeHead (dataHeaders w.responseHeaders)
      (!(hasName "content-length" w.responseHeaders || hasName "transfer-encoding" w.responseHeaders))).map
        (·.writeChunk chunk)
  | .error =>
    some { w with
      headersSent := true
      done := true
      wire := w.wire ++ if w.headersSent then [] else
        wsgiError.flatMap (fun l => l.map byteOf ++ crlf) ++ (crlf ++ bytes "Internal Server Error") }
  | .fin =>
    if w.headersSent then
      some { w with done := true, wire := w.wire ++ if w.isChunked then bytes "0\r\n\r\n" else [] }
    else (w.writeHead (endHeaders w.responseHeaders) w.isChunked).map fun w => { w with done := true }

/-- The loop over the messages. -/
def run (w : WsgiResponse) : List ChunkMessage → Option WsgiResponse
  | [] => some w
  | m :: ms => if w.done then some w else (w.step m).bind fun w => w.run ms

end WsgiResponse

/-- The status and the headers in effect when the head is written, and the lines
of the head. -/
def sentHead (status : Str) (headers : List (Str × Str)) :
    List ChunkMessage → Option (Option (Str × List (Str × Str)) × List Str)
  | [] => none
  | .start status headers :: ms => sentHead status headers ms
  | .data _ :: _ => some (some (status, headers), wsgiLines status (dataHeaders headers))
  | .fin :: _ => some (some (status, headers), wsgiLines status (endHeaders headers))
  | .error :: _ => some (none, wsgiError)

namespace WsgiResponse

variable {w w' : WsgiResponse}

/-- Once the head is written, only more is written after it. -/
theorem step_sent (h : w.headersSent = true) {m : ChunkMessage} (hst : w.step m = some w') :
    w'.headersSent = true ∧ ∃ more, w'.wire = w.wire ++ more := by
  cases m with
  | start status headers =>
    cases hst
    exact ⟨h, [], (List.append_nil _).symm⟩
  | data chunk =>
    have hchunk : some (w.writeChunk chunk) = some w' := (if_pos h).symm.trans hst
    cases hchunk
    exact ⟨h, _, rfl⟩
  | error =>
    cases hst
    exact ⟨rfl, _, rfl⟩
  | fin =>
    have hend : some _ = some w' := (if_pos h).symm.trans hst
    cases hend
    exact ⟨h, _, rfl⟩

theorem run_sent (h : w.headersSent = true) {ms : List ChunkMessage} (hr : w.run ms = some w') :
    ∃ more, w'.wire = w.wire ++ more := by
  induction ms generalizing w with
  | nil =>
    cases hr
    exact ⟨[], (List.append_nil _).symm⟩
  | cons m ms ih =>
    unfold run at hr
    split at hr
    · cases hr
      exact ⟨[], (List.append_nil _).symm⟩
    · obtain ⟨w₁, hst, hr⟩ := Option.bind_eq_some_iff.1 hr
      obtain ⟨hsent, more, hmore⟩ := step_sent h hst
      obtain ⟨more', hmore'⟩ := ih hsent hr
      exact ⟨more ++ more', by rw [hmore', hmore, List.append_assoc]⟩

/-- A head that is written first. -/
theorem writeHead_lines (hwire : w.wire = []) {headers : List (Str × Str)} {isChunked : Bool} {w₁ : WsgiResponse}
    (h : w.writeHead headers isChunked = some w₁) :
    (∀ l ∈ wsgiLines w.activeStatus headers, ∀ c ∈ l, c.toNat < 256) ∧ w₁.headersSent = true ∧
      w₁.wire = ((wsgiLines w.activeStatus headers).map (·.map byteOf)).flatMap (· ++ crlf) ++ crlf := by
  obtain ⟨bs, hbs, rfl⟩ := Option.map_eq_some_iff.1 h
  obtain ⟨hall, hbytes⟩ := latin1_lines hbs
  refine ⟨hall, rfl, ?_⟩
  show w.wire ++ bs = _
  rw [hwire, hbytes]
  rfl

/-- The head that a run writes. -/
theorem run_head {ms : List ChunkMessage} {source : Option (Str × List (Str × Str))} {lines : List Str}
    (hsent : w.headersSent = false) (hdone : w.done = false) (hwire : w.wire = []) (hr : w.run ms = some w')
    (hhead : sentHead w.activeStatus w.responseHeaders ms = some (source, lines)) :
    (∀ l ∈ lines, ∀ c ∈ l, c.toNat < 256) ∧
      ∃ rest, w'.wire = (lines.map (·.map byteOf)).flatMap (· ++ crlf) ++ (crlf ++ rest) := by
  induction ms generalizing w with
  | nil => cases hhead
  | cons m ms ih =>
    unfold run at hr
    rw [hdone] at hr
    obtain ⟨w₁, hst, hr⟩ := Option.bind_eq_some_iff.1 hr
    unfold step at hst
    cases m with
    | start status headers =>
      cases hst
      exact @ih { w with activeStatus := status, responseHeaders := headers } hsent hdone hwire hr hhead
    | data chunk =>
      cases hhead
      dsimp only at hst
      rw [hsent] at hst
      obtain ⟨w₀, hw₀, rfl⟩ := Option.map_eq_some_iff.1 hst
      obtain ⟨hall, hsent₀, hwire₀⟩ := writeHead_lines hwire hw₀
      obtain ⟨more, hmore⟩ := run_sent (w := w₀.writeChunk chunk) hsent₀ hr
      obtain ⟨part, hpart⟩ : ∃ part, (w₀.writeChunk chunk).wire = w₀.wire ++ part := ⟨_, rfl⟩
      refine ⟨hall, part ++ more, ?_⟩
      rw [hmore, hpart, hwire₀, List.append_assoc, List.append_assoc]
    | error =>
      cases hhead
      cases hst
      obtain ⟨more, hmore⟩ := run_sent rfl hr
      have hall : wsgiError.all (fun l => l.all (·.toNat < 256)) = true := by decide
      refine ⟨fun l hl => all_latin1 (List.all_eq_true.1 hall l hl), bytes "Internal Server Error" ++ more, ?_⟩
      rw [hmore]
      dsimp only
      rw [hsent, hwire, List.flatMap_map]
      simp only [Bool.false_eq_true, if_false, List.nil_append, List.append_assoc]
    | fin =>
      cases hhead
      dsimp only at hst
      rw [hsent] at hst
      obtain ⟨w₀, hw₀, rfl⟩ := Option.map_eq_some_iff.1 hst
      obtain ⟨hall, hsent₀, hwire₀⟩ := writeHead_lines hwire hw₀
      obtain ⟨more, hmore⟩ := run_sent (w := { w₀ with done := true }) hsent₀ hr
      refine ⟨hall, more, ?_⟩
      rw [hmore]
      show w₀.wire ++ more = _
      rw [hwire₀, List.append_assoc]

end WsgiResponse

/-! ## The handshake of a websocket -/

/-- `_accept_key`, which is written in base 64. -/
structure AcceptKey where
  text : Str
  base64 : text.all (fun c => c.isAlphanum || c = '+' || c = '/' || c = '=') = true

/-- `res_lines`, before the two empty ones. -/
def acceptLines (key : AcceptKey) (subprotocol : Option Str) : List Str :=
  ["HTTP/1.1 101 Switching Protocols".toList, "Upgrade: websocket".toList, "Connection: Upgrade".toList,
    "Sec-WebSocket-Accept: ".toList ++ key.text] ++
  (match subprotocol with
    | some subproto => if subproto = [] then [] else ["Sec-WebSocket-Protocol: ".toList ++ subproto]
    | none => [])

def acceptResponse (key : AcceptKey) (subprotocol : Option Str) : Option Bytes :=
  latin1 (joinLines (acceptLines key subprotocol ++ [[], []]))

/-- A status and headers without a line break. -/
def SourceUnbroken : Option (Str × List (Str × Str)) → Prop
  | some (status, headers) => breaks status = false ∧ ∀ h ∈ headers, breaks h.1 = false ∧ breaks h.2 = false
  | none => True

/-! ## The three heads -/

/-- A response that an application has asked for, and the rest of what its
writer is given. -/
inductive HeadWrite
  | response (statusCode : Nat) (date : { d : Bytes // hasCrlf d = false }) (headers : List Header) (body : Bytes)
      (moreBody isNoBodyStatus keepAlive : Bool)
  | wsgi (messages : List ChunkMessage)
  | accept (key : AcceptKey) (subprotocol : Option Str)

namespace HeadWrite

/-- The bytes that are written, unless the writer raises an exception or writes
no head. -/
def written : HeadWrite → Option Bytes
  | .response statusCode date headers body moreBody isNoBodyStatus keepAlive =>
    match formatResponse statusCode serverHeader (dateHeader date) headers body moreBody isNoBodyStatus keepAlive with
    | .ok (bs, _, _) => some bs
    | .error _ => none
  | .wsgi messages => (WsgiResponse.new.run messages).bind fun w => if w.headersSent then some w.wire else none
  | .accept key subprotocol => acceptResponse key subprotocol

/-- A line for each thing that is to be written. -/
def lines : HeadWrite → List Bytes
  | .response statusCode date headers body moreBody isNoBodyStatus keepAlive =>
    statusLine statusCode :: (sentFields date headers body moreBody isNoBodyStatus keepAlive).map Header.line
  | .wsgi messages =>
    match sentHead WsgiResponse.new.activeStatus WsgiResponse.new.responseHeaders messages with
    | some (_, lines) => lines.map (·.map byteOf)
    | none => []
  | .accept key subprotocol => (acceptLines key subprotocol).map (·.map byteOf)

/-- No string that nobody looks at has a line break. -/
def Unbroken : HeadWrite → Prop
  | .response .. => True
  | .wsgi messages => ∀ source lines,
    sentHead WsgiResponse.new.activeStatus WsgiResponse.new.responseHeaders messages = some (source, lines) →
      SourceUnbroken source
  | .accept _ subprotocol => ∀ s, subprotocol = some s → breaks s = false

end HeadWrite

theorem readLine_none {line : Bytes} (h : 13 ∉ line) : readLine line = none := by
  induction line with
  | nil => rfl
  | cons b line ih =>
    have hb : ¬ (b = 13 ∧ line.head? = some 10) := fun hb => h (hb.1 ▸ .head _)
    unfold readLine
    rw [if_neg hb, ih fun hmem => h (.tail _ hmem)]
    rfl

/-- Lines are read back exactly if no string has a break. -/
theorem writtenHead_encoded {lines : List Str} (hne : ∀ l ∈ lines, l ≠ []) (hall : ∀ l ∈ lines, ∀ c ∈ l, c.toNat < 256)
    (rest : Bytes) :
    writtenHead ((lines.map (·.map byteOf)).flatMap (· ++ crlf) ++ (crlf ++ rest)) = some (lines.map (·.map byteOf)) ↔
      ∀ l ∈ lines, breaks l = false := by
  have hbytes : ∀ line ∈ lines.map (·.map byteOf), line ≠ [] := by
    intro line hline
    obtain ⟨l, hl, rfl⟩ := List.mem_map.1 hline
    exact fun h => hne l hl (List.map_eq_nil_iff.1 h)
  rw [writtenHead_iff hbytes rest]
  constructor
  · intro h l hl
    rw [← breaks_encoded (hall l hl), h _ (List.mem_map_of_mem hl)]
    rfl
  · intro h line hline
    obtain ⟨l, hl, rfl⟩ := List.mem_map.1 hline
    have hb := breaks_encoded (hall l hl)
    rw [h l hl] at hb
    exact Option.not_isSome_iff_eq_none.1 (Bool.eq_false_iff.1 hb)

/-- The lines of a head, if no header that is put in has a break. -/
theorem wsgiLines_unbroken (status : Str) {headers added : List (Str × Str)}
    (hadded : ∀ h ∈ added, breaks h.1 = false ∧ breaks h.2 = false) :
    (∀ l ∈ wsgiLines status (headers ++ added), breaks l = false) ↔
      breaks status = false ∧ ∀ h ∈ headers, breaks h.1 = false ∧ breaks h.2 = false := by
  have hstatus : breaks ("HTTP/1.1 ".toList ++ status) = breaks status := breaks_append (by decide) status
  have hfield : ∀ h : Str × Str, breaks (fieldLine h) = false ↔ breaks h.1 = false ∧ breaks h.2 = false := by
    intro h
    have hiff := breaks_field h.1 h.2
    rw [← Bool.not_eq_true, ← Bool.not_eq_true, ← Bool.not_eq_true, fieldLine, hiff, not_or]
  unfold wsgiLines
  constructor
  · intro hall
    refine ⟨hstatus.symm.trans (hall _ (.head _)), fun h hh => (hfield h).1 (hall _ (.tail _ ?_))⟩
    exact List.mem_map_of_mem (List.mem_append_left _ hh)
  · rintro ⟨hs, hall⟩ l hl
    rcases List.mem_cons.1 hl with rfl | hl
    · exact hstatus.trans hs
    · obtain ⟨h, hh, rfl⟩ := List.mem_map.1 hl
      rcases List.mem_append.1 hh with hh | hh
      · exact (hfield h).2 (hall h hh)
      · exact (hfield h).2 (hadded h hh)

theorem wsgiLines_ne_nil (status : Str) (headers : List (Str × Str)) : ∀ l ∈ wsgiLines status headers, l ≠ [] := by
  intro l hl
  rcases List.mem_cons.1 hl with rfl | hl
  · exact List.append_ne_nil_of_left_ne_nil (by decide) status
  · obtain ⟨h, -, rfl⟩ := List.mem_map.1 hl
    unfold fieldLine
    rw [List.append_assoc]
    exact List.append_ne_nil_of_right_ne_nil _ (List.append_ne_nil_of_left_ne_nil (by decide) _)

/-- What the server adds to the headers. -/
theorem dataHeaders_eq (headers : List (Str × Str)) : ∃ added, dataHeaders headers = headers ++ added ∧
    ∀ h ∈ added, breaks h.1 = false ∧ breaks h.2 = false := by
  unfold dataHeaders
  split
  · exact ⟨_, rfl, by decide⟩
  · exact ⟨_, List.append_assoc _ _ _, by decide⟩

theorem endHeaders_eq (headers : List (Str × Str)) : ∃ added, endHeaders headers = headers ++ added ∧
    ∀ h ∈ added, breaks h.1 = false ∧ breaks h.2 = false := by
  unfold endHeaders
  split
  · exact ⟨_, rfl, by decide⟩
  · exact ⟨_, List.append_assoc _ _ _, by decide⟩

/-- The lines of the head that a run of messages writes. -/
theorem sentHead_lines {status : Str} {headers : List (Str × Str)} {ms : List ChunkMessage}
    {source : Option (Str × List (Str × Str))} {lines : List Str}
    (h : sentHead status headers ms = some (source, lines)) :
    (∀ l ∈ lines, l ≠ []) ∧ ((∀ l ∈ lines, breaks l = false) ↔ SourceUnbroken source) := by
  induction ms generalizing status headers with
  | nil => cases h
  | cons m ms ih =>
    cases m with
    | start status' headers' => exact ih h
    | data chunk =>
      cases h
      obtain ⟨added, heq, hadded⟩ := dataHeaders_eq headers
      rw [heq]
      exact ⟨wsgiLines_ne_nil _ _, wsgiLines_unbroken status hadded⟩
    | fin =>
      cases h
      obtain ⟨added, heq, hadded⟩ := endHeaders_eq headers
      rw [heq]
      exact ⟨wsgiLines_ne_nil _ _, wsgiLines_unbroken status hadded⟩
    | error =>
      cases h
      exact ⟨by decide, iff_of_true (by decide) trivial⟩

/-- Without a message that asks for it, no head is written. -/
theorem WsgiResponse.run_headless {w w' : WsgiResponse} {ms : List ChunkMessage} (hsent : w.headersSent = false)
    (hr : w.run ms = some w') (h : sentHead w.activeStatus w.responseHeaders ms = none) : w'.headersSent = false := by
  induction ms generalizing w with
  | nil =>
    cases hr
    exact hsent
  | cons m ms ih =>
    unfold run at hr
    split at hr
    · cases hr
      exact hsent
    · obtain ⟨w₁, hst, hr⟩ := Option.bind_eq_some_iff.1 hr
      cases m with
      | start status headers =>
        cases hst
        exact @ih { w with activeStatus := status, responseHeaders := headers } hsent hr h
      | data chunk => cases h
      | fin => cases h
      | error => cases h

theorem formatResponse_ok {status : Nat} {server date : Bytes} {headers : List Header} {body : Bytes}
    {moreBody isNoBodyStatus keepAlive : Bool} {r : Bytes × Bool × Bool}
    (h : formatResponse status server date headers body moreBody isNoBodyStatus keepAlive = .ok r) :
    status < 2 ^ 16 ∧ ∀ h ∈ headers, hasCrlf h.name = false ∧ hasCrlf h.value = false := by
  unfold formatResponse at h
  split at h
  · cases h
  rename_i hstatus
  split at h
  · cases h
  rename_i hlegal
  refine ⟨Nat.not_le.1 hstatus, fun x hx => ?_⟩
  have hno : ¬ (hasCrlf x.name || hasCrlf x.value) = true := fun hbad => hlegal (List.any_eq_true.2 ⟨x, hx, hbad⟩)
  rw [Bool.or_eq_true, not_or, Bool.not_eq_true, Bool.not_eq_true] at hno
  exact hno

namespace HeadWrite

theorem exact_response {statusCode : Nat} {date : { d : Bytes // hasCrlf d = false }} {headers : List Header}
    {body : Bytes} {moreBody isNoBodyStatus keepAlive : Bool} {bs : Bytes}
    (h : (response statusCode date headers body moreBody isNoBodyStatus keepAlive).written = some bs) :
    writtenHead bs = some (response statusCode date headers body moreBody isNoBodyStatus keepAlive).lines := by
  unfold written at h
  dsimp only at h
  split at h
  · rename_i bs' _ _ hok
    cases h
    obtain ⟨hstatus, hcrlf⟩ := formatResponse_ok hok
    rw [formatResponse_eq hstatus hcrlf] at hok
    cases hok
    have hfields := line_sentFields hcrlf date.2 body moreBody isNoBodyStatus keepAlive
    have hbytes : ∀ hs : List Header, headerLines hs = (hs.map Header.line).flatMap (· ++ crlf) := by
      intro hs
      rw [List.flatMap_map]
      rfl
    have hlines : ∀ line ∈ statusLine statusCode ::
        (sentFields date headers body moreBody isNoBodyStatus keepAlive).map Header.line, line ≠ [] ∧ 13 ∉ line := by
      intro line hline
      rcases List.mem_cons.1 hline with rfl | hline
      · refine ⟨?_, statusLine_not_mem statusCode⟩
        unfold statusLine
        rw [List.append_assoc, List.append_assoc]
        exact List.append_ne_nil_of_left_ne_nil (by decide) _
      · obtain ⟨h, hh, rfl⟩ := List.mem_map.1 hline
        exact hfields h hh
    rw [hbytes, ← List.append_assoc]
    exact (writtenHead_iff (fun line hline => (hlines line hline).1) _).2 fun line hline =>
      readLine_none (hlines line hline).2
  · cases h

theorem exact_wsgi {messages : List ChunkMessage} {bs : Bytes} (h : (wsgi messages).written = some bs) :
    writtenHead bs = some (wsgi messages).lines ↔ (wsgi messages).Unbroken := by
  obtain ⟨w, hrun, hw⟩ := Option.bind_eq_some_iff.1 h
  split at hw
  · rename_i hsent
    cases hw
    unfold lines Unbroken
    dsimp only
    cases hhead : sentHead WsgiResponse.new.activeStatus WsgiResponse.new.responseHeaders messages with
    | none =>
      rw [WsgiResponse.run_headless rfl hrun hhead] at hsent
      cases hsent
    | some p =>
      obtain ⟨source, lines⟩ := p
      obtain ⟨hall, rest, hwire⟩ := WsgiResponse.run_head rfl rfl rfl hrun hhead
      obtain ⟨hne, hsource⟩ := sentHead_lines hhead
      dsimp only
      rw [hwire, writtenHead_encoded hne hall rest, hsource]
      constructor
      · rintro hunbroken source' lines' heq
        cases heq
        exact hunbroken
      · exact fun hunbroken => hunbroken source lines rfl
  · cases hw

theorem exact_accept {key : AcceptKey} {subprotocol : Option Str} {bs : Bytes}
    (h : (accept key subprotocol).written = some bs) :
    writtenHead bs = some (accept key subprotocol).lines ↔ (accept key subprotocol).Unbroken := by
  have hkey : breaks ("Sec-WebSocket-Accept: ".toList ++ key.text) = false := by
    have hstart : breaks ("Sec-WebSocket-Accept: ".toList ++ key.text) = breaks key.text := breaks_append (by decide) _
    have hcr : '\r' ∉ key.text := fun hmem => absurd (List.all_eq_true.1 key.base64 _ hmem) (by decide)
    have hempty : breaks (key.text ++ []) = breaks [] := breaks_append hcr []
    rw [List.append_nil] at hempty
    exact hstart.trans hempty
  have hsub : ∀ s : Str, breaks ("Sec-WebSocket-Protocol: ".toList ++ s) = breaks s := breaks_append (by decide)
  obtain ⟨line, rest, hcons⟩ : ∃ line rest, acceptLines key subprotocol = line :: rest := ⟨_, _, rfl⟩
  have hbytes : acceptResponse key subprotocol = some bs := h
  unfold acceptResponse at hbytes
  rw [hcons, joinLines_empty] at hbytes
  obtain ⟨hall, rfl⟩ := latin1_lines hbytes
  rw [← hcons] at hall ⊢
  have hne : ∀ l ∈ acceptLines key subprotocol, l ≠ [] := by
    intro l hl
    unfold acceptLines at hl
    rcases List.mem_append.1 hl with hl | hl
    · simp only [List.mem_cons, List.not_mem_nil, or_false] at hl
      rcases hl with rfl | rfl | rfl | rfl
      · decide
      · decide
      · decide
      · exact List.append_ne_nil_of_left_ne_nil (by decide) _
    · split at hl
      · split at hl
        · cases hl
        · rw [List.mem_singleton.1 hl]
          exact List.append_ne_nil_of_left_ne_nil (by decide) _
      · cases hl
  have hexact := writtenHead_encoded hne hall []
  rw [List.append_nil] at hexact
  unfold lines
  rw [hexact]
  unfold Unbroken acceptLines
  dsimp only
  constructor
  · rintro hall s rfl
    dsimp only at hall
    split at hall
    · rename_i hnil
      rw [hnil]
      rfl
    · rw [← hsub s]
      exact hall _ (List.mem_append_right _ (.head _))
  · intro hnone l hl
    rcases List.mem_append.1 hl with hl | hl
    · simp only [List.mem_cons, List.not_mem_nil, or_false] at hl
      rcases hl with rfl | rfl | rfl | rfl
      · decide
      · decide
      · decide
      · exact hkey
    · split at hl
      · split at hl
        · cases hl
        · rw [List.mem_singleton.1 hl, hsub]
          exact hnone _ rfl
      · cases hl

/-- The head that is written is one line for each thing that was to be written
exactly if no string has a line break that nobody looks for. -/
theorem exact_iff (w : HeadWrite) {bs : Bytes} (h : w.written = some bs) :
    writtenHead bs = some w.lines ↔ w.Unbroken := by
  cases w with
  | response => exact iff_of_true (exact_response h) trivial
  | wsgi messages => exact exact_wsgi h
  | accept key subprotocol => exact exact_accept h

/-- An application that takes the protocol `chat`. -/
def acceptChat : HeadWrite :=
  .accept { text := "s3pPLMBiTxaQ9kYGzzhZRbK+xOo=".toList, base64 := by decide } (some "chat".toList)

theorem exact_iff_chat :
    ∃ bs, acceptChat.written = some bs ∧ (writtenHead bs = some acceptChat.lines ↔ acceptChat.Unbroken) := by
  obtain ⟨bs, hbs⟩ := Option.isSome_iff_exists.1 (show acceptChat.written.isSome = true by decide +kernel)
  exact ⟨bs, hbs, exact_iff acceptChat hbs⟩

/-- A WSGI application that puts a line break into a header. -/
def wsgiInjection : HeadWrite :=
  .wsgi [.start "200 OK".toList [("x-name".toList, "val\r\nInjected-Header: evil".toList)], .data (bytes "ok"), .fin]

/-- A client sees a header that no one has set. -/
theorem injected_header :
    ((wsgiInjection.written.bind writtenHead).map fun lines => decide (bytes "Injected-Header: evil" ∈ lines)) = some true ∧
      bytes "Injected-Header: evil" ∉ wsgiInjection.lines ∧
      ∃ bs, wsgiInjection.written = some bs ∧ writtenHead bs ≠ some wsgiInjection.lines := by
  refine ⟨by decide +kernel, by decide +kernel, ?_⟩
  obtain ⟨bs, hbs⟩ := Option.isSome_iff_exists.1 (show wsgiInjection.written.isSome = true by decide +kernel)
  have hne : wsgiInjection.written.bind writtenHead ≠ some wsgiInjection.lines := by decide +kernel
  rw [hbs] at hne
  exact ⟨bs, hbs, hne⟩

end HeadWrite

end Multiloop.Http
