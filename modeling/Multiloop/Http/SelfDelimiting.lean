import Multiloop.Http.Advertised

/-!
# Responses that end where they say

A client that has read a whole response knows where it ends, whatever follows
it on the wire. `format_response` and `format_chunk` make whole responses of
what an application sends if its fields do not say otherwise. The responses
that the engine writes itself, and the one to a request whose application
raised, are whole for every client that did not ask with `HEAD`.
-/

namespace Multiloop.Http

/-- A status that ends the response to a request. -/
def IsFinal (status : Nat) : Prop := 200 ≤ status ∧ status < 1000

/-- A response to a request with this method, of which a client knows the end. -/
structure Whole (method response : Bytes) : Prop where
  final : ∃ line rest, readLine response = some (line, rest) ∧ IsFinal (statusOf line)
  ends : ∃ body, ∀ rest, client method (response ++ rest) = some (body, rest)

/-- What is written of a response: it is whole once the parts of its body that
are left are written, whatever they are. -/
def Streams (method wire : Bytes) : Prop := ∀ parts, parts ≠ [] → Whole method (wire ++ formatChunks parts)

theorem Streams.more {method wire : Bytes} (h : Streams method wire) (body : Bytes) :
    Streams method (wire ++ formatChunk body true) := by
  intro parts hparts
  rw [List.append_assoc, ← formatChunks_cons body hparts]
  exact h (body :: parts) (List.cons_ne_nil body parts)

theorem Streams.last {method wire : Bytes} (h : Streams method wire) (body : Bytes) :
    Whole method (wire ++ formatChunk body false) := h [body] (List.cons_ne_nil body [])

/-! ## Heads -/

section Heads

variable {method : Bytes} {status : Nat} {fields : List Header}

theorem whole_lines (body : Bytes) (hfinal : IsFinal status) (hline : ∀ h ∈ fields, h.line ≠ [] ∧ 13 ∉ h.line)
    {tail : Bytes} (hbody : ∀ rest, (if isNoBody method status then some ([], tail ++ rest)
      else clientBody (received fields) (tail ++ rest)) = some (body, rest)) :
    Whole method (statusLine status ++ crlf ++ (headerLines fields ++ (crlf ++ tail))) where
  final := by
    refine ⟨statusLine status, headerLines fields ++ (crlf ++ tail), readLine_append (statusLine_not_mem status) _, ?_⟩
    rwa [statusOf_statusLine]
  ends := by
    refine ⟨body, fun rest => ?_⟩
    rw [List.append_assoc, List.append_assoc (headerLines fields), List.append_assoc crlf, client_eq method status hline]
    exact hbody rest

/-- A response that has no body. -/
theorem whole_empty (hfinal : IsFinal status) (hline : ∀ h ∈ fields, h.line ≠ [] ∧ 13 ∉ h.line)
    (hno : isNoBody method status = true) :
    Whole method (statusLine status ++ crlf ++ (headerLines fields ++ (crlf ++ []))) :=
  whole_lines [] hfinal hline fun rest => by rw [if_pos hno, List.nil_append]

/-- A response whose fields give the length of its body. -/
theorem whole_sized (hfinal : IsFinal status) (hline : ∀ h ∈ fields, h.line ≠ [] ∧ 13 ∉ h.line)
    (hno : isNoBody method status = false) (hcoding : values "transfer-encoding" (received fields) = [])
    (hne : values "content-length" (received fields) ≠ []) {body : Bytes}
    (hlength : ∀ v ∈ values "content-length" (received fields), number? v = some body.length) :
    Whole method (statusLine status ++ crlf ++ (headerLines fields ++ (crlf ++ body))) := by
  refine whole_lines body hfinal hline fun rest => ?_
  have hle : body.length ≤ (body ++ rest).length := by
    rw [List.length_append]
    exact Nat.le_add_right _ _
  rw [hno, if_neg Bool.false_ne_true, clientBody_sized hcoding hne hlength, if_pos hle, List.take_left, List.drop_left]

/-- A response whose body is chunked, after its first part. -/
theorem streams_chunked (hfinal : IsFinal status) (hline : ∀ h ∈ fields, h.line ≠ [] ∧ 13 ∉ h.line)
    (hno : isNoBody method status = false)
    (hcoding : values "transfer-encoding" (received fields) = [bytes "chunked"]) (first : Bytes) :
    Streams method (statusLine status ++ crlf ++ (headerLines fields ++ (crlf ++ formatChunk first true))) := by
  intro parts hparts
  rw [List.append_assoc, List.append_assoc (headerLines fields), List.append_assoc crlf,
    ← formatChunks_cons first hparts]
  refine whole_lines (first :: parts).flatten hfinal hline fun rest => ?_
  rw [hno, if_neg Bool.false_ne_true, clientBody_chunked hcoding]
  exact decodeChunked_formatChunks (List.cons_ne_nil first parts) rest _ (Nat.le_refl _)

end Heads

/-! ## What an application sends -/

/-- What an application gives for the head of a response, and the first part of
its body, do not contradict what the server adds. -/
structure Framed (method : Bytes) (status : Nat) (headers : List Header) (body : Bytes) (moreBody : Bool) : Prop where
  final : IsFinal status
  /-- The body is not coded by the application. -/
  coding : isNoBody method status = false → values "transfer-encoding" (received headers) = []
  /-- The length that it gives for a body in one part is the length of this
  part. -/
  length : isNoBody method status = false → moreBody = false →
    ∀ v ∈ values "content-length" (received headers), number? v = some body.length
  /-- Only a response with a body for which it gives no length has more parts. -/
  parts : moreBody = true → isNoBody method status = false ∧ hasField "content-length" headers = false

theorem Framed.whole_or_streams {method date : Bytes} (hdate : hasCrlf date = false) {status : Nat} {headers : List Header}
    {body : Bytes} {moreBody : Bool} (h : Framed method status headers body moreBody) {keepAlive : Bool}
    {r : Bytes × Bool × Bool}
    (hr : formatResponse status serverHeader (dateHeader date) headers body moreBody (isNoBody method status) keepAlive =
      .ok r) :
    if moreBody then Streams method r.1 else Whole method r.1 := by
  obtain ⟨hstatus, hcrlf⟩ := legal_of_formatResponse hr
  rw [formatResponse_eq hstatus hcrlf] at hr
  cases hr
  have hline := line_sentFields hcrlf hdate body moreBody (isNoBody method status) keepAlive
  have hcoding := values_sent_coding date headers body moreBody (isNoBody method status) keepAlive
  have hlength := values_sent_length date headers body moreBody (isNoBody method status) keepAlive
  cases moreBody with
  | true =>
    obtain ⟨hno, hnone⟩ := h.parts rfl
    rw [hno, hnone, h.coding hno] at hcoding
    rw [hno] at hline ⊢
    rw [hnone]
    exact streams_chunked h.final hline hno hcoding body
  | false =>
    cases hno : isNoBody method status with
    | true =>
      rw [hno] at hline
      exact whole_empty h.final hline hno
    | false =>
      rw [hno, h.coding hno, Bool.and_false, Bool.false_and] at hcoding
      rw [hno] at hline hlength
      have hown := h.length hno rfl
      have hall : ∀ v ∈ values "content-length"
          (received (sentFields date headers body false false keepAlive)), number? v = some body.length := by
        intro v hv
        rw [hlength] at hv
        rcases List.mem_append.1 hv with hv | hv
        · exact hown v hv
        · split at hv
          · cases hv
          · rw [List.mem_singleton.1 hv]
            exact number_decimal body.length
      refine whole_sized h.final hline hno hcoding ?_ hall
      rw [hlength]
      cases hhas : hasField "content-length" headers with
      | true => exact List.append_ne_nil_of_left_ne_nil (values_of_hasField hhas) _
      | false => exact List.append_ne_nil_of_right_ne_nil _ (by simp)

/-! ## What the server answers itself -/

/-- A whole response, unless the client asked with `HEAD`. -/
def Answer (response : Bytes) : Prop := ∀ method, method ≠ bytes "HEAD" → Whole method response

theorem isNoBody_of_ne {method : Bytes} (hmethod : method ≠ bytes "HEAD") {status : Nat} (hempty : status ≠ 204 ∧ status ≠ 304) :
    isNoBody method status = false := decide_eq_false fun h => h.elim hempty.1 fun h => h.elim hempty.2 hmethod

/-- A response with these fields whose length is that of its body. -/
theorem answer_fields {status : Nat} (hfinal : IsFinal status) (hempty : status ≠ 204 ∧ status ≠ 304)
    {fields : List Header} (hline : ∀ h ∈ fields, h.line ≠ [] ∧ 13 ∉ h.line)
    (hcoding : values "transfer-encoding" (received fields) = []) (length : Bytes)
    (hlength : values "content-length" (received fields) = [length]) {body : Bytes} (hnumber : number? length = some body.length) :
    Answer (statusLine status ++ crlf ++ (headerLines fields ++ (crlf ++ body))) := by
  intro method hmethod
  refine whole_sized hfinal hline (isNoBody_of_ne hmethod hempty) hcoding ?_ ?_
  · rw [hlength]
    exact List.cons_ne_nil _ _
  · intro v hv
    rw [hlength] at hv
    rwa [List.mem_singleton.1 hv]

/-- The fields of a response that the engine writes itself. -/
def errorFields (length : Nat) : List Header :=
  [⟨bytes "server", bytes "multiloop"⟩, ⟨bytes "connection", bytes "close"⟩, ⟨bytes "content-length", decimal length⟩]

theorem errorResponse_eq {status : Nat} (hstatus : status = 400 ∨ status = 413 ∨ status = 431) (msg : Bytes) :
    FastHttpConnection.errorResponse status msg =
      statusLine status ++ crlf ++ (headerLines (errorFields msg.length) ++ (crlf ++ msg)) := by
  have hlines : headerLines (errorFields msg.length) =
      bytes "server: multiloop\r\nconnection: close\r\ncontent-length: " ++ decimal msg.length ++ crlf := by
    show headerLines ([⟨bytes "server", bytes "multiloop"⟩, ⟨bytes "connection", bytes "close"⟩] ++
      [⟨bytes "content-length", decimal msg.length⟩]) = _
    rw [headerLines_append, headerLines_one,
      show headerLines [⟨bytes "server", bytes "multiloop"⟩, ⟨bytes "connection", bytes "close"⟩] =
        bytes "server: multiloop\r\nconnection: close\r\n" by decide,
      show bytes "server: multiloop\r\nconnection: close\r\ncontent-length: " =
        bytes "server: multiloop\r\nconnection: close\r\n" ++ (bytes "content-length" ++ bytes ": ") by decide]
    simp only [List.append_assoc]
  have hfirst : bytes "\r\nserver: multiloop\r\nconnection: close\r\ncontent-length: " =
      crlf ++ bytes "server: multiloop\r\nconnection: close\r\ncontent-length: " := by decide
  have hlast : bytes "\r\n\r\n" = crlf ++ crlf := by decide
  unfold FastHttpConnection.errorResponse
  rw [hlines, hfirst, hlast, statusLine]
  rcases hstatus with rfl | rfl | rfl
  · simp only [List.append_assoc, reason]
  · simp only [List.append_assoc, reason]
  · simp only [List.append_assoc, reason]

theorem answer_errorResponse {status : Nat} (hstatus : status = 400 ∨ status = 413 ∨ status = 431) (msg : Bytes) :
    Answer (FastHttpConnection.errorResponse status msg) := by
  have hlast : ∀ name, values name (received (errorFields msg.length)) =
      values name (received [⟨bytes "server", bytes "multiloop"⟩, ⟨bytes "connection", bytes "close"⟩]) ++
        values name (received [⟨bytes "content-length", decimal msg.length⟩]) := fun name =>
    values_received_append name [⟨bytes "server", bytes "multiloop"⟩, ⟨bytes "connection", bytes "close"⟩] _
  rw [errorResponse_eq hstatus]
  refine answer_fields ?_ ?_ ?_ ?_ _ ?_ (number_decimal msg.length)
  · rcases hstatus with rfl | rfl | rfl <;> exact ⟨by decide, by decide⟩
  · rcases hstatus with rfl | rfl | rfl <;> exact ⟨by decide, by decide⟩
  · intro h hh
    unfold errorFields at hh
    rw [List.mem_cons, List.mem_cons, List.mem_singleton] at hh
    rcases hh with rfl | rfl | rfl
    · exact line_of_not_mem (by decide) (by decide)
    · exact line_of_not_mem (by decide) (by decide)
    · exact line_of_not_mem (show 13 ∉ bytes "content-length" by decide) (decimal_not_mem _)
  · rw [hlast, values_received_other _ (by decide) (by decide)]
    decide
  · rw [hlast, values_received_self _ (by decide) (by decide)]
    have hnone : values "content-length" (received [⟨bytes "server", bytes "multiloop"⟩,
        ⟨bytes "connection", bytes "close"⟩]) = [] := by decide
    rw [hnone, List.nil_append]

/-- The response that an event asks the owner to write. -/
def Event.response? : Event → Option Bytes
  | .error _ response => some response
  | _ => none

/-- What an event asks the owner to write is a whole response. -/
def Event.Answers (e : Event) : Prop := ∀ response, e.response? = some response → Answer response

theorem Event.answers_of_none {e : Event} (h : e.response? = none) : e.Answers := by
  intro response hresponse
  rw [h] at hresponse
  cases hresponse

theorem Event.answers_error {status : Nat} (hstatus : status = 400 ∨ status = 413 ∨ status = 431) (msg : Bytes) :
    (Event.error status (FastHttpConnection.errorResponse status msg)).Answers := by
  intro response hresponse
  cases hresponse
  exact answer_errorResponse hstatus msg

namespace Decoder

variable {lim : Limits} {parse : Httparse} {d : Decoder}

/-- Every event of a step asks for a whole response, if it asks for one. -/
def Answering (s : Step) : Prop := ∀ e ∈ s.2.1, e.Answers

theorem answering_nil (d : Decoder) (flow : Flow) : Answering (d, [], flow) := fun _ he => absurd he List.not_mem_nil

theorem answering_one (d : Decoder) {e : Event} (he : e.response? = none) (flow : Flow) : Answering (d, [e], flow) := by
  intro x hx
  rw [List.mem_singleton.1 hx]
  exact Event.answers_of_none he

theorem answering_fail (d : Decoder) {status : Nat} (hstatus : status = 400 ∨ status = 413 ∨ status = 431)
    (msg : String) : Answering (d.fail status msg) := by
  intro x hx
  rw [List.mem_singleton.1 hx]
  exact Event.answers_error hstatus (bytes msg)

theorem answering_takeBody (d : Decoder) (remaining : Nat) : Answering (d.takeBody remaining) := by
  unfold takeBody
  split
  · exact answering_one _ rfl _
  · exact answering_one _ rfl _

theorem answering_beginBody (d : Decoder) (cl : Nat) (start : RequestStart) :
    Answering (d.beginBody cl (.requestStart start)) := by
  unfold beginBody
  dsimp only
  split
  · exact answering_one _ rfl _
  · exact List.forall_mem_cons.2 ⟨Event.answers_of_none rfl, answering_takeBody _ cl⟩

theorem answering_acceptHead (d : Decoder) (offset : Nat) (req : Request) : Answering (d.acceptHead lim offset req) := by
  unfold acceptHead
  dsimp only
  split
  · exact answering_fail _ (.inl rfl) _
  split
  · exact List.forall_mem_cons.2 ⟨Event.answers_of_none rfl, answering_one d rfl .stop⟩
  split
  · exact answering_one _ rfl _
  split
  · split
    · exact answering_fail _ (.inr (.inl rfl)) _
    · exact answering_beginBody _ _ _
  · exact answering_one _ rfl _

theorem answering_header (d : Decoder) : Answering (d.header lim parse) := by
  unfold header
  split
  · exact answering_nil _ _
  split
  · exact answering_fail _ (.inr (.inr rfl)) _
  split
  · exact answering_acceptHead d _ _
  · exact answering_nil _ _
  · exact answering_fail _ (.inl rfl) _

theorem answering_size (d : Decoder) : Answering (d.size lim) := by
  unfold size
  split
  · exact answering_nil _ _
  split
  · exact answering_fail _ (.inl rfl) _
  split
  · exact answering_fail _ (.inl rfl) _
  · unfold acceptSize
    dsimp only
    split
    · exact answering_nil _ _
    split
    · exact answering_fail _ (.inr (.inl rfl)) _
    · exact answering_nil _ _

theorem answering_data (d : Decoder) (chunkLen : Nat) : Answering (d.data chunkLen) := by
  unfold data
  split
  · exact answering_nil _ _
  split
  · exact answering_fail _ (.inl rfl) _
  · exact answering_one _ rfl _

theorem answering_trailers (d : Decoder) : Answering d.trailers := by
  unfold trailers
  split
  · exact answering_one _ rfl _
  split
  · exact answering_nil _ _
  · exact answering_one _ rfl _

theorem answering_step : Answering (d.step lim parse) := by
  unfold step
  split
  · exact answering_nil _ _
  · exact answering_nil _ _
  · exact answering_header d
  · exact answering_header d
  · unfold contentLength
    split
    · exact answering_nil _ _
    · exact answering_takeBody d _
  · exact answering_size d
  · exact answering_data d _
  · exact answering_trailers d

end Decoder

/-- The responses that a call of the engine asks its owner to write are whole. -/
theorem FastHttpConnection.answers_processEvents {parse : Httparse} (hparse : InRange parse) {c : FastHttpConnection}
    (hb : c.Bounded) (hm : c.mode = .http11) (hfault : (c.processEvents .release parse).fault = none) :
    ∀ e ∈ (c.processEvents .release parse).events, e.Answers := by
  classical
  have hk : Kept (only Event.Answers) (fun _ _ => True) parse := by
    apply kept_of_step hparse
    · intro c v hw _
      exact ⟨(), if_pos (Event.answers_error (.inl rfl) _), trivial⟩
    · intro c v hb hw _
      exact ⟨(), only_iff.2 Decoder.answering_step, trivial⟩
  obtain ⟨-, ⟨⟩, htold, -⟩ := (observed_processEvents hparse hk (v := ()) hb hm trivial).told hfault
  exact only_iff.1 htold

/-- The response to a request whose application raised. -/
theorem answer_errResp {date : Bytes} (hdate : hasCrlf date = false) : Answer (Http11Protocol.errResp date) := by
  have hresp : Http11Protocol.errResp date = statusLine 500 ++ crlf ++
      (headerLines ([⟨bytes "server", bytes "multiloop"⟩] ++ ([⟨bytes "date", date⟩] ++
        [⟨bytes "connection", bytes "close"⟩, ⟨bytes "content-length", bytes "21"⟩])) ++
          (crlf ++ bytes "Internal Server Error")) := by
    have hdate : headerLines [⟨bytes "date", date⟩] = dateHeader date := by
      rw [headerLines_one, show bytes "date" ++ bytes ": " = bytes "date: " by decide]
      rfl
    have hserver : headerLines [⟨bytes "server", bytes "multiloop"⟩] = serverHeader := by decide
    have hrest : bytes "connection: close\r\ncontent-length: 21\r\n\r\nInternal Server Error" =
        headerLines [⟨bytes "connection", bytes "close"⟩, ⟨bytes "content-length", bytes "21"⟩] ++
          (crlf ++ bytes "Internal Server Error") := by decide
    have hstatus : bytes "HTTP/1.1 500 Internal Server Error\r\n" = statusLine 500 ++ crlf := by decide
    unfold Http11Protocol.errResp
    rw [headerLines_append, headerLines_append, hdate, hserver, hrest, hstatus]
    simp only [List.append_assoc]
  have hvalues : ∀ name, values name (received ([⟨bytes "server", bytes "multiloop"⟩] ++ ([⟨bytes "date", date⟩] ++
      [⟨bytes "connection", bytes "close"⟩, ⟨bytes "content-length", bytes "21"⟩]))) =
      values name (received [⟨bytes "server", bytes "multiloop"⟩]) ++ (values name (received [⟨bytes "date", date⟩]) ++
        values name (received [⟨bytes "connection", bytes "close"⟩, ⟨bytes "content-length", bytes "21"⟩])) := by
    intro name
    rw [values_received_append, values_received_append]
  rw [hresp]
  refine answer_fields ⟨by decide, by decide⟩ ⟨by decide, by decide⟩ ?_ ?_ (bytes "21") ?_ (by decide)
  · intro h hh
    simp only [List.mem_append, List.mem_cons, List.not_mem_nil, or_false] at hh
    rcases hh with rfl | rfl | rfl | rfl
    · exact line_of_not_mem (by decide) (by decide)
    · exact line_of_not_mem (show 13 ∉ bytes "date" by decide) (hasCrlf_not_mem hdate)
    · exact line_of_not_mem (by decide) (by decide)
    · exact line_of_not_mem (by decide) (by decide)
  · rw [hvalues, values_received_other date (by decide) (by decide)]
    decide
  · rw [hvalues, values_received_other date (by decide) (by decide)]
    decide

end Multiloop.Http
