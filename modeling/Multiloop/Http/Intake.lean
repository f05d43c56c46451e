import Multiloop.Http.Environ
import Multiloop.Http.ReadChunkedBody
import Multiloop.Http.WsgiApp

/-!
# How a request reaches a WSGI application

The first half of `_handle_connection` of `multiloop/wsgi.py`: the head is read
in pieces, and the body is read before the application runs, or while it does,
or comes with the head. Whatever the pieces are, the application is given what
the bytes say (`handleConnection_gives`); only a head that ends within the last
4095 bytes of the limit may be refused, if more bytes come with it.
-/

namespace Multiloop.Http

/-! ## The stream -/

/-- An `asyncio.StreamReader`: the bytes that the client sends before it closes
its side, and how many of them are there each time that `read` looks. -/
structure ClientStream where
  unread : Bytes
  arrivals : List Nat
deriving DecidableEq

namespace ClientStream

variable (r : ClientStream) (n : Nat)

/-- The number of bytes that `read(n)` gives. It waits for one at least. -/
def available : Nat := min n (max 1 (r.arrivals.headD r.unread.length))

/-- `reader.read(n)`: no bytes at the end of the stream. -/
def read : Bytes × ClientStream :=
  (r.unread.take (r.available n), ⟨r.unread.drop (r.available n), r.arrivals.tail⟩)

variable {r n}

theorem read_append : (r.read n).1 ++ (r.read n).2.unread = r.unread := List.take_append_drop ..

theorem length_read_le : (r.read n).1.length ≤ n :=
  Nat.le_trans (List.length_take_le ..) (Nat.min_le_left ..)

theorem length_read : (r.read n).1.length + (r.read n).2.unread.length = r.unread.length := by
  rw [← List.length_append, read_append]

theorem shorter (h : ¬ (r.read n).1 = []) : (r.read n).2.unread.length < r.unread.length := by
  have hlen := length_read (r := r) (n := n)
  have hpos := List.length_pos_iff.2 h
  omega

/-- Nothing is read at the end alone. -/
theorem unread_of_read (hn : 0 < n) (h : (r.read n).1 = []) : r.unread = [] := by
  have hlen : min (r.available n) r.unread.length = 0 := by
    rw [← List.length_take]
    exact congrArg List.length h
  have havailable : 0 < r.available n := by
    unfold available
    omega
  exact List.length_eq_zero_iff.1 (by omega)

/-- What `read(n)` gives until the end. -/
def reads (n : Nat) (r : ClientStream) : List Bytes :=
  if (r.read n).1 = [] then [] else (r.read n).1 :: reads n (r.read n).2
termination_by r.unread.length
decreasing_by exact shorter ‹_›

theorem flatten_reads (hn : 0 < n) (r : ClientStream) : (r.reads n).flatten = r.unread := by
  fun_induction reads n r with
  | case1 r h => exact (unread_of_read hn h).symm
  | case2 r h ih => rw [List.flatten_cons, ih, read_append]

theorem arrives_reads (n : Nat) (r : ClientStream) : MultiloopWSGIWorker.Arrives (r.reads n) := by
  fun_induction reads n r with
  | case1 r h => exact fun _ hc => absurd hc List.not_mem_nil
  | case2 r h ih =>
    intro c hc
    rcases List.mem_cons.1 hc with rfl | hc
    · exact h
    · exact ih c hc

end ClientStream

namespace MultiloopWSGIWorker

/-! ## The head -/

/-- `_MAX_HEADER_SIZE`. -/
def maxHeaderSize : Nat := 64 * 1024

/-- How the loop that reads the head ends. -/
inductive HeadRead
  | closed
  | tooLarge
  /-- `parse_request` raises. -/
  | raised
  | parsed (p : ParsedHttpRequest) (rawBuf : Bytes) (reader : ClientStream)
deriving DecidableEq

def readHead (tok : Tokenizer) (rawBuf : Bytes) (reader : ClientStream) : HeadRead :=
  if (reader.read 4096).1 = [] then .closed
  else if maxHeaderSize < (rawBuf ++ (reader.read 4096).1).length then .tooLarge
  else
    match FastHttpParser.parseRequest tok (rawBuf ++ (reader.read 4096).1) with
    | .error _ => .raised
    | .ok none => readHead tok (rawBuf ++ (reader.read 4096).1) (reader.read 4096).2
    | .ok (some p) => .parsed p (rawBuf ++ (reader.read 4096).1) (reader.read 4096).2
termination_by reader.unread.length
decreasing_by exact ClientStream.shorter ‹_›

/-! ## The body -/

/-- The chunks that `_feed_body` sends before the end marker. -/
def feedBody (rem : Nat) (reader : ClientStream) : List Bytes :=
  if rem = 0 then []
  else if (reader.read (min rem 65536)).1 = [] then []
  else (reader.read (min rem 65536)).1 ::
    feedBody (rem - (reader.read (min rem 65536)).1.length) (reader.read (min rem 65536)).2
termination_by reader.unread.length
decreasing_by exact ClientStream.shorter ‹_›

/-- A server, as a connection sees it. -/
structure Server where
  tok : Tokenizer
  maxRequestBody : Nat
  site : Endpoint

/-- What comes of a request before the application runs. -/
inductive Intake
  | closed
  | answered (response : Bytes)
  | served (environ : Environ)
deriving DecidableEq

/-- A response without a body. -/
def emptyResponse (status : String) : Bytes :=
  bytes "HTTP/1.1 " ++ bytes status ++ bytes "\r\ncontent-length: 0\r\nconnection: close\r\n\r\n"

def headerFieldsTooLarge : Bytes := emptyResponse "431 Request Header Fields Too Large"
def payloadTooLarge : Bytes := emptyResponse "413 Payload Too Large"
def badRequest : Bytes := emptyResponse "400 Bad Request"

def requestHead (p : ParsedHttpRequest) : RequestHead where
  method := pyString p.method
  path := pyString p.path
  queryString := fromLatin1 p.query
  httpVersion := pyString p.version
  headersList := p.headers.map fun h => ((fromLatin1 h.1).map lowerChar, fromLatin1 h.2)

/-- `content_length`: zero for a length that is not known, or negative. -/
def contentLength (p : ParsedHttpRequest) : Nat := if 0 ≤ p.contentLength then p.contentLength.toNat else 0

/-- What follows when `_read_chunked_body` has returned or raised. -/
def onChunkedBody (srv : Server) (p : ParsedHttpRequest) : Except PyRaised Bytes → Intake
  | .ok body => .served (environ srv.site (requestHead p) body.length (.new (some body) none))
  | .error (.valueError _) => .answered badRequest
  | .error (.connectionResetError _) => .answered outerError

/-- The body is looked for behind the head. -/
def readBody (srv : Server) (p : ParsedHttpRequest) (rawBuf : Bytes) (reader : ClientStream) : Option Intake :=
  if srv.maxRequestBody < contentLength p then some (.answered payloadTooLarge)
  else
    let initialBody := rawBuf.drop p.bodyOffset
    if p.isChunked then
      (readChunkedBody srv.maxRequestBody (reader.reads 4096) initialBody).map fun res => onChunkedBody srv p res.1
    else if initialBody.length < contentLength p then
      let chunks := feedBody (contentLength p - initialBody.length) reader
      some (.served (environ srv.site (requestHead p) (contentLength p)
        (.new (some initialBody) (some (chunks ++ [[]])))))
    else
      let body := if 0 < contentLength p then initialBody.take (contentLength p) else []
      some (.served (environ srv.site (requestHead p) (contentLength p) (.new (some body) none)))

/-- `_handle_connection`, up to the run of the application. None would be a run
of `_read_chunked_body` that does not end. -/
def handleConnection (srv : Server) (reader : ClientStream) : Option Intake :=
  match readHead srv.tok [] reader with
  | .closed => some .closed
  | .tooLarge => some (.answered headerFieldsTooLarge)
  | .raised => some (.answered outerError)
  | .parsed p rawBuf reader => readBody srv p rawBuf reader

/-! ## What the bytes say -/

/-- `parse_request` has nothing to say of these bytes yet. -/
def undecided (tok : Tokenizer) (u : Bytes) : Bool :=
  match FastHttpParser.parseRequest tok u with
  | .ok none => true
  | _ => false

/-- The number of bytes with which it first has. -/
def headEnd (tok : Tokenizer) (u : Bytes) : Option Nat :=
  (List.range (u.length + 1)).find? fun n => !undecided tok (u.take n)

/-- What a connection is told, or the application is given. -/
inductive Said
  | closed
  | answered (response : Bytes)
  | request (head : RequestHead) (contentLength : Nat) (body : Bytes)
deriving DecidableEq

def chunkedSaid (p : ParsedHttpRequest) : Except PyRaised Bytes → Said
  | .ok body => .request (requestHead p) body.length body
  | .error (.valueError _) => .answered badRequest
  | .error (.connectionResetError _) => .answered outerError

/-- What the bytes behind a head say. -/
def bodySaid (srv : Server) (p : ParsedHttpRequest) (rest : Bytes) : Option Said :=
  if srv.maxRequestBody < contentLength p then some (.answered payloadTooLarge)
  else if p.isChunked then (readChunkedBody srv.maxRequestBody [] rest).map fun res => chunkedSaid p res.1
  else some (.request (requestHead p) (contentLength p) (rest.take (contentLength p)))

/-- What all that the client sends says. -/
def said (srv : Server) (u : Bytes) : Option Said :=
  match headEnd srv.tok u with
  | none => some (if u.length ≤ maxHeaderSize then .closed else .answered headerFieldsTooLarge)
  | some n =>
    if maxHeaderSize < n then some (.answered headerFieldsTooLarge)
    else
      match FastHttpParser.parseRequest srv.tok (u.take n) with
      | .error _ => some (.answered outerError)
      | .ok none => none
      | .ok (some p) => bodySaid srv p (u.drop p.bodyOffset)

/-- An application that does not call `readline(0)`, nor with an integer that is
no `Py_ssize_t`, reads this body. -/
def Reads (input : SyncStreamReader) (body : Bytes) : Prop :=
  ∀ cs, (SyncStreamReader.new (some body) none).AllProper cs →
    (input.calls cs).1 = ((SyncStreamReader.new (some body) none).calls cs).1

/-- The server does what was said. -/
inductive Gives (srv : Server) : Intake → Said → Prop
  | closed : Gives srv .closed .closed
  | answered (response : Bytes) : Gives srv (.answered response) (.answered response)
  | request (head : RequestHead) (n : Nat) (input : SyncStreamReader) (body : Bytes) (h : Reads input body) :
    Gives srv (.served (environ srv.site head n input)) (.request head n body)

/-! ## Where a head ends -/

/-- httparse says the same however many bytes follow, once it says anything but
that bytes are missing. -/
structure Settled (tok : Tokenizer) : Prop where
  inRange : ∀ {u offset req} slots, tok slots u = .complete offset req → offset ≤ u.length
  empty : ∀ slots, tok slots [] = .incomplete
  complete : ∀ {u offset req} slots (v : Bytes), tok slots u = .complete offset req →
    tok slots (u ++ v) = .complete offset req
  error : ∀ {u e} slots (v : Bytes), tok slots u = .error e → tok slots (u ++ v) = .error e

section Heads

variable {tok : Tokenizer} {u v : Bytes} {n m : Nat} {p : ParsedHttpRequest}

theorem undecided_iff : undecided tok u = true ↔ FastHttpParser.parseRequest tok u = .ok none := by
  unfold undecided
  split
  · rename_i h
    rw [h]
    exact ⟨fun _ => rfl, fun _ => rfl⟩
  · rename_i h
    exact ⟨nofun, fun hp => absurd hp h⟩

/-- What `parse_request` says of a head that has come is not changed by what
comes after it. -/
theorem parseRequest_append (htok : Settled tok) (h : undecided tok u = false) (v : Bytes) :
    FastHttpParser.parseRequest tok (u ++ v) = FastHttpParser.parseRequest tok u := by
  have hp : FastHttpParser.parseRequest tok u ≠ .ok none := fun hp => absurd (undecided_iff.2 hp) (by simp [h])
  unfold FastHttpParser.parseRequest at hp ⊢
  cases hfew : tok 128 u with
  | complete offset req => rw [htok.complete 128 v hfew]
  | incomplete =>
    rw [hfew] at hp
    exact absurd rfl hp
  | error e =>
    rw [htok.error 128 v hfew]
    dsimp only
    rw [hfew] at hp
    dsimp only at hp
    split
    · rename_i hmany
      rw [if_pos hmany] at hp
      cases hall : tok 512 u with
      | complete offset req => rw [htok.complete 512 v hall]
      | incomplete =>
        rw [hall] at hp
        exact absurd rfl hp
      | error e' => rw [htok.error 512 v hall]
    · rfl

theorem undecided_append (htok : Settled tok) (h : undecided tok (u ++ v) = true) : undecided tok u = true := by
  by_contra hnot
  have hsame := parseRequest_append htok (Bool.eq_false_iff.2 hnot) v
  exact hnot (undecided_iff.2 (hsame.symm.trans (undecided_iff.1 h)))

theorem undecided_nil (htok : Settled tok) : undecided tok [] = true := by
  rw [undecided_iff, FastHttpParser.parseRequest, htok.empty]

/-- The body is in the bytes that were parsed, or begins behind them. -/
theorem bodyOffset_le (htok : Settled tok) (h : FastHttpParser.parseRequest tok u = .ok (some p)) :
    p.bodyOffset ≤ u.length := by
  have hbuild : ∀ {req offset}, FastHttpParser.buildParsedRequest req offset = .ok (some p) →
      p.bodyOffset = offset := by
    intro req offset hb
    unfold FastHttpParser.buildParsedRequest at hb
    dsimp only at hb
    split at hb
    · cases hb
    · cases hb
      rfl
  unfold FastHttpParser.parseRequest at h
  split at h
  · rename_i offset req hu
    rw [hbuild h]
    exact htok.inRange 128 hu
  · cases h
  · split at h
    · split at h
      · rename_i offset req hu
        rw [hbuild h]
        exact htok.inRange 512 hu
      · cases h
      · cases h
    · cases h

/-- Before the head ends nothing is said. -/
theorem headEnd_eq_none (htok : Settled tok) (h : undecided tok u = true) : headEnd tok u = none := by
  unfold headEnd
  rw [List.find?_eq_none]
  intro n _
  have hu : undecided tok (u.take n ++ u.drop n) = true := by rwa [List.take_append_drop]
  simp [undecided_append htok hu]

theorem lt_of_headEnd (htok : Settled tok) (h : undecided tok u = true) (hn : headEnd tok (u ++ v) = some n) :
    u.length < n := by
  obtain ⟨hdecided, -, -⟩ := List.find?_range_eq_some.1 hn
  by_contra hle
  have htake : (u ++ v).take n = u.take n := List.take_append_of_le_length (Nat.not_lt.1 hle)
  have hu : undecided tok (u.take n ++ u.drop n) = true := by rwa [List.take_append_drop]
  rw [htake, undecided_append htok hu] at hdecided
  cases hdecided

/-- Where the head ends, it is parsed as it is with more bytes. -/
theorem headEnd_append (htok : Settled tok) (h : undecided tok u = false) (v : Bytes) :
    ∃ n, headEnd tok (u ++ v) = some n ∧ n ≤ u.length ∧
      FastHttpParser.parseRequest tok ((u ++ v).take n) = FastHttpParser.parseRequest tok u := by
  cases hn : headEnd tok (u ++ v) with
  | none =>
    have hall := List.find?_eq_none.1 hn u.length (List.mem_range.2 (by rw [List.length_append]; omega))
    rw [List.take_left, h] at hall
    exact absurd rfl hall
  | some n =>
    obtain ⟨hdecided, -, hfirst⟩ := List.find?_range_eq_some.1 hn
    have hle : n ≤ u.length := by
      by_contra hlt
      have hbefore := hfirst u.length (Nat.not_le.1 hlt)
      rw [List.take_left, h] at hbefore
      cases hbefore
    have htake : (u ++ v).take n = u.take n := List.take_append_of_le_length hle
    rw [htake] at hdecided
    have hsame := parseRequest_append htok (u := u.take n) (by simpa using hdecided) (u.drop n)
    rw [List.take_append_drop] at hsame
    exact ⟨n, rfl, hle, htake ▸ hsame.symm⟩

/-- How the loop ends, by the bytes that it can read. -/
theorem readHead_ends (htok : Settled tok) (rawBuf : Bytes) (reader : ClientStream)
    (hopen : undecided tok rawBuf = true) (hroom : rawBuf.length ≤ maxHeaderSize) :
    (readHead tok rawBuf reader = .closed ∧ headEnd tok (rawBuf ++ reader.unread) = none ∧
      (rawBuf ++ reader.unread).length ≤ maxHeaderSize) ∨
    (readHead tok rawBuf reader = .tooLarge ∧ maxHeaderSize < (rawBuf ++ reader.unread).length ∧
      ∀ n, headEnd tok (rawBuf ++ reader.unread) = some n → maxHeaderSize - 4095 < n) ∨
    ∃ n, headEnd tok (rawBuf ++ reader.unread) = some n ∧ n ≤ maxHeaderSize ∧
      ((∃ e, FastHttpParser.parseRequest tok ((rawBuf ++ reader.unread).take n) = .error e ∧
        readHead tok rawBuf reader = .raised) ∨
      ∃ p rawBuf' reader', FastHttpParser.parseRequest tok ((rawBuf ++ reader.unread).take n) = .ok (some p) ∧
        readHead tok rawBuf reader = .parsed p rawBuf' reader' ∧ p.bodyOffset ≤ rawBuf'.length ∧
        rawBuf' ++ reader'.unread = rawBuf ++ reader.unread) := by
  fun_induction readHead tok rawBuf reader with
  | case1 rawBuf reader hend =>
    have hunread := ClientStream.unread_of_read (by decide) hend
    rw [hunread, List.append_nil]
    exact .inl ⟨rfl, headEnd_eq_none htok hopen, hroom⟩
  | case2 rawBuf reader hsome hlarge =>
    have hall := congrArg List.length (ClientStream.read_append (r := reader) (n := 4096))
    have hread := ClientStream.length_read_le (r := reader) (n := 4096)
    refine .inr (.inl ⟨rfl, ?_, fun n hn => ?_⟩)
    · rw [List.length_append] at hlarge hall ⊢
      omega
    · have hlt := lt_of_headEnd htok hopen hn
      rw [List.length_append] at hlarge
      omega
  | case3 rawBuf reader hsome hlarge e hraises =>
    have hdecided : undecided tok (rawBuf ++ (reader.read 4096).1) = false := by
      unfold undecided
      rw [hraises]
    obtain ⟨n, hn, hle, hparse⟩ := headEnd_append htok hdecided (reader.read 4096).2.unread
    rw [List.append_assoc, ClientStream.read_append] at hn hparse
    exact .inr (.inr ⟨n, hn, by omega, .inl ⟨e, hparse.trans hraises, rfl⟩⟩)
  | case4 rawBuf reader hsome hlarge hmore ih =>
    have hrest := ih (undecided_iff.2 hmore) (by omega)
    rwa [List.append_assoc, ClientStream.read_append] at hrest
  | case5 rawBuf reader hsome hlarge p hparsed =>
    have hdecided : undecided tok (rawBuf ++ (reader.read 4096).1) = false := by
      unfold undecided
      rw [hparsed]
    obtain ⟨n, hn, hle, hparse⟩ := headEnd_append htok hdecided (reader.read 4096).2.unread
    rw [List.append_assoc, ClientStream.read_append] at hn hparse
    refine .inr (.inr ⟨n, hn, by omega, .inr ⟨p, _, _, hparse.trans hparsed, rfl, bodyOffset_le htok hparsed, ?_⟩⟩)
    rw [List.append_assoc, ClientStream.read_append]

end Heads

/-! ## The body -/

/-- The feeder sends the bytes that are left of the body, as far as they come. -/
theorem feedBody_flatten (rem : Nat) (reader : ClientStream) :
    (feedBody rem reader).flatten = reader.unread.take rem ∧ [] ∉ feedBody rem reader := by
  fun_induction feedBody rem reader with
  | case1 reader => exact ⟨List.take_zero.symm, List.not_mem_nil⟩
  | case2 rem reader hrem hend =>
    have hunread := ClientStream.unread_of_read (by omega) hend
    rw [hunread, List.take_nil]
    exact ⟨rfl, List.not_mem_nil⟩
  | case3 rem reader hrem hsome ih =>
    have hread := ClientStream.length_read_le (r := reader) (n := min rem 65536)
    refine ⟨?_, fun hmem => (List.mem_cons.1 hmem).elim (fun h => hsome h.symm) ih.2⟩
    rw [List.flatten_cons, ih.1]
    conv_rhs =>
      rw [← ClientStream.read_append (r := reader) (n := min rem 65536), List.take_append,
        List.take_of_length_le (Nat.le_trans hread (Nat.min_le_left ..))]

theorem reads_refl (body : Bytes) : Reads (.new (some body) none) body := fun _ _ => rfl

/-- A body that comes in chunks is read as if it had come as a whole. -/
theorem reads_streaming {initial : Bytes} {chunks : List Bytes} (h : [] ∉ chunks) :
    Reads (.new (some initial) (some (chunks ++ [[]]))) (initial ++ chunks.flatten) :=
  fun cs hcs => (SyncStreamReader.calls_alike_iff cs (SyncStreamReader.alike_new h initial)).2 hcs

/-- Whatever the bytes, `_read_chunked_body` comes to an end. -/
theorem chunkLoop_isSome {maxRequestBody fuel : Nat} {body buf : Bytes} {reader : List Bytes} (hreader : Arrives reader)
    (hfuel : (buf ++ reader.flatten).length < fuel) :
    (chunkLoop maxRequestBody fuel body buf reader).isSome = true := by
  induction fuel generalizing body buf reader with
  | zero => omega
  | succ fuel ih =>
    rw [chunkLoop]
    cases hline : fillLine buf reader with
    | none => rfl
    | some found =>
      obtain ⟨idx, buf', reader'⟩ := found
      obtain ⟨hpos, hsame, hreader'⟩ := fillLine_some hreader hline
      have hle := position_le hpos
      change idx + 2 ≤ buf'.length at hle
      have hlen := congrArg List.length hsame
      rw [List.length_append] at hlen
      dsimp only
      cases hsize : chunkLen (buf'.take idx) with
      | none => rfl
      | some n =>
        dsimp only
        split
        · rfl
        cases hdata : fill (n + 2) (buf'.drop (idx + 2)) reader' with
        | none => rfl
        | some filled =>
          obtain ⟨buf'', reader''⟩ := filled
          obtain ⟨-, hsame', hreader''⟩ := fill_some hreader' hdata
          have hlen' := congrArg List.length hsame'
          rw [List.length_append, List.length_append, List.length_drop] at hlen'
          dsimp only
          split
          · rfl
          · refine ih hreader'' ?_
            rw [List.length_append, List.length_drop]
            omega

/-- A body in chunks is read the same in whatever pieces it comes, unless a
negative size is read. -/
theorem readChunkedBody_eq {maxRequestBody : Nat} {initial : Bytes} {reader : List Bytes} (hreader : Arrives reader)
    (hneg : ¬ Rest.Negative maxRequestBody ⟨[], initial ++ reader.flatten⟩) :
    (readChunkedBody maxRequestBody reader initial).map Prod.fst =
      (readChunkedBody maxRequestBody [] (initial ++ reader.flatten)).map Prod.fst := by
  obtain ⟨q, r, left, hpieces, hstops, hloop⟩ := chunkLoop_gives hreader (Nat.lt_succ_self _) hneg
  have hwhole : (initial ++ reader.flatten) ++ ([] : List Bytes).flatten = initial ++ reader.flatten :=
    List.append_nil _
  have hnone : Arrives [] := fun c hc => absurd hc List.not_mem_nil
  have hgives := @chunkLoop_gives maxRequestBody _ [] (initial ++ reader.flatten) [] hnone (Nat.lt_succ_self _)
  rw [hwhole] at hgives
  obtain ⟨q', r', left', hpieces', hstops', hloop'⟩ := hgives hneg
  obtain rfl := hpieces.unique hpieces' (fun _ => hstops.no_piece) fun _ => hstops'.no_piece
  unfold readChunkedBody
  rw [← List.length_append, hloop]
  show _ = (chunkLoop maxRequestBody ((initial ++ reader.flatten).length + 0 + 1) [] _ []).map Prod.fst
  rw [Nat.add_zero, hloop', hstops.outcome, hstops'.outcome]
  rfl

section Connection

variable {srv : Server} {p : ParsedHttpRequest} {rawBuf u : Bytes} {reader : ClientStream}

theorem chunked_gives (srv : Server) (p : ParsedHttpRequest) (res : Except PyRaised Bytes) :
    Gives srv (onChunkedBody srv p res) (chunkedSaid p res) := by
  cases res with
  | ok body => exact .request _ _ _ _ (reads_refl body)
  | error e =>
    cases e with
    | valueError => exact .answered _
    | connectionResetError => exact .answered _

theorem readBody_gives (hoffset : p.bodyOffset ≤ rawBuf.length)
    (hneg : p.isChunked = true →
      ¬ Rest.Negative srv.maxRequestBody ⟨[], (rawBuf ++ reader.unread).drop p.bodyOffset⟩) :
    ∃ out s, readBody srv p rawBuf reader = some out ∧
      bodySaid srv p ((rawBuf ++ reader.unread).drop p.bodyOffset) = some s ∧ Gives srv out s := by
  rw [List.drop_append_of_le_length hoffset] at hneg ⊢
  unfold readBody bodySaid
  split
  · exact ⟨_, _, rfl, rfl, .answered _⟩
  dsimp only
  by_cases hchunked : p.isChunked = true
  · rw [if_pos hchunked, if_pos hchunked]
    have hflatten := ClientStream.flatten_reads (n := 4096) (by decide) reader
    have harrives := ClientStream.arrives_reads 4096 reader
    have hsame := readChunkedBody_eq harrives (by rw [hflatten]; exact hneg hchunked)
    rw [hflatten] at hsame
    have hends : (readChunkedBody srv.maxRequestBody (reader.reads 4096) (rawBuf.drop p.bodyOffset)).isSome = true :=
      chunkLoop_isSome harrives (by rw [List.length_append]; exact Nat.lt_succ_self _)
    obtain ⟨res, hres⟩ := Option.isSome_iff_exists.1 hends
    rw [hres] at hsame ⊢
    obtain ⟨res', hres', hfst⟩ := Option.map_eq_some_iff.1 hsame.symm
    rw [hres']
    refine ⟨_, _, rfl, rfl, ?_⟩
    show Gives srv (onChunkedBody srv p res.1) (chunkedSaid p res'.1)
    rw [hfst]
    exact chunked_gives srv p res.1
  · rw [if_neg hchunked, if_neg hchunked]
    split
    · rename_i hshort
      obtain ⟨hflatten, hnil⟩ := feedBody_flatten (contentLength p - (rawBuf.drop p.bodyOffset).length) reader
      have hbody : (rawBuf.drop p.bodyOffset ++ reader.unread).take (contentLength p) = rawBuf.drop p.bodyOffset ++
          (feedBody (contentLength p - (rawBuf.drop p.bodyOffset).length) reader).flatten := by
        rw [hflatten, List.take_append, List.take_of_length_le (Nat.le_of_lt hshort)]
      refine ⟨_, _, rfl, rfl, ?_⟩
      rw [hbody]
      exact .request _ _ _ _ (reads_streaming hnil)
    · rename_i henough
      have hbody : (rawBuf.drop p.bodyOffset ++ reader.unread).take (contentLength p) =
          if 0 < contentLength p then (rawBuf.drop p.bodyOffset).take (contentLength p) else [] := by
        rw [List.take_append_of_le_length (Nat.not_lt.1 henough)]
        split
        · rfl
        · rename_i hzero
          rw [Nat.eq_zero_of_not_pos hzero, List.take_zero]
      refine ⟨_, _, rfl, rfl, ?_⟩
      rw [hbody]
      exact .request _ _ _ _ (reads_refl _)

theorem exists_bodySaid (srv : Server) (p : ParsedHttpRequest) (rest : Bytes) : ∃ s, bodySaid srv p rest = some s := by
  unfold bodySaid
  split
  · exact ⟨_, rfl⟩
  split
  · have hends : (readChunkedBody srv.maxRequestBody [] rest).isSome = true :=
      chunkLoop_isSome (fun c hc => absurd hc List.not_mem_nil) (by rw [List.length_append]; exact Nat.lt_succ_self _)
    obtain ⟨res, hres⟩ := Option.isSome_iff_exists.1 hends
    rw [hres]
    exact ⟨_, rfl⟩
  · exact ⟨_, rfl⟩

/-- Something is said in any case. -/
theorem exists_said (srv : Server) (u : Bytes) : ∃ s, said srv u = some s := by
  unfold said
  split
  · exact ⟨_, rfl⟩
  · rename_i n hend
    obtain ⟨hdecided, -, -⟩ := List.find?_range_eq_some.1 hend
    split
    · exact ⟨_, rfl⟩
    split
    · exact ⟨_, rfl⟩
    · rename_i hopen
      rw [undecided_iff.2 hopen] at hdecided
      cases hdecided
    · exact exists_bodySaid srv _ _

/-- The body is in chunks, and a negative size is read of it. -/
def NegativeSize (srv : Server) (u : Bytes) : Prop :=
  ∃ n p, headEnd srv.tok u = some n ∧ FastHttpParser.parseRequest srv.tok (u.take n) = .ok (some p) ∧
    p.isChunked = true ∧ Rest.Negative srv.maxRequestBody ⟨[], u.drop p.bodyOffset⟩

/-- In whatever pieces the bytes of a client come, it is answered, or the
application is given, what they say as a whole: the same dictionary, and an input
that reads as the body. A head that ends within the last 4095 bytes of the limit
may be too large, with what comes behind it. -/
theorem handleConnection_gives (htok : Settled srv.tok) (reader : ClientStream)
    (hneg : ¬ NegativeSize srv reader.unread) :
    ∃ out s, handleConnection srv reader = some out ∧ said srv reader.unread = some s ∧
      (Gives srv out s ∨ out = .answered headerFieldsTooLarge ∧
        ∃ n, headEnd srv.tok reader.unread = some n ∧ maxHeaderSize - 4095 < n) := by
  unfold handleConnection said
  rcases readHead_ends htok [] reader (undecided_nil htok) (Nat.zero_le _) with
    ⟨hread, hend, hlen⟩ | ⟨hread, hlen, hlate⟩ | ⟨n, hend, hle, ⟨e, hparse, hread⟩ | ⟨p, rawBuf, reader', hparse, hread,
      hoffset, hsame⟩⟩
  · rw [hread, show headEnd srv.tok reader.unread = none from hend]
    exact ⟨_, _, rfl, congrArg some (if_pos hlen), .inl .closed⟩
  · rw [hread]
    cases hend : headEnd srv.tok reader.unread with
    | none => exact ⟨_, _, rfl, congrArg some (if_neg (Nat.not_le.2 hlen)), .inl (.answered _)⟩
    | some n =>
      obtain ⟨s, hs⟩ := exists_said srv reader.unread
      unfold said at hs
      rw [hend] at hs
      exact ⟨_, s, rfl, hs, .inr ⟨rfl, n, rfl, hlate n hend⟩⟩
  · have hend : headEnd srv.tok reader.unread = some n := hend
    have hparse : FastHttpParser.parseRequest srv.tok (reader.unread.take n) = .error e := hparse
    rw [hread, hend]
    dsimp only
    rw [if_neg (Nat.not_lt.2 hle), hparse]
    exact ⟨_, _, rfl, rfl, .inl (.answered _)⟩
  · have hend : headEnd srv.tok reader.unread = some n := hend
    have hparse : FastHttpParser.parseRequest srv.tok (reader.unread.take n) = .ok (some p) := hparse
    have hsame : rawBuf ++ reader'.unread = reader.unread := hsame
    have hsizes : p.isChunked = true →
        ¬ Rest.Negative srv.maxRequestBody ⟨[], (rawBuf ++ reader'.unread).drop p.bodyOffset⟩ :=
      fun hchunked hlater => hneg ⟨n, p, hend, hparse, hchunked, hsame ▸ hlater⟩
    obtain ⟨out, s, hout, hs, hgives⟩ := readBody_gives hoffset hsizes
    rw [hsame] at hs
    rw [hread, hend]
    dsimp only
    rw [if_neg (Nat.not_lt.2 hle), hparse]
    exact ⟨out, s, hout, hs, .inl hgives⟩

/-- A tokenizer that takes heads of one kind is settled. -/
theorem slotted_settled {head : Httparse} (hhead : Decoder.Consistent head) (hempty : head [] = .incomplete) :
    Settled (slotted head) where
  inRange slots h := (slotted_tokenizes hhead.inRange hempty).inRange slots h
  empty slots := by
    unfold slotted
    rw [hempty]
  complete := by
    intro u offset req slots v h
    unfold slotted at h ⊢
    split at h
    · rename_i hu
      rw [hhead.complete u v _ _ hu]
      exact h
    · cases h
    · cases h
  error := by
    intro u e slots v h
    unfold slotted at h ⊢
    split at h
    · rename_i hu
      rw [hhead.complete u v _ _ hu]
      exact h
    · cases h
    · rename_i hu
      rw [hhead.error u v hu]
      exact h

def postHead : Bytes := bytes "POST /a%20b HTTP/1.1\r\ncontent-length: 3\r\n\r\n"

/-- A server that is sent requests with this head. -/
def postServer : Server where
  tok := slotted (parseOnly postHead
    { method := some (bytes "POST"), path := some (bytes "/a%20b"), version := some 1,
      headers := [⟨bytes "content-length", bytes "3"⟩] })
  maxRequestBody := 10
  site := { host := [], port := 80, clientAddr := none }

def postSays : Said :=
  .request ⟨"POST".toList, "/a%20b".toList, [], "1.1".toList, [("content-length".toList, "3".toList)]⟩ 3 (bytes "abc")

/-- The head and one byte of the body come first, and then the other bytes. -/
theorem handleConnection_gives_streamed : ∃ out,
    handleConnection postServer ⟨postHead ++ bytes "abc", [postHead.length + 1, 1]⟩ = some out ∧
      Gives postServer out postSays := by
  have hend : headEnd postServer.tok (postHead ++ bytes "abc") = some postHead.length := by decide +kernel
  have hsays : said postServer (postHead ++ bytes "abc") = some postSays := by decide +kernel
  have hlength : (FastHttpParser.parseRequest postServer.tok
      ((postHead ++ bytes "abc").take postHead.length)).toOption.map (Option.map ParsedHttpRequest.isChunked) =
        some (some false) := by decide +kernel
  have hneg : ¬ NegativeSize postServer (postHead ++ bytes "abc") := by
    rintro ⟨n, p, hn, hp, hchunked, -⟩
    obtain rfl := Option.some.inj (hn.symm.trans hend)
    rw [hp] at hlength
    cases hchunked.symm.trans (Option.some.inj (Option.some.inj hlength))
  have htok : Settled postServer.tok := slotted_settled (parseOnly_consistent _ _) (by decide +kernel)
  obtain ⟨out, s, hout, hs, hgives | ⟨-, n, hn, hlate⟩⟩ :=
    handleConnection_gives htok ⟨postHead ++ bytes "abc", [postHead.length + 1, 1]⟩ hneg
  · obtain rfl := Option.some.inj (hs.symm.trans hsays)
    exact ⟨out, hout, hgives⟩
  · obtain rfl := Option.some.inj (hn.symm.trans hend)
    exact absurd hlate (by decide +kernel)

end Connection

end MultiloopWSGIWorker

end Multiloop.Http
