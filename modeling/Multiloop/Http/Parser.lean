import Multiloop.Http.Framing
import Multiloop.Http.Segmentation

/-!
# `FastHttpParser`

The parser that the WSGI server uses, `parse_request`, beside the header stage
of `process_events`. Both give httparse a number of slots for header fields:
the engine 256, `parse_request` 128, and 512 if these do not suffice. They
agree but for heads whose number of fields lies between.
-/

namespace Multiloop.Http

/-- An error of httparse, with its text. -/
structure HttparseError where
  tooManyHeaders : Bool
  text : Bytes
deriving DecidableEq

inductive TokenResult
  | complete (offset : Nat) (req : Request)
  | incomplete
  | error (e : HttparseError)
deriving DecidableEq

/-- httparse, given a number of slots for header fields. -/
abbrev Tokenizer : Type := Nat → Bytes → TokenResult

/-- httparse as the engine calls it, which does not look at the error. -/
def Tokenizer.engine (tok : Tokenizer) : Httparse := fun u =>
  match tok 256 u with
  | .complete offset req => .complete offset req
  | .incomplete => .incomplete
  | .error _ => .error

/-- What httparse says of a head depends on the slots only in that it refuses a
head with more fields; `head` is what it says with enough of them. -/
structure Tokenizes (tok : Tokenizer) (head : Httparse) : Prop where
  inRange : ∀ {u offset req} slots, tok slots u = .complete offset req → offset ≤ u.length
  empty : head [] = .incomplete
  complete : ∀ {u offset req} slots, head u = .complete offset req → req.headers.length ≤ slots →
    tok slots u = .complete offset req
  tooMany : ∀ {u offset req} slots, head u = .complete offset req → slots < req.headers.length →
    ∃ text, tok slots u = .error ⟨true, text⟩
  malformed : ∀ {u} slots, head u = .error → ∃ e, tok slots u = .error e

/-- The test for contradictory framing. -/
def HeaderFold.Conflicting (f : HeaderFold) : Prop :=
  f.clConflict ∨ f.isChunked ∧ f.hasCl ∨ f.teCount > 1 ∧ ¬ f.isChunked

instance (f : HeaderFold) : Decidable f.Conflicting := inferInstanceAs (Decidable (_ ∨ _))

structure ParsedHttpRequest where
  method : Bytes
  path : Bytes
  rawPath : Bytes
  query : Bytes
  version : Bytes
  headers : List (Bytes × Bytes)
  bodyOffset : Nat
  contentLength : Int
  keepAlive : Bool
  isChunked : Bool
  isUpgrade : Bool
  upgradeProto : Bytes
deriving DecidableEq

namespace FastHttpParser

/-- The exceptions that are raised, with their texts. -/
inductive Failure
  | runtimeError (msg : Bytes)
  | valueError (msg : Bytes)
deriving DecidableEq

def malformed (e : HttparseError) : Failure := .runtimeError (bytes "Malformed HTTP request: " ++ e.text)

/-- One round of the loop over the header fields, which looks for the names in
another order than `process_events`. -/
def field (f : HeaderFold) (h : Header) : HeaderFold :=
  if h.name = [] then f
  else
    let nameLower := lowercase h.name
    let f :=
      if nameLower = bytes "content-length" then f.contentLengthField h.value
      else if nameLower = bytes "connection" then f.connectionField h.value
      else if nameLower = bytes "upgrade" then { f with upgradeProto := lowercase h.value }
      else if nameLower = bytes "transfer-encoding" then f.transferEncodingField h.value
      else f
    { f with headerTuples := f.headerTuples ++ [(nameLower, h.value)] }

def buildParsedRequest (req : Request) (bodyOffset : Nat) : Except Failure (Option ParsedHttpRequest) :=
  let (path, query) := splitQuery (req.path.getD (bytes "/"))
  let f := req.headers.foldl field (.init req)
  if f.Conflicting then .error (.valueError (bytes "Bad Request: Conflicting HTTP headers"))
  else .ok <| some
    { method := req.method.getD (bytes "GET")
      path
      rawPath := path
      query
      version := bytes "1." ++ decimal (req.version.getD 1)
      headers := f.headerTuples
      bodyOffset
      contentLength := f.contentLength
      keepAlive := f.keepAlive
      isChunked := f.isChunked
      isUpgrade := f.isUpgrade
      upgradeProto := f.upgradeProto }

def parseRequest (tok : Tokenizer) (buf : Bytes) : Except Failure (Option ParsedHttpRequest) :=
  match tok 128 buf with
  | .complete bodyOffset req => buildParsedRequest req bodyOffset
  | .incomplete => .ok none
  | .error e =>
    if e.tooManyHeaders then
      match tok 512 buf with
      | .complete bodyOffset req => buildParsedRequest req bodyOffset
      | .incomplete => .ok none
      | .error e => .error (malformed e)
    else .error (malformed e)

/-! ## The two loops -/

/-- No field has two of the names. -/
theorem field_eq (f : HeaderFold) (h : Header) : field f h = f.field h := by
  unfold field HeaderFold.field
  split
  · rfl
  dsimp only
  by_cases hcl : lowercase h.name = bytes "content-length"
  · rw [if_pos hcl, if_pos hcl]
  rw [if_neg hcl, if_neg hcl]
  by_cases hte : lowercase h.name = bytes "transfer-encoding"
  · rw [if_neg (by rw [hte]; decide), if_neg (by rw [hte]; decide), if_pos hte, if_pos hte]
  · rw [if_neg hte, if_neg hte]

theorem fold_eq (req : Request) : req.headers.foldl field (.init req) = foldHeaders req := by
  have hfield : field = HeaderFold.field := funext fun f => funext fun h => field_eq f h
  rw [hfield]
  rfl

end FastHttpParser

/-! ## What the two report -/

/-- What both say of a request, apart from the framing. -/
structure Report where
  method : Bytes
  path : Bytes
  rawPath : Bytes
  query : Bytes
  version : Bytes
  headers : List (Bytes × Bytes)
  keepAlive : Bool
  isUpgrade : Bool
  upgradeProto : Bytes
  bodyOffset : Nat
deriving DecidableEq

def ParsedHttpRequest.report (p : ParsedHttpRequest) : Report where
  method := p.method
  path := p.path
  rawPath := p.rawPath
  query := p.query
  version := p.version
  headers := p.headers
  keepAlive := p.keepAlive
  isUpgrade := p.isUpgrade
  upgradeProto := p.upgradeProto
  bodyOffset := p.bodyOffset

/-- The body that `parse_request` announces; a length that is not positive is no
body. -/
def ParsedHttpRequest.decision (p : ParsedHttpRequest) : Decision :=
  if p.isChunked then .chunked
  else if p.contentLength > 0 then .sized p.contentLength.toNat
  else .noBody

/-- The bytes of the body among some events. -/
def taken : List Event → Nat
  | .body chunk _ :: evs => chunk.length + taken evs
  | _ :: evs => taken evs
  | [] => 0

/-- The report of a request start event, after a round that has read from
`cursor` zero on. -/
def RequestStart.report (start : RequestStart) (bodyOffset : Nat) : Report where
  method := start.method
  path := start.path
  rawPath := start.rawPath
  query := start.query
  version := start.version
  headers := start.headers
  keepAlive := start.keepAlive
  isUpgrade := start.isUpgrade
  upgradeProto := start.upgradeProto
  bodyOffset

namespace FastHttpConnection

/-- The header stage of a call of `feed_data`: its first round. -/
def headerStage (parse : Httparse) (c : FastHttpConnection) (data : Bytes) : Except Fault Round :=
  ({ c with buffer := c.buffer ++ data } : FastHttpConnection).compactBuffer.round .release parse

/-- What the header stage tells comes first in what the call tells. -/
theorem feedData_headerStage {parse : Httparse} {c : FastHttpConnection} {data : Bytes} {r : Round}
    (h : c.headerStage parse data = .ok r) : ∃ more, (c.feedData .release parse data).events = r.2.1 ++ more := by
  unfold feedData processEvents
  rw [show enough _ = (c.buffer ++ data).length + 2 + 1 from rfl]
  unfold rounds
  unfold headerStage at h
  rw [h]
  obtain ⟨c', events, flow⟩ := r
  cases flow with
  | again => exact ⟨_, rfl⟩
  | stop => exact ⟨[], (List.append_nil _).symm⟩

end FastHttpConnection

/-- The two parsers agree on some bytes: one raises an exception where the call
of the other tells an error 400 and no request, and otherwise they report the
same request, which the call tells first, and, unless it is an upgrade to a
websocket, the same body. -/
structure Agreeing (tok : Tokenizer) (c : FastHttpConnection) (b : Bytes) : Prop where
  refused : (∃ e, FastHttpParser.parseRequest tok b = .error e) ↔
    ∃ response more, (c.feedData .release tok.engine b).events = .error 400 response :: more
  reported : (∀ e, FastHttpParser.parseRequest tok b ≠ .error e) →
    ∃ p c' start evs flow more, FastHttpParser.parseRequest tok b = .ok (some p) ∧
      c.headerStage tok.engine b = .ok (c', .requestStart start :: evs, flow) ∧
      (c.feedData .release tok.engine b).events = .requestStart start :: (evs ++ more) ∧
      p.report = start.report (c'.cursor - taken evs) ∧
      (start.isWebsocket = false → decision c'.state (.requestStart start :: evs) = some p.decision)

/-! ## Either parser alone -/

section Parsers

variable {tok : Tokenizer} {head parse : Httparse} {b : Bytes} {offset : Nat} {req : Request}
  {maxBodySize maxHeaderSize maxKeepaliveRequests : Nat}

namespace FastHttpParser

theorem parseRequest_malformed (htok : Tokenizes tok head) (hb : head b = .error) :
    ∃ e, parseRequest tok b = .error e := by
  obtain ⟨e, he⟩ := htok.malformed 128 hb
  obtain ⟨e', he'⟩ := htok.malformed 512 hb
  unfold parseRequest
  rw [he, he']
  dsimp only
  split
  · exact ⟨_, rfl⟩
  · exact ⟨_, rfl⟩

theorem parseRequest_tooMany (htok : Tokenizes tok head) (hb : head b = .complete offset req)
    (hmany : 512 < req.headers.length) : ∃ e, parseRequest tok b = .error e := by
  obtain ⟨text, he⟩ := htok.tooMany 128 hb (by omega)
  obtain ⟨text', he'⟩ := htok.tooMany 512 hb hmany
  unfold parseRequest
  rw [he, he']
  exact ⟨_, rfl⟩

theorem parseRequest_complete (htok : Tokenizes tok head) (hb : head b = .complete offset req)
    (hfew : req.headers.length ≤ 512) : parseRequest tok b = buildParsedRequest req offset := by
  unfold parseRequest
  rcases Nat.lt_or_ge 128 req.headers.length with hmany | hle
  · obtain ⟨text, he⟩ := htok.tooMany 128 hb hmany
    rw [he, htok.complete 512 hb hfew]
    rfl
  · rw [htok.complete 128 hb hle]

theorem build_conflict (h : (foldHeaders req).Conflicting) : ∃ e, buildParsedRequest req offset = .error e := by
  unfold buildParsedRequest
  rw [fold_eq]
  exact ⟨_, if_pos h⟩

/-- What is reported of a request whose framing is not contradictory. -/
theorem build_parsed (h : ¬ (foldHeaders req).Conflicting) (offset : Nat) (hasBody : Bool) :
    ∃ p, buildParsedRequest req offset = .ok (some p) ∧
      p.report = (requestStart req (foldHeaders req) hasBody).report offset ∧
    p.decision = if (foldHeaders req).isChunked then .chunked
      else if (foldHeaders req).contentLength > 0 then .sized (foldHeaders req).contentLength.toNat else .noBody := by
  unfold buildParsedRequest
  rw [fold_eq]
  exact ⟨_, if_neg h, rfl, rfl⟩

end FastHttpParser

namespace FastHttpConnection

/-- A connection that has received these bytes and nothing before. -/
def received (maxBodySize maxHeaderSize maxKeepaliveRequests : Nat) (b : Bytes) : FastHttpConnection :=
  { new maxBodySize maxHeaderSize maxKeepaliveRequests with buffer := b }

theorem headerStage_eq (maxBodySize : Nat) (hparse : InRange parse) (hk : maxKeepaliveRequests < usizeEnd) (hb : b ≠ [])
    (hlen : b.length ≤ maxHeaderSize) (hroom : b.length < 2 ^ 63) :
    (new maxBodySize maxHeaderSize maxKeepaliveRequests).headerStage parse b =
      .ok ((received maxBodySize maxHeaderSize maxKeepaliveRequests b).ofStep
        (match parse b with
          | .complete offset req => (received maxBodySize maxHeaderSize maxKeepaliveRequests b).view.acceptHead
              ⟨maxBodySize, maxHeaderSize⟩ offset req
          | .incomplete => ((received maxBodySize maxHeaderSize maxKeepaliveRequests b).view, [], .stop)
          | .error => (received maxBodySize maxHeaderSize maxKeepaliveRequests b).view.fail 400 "Bad Request")) := by
  have hbounded : (received maxBodySize maxHeaderSize maxKeepaliveRequests b).Bounded :=
    (bounded_new maxBodySize maxHeaderSize maxKeepaliveRequests hk).append hroom
  have hcompact : (received maxBodySize maxHeaderSize maxKeepaliveRequests b).compactBuffer =
      received maxBodySize maxHeaderSize maxKeepaliveRequests b := by
    have hne : ¬ 0 = b.length := fun h => hb (List.eq_nil_of_length_eq_zero h.symm)
    exact (if_neg hne).trans (if_neg (by show ¬ (0 ≥ 64 * 1024 ∧ _); omega))
  have hround := (round_eq hparse hbounded rfl (sound_of_waiting (.inl rfl))).1
  have hheader : (received maxBodySize maxHeaderSize maxKeepaliveRequests b).view.step
      (received maxBodySize maxHeaderSize maxKeepaliveRequests b).limits parse =
        (received maxBodySize maxHeaderSize maxKeepaliveRequests b).view.header
          ⟨maxBodySize, maxHeaderSize⟩ parse := rfl
  unfold headerStage
  show (received maxBodySize maxHeaderSize maxKeepaliveRequests b).compactBuffer.round .release parse = _
  rw [hcompact, hround, hheader]
  congr 2
  exact (if_neg hb).trans (if_neg (Nat.not_lt.2 hlen))

theorem headerStage_refused (hparse : InRange parse) (hk : maxKeepaliveRequests < usizeEnd) (hb : b ≠ [])
    (hlen : b.length ≤ maxHeaderSize) (hroom : b.length < 2 ^ 63)
    (h : parse b = .error ∨ ∃ offset req, parse b = .complete offset req ∧ (foldHeaders req).Conflicting) :
    ∃ response more, ((new maxBodySize maxHeaderSize maxKeepaliveRequests).feedData .release parse b).events =
      .error 400 response :: more := by
  have hstage := headerStage_eq maxBodySize hparse hk hb hlen hroom
  suffices hrefused : ∃ c' response flow, (new maxBodySize maxHeaderSize maxKeepaliveRequests).headerStage parse b =
      .ok (c', [.error 400 response], flow) by
    obtain ⟨c', response, flow, hrefused⟩ := hrefused
    obtain ⟨more, hmore⟩ := feedData_headerStage hrefused
    exact ⟨response, more, hmore⟩
  rcases h with h | ⟨offset, req, h, hconflict⟩
  · rw [h] at hstage
    exact ⟨_, _, _, hstage⟩
  · rw [h] at hstage
    have haccept : (received maxBodySize maxHeaderSize maxKeepaliveRequests b).view.acceptHead
        ⟨maxBodySize, maxHeaderSize⟩ offset req = _ := if_pos hconflict
    dsimp only at hstage
    rw [haccept] at hstage
    exact ⟨_, _, _, hstage⟩

end FastHttpConnection

/-- A head that is accepted starts a request; the bytes that the round reads
are those of the head and of the body. -/
theorem reported_acceptHead (lim : Limits) {d : Decoder} (hoffset : offset ≤ d.unread.length)
    (h : ¬ (foldHeaders req).Conflicting) (hbody : (foldHeaders req).contentLength.toNat ≤ lim.maxBodySize) :
    ∃ d' start evs flow, d.acceptHead lim offset req = (d', .requestStart start :: evs, flow) ∧
      start = requestStart req (foldHeaders req) start.hasBody ∧
      d'.unread.length + taken evs + offset = d.unread.length := by
  have hdrop : (d.unread.drop offset).length = d.unread.length - offset := List.length_drop
  unfold HeaderFold.Conflicting at h
  unfold Decoder.acceptHead
  dsimp only
  rw [if_neg h]
  split
  · refine ⟨_, _, _, _, rfl, rfl, ?_⟩
    show (d.unread.drop offset).length + 0 + offset = d.unread.length
    omega
  split
  · refine ⟨_, _, _, _, rfl, rfl, ?_⟩
    show (d.unread.drop offset).length + 0 + offset = d.unread.length
    omega
  split
  · rw [if_neg (Nat.not_lt.2 hbody)]
    unfold Decoder.beginBody
    dsimp only
    split
    · rename_i hnil
      refine ⟨_, _, _, _, rfl, rfl, ?_⟩
      show (d.unread.drop offset).length + 0 + offset = d.unread.length
      omega
    · unfold Decoder.takeBody
      dsimp only
      split
      · refine ⟨_, _, _, _, rfl, rfl, ?_⟩
        show 0 + ((d.unread.drop offset).length + 0) + offset = d.unread.length
        omega
      · rename_i henough
        have henough := Nat.not_lt.1 henough
        refine ⟨_, _, _, _, rfl, rfl, ?_⟩
        show ((d.unread.drop offset).drop (foldHeaders req).contentLength.toNat).length +
          (((d.unread.drop offset).take (foldHeaders req).contentLength.toNat).length + 0) + offset = d.unread.length
        rw [List.length_drop, List.length_take_of_le henough]
        omega
  · refine ⟨_, _, _, _, rfl, rfl, ?_⟩
    show (d.unread.drop offset).length + 0 + offset = d.unread.length
    omega

/-- A length that is accepted is an `isize`. -/
theorem contentLength_toNat_lt (req : Request) (h : ¬ (foldHeaders req).Conflicting) :
    (foldHeaders req).contentLength.toNat < 2 ^ 63 := by
  have hspec := foldHeaders_spec req
  have hclear : (foldHeaders req).clConflict = false := Bool.eq_false_iff.2 fun hc => h (.inl hc)
  obtain ⟨-, ⟨-, -, hlen⟩ | ⟨n, hne, hall, -, hlen⟩⟩ := hspec.agree hclear
  · rw [hlen]
    decide
  · rw [hlen]
    unfold asIsize
    split
    · omega
    · obtain ⟨v, hv⟩ := List.exists_mem_of_ne_nil _ hne
      have hlt := parseContentLength_lt (hall v hv)
      omega

namespace FastHttpConnection

theorem headerStage_reported (hparse : InRange parse) (hk : maxKeepaliveRequests < usizeEnd)
    (hbody : 2 ^ 63 ≤ maxBodySize) (hb : b ≠ []) (hlen : b.length ≤ maxHeaderSize) (hroom : b.length < 2 ^ 63)
    (hhead : parse b = .complete offset req) (h : ¬ (foldHeaders req).Conflicting) :
    ∃ c' start evs flow, (new maxBodySize maxHeaderSize maxKeepaliveRequests).headerStage parse b =
        .ok (c', .requestStart start :: evs, flow) ∧
      start = requestStart req (foldHeaders req) start.hasBody ∧ c'.cursor - taken evs = offset ∧
      (start.isWebsocket = false → decision c'.state (.requestStart start :: evs) =
        some (if (foldHeaders req).isChunked then .chunked
          else if (foldHeaders req).contentLength > 0 then .sized (foldHeaders req).contentLength.toNat
          else .noBody)) := by
  have hstage := headerStage_eq maxBodySize hparse hk hb hlen hroom
  rw [hhead] at hstage
  dsimp only at hstage
  have hsmall := contentLength_toNat_lt req h
  have hlimit : (foldHeaders req).contentLength.toNat ≤ maxBodySize := Nat.le_trans (Nat.le_of_lt hsmall) hbody
  obtain ⟨d', start, evs, flow, haccept, hstart, hread⟩ :=
    reported_acceptHead ⟨maxBodySize, maxHeaderSize⟩
      (d := (received maxBodySize maxHeaderSize maxKeepaliveRequests b).view) (hparse b offset req hhead) h hlimit
  have hdecision := decision_acceptHead ⟨maxBodySize, maxHeaderSize⟩
    (received maxBodySize maxHeaderSize maxKeepaliveRequests b).view offset req
  rw [haccept] at hstage hdecision
  refine ⟨_, start, evs, flow, hstage, hstart, ?_, fun hws => ?_⟩
  · show b.length - d'.unread.length - taken evs = offset
    change _ = b.length at hread
    omega
  · have hnot : ¬ ((foldHeaders req).isUpgrade ∧ (foldHeaders req).upgradeProto = bytes "websocket") := by
      intro hup
      rw [hstart] at hws
      exact absurd hup (of_decide_eq_false hws)
    refine (hdecision hnot).trans ?_
    unfold HeaderFold.decision
    unfold HeaderFold.Conflicting at h
    rw [if_neg h, if_neg (Nat.not_lt.2 hlimit)]

end FastHttpConnection

end Parsers

/-! ## Both parsers -/

section Agreement

variable {tok : Tokenizer} {head : Httparse} {b : Bytes} {maxBodySize maxHeaderSize maxKeepaliveRequests : Nat}

theorem engine_inRange (htok : Tokenizes tok head) : InRange tok.engine := by
  intro u offset req h
  unfold Tokenizer.engine at h
  split at h
  · rename_i hu
    cases h
    exact htok.inRange 256 hu
  · cases h
  · cases h

/-- The engine refuses a head with more fields than it has slots. -/
theorem engine_refuses (htok : Tokenizes tok head) (h : head b = .error ∨
    ∃ offset req, head b = .complete offset req ∧ 256 < req.headers.length) : tok.engine b = .error := by
  have herror : ∃ e, tok 256 b = .error e := by
    rcases h with h | ⟨offset, req, h, hmany⟩
    · exact htok.malformed 256 h
    · obtain ⟨text, he⟩ := htok.tooMany 256 h hmany
      exact ⟨_, he⟩
  obtain ⟨e, he⟩ := herror
  unfold Tokenizer.engine
  rw [he]

theorem engine_complete (htok : Tokenizes tok head) {offset : Nat} {req : Request} (h : head b = .complete offset req)
    (hfew : req.headers.length ≤ 256) : tok.engine b = .complete offset req := by
  unfold Tokenizer.engine
  rw [htok.complete 256 h hfew]

/-- The two parsers agree on a head unless it has more fields than the engine
has slots, and no more than `parse_request` has. -/
theorem agreeing_iff (htok : Tokenizes tok head) (hk : maxKeepaliveRequests < usizeEnd) (hbody : 2 ^ 63 ≤ maxBodySize)
    (hwhole : head b ≠ .incomplete) (hlen : b.length ≤ maxHeaderSize) (hroom : b.length < 2 ^ 63) :
    Agreeing tok (.new maxBodySize maxHeaderSize maxKeepaliveRequests) b ↔
      ¬ ∃ offset req, head b = .complete offset req ∧ 256 < req.headers.length ∧ req.headers.length ≤ 512 ∧
        ¬ (foldHeaders req).Conflicting := by
  have hb : b ≠ [] := by
    rintro rfl
    exact hwhole htok.empty
  have hparse := engine_inRange htok
  -- Both refuse.
  have hboth : (∃ e, FastHttpParser.parseRequest tok b = .error e) →
      (∃ response more, ((FastHttpConnection.new maxBodySize maxHeaderSize maxKeepaliveRequests).feedData .release
        tok.engine b).events = .error 400 response :: more) →
      Agreeing tok (.new maxBodySize maxHeaderSize maxKeepaliveRequests) b := by
    rintro ⟨e, he⟩ hrefused
    exact ⟨⟨fun _ => hrefused, fun _ => ⟨e, he⟩⟩, fun hnone => absurd he (hnone e)⟩
  have hrefuses : (tok.engine b = .error ∨
      ∃ offset req, tok.engine b = .complete offset req ∧ (foldHeaders req).Conflicting) →
      ∃ response more, ((FastHttpConnection.new maxBodySize maxHeaderSize maxKeepaliveRequests).feedData .release
        tok.engine b).events = .error 400 response :: more :=
    fun h => FastHttpConnection.headerStage_refused hparse hk hb hlen hroom h
  cases hhead : head b with
  | incomplete => exact absurd hhead hwhole
  | error =>
    have hrefused := hrefuses (.inl (engine_refuses htok (.inl hhead)))
    refine ⟨fun _ => ?_, fun _ => hboth (FastHttpParser.parseRequest_malformed htok hhead) hrefused⟩
    rintro ⟨offset, req, hcomplete, -⟩
    cases hcomplete
  | complete offset req =>
    have hother : ∀ {p : Nat → Request → Prop}, ¬ p offset req → ¬ ∃ offset' req',
        (ParseResult.complete offset req = .complete offset' req') ∧ p offset' req' := by
      rintro p hp ⟨offset', req', heq, hp'⟩
      cases heq
      exact hp hp'
    by_cases hconflict : (foldHeaders req).Conflicting
    · have hraises : ∃ e, FastHttpParser.parseRequest tok b = .error e := by
        rcases Nat.lt_or_ge 512 req.headers.length with hmany | hfew
        · exact FastHttpParser.parseRequest_tooMany htok hhead hmany
        · rw [FastHttpParser.parseRequest_complete htok hhead hfew]
          exact FastHttpParser.build_conflict hconflict
      have hrefused := hrefuses <| by
        rcases Nat.lt_or_ge 256 req.headers.length with hmany | hfew
        · exact .inl (engine_refuses htok (.inr ⟨offset, req, hhead, hmany⟩))
        · exact .inr ⟨offset, req, engine_complete htok hhead hfew, hconflict⟩
      exact ⟨fun _ => hother (fun h => h.2.2 hconflict), fun _ => hboth hraises hrefused⟩
    rcases Nat.lt_or_ge 512 req.headers.length with hmany | hfew
    · have hrefused := hrefuses (.inl (engine_refuses htok (.inr ⟨offset, req, hhead, by omega⟩)))
      exact ⟨fun _ => hother (fun h => absurd h.2.1 (Nat.not_le.2 hmany)), fun _ =>
        hboth (FastHttpParser.parseRequest_tooMany htok hhead hmany) hrefused⟩
    obtain ⟨p, hp, -, -⟩ := FastHttpParser.build_parsed hconflict offset false
    have hparsed := (FastHttpParser.parseRequest_complete htok hhead hfew).trans hp
    rcases Nat.lt_or_ge 256 req.headers.length with hmany | hfits
    · -- The engine alone refuses.
      have hrefused := hrefuses (.inl (engine_refuses htok (.inr ⟨offset, req, hhead, hmany⟩)))
      refine ⟨fun hagree => ?_, fun hnot => absurd ⟨offset, req, rfl, hmany, hfew, hconflict⟩ hnot⟩
      obtain ⟨e, he⟩ := hagree.refused.2 hrefused
      rw [hparsed] at he
      cases he
    · refine ⟨fun _ => hother (fun h => absurd h.1 (Nat.not_lt.2 hfits)), fun _ => ?_⟩
      obtain ⟨c', start, evs, flow, hstage, hstart, hoffset, hdecision⟩ :=
        FastHttpConnection.headerStage_reported hparse hk hbody hb hlen hroom
          (engine_complete htok hhead hfits) hconflict
      obtain ⟨p, hp, hreport, hbodies⟩ :=
        FastHttpParser.build_parsed hconflict offset start.hasBody
      have hparsed := (FastHttpParser.parseRequest_complete htok hhead hfew).trans hp
      obtain ⟨more, htold⟩ := FastHttpConnection.feedData_headerStage hstage
      refine ⟨⟨?_, ?_⟩, fun _ => ⟨p, c', start, evs, flow, more, hparsed, hstage, htold, ?_, fun hws => ?_⟩⟩
      · rintro ⟨e, he⟩
        rw [hparsed] at he
        cases he
      · rintro ⟨response, more', hrefused⟩
        rw [htold] at hrefused
        cases hrefused
      · rw [hreport, hoffset, ← hstart]
      · rw [hbodies]
        exact hdecision hws

/-- A tokenizer that reads heads as `head` does, apart from the slots. -/
def slotted (head : Httparse) : Tokenizer := fun slots u =>
  match head u with
  | .complete offset req =>
    if slots < req.headers.length then .error ⟨true, bytes "too many headers"⟩ else .complete offset req
  | .incomplete => .incomplete
  | .error => .error ⟨false, bytes "invalid token"⟩

theorem slotted_tokenizes (hparse : InRange head) (hempty : head [] = .incomplete) : Tokenizes (slotted head) head where
  inRange := by
    intro u offset req slots h
    unfold slotted at h
    split at h
    · rename_i offset' req' hu
      split at h
      · cases h
      · cases h
        exact hparse u offset req hu
    · cases h
    · cases h
  empty := hempty
  complete := by
    intro u offset req slots hu hfew
    unfold slotted
    rw [hu]
    exact if_neg (Nat.not_lt.2 hfew)
  tooMany := by
    intro u offset req slots hu hmany
    unfold slotted
    rw [hu]
    exact ⟨_, if_pos hmany⟩
  malformed := by
    intro u slots hu
    unfold slotted
    rw [hu]
    exact ⟨_, rfl⟩

/-- A request with one field, and the first bytes of a body. -/
theorem agreeing_chunked :
    Agreeing (slotted parseChunkedHead) (.new (2 ^ 64 - 1) 65536 1000) (chunkedHead ++ [50]) := by
  have hhead : parseChunkedHead (chunkedHead ++ [50]) = .complete chunkedHead.length
      { method := some (bytes "POST"), path := some (bytes "/"), version := some 1,
        headers := [⟨bytes "transfer-encoding", bytes "chunked"⟩] } := if_pos (by decide)
  refine (agreeing_iff (slotted_tokenizes parseChunkedHead_inRange (by decide)) (by decide) (by decide)
    (by rw [hhead]; exact nofun) (by decide) (by decide)).2 ?_
  rintro ⟨offset, req, hreq, hmany, -⟩
  rw [hhead] at hreq
  cases hreq
  exact absurd hmany (by decide)

/-- A head with `n` fields. -/
def fieldsHead (n : Nat) : Bytes :=
  bytes "GET / HTTP/1.1\r\n" ++ (List.replicate n (bytes "a: b\r\n")).flatten ++ bytes "\r\n"

/-- What httparse says of that head, or of bytes that begin with it. -/
def parseFields (n : Nat) (u : Bytes) : ParseResult :=
  if (fieldsHead n).isPrefixOf u then
    .complete (fieldsHead n).length
      { method := some (bytes "GET")
        path := some (bytes "/")
        version := some 1
        headers := List.replicate n ⟨bytes "a", bytes "b"⟩ }
  else if u.isPrefixOf (fieldsHead n) then .incomplete
  else .error

theorem parseFields_inRange (n : Nat) : InRange (parseFields n) := by
  intro u offset req hu
  unfold parseFields at hu
  split at hu
  · rename_i hp
    cases hu
    exact (List.isPrefixOf_iff_prefix.1 hp).length_le
  · split at hu <;> cases hu

/-- A head with 257 fields: `parse_request` reads it, the engine answers 400. -/
theorem engine_alone_refuses : ∃ tok head b, Tokenizes tok head ∧ head b ≠ .incomplete ∧ b.length ≤ 65536 ∧
    ¬ Agreeing tok (.new (2 ^ 64 - 1) 65536 1000) b := by
  have htok := slotted_tokenizes (parseFields_inRange 257) (by decide +kernel)
  obtain ⟨req, hhead, hcount, hconflict⟩ : ∃ req, parseFields 257 (fieldsHead 257) =
      .complete (fieldsHead 257).length req ∧ req.headers.length = 257 ∧ ¬ (foldHeaders req).Conflicting :=
    ⟨_, if_pos (by decide +kernel), List.length_replicate, by decide +kernel⟩
  refine ⟨_, _, fieldsHead 257, htok, by rw [hhead]; exact nofun, by decide +kernel, fun hagree => ?_⟩
  obtain ⟨p, hp, -⟩ := FastHttpParser.build_parsed hconflict (fieldsHead 257).length false
  have hparsed := (FastHttpParser.parseRequest_complete htok hhead (by omega)).trans hp
  obtain ⟨e, he⟩ := hagree.refused.2 <| FastHttpConnection.headerStage_refused (engine_inRange htok) (by decide)
    (by decide +kernel) (by decide +kernel) (by decide +kernel)
    (.inl (engine_refuses htok (.inr ⟨_, req, hhead, by omega⟩)))
  rw [hparsed] at he
  cases he

end Agreement

end Multiloop.Http
