import Multiloop.Http.Text

/-!
# Request heads

A parsed request head, as httparse returns it, and what `process_events` makes
of its header fields. The parser itself is a parameter of the model
(`Httparse`).
-/

namespace Multiloop.Http

/-- `httparse::Header`. -/
structure Header where
  name : Bytes
  value : Bytes
deriving DecidableEq

/-- The fields of `httparse::Request`. -/
structure Request where
  method : Option Bytes
  path : Option Bytes
  version : Option Nat
  headers : List Header
deriving DecidableEq

/-- The result of `httparse::Request::parse`. -/
inductive ParseResult
  | complete (offset : Nat) (req : Request)
  | incomplete
  | error
deriving DecidableEq

abbrev Httparse : Type := Bytes → ParseResult

/-- httparse reads a head from the bytes it is given. -/
def InRange (parse : Httparse) : Prop :=
  ∀ u offset req, parse u = .complete offset req → offset ≤ u.length

/-! ## Header fields -/

/-- The variables that the loop over the header fields updates. -/
structure HeaderFold where
  headerTuples : List (Bytes × Bytes)
  contentLength : Int
  hasCl : Bool
  isChunked : Bool
  teCount : Nat
  clConflict : Bool
  keepAlive : Bool
  isUpgrade : Bool
  upgradeProto : Bytes
deriving DecidableEq

/-- `val as isize`. -/
def asIsize (n : Nat) : Int := if n < 2 ^ 63 then n else (n : Int) - 2 ^ 64

/-- `std::str::from_utf8(value)`, then `s.trim().parse::<usize>()`. -/
def parseContentLength (value : Bytes) : Option Nat :=
  (fromUtf8 value).bind fun s => fromStrRadix 10 (trim s)

/-- The codings of a `Transfer-Encoding` value, separated by commas; `strip`
removes what may stand around them. -/
def codings (strip : List Char → List Char) (s : List Char) : List (List Char) :=
  let (part, parts) := splitComma s
  ((part :: parts).map strip).filter (· ≠ [])

/-- `a.eq_ignore_ascii_case("chunked")` for a `str`. -/
def isChunkedCoding (s : List Char) : Bool :=
  s.map Char.toLower = "chunked".toList

/-- The last coding of a value is `chunked`. -/
def endsChunked (strip : List Char → List Char) (value : Bytes) : Bool :=
  match fromUtf8 value with
  | some s =>
    match (codings strip s).getLast? with
    | some lastCoding => isChunkedCoding lastCoding
    | none => false
  | none => false

namespace HeaderFold

def init (req : Request) : HeaderFold where
  headerTuples := []
  contentLength := -1
  hasCl := false
  isChunked := false
  teCount := 0
  clConflict := false
  keepAlive := req.version.getD 1 = 1
  isUpgrade := false
  upgradeProto := []

variable (f : HeaderFold)

def contentLengthField (value : Bytes) : HeaderFold :=
  match parseContentLength value with
  | some val =>
    if f.hasCl ∧ asIsize val ≠ f.contentLength then { f with clConflict := true }
    else { f with contentLength := asIsize val, hasCl := true }
  | none => { f with clConflict := true }

def transferEncodingField (value : Bytes) : HeaderFold :=
  if endsChunked trim value then { f with teCount := f.teCount + 1, isChunked := true }
  else { f with teCount := f.teCount + 1, clConflict := true }

/-- A `Connection` value has `option` somewhere in it. -/
def mentions (option value : Bytes) : Bool :=
  contains option (lowercase value) || eqIgnoreAsciiCase value option

def connectionField (value : Bytes) : HeaderFold :=
  let keepAlive :=
    if mentions (bytes "close") value then false
    else if mentions (bytes "keep-alive") value then true
    else f.keepAlive
  { f with keepAlive, isUpgrade := f.isUpgrade || mentions (bytes "upgrade") value }

/-- One round of the loop over the header fields. -/
def field (h : Header) : HeaderFold :=
  if h.name = [] then f
  else
    let nameLower := lowercase h.name
    let f :=
      if nameLower = bytes "content-length" then f.contentLengthField h.value
      else if nameLower = bytes "transfer-encoding" then f.transferEncodingField h.value
      else if nameLower = bytes "connection" then f.connectionField h.value
      else if nameLower = bytes "upgrade" then { f with upgradeProto := lowercase h.value }
      else f
    { f with headerTuples := f.headerTuples ++ [(nameLower, h.value)] }

end HeaderFold

def foldHeaders (req : Request) : HeaderFold := req.headers.foldl HeaderFold.field (.init req)

/-! ## The start of a request -/

/-- The request start event. -/
structure RequestStart where
  method : Bytes
  path : Bytes
  rawPath : Bytes
  query : Bytes
  version : Bytes
  headers : List (Bytes × Bytes)
  keepAlive : Bool
  isUpgrade : Bool
  upgradeProto : Bytes
  hasBody : Bool
deriving DecidableEq

/-- `full_path.split_once('?')`. -/
def splitQuery (fullPath : Bytes) : Bytes × Bytes :=
  (fullPath.takeWhile (· ≠ 63), (fullPath.dropWhile (· ≠ 63)).drop 1)

def requestStart (req : Request) (f : HeaderFold) (hasBody : Bool) : RequestStart :=
  let (path, query) := splitQuery (req.path.getD (bytes "/"))
  { method := req.method.getD (bytes "GET")
    path
    rawPath := path
    query
    version := bytes "1." ++ decimal (req.version.getD 1)
    headers := f.headerTuples
    keepAlive := f.keepAlive
    isUpgrade := f.isUpgrade
    upgradeProto := f.upgradeProto
    hasBody }

def RequestStart.isWebsocket (start : RequestStart) : Bool :=
  start.isUpgrade ∧ start.upgradeProto = bytes "websocket"

end Multiloop.Http
