import Multiloop.Framework.Dict
import Multiloop.Http.Fields
import Multiloop.Http.Heads
import Multiloop.Http.Parser
import Multiloop.Http.SyncStreamReader

/-!
# The environ of a WSGI application

The dictionary that `_handle_connection` of `multiloop/wsgi.py` builds from a
parsed head. A field of the head gets a key of its own, `HTTP_` and its name,
but for `content-type` and `content-length`; the values of fields with one key
are joined. No field reaches another key (`lookup_environ`).
-/

namespace Multiloop.Http

/-! ## `str` of Python -/

/-- `bs.decode("latin1")`. -/
def fromLatin1 (bs : Bytes) : Str := bs.map chr

/-- What Python makes of a `str` of Rust. -/
def pyString (bs : Bytes) : Str := (fromUtf8 bs).getD []

/-- `s.lower()`, for a character of Latin-1. -/
def lowerChar (c : Char) : Char :=
  let n := c.toNat
  if 65 ≤ n ∧ n ≤ 90 ∨ 0xC0 ≤ n ∧ n ≤ 0xDE ∧ n ≠ 0xD7 then Char.ofNat (n + 32) else c

/-- `s.upper()`, for a character of Latin-1. Three of them have no capital that
is one character of Latin-1. -/
def upperChar (c : Char) : Str :=
  let n := c.toNat
  if n = 0xB5 then [Char.ofNat 0x39C]
  else if n = 0xDF then ['S', 'S']
  else if n = 0xFF then [Char.ofNat 0x178]
  else if 97 ≤ n ∧ n ≤ 122 ∨ 0xE0 ≤ n ∧ n ≤ 0xFE ∧ n ≠ 0xF7 then [Char.ofNat (n - 32)]
  else [c]

/-- `c.isalnum()`, for a character of Latin-1: letters, and what has a numeric
value. -/
def isAlnum (c : Char) : Bool :=
  let n := c.toNat
  48 ≤ n ∧ n ≤ 57 ∨ 65 ≤ n ∧ n ≤ 90 ∨ 97 ≤ n ∧ n ≤ 122 ∨ n = 0xAA ∨ n = 0xB2 ∨ n = 0xB3 ∨ n = 0xB5 ∨ n = 0xB9 ∨
    n = 0xBA ∨ 0xBC ≤ n ∧ n ≤ 0xBE ∨ 0xC0 ≤ n ∧ n ≤ 0xFF ∧ n ≠ 0xD7 ∧ n ≠ 0xF7

/-- `c.isspace()`, for a character of Latin-1. -/
def isSpaceChar (c : Char) : Bool :=
  let n := c.toNat
  9 ≤ n ∧ n ≤ 13 ∨ 28 ≤ n ∧ n ≤ 32 ∨ n = 0x85 ∨ n = 0xA0

/-- The byte that two digits stand for. -/
def hexPair (a b : Char) : Option Char :=
  (toDigit 16 a).bind fun high => (toDigit 16 b).map fun low => Char.ofNat (high * 16 + low)

/-- `urllib.parse.unquote(s, encoding="latin-1")`. A percent sign without two
digits after it stays. -/
def unquote : Str → Str
  | '%' :: a :: b :: s =>
    match hexPair a b with
    | some c => c :: unquote s
    | none => '%' :: unquote (a :: b :: s)
  | c :: s => c :: unquote s
  | [] => []

/-- `", ".join(values)`. -/
def joinValues (values : List Str) : Str := ", ".toList.intercalate values

namespace MultiloopWSGIWorker

/-! ## The dictionary -/

/-- A value of the dictionary. -/
inductive EnvironValue
  | str (s : Str)
  | version (major minor : Nat)
  | flag (b : Bool)
  | input (s : SyncStreamReader)
  | stderr
deriving DecidableEq

abbrev Environ : Type := Dict Str EnvironValue

/-- `f"HTTP_{k.upper().replace('-', '_')}"`. -/
def headerKey (k : Str) : Str := "HTTP_".toList ++ (k.flatMap upperChar).map fun c => if c = '-' then '_' else c

/-- The addresses that are not the name of a host. -/
def isWildcard (host : Str) : Bool := host ∈ ["0.0.0.0".toList, "::".toList, []]

/-- What may be the name of the host in the value of a `host` field. -/
def hostCandidate (v : Str) : Str := stripBy isSpaceChar (v.takeWhile (· ≠ ':'))

def isHostName (cand : Str) : Bool := cand ≠ [] ∧ cand.all fun c => isAlnum c || c ∈ ".-_".toList

/-- `server_name`. Only the first `host` field is looked at. -/
def serverName (host : Str) (headers : List (Str × Str)) : Str :=
  if isWildcard host then
    let name := match headers.find? (·.1 = "host".toList) with
      | some (_, v) => if isHostName (hostCandidate v) then hostCandidate v else host
      | none => host
    if isWildcard name then "127.0.0.1".toList else name
  else host

/-- The variables of the loop over the header fields. -/
structure HeaderVars where
  contentTypeVal : Str
  contentLenVal : Str
  headerDictPep : Dict Str (List Str)

/-- One round of that loop. -/
def HeaderVars.field (vars : HeaderVars) (h : Str × Str) : HeaderVars :=
  if h.1 = "content-type".toList then { vars with contentTypeVal := h.2 }
  else if h.1 = "content-length".toList then { vars with contentLenVal := h.2 }
  else { vars with headerDictPep := vars.headerDictPep.append (headerKey h.1) h.2 }

/-- `str(n)`. -/
def strNat (n : Nat) : Str := Nat.toDigits 10 n

def headerVars (contentLength : Nat) (headers : List (Str × Str)) : HeaderVars :=
  headers.foldl HeaderVars.field ⟨[], if contentLength > 0 then strNat contentLength else [], ∅⟩

/-- What a connection knows besides the request. -/
structure Endpoint where
  host : Str
  /-- The port of the server. -/
  port : Nat
  clientAddr : Option (Str × Nat)

/-- The head of a request, as `_handle_connection` keeps it. -/
structure RequestHead where
  method : Str
  path : Str
  queryString : Str
  httpVersion : Str
  headersList : List (Str × Str)
deriving DecidableEq

/-- The names that the server gives to a request. -/
def baseEnviron (site : Endpoint) (head : RequestHead) (input : SyncStreamReader) : Environ :=
  List.toAList <| (List.map fun e : String × EnvironValue => ⟨e.1.toList, e.2⟩)
    [("REQUEST_METHOD", .str head.method),
      ("SCRIPT_NAME", .str []),
      ("PATH_INFO", .str (unquote head.path)),
      ("QUERY_STRING", .str head.queryString),
      ("SERVER_NAME", .str (serverName site.host head.headersList)),
      ("SERVER_PORT", .str (strNat site.port)),
      ("SERVER_PROTOCOL", .str ("HTTP/".toList ++ head.httpVersion)),
      ("REMOTE_ADDR", .str (site.clientAddr.getD (site.host, 0)).1),
      ("REMOTE_PORT", .str (strNat (site.clientAddr.getD (site.host, 0)).2)),
      ("wsgi.version", .version 1 0),
      ("wsgi.url_scheme", .str "http".toList),
      ("wsgi.input", .input input),
      ("wsgi.errors", .stderr),
      ("wsgi.multithread", .flag true),
      ("wsgi.multiprocess", .flag false),
      ("wsgi.run_once", .flag false)]

/-- `environ[name] = value`, if there is a value. -/
def setUnlessEmpty (environ : Environ) (name : String) (value : Str) : Environ :=
  if value = [] then environ else environ.insert name.toList (.str value)

def environ (site : Endpoint) (head : RequestHead) (contentLength : Nat) (input : SyncStreamReader) : Environ :=
  let vars := headerVars contentLength head.headersList
  let environ := setUnlessEmpty (baseEnviron site head input) "CONTENT_TYPE" vars.contentTypeVal
  let environ := setUnlessEmpty environ "CONTENT_LENGTH" vars.contentLenVal
  environ.assign (fun values => .str (joinValues values)) vars.headerDictPep

/-! ## What is in it -/

/-- The field has a key that is made of its name. -/
def hasOwnKey (h : Str × Str) : Bool := h.1 ≠ "content-type".toList ∧ h.1 ≠ "content-length".toList

/-- The fields with a key of their own, by key. -/
def otherFields (headers : List (Str × Str)) : List (Str × Str) :=
  (headers.filter hasOwnKey).map fun h => (headerKey h.1, h.2)

/-- A value that is in the dictionary unless it is empty. -/
def unlessEmpty (value : Str) : Option EnvironValue := if value = [] then none else some (.str value)

variable {site : Endpoint} {head : RequestHead} {contentLength : Nat} {input : SyncStreamReader} {k : Str}
  {headers : List (Str × Str)}

/-- The last value of a field counts, if it is not one of those with a key. -/
theorem headerVars_eq (contentLength : Nat) (headers : List (Str × Str)) : headerVars contentLength headers =
    { contentTypeVal := (Dict.values headers "content-type".toList).getLastD []
      contentLenVal := (Dict.values headers "content-length".toList).getLastD
        (if contentLength > 0 then strNat contentLength else [])
      headerDictPep := Dict.group (otherFields headers) } := by
  induction headers using List.reverseRecOn with
  | nil => rfl
  | append_singleton headers h ih =>
    have hround : headerVars contentLength (headers ++ [h]) = (headerVars contentLength headers).field h := by
      unfold headerVars
      rw [List.foldl_append]
      rfl
    have hkey : otherFields (headers ++ [h]) = otherFields headers ++
        if hasOwnKey h then [(headerKey h.1, h.2)] else [] := by
      unfold otherFields
      rw [List.filter_append, List.map_append]
      split
      · rename_i hother
        rw [List.filter_cons_of_pos hother]
        rfl
      · rename_i hother
        rw [List.filter_cons_of_neg hother]
        rfl
    rw [hround, ih, HeaderVars.field, Dict.values_append, Dict.values_append, hkey]
    by_cases hct : h.1 = "content-type".toList
    · have hcl : "content-length".toList ≠ h.1 := by
        rw [hct]
        decide +kernel
      have hown : ¬ hasOwnKey h = true := fun hown => (of_decide_eq_true hown).1 hct
      rw [if_pos hct, if_pos hct.symm, if_neg hcl, if_neg hown, List.getLastD_concat, List.append_nil]
    rw [if_neg hct, if_neg (Ne.symm hct)]
    by_cases hcl : h.1 = "content-length".toList
    · have hown : ¬ hasOwnKey h = true := fun hown => (of_decide_eq_true hown).2 hcl
      rw [if_pos hcl, if_pos hcl.symm, if_neg hown, List.getLastD_concat, List.append_nil]
    · have hown : hasOwnKey h = true := decide_eq_true ⟨hct, hcl⟩
      rw [if_neg hcl, if_neg (Ne.symm hcl), if_pos hown, Dict.group_append]

theorem lookup_setUnlessEmpty (environ : Environ) (name : String) (value k : Str) :
    (setUnlessEmpty environ name value).lookup k =
      if k = name.toList then (unlessEmpty value).or (environ.lookup k) else environ.lookup k := by
  unfold setUnlessEmpty unlessEmpty
  by_cases hvalue : value = []
  · rw [if_pos hvalue, if_pos hvalue]
    exact (ite_self _).symm
  rw [if_neg hvalue, if_neg hvalue]
  split
  · rename_i hk
    rw [hk, AList.lookup_insert]
    rfl
  · rename_i hk
    rw [AList.lookup_insert_ne hk]

/-- Every key of a field begins with `HTTP_`. -/
theorem values_otherFields (hk : ¬ "HTTP_".toList <+: k) : Dict.values (otherFields headers) k = [] := by
  unfold Dict.values
  rw [List.map_eq_nil_iff, List.filter_eq_nil_iff]
  intro p hp hkey
  obtain ⟨h, -, rfl⟩ := List.mem_map.1 hp
  refine hk ?_
  rw [← of_decide_eq_true hkey]
  exact List.prefix_append _ _

/-- The names of `baseEnviron`. -/
def baseNames : List String :=
  ["REQUEST_METHOD", "SCRIPT_NAME", "PATH_INFO", "QUERY_STRING", "SERVER_NAME", "SERVER_PORT", "SERVER_PROTOCOL",
    "REMOTE_ADDR", "REMOTE_PORT", "wsgi.version", "wsgi.url_scheme", "wsgi.input", "wsgi.errors", "wsgi.multithread",
    "wsgi.multiprocess", "wsgi.run_once"]

theorem lookup_baseEnviron_eq_none (hk : k ∉ baseNames.map String.toList) :
    (baseEnviron site head input).lookup k = none := by
  unfold baseEnviron
  rw [AList.lookup_to_alist, List.dlookup_eq_none]
  simpa only [baseNames, List.keys, List.map_cons, List.map_nil] using hk

/-- None of the names that the server gives is that of a field. -/
theorem field_not_mem_baseNames (hk : "HTTP_".toList <+: k) : k ∉ baseNames.map String.toList := by
  have hall : ∀ name ∈ baseNames.map String.toList, ¬ "HTTP_".toList <+: name := by decide +kernel
  exact fun hmem => hall k hmem hk

/-- What the application finds in the dictionary. A field of the head is found
under its own key, with the other fields of that key, and nowhere else. -/
theorem lookup_environ (site : Endpoint) (head : RequestHead) (contentLength : Nat) (input : SyncStreamReader)
    (k : Str) :
    (environ site head contentLength input).lookup k =
      if "HTTP_".toList <+: k then
        match Dict.values (otherFields head.headersList) k with
        | [] => none
        | v :: vs => some (.str (joinValues (v :: vs)))
      else if k = "CONTENT_TYPE".toList then
        unlessEmpty ((Dict.values head.headersList "content-type".toList).getLastD [])
      else if k = "CONTENT_LENGTH".toList then
        unlessEmpty ((Dict.values head.headersList "content-length".toList).getLastD
          (if contentLength > 0 then strNat contentLength else []))
      else (baseEnviron site head input).lookup k := by
  unfold environ
  rw [headerVars_eq]
  dsimp only
  rw [Dict.lookup_assign, Dict.lookup_group, lookup_setUnlessEmpty, lookup_setUnlessEmpty]
  by_cases hk : "HTTP_".toList <+: k
  · have hcl : k ≠ "CONTENT_LENGTH".toList := by
      rintro rfl
      exact absurd hk (by decide)
    have hct : k ≠ "CONTENT_TYPE".toList := by
      rintro rfl
      exact absurd hk (by decide)
    rw [if_pos hk, if_neg hcl, if_neg hct, lookup_baseEnviron_eq_none (field_not_mem_baseNames hk), Option.or_none]
    cases Dict.values (otherFields head.headersList) k with
    | nil => rfl
    | cons v vs => rfl
  rw [if_neg hk, values_otherFields hk, if_pos rfl]
  show (if k = "CONTENT_LENGTH".toList then _ else _) = _
  by_cases hct : k = "CONTENT_TYPE".toList
  · have hbase : (baseEnviron site head input).lookup k = none :=
      lookup_baseEnviron_eq_none (by rw [hct]; decide +kernel)
    rw [if_neg (by rw [hct]; decide), if_pos hct, if_pos hct, hbase, Option.or_none]
  rw [if_neg hct, if_neg hct]
  by_cases hcl : k = "CONTENT_LENGTH".toList
  · have hbase : (baseEnviron site head input).lookup k = none :=
      lookup_baseEnviron_eq_none (by rw [hcl]; decide +kernel)
    rw [if_pos hcl, if_pos hcl, hbase, Option.or_none]
  · rw [if_neg hcl, if_neg hcl]

end MultiloopWSGIWorker

end Multiloop.Http
