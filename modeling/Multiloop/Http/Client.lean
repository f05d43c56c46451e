import Multiloop.Http.Framing
import Multiloop.Http.Response

/-!
# A client

How a client of HTTP/1.1 reads a response from the bytes it is sent: the status
line, the header fields up to an empty line, and the body that the method, the
status and the fields announce. Only numbers and fields that are read back are
the subject here; folded lines are not read.
-/

namespace Multiloop.Http

/-! ## Digits -/

section Digits

variable {b n : Nat} {f : Char → UInt8}

/-- The number that digits of any base denote after a number `n`. -/
def valueIn (b : Nat) (value : UInt8 → Nat) (n : Nat) (ds : Bytes) : Nat := ds.foldl (fun n d => n * b + value d) n

theorem valueIn_append (value : UInt8 → Nat) (n : Nat) (ds es : Bytes) :
    valueIn b value n (ds ++ es) = valueIn b value (valueIn b value n ds) es := List.foldl_append

theorem valueIn_toDigits (value : UInt8 → Nat) (hb : 1 < b) (hf : ∀ d < b, value (f (Nat.digitChar d)) = d)
    (n : Nat) : valueIn b value 0 ((Nat.toDigits b n).map f) = n := by
  induction n using Nat.strongRecOn with
  | ind n ih =>
    rw [Nat.toDigits_eq_if hb]
    split
    · rename_i hlt
      show 0 * b + value (f (Nat.digitChar n)) = n
      rw [hf n hlt]
      omega
    · rename_i hge
      have hrest : valueIn b value 0 ((Nat.toDigits b (n / b)).map f) = n / b :=
        ih (n / b) (Nat.div_lt_self (by omega) hb)
      have hlast : value (f (Nat.digitChar (n % b))) = n % b := hf _ (Nat.mod_lt n (by omega))
      rw [List.map_append, valueIn_append, hrest]
      show n / b * b + value (f (Nat.digitChar (n % b))) = n
      rw [hlast]
      exact Nat.div_add_mod' n b

theorem mem_toDigits {p : UInt8 → Bool} (hb : 1 < b) (hf : ∀ d < b, p (f (Nat.digitChar d)) = true) (n : Nat) :
    ∀ x ∈ (Nat.toDigits b n).map f, p x = true := by
  induction n using Nat.strongRecOn with
  | ind n ih =>
    intro x hx
    rw [Nat.toDigits_eq_if hb] at hx
    split at hx
    · rename_i hlt
      rw [List.mem_singleton.1 hx]
      exact hf n hlt
    · rename_i hge
      rw [List.map_append] at hx
      rcases List.mem_append.1 hx with hx | hx
      · exact ih (n / b) (Nat.div_lt_self (by omega) hb) x hx
      · rw [List.mem_singleton.1 hx]
        exact hf _ (Nat.mod_lt n (by omega))

end Digits

theorem digitsValue_decimal (n : Nat) : digitsValue 0 (decimal n) = n :=
  valueIn_toDigits (fun d => d.toNat - 48) (by decide) (by decide) n

theorem isDigit_decimal (n : Nat) : ∀ x ∈ decimal n, isDigit x = true := mem_toDigits (by decide) (by decide) n

theorem decimal_ne_nil (n : Nat) : decimal n ≠ [] := fun h => Nat.toDigits_ne_nil (List.map_eq_nil_iff.1 h)

def isHexDigit (d : UInt8) : Bool := isDigit d ∨ (65 ≤ d ∧ d ≤ 70) ∨ (97 ≤ d ∧ d ≤ 102)

def hexDigit (d : UInt8) : Nat :=
  if d ≤ 57 then d.toNat - 48 else if d ≤ 70 then d.toNat - 55 else d.toNat - 87

theorem hexValue_upperHex (n : Nat) : valueIn 16 hexDigit 0 (upperHex n) = n :=
  valueIn_toDigits hexDigit (by decide) (by decide) n

theorem isHexDigit_upperHex (n : Nat) : ∀ x ∈ upperHex n, isHexDigit x = true :=
  mem_toDigits (by decide) (by decide) n

theorem upperHex_ne_nil (n : Nat) : upperHex n ≠ [] := fun h => Nat.toDigits_ne_nil (List.map_eq_nil_iff.1 h)

/-! ## Lines -/

/-- The first line, without its end, and what follows it. -/
def readLine : Bytes → Option (Bytes × Bytes)
  | [] => none
  | b :: bs =>
    if b = 13 ∧ bs.head? = some 10 then some ([], bs.tail)
    else (readLine bs).map fun p => (b :: p.1, p.2)

/-- A header field: what is before the first colon, and what follows it
without optional white space. -/
def readField (line : Bytes) : Header where
  name := line.takeWhile (· ≠ 58)
  value := stripOws ((line.dropWhile (· ≠ 58)).drop 1)

/-- The header fields up to an empty line, and what follows it. -/
def readFields : Nat → Bytes → Option (List Header × Bytes)
  | 0, _ => none
  | fuel + 1, bs =>
    (readLine bs).bind fun p =>
      if p.1 = [] then some ([], p.2)
      else (readFields fuel p.2).map fun q => (readField p.1 :: q.1, q.2)

theorem readLine_append {line : Bytes} (hline : 13 ∉ line) (rest : Bytes) :
    readLine (line ++ crlf ++ rest) = some (line, rest) := by
  induction line with
  | nil => rfl
  | cons b line ih =>
    have hb : b ≠ 13 := fun h => hline (h ▸ .head _)
    rw [List.cons_append, List.cons_append, readLine, if_neg fun h => hb h.1, ih fun h => hline (.tail _ h)]
    rfl

theorem readFields_append {fields : List Bytes} (hfields : ∀ line ∈ fields, line ≠ [] ∧ 13 ∉ line)
    (rest : Bytes) {fuel : Nat} (hfuel : fields.length < fuel) :
    readFields fuel (fields.flatMap (· ++ crlf) ++ (crlf ++ rest)) = some (fields.map readField, rest) := by
  induction fields generalizing fuel with
  | nil =>
    obtain ⟨fuel, rfl⟩ : ∃ k, fuel = k + 1 := ⟨fuel - 1, by omega⟩
    rfl
  | cons line fields ih =>
    obtain ⟨fuel, rfl⟩ : ∃ k, fuel = k + 1 := ⟨fuel - 1, by omega⟩
    rw [List.length_cons] at hfuel
    obtain ⟨hne, hline⟩ := hfields line (.head _)
    have hrest := ih (fun l hl => hfields l (.tail _ hl)) (show fields.length < fuel by omega)
    rw [readFields, List.flatMap_cons, List.append_assoc (line ++ crlf), readLine_append hline, Option.bind_some,
      if_neg hne, hrest]
    rfl

/-! ## Chunks -/

/-- The size that a line before a chunk gives; what follows a semicolon is an
extension. -/
def chunkSize? (line : Bytes) : Option Nat :=
  let ds := stripOws (line.takeWhile (· ≠ 59))
  if ds ≠ [] ∧ ds.all isHexDigit then some (valueIn 16 hexDigit 0 ds) else none

/-- A chunked body, and what follows it. -/
def decodeChunked : Nat → Bytes → Option (Bytes × Bytes)
  | 0, _ => none
  | fuel + 1, bs =>
    (readLine bs).bind fun p =>
      (chunkSize? p.1).bind fun size =>
        if size = 0 then (readFields (p.2.length + 1) p.2).map fun q => ([], q.2)
        else if crlf.isPrefixOf (p.2.drop size) then
          (decodeChunked fuel (p.2.drop (size + 2))).map fun q => (p.2.take size ++ q.1, q.2)
        else none

/-! ## Responses -/

def statusOf (statusLine : Bytes) : Nat := digitsValue 0 (((statusLine.dropWhile (· ≠ 32)).drop 1).takeWhile isDigit)

/-- The body that a response with these fields has, and what follows it. -/
def clientBody (fields : List Header) (bs : Bytes) : Option (Bytes × Bytes) :=
  match (values "transfer-encoding" fields).getLast?, values "content-length" fields with
  | some codings, _ => if lastIsChunked codings then decodeChunked bs.length bs else none
  | none, v :: vs =>
    (number? v).bind fun n =>
      if (∀ w ∈ vs, number? w = some n) ∧ n ≤ bs.length then some (bs.take n, bs.drop n) else none
  | none, [] => some (bs, [])

/-- The body of the response to a request with this method, and the bytes after
the response. -/
def client (method bs : Bytes) : Option (Bytes × Bytes) :=
  (readLine bs).bind fun p =>
    (readFields (p.2.length + 1) p.2).bind fun q =>
      if statusOf p.1 = 204 ∨ statusOf p.1 = 304 ∨ method = bytes "HEAD" then some ([], q.2)
      else clientBody q.1 q.2

end Multiloop.Http
