import Mathlib.Algebra.Order.Ring.Int
import Mathlib.Data.List.DropRight

/-!
# Byte strings and text

What `http.rs` uses of Rust's `[u8]` and `str`. A `str` that is only passed on
is its UTF-8 bytes; where its characters matter it is decoded by `fromUtf8`.
-/

namespace Multiloop.Http

abbrev Bytes : Type := List UInt8

/-- The bytes of a literal. -/
def bytes (s : String) : Bytes := s.toByteArray.data.toList

def toAsciiLowercase (b : UInt8) : UInt8 := if 65 ≤ b ∧ b ≤ 90 then b + 32 else b

def lowercase (bs : Bytes) : Bytes := bs.map toAsciiLowercase

/-- `a.eq_ignore_ascii_case(b)`. -/
def eqIgnoreAsciiCase (a b : Bytes) : Bool := lowercase a = lowercase b

/-- `bs.windows(pat.len()).position(|w| w == pat)`. -/
def position (pat : Bytes) : Bytes → Option Nat
  | [] => none
  | b :: bs => if pat.isPrefixOf (b :: bs) then some 0 else (position pat bs).map (· + 1)

/-- `bs.windows(pat.len()).any(|w| w == pat)`. -/
def contains (pat bs : Bytes) : Bool := (position pat bs).isSome

def crlf : Bytes := [13, 10]

section Position

variable {pat bs : Bytes} {n : Nat}

theorem position_cons (b : UInt8) : position pat (b :: bs) =
    if pat.isPrefixOf (b :: bs) then some 0 else (position pat bs).map (· + 1) := rfl

/-- What is found is within the bytes. -/
theorem position_le (h : position pat bs = some n) : n + pat.length ≤ bs.length := by
  induction bs generalizing n with
  | nil => cases h
  | cons b bs ih =>
    rw [position_cons] at h
    split at h
    · rename_i hp
      cases h
      simpa using (List.isPrefixOf_iff_prefix.1 hp).length_le
    · obtain ⟨k, hk, rfl⟩ := Option.map_eq_some_iff.1 h
      have hle := ih hk
      rw [List.length_cons]
      omega

/-- More bytes do not change where the first match is. -/
theorem position_append (h : position pat bs = some n) (more : Bytes) : position pat (bs ++ more) = some n := by
  induction bs generalizing n with
  | nil => cases h
  | cons b bs ih =>
    rw [position_cons] at h
    rw [List.cons_append, position_cons]
    split at h
    · rename_i hp
      cases h
      have hpre : pat.isPrefixOf (b :: (bs ++ more)) = true := by
        rw [List.isPrefixOf_iff_prefix] at hp ⊢
        exact hp.trans (List.prefix_append (b :: bs) more)
      rw [if_pos hpre]
    · rename_i hp
      obtain ⟨k, hk, rfl⟩ := Option.map_eq_some_iff.1 h
      have hle := position_le hk
      have hpre : ¬ pat.isPrefixOf (b :: (bs ++ more)) = true := by
        rw [List.isPrefixOf_iff_prefix] at hp ⊢
        intro hc
        exact hp (List.prefix_of_prefix_length_le hc (List.prefix_append (b :: bs) more)
          (by rw [List.length_cons]; omega))
      rw [if_neg hpre, ih hk]
      rfl

end Position

/-! ## UTF-8 -/

/-- Decoding in the middle of a character: `need` more bytes, of which the next
one is between `lo` and `hi`, complete the code point begun with `acc`. -/
def utf8Rest (need acc : Nat) (lo hi : UInt8) : Bytes → Option (List Char)
  | [] => if need = 0 then some [] else none
  | b :: bs =>
    match need with
    | 0 =>
      if b < 0x80 then (utf8Rest 0 0 0 0 bs).map (Char.ofNat b.toNat :: ·)
      else if 0xC2 ≤ b ∧ b ≤ 0xDF then utf8Rest 1 (b.toNat - 0xC0) 0x80 0xBF bs
      else if b = 0xE0 then utf8Rest 2 (b.toNat - 0xE0) 0xA0 0xBF bs
      else if b = 0xED then utf8Rest 2 (b.toNat - 0xE0) 0x80 0x9F bs
      else if 0xE1 ≤ b ∧ b ≤ 0xEF then utf8Rest 2 (b.toNat - 0xE0) 0x80 0xBF bs
      else if b = 0xF0 then utf8Rest 3 (b.toNat - 0xF0) 0x90 0xBF bs
      else if b = 0xF4 then utf8Rest 3 (b.toNat - 0xF0) 0x80 0x8F bs
      else if 0xF1 ≤ b ∧ b ≤ 0xF3 then utf8Rest 3 (b.toNat - 0xF0) 0x80 0xBF bs
      else none
    | need + 1 =>
      if lo ≤ b ∧ b ≤ hi then
        let acc := acc * 64 + (b.toNat - 0x80)
        if need = 0 then (utf8Rest 0 0 0 0 bs).map (Char.ofNat acc :: ·)
        else utf8Rest need acc 0x80 0xBF bs
      else none

/-- `std::str::from_utf8`. -/
def fromUtf8 (bs : Bytes) : Option (List Char) := utf8Rest 0 0 0 0 bs

/-! ## `str` methods -/

/-- `char::is_whitespace`: the Unicode property `White_Space`. -/
def isWhitespace (c : Char) : Bool :=
  let n := c.toNat
  (0x09 ≤ n ∧ n ≤ 0x0D) ∨ n = 0x20 ∨ n = 0x85 ∨ n = 0xA0 ∨ n = 0x1680 ∨ (0x2000 ≤ n ∧ n ≤ 0x200A) ∨
    n = 0x2028 ∨ n = 0x2029 ∨ n = 0x202F ∨ n = 0x205F ∨ n = 0x3000

/-- A text without the characters that satisfy `p` at its two ends. -/
def stripBy (p : Char → Bool) (s : List Char) : List Char := (s.dropWhile p).rdropWhile p

/-- `s.trim()`. -/
def trim (s : List Char) : List Char := stripBy isWhitespace s

/-- `c.to_digit(radix)` for a radix of at most 16. -/
def toDigit (radix : Nat) (c : Char) : Option Nat :=
  let n := c.toNat
  let d := if 48 ≤ n ∧ n ≤ 57 then n - 48
    else if 97 ≤ n ∧ n ≤ 102 then n - 87
    else if 65 ≤ n ∧ n ≤ 70 then n - 55
    else radix
  if d < radix then some d else none

/-- The value of digits after a number `acc`, as long as it is a `usize`. -/
def accumulate (radix acc : Nat) (s : List Char) : Option Nat :=
  s.foldlM (fun acc c => (toDigit radix c).bind fun d =>
    if acc * radix + d < 2 ^ 64 then some (acc * radix + d) else none) acc

/-- `usize::from_str_radix`: one leading `+` is skipped. -/
def fromStrRadix (radix : Nat) : List Char → Option Nat
  | [] => none
  | ['+'] => none
  | '+' :: s => accumulate radix 0 s
  | s => accumulate radix 0 s

theorem accumulate_cons (radix acc : Nat) (c : Char) (s : List Char) : accumulate radix acc (c :: s) =
    (toDigit radix c).bind fun d =>
      if acc * radix + d < 2 ^ 64 then accumulate radix (acc * radix + d) s else none := by
  unfold accumulate
  rw [List.foldlM_cons]
  cases toDigit radix c with
  | none => rfl
  | some d =>
    simp only [Option.bind_some, Option.bind_eq_bind]
    split <;> rfl

theorem accumulate_lt {radix acc n : Nat} {s : List Char} (hacc : acc < 2 ^ 64)
    (h : accumulate radix acc s = some n) : n < 2 ^ 64 := by
  induction s generalizing acc with
  | nil =>
    cases h
    exact hacc
  | cons c s ih =>
    rw [accumulate_cons] at h
    obtain ⟨d, -, h⟩ := Option.bind_eq_some_iff.1 h
    split at h
    · rename_i hlt
      exact ih hlt h
    · cases h

/-- What is parsed is a `usize`. -/
theorem fromStrRadix_lt {radix n : Nat} {s : List Char} (h : fromStrRadix radix s = some n) : n < 2 ^ 64 := by
  unfold fromStrRadix at h
  split at h
  · cases h
  · cases h
  · exact accumulate_lt (by omega) h
  · exact accumulate_lt (by omega) h

/-- `s.split(',')`: what is before the first comma, and the later parts. -/
def splitComma : List Char → List Char × List (List Char)
  | [] => ([], [])
  | c :: s =>
    let (part, parts) := splitComma s
    if c = ',' then ([], part :: parts) else (c :: part, parts)

/-- `n.to_string()`. -/
def decimal (n : Nat) : Bytes := (Nat.toDigits 10 n).map fun c => UInt8.ofNat c.toNat

end Multiloop.Http
