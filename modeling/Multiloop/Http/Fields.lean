import Multiloop.Http.Request

/-!
# What field values say

The values of `Content-Length` and `Transfer-Encoding`, read byte by byte as the
grammar of HTTP has them (`number?`, `lastIsChunked`), and how `http.rs` reads
them: it decodes UTF-8, strips Unicode white space, and takes a leading `+` for
a number. A value that the grammar has is read as the grammar says, unless the
number is no `usize` or an earlier coding is no UTF-8.
-/

namespace Multiloop.Http

section Lists

variable {α : Type} {p : α → Bool} {a d b l r : List α}

/-- What satisfies `p` at the two ends is stripped. -/
theorem strip_append (ha : ∀ x ∈ a, p x = true) (hd : ∀ x ∈ d, p x = false) (hb : ∀ x ∈ b, p x = true) :
    ((a ++ d ++ b).dropWhile p).rdropWhile p = d := by
  have hdrop : (d ++ b).dropWhile p = d ++ b ∨ d = [] := by
    cases d with
    | nil => exact .inr rfl
    | cons x d => exact .inl (List.dropWhile_cons_of_neg (by rw [hd x (.head _)]; exact Bool.false_ne_true))
  have hlast : (d ++ b).rdropWhile p = d := by
    unfold List.rdropWhile
    rw [List.reverse_append, List.dropWhile_append_of_pos fun x hx => hb x (List.mem_reverse.1 hx)]
    cases hrev : d.reverse with
    | nil => exact (List.reverse_eq_nil_iff.1 hrev).symm
    | cons x t =>
      have hx : x ∈ d := List.mem_reverse.1 (hrev ▸ .head _)
      rw [List.dropWhile_cons_of_neg (by rw [hd x hx]; exact Bool.false_ne_true), ← hrev, List.reverse_reverse]
  rw [List.append_assoc, List.dropWhile_append_of_pos ha]
  rcases hdrop with hdrop | rfl
  · rw [hdrop, hlast]
  · rw [List.nil_append, List.dropWhile_eq_nil_iff.2 hb]
    rfl

/-- What is left of a list, between what was stripped. -/
theorem exists_strip (l : List α) : ∃ a b, (∀ x ∈ a, p x = true) ∧ (∀ x ∈ b, p x = true) ∧
    l = a ++ (l.dropWhile p).rdropWhile p ++ b := by
  refine ⟨l.takeWhile p, (l.dropWhile p).rtakeWhile p, fun x hx => List.mem_takeWhile_imp hx,
    fun x hx => List.mem_rtakeWhile_imp hx, ?_⟩
  rw [List.append_assoc, List.rdropWhile_append_rtakeWhile, List.takeWhile_append_dropWhile]

end Lists

/-! ## ASCII -/

/-- The character of an ASCII byte. -/
def chr (b : UInt8) : Char := Char.ofNat b.toNat

theorem utf8Rest_ascii {t : Bytes} (ht : ∀ b ∈ t, b < 0x80) (acc : Nat) (lo hi : UInt8) :
    utf8Rest 0 acc lo hi t = some (t.map chr) := by
  induction t generalizing acc lo hi with
  | nil => rfl
  | cons b t ih =>
    simp only [utf8Rest]
    rw [if_pos (ht b (.head _)), ih (fun x hx => ht x (.tail _ hx))]
    rfl

/-- Bytes that end with ASCII ones: these are their own characters. -/
theorem utf8Rest_append {t : Bytes} (ht : ∀ b ∈ t, b < 0x80) (pre : Bytes) {need acc : Nat} {lo hi : UInt8}
    (hlo : 0 < need → 0x80 ≤ lo) :
    utf8Rest need acc lo hi (pre ++ t) = (utf8Rest need acc lo hi pre).map (· ++ t.map chr) := by
  induction pre generalizing need acc lo hi with
  | nil =>
    cases need with
    | zero => exact utf8Rest_ascii ht acc lo hi
    | succ need =>
      cases t with
      | nil => rfl
      | cons b t =>
        have hb : ¬ (lo ≤ b ∧ b ≤ hi) := fun h =>
          absurd (UInt8.le_trans (hlo (Nat.succ_pos _)) h.1) (UInt8.not_le.2 (ht b (.head _)))
        simp only [List.nil_append, utf8Rest, hb, if_false]
        rfl
  | cons b pre ih =>
    have hmap : ∀ c : Char, (utf8Rest 0 0 0 0 (pre ++ t)).map (c :: ·) =
        ((utf8Rest 0 0 0 0 pre).map (c :: ·)).map (· ++ t.map chr) := by
      intro c
      rw [ih (fun h => absurd h (Nat.lt_irrefl 0)), Option.map_map, Option.map_map]
      rfl
    cases need with
    | zero =>
      simp only [List.cons_append, utf8Rest]
      split
      · exact hmap _
      · iterate 7
          split
          · exact ih fun _ => by decide
        rfl
    | succ need =>
      simp only [List.cons_append, utf8Rest]
      split
      · split
        · exact hmap _
        · exact ih fun _ => UInt8.le_refl _
      · rfl

theorem fromUtf8_ascii {t : Bytes} (ht : ∀ b ∈ t, b < 0x80) : fromUtf8 t = some (t.map chr) := utf8Rest_ascii ht 0 0 0

theorem fromUtf8_append {t : Bytes} (ht : ∀ b ∈ t, b < 0x80) (pre : Bytes) :
    fromUtf8 (pre ++ t) = (fromUtf8 pre).map (· ++ t.map chr) :=
  utf8Rest_append ht pre fun h => absurd h (Nat.lt_irrefl 0)

/-! ## Numbers -/

/-- Optional white space: spaces and tabs. -/
def isOws (b : UInt8) : Bool := b = 32 ∨ b = 9

def stripOws (v : Bytes) : Bytes := (v.dropWhile isOws).rdropWhile isOws

def isDigit (b : UInt8) : Bool := 48 ≤ b ∧ b ≤ 57

/-- The number that digits denote after a number `n`. -/
def digitsValue (n : Nat) (ds : Bytes) : Nat := ds.foldl (fun n b => n * 10 + (b.toNat - 48)) n

/-- The number that a `Content-Length` value denotes: a non-empty string of
digits between optional white space. -/
def number? (v : Bytes) : Option Nat :=
  if stripOws v ≠ [] ∧ (stripOws v).all isDigit then some (digitsValue 0 (stripOws v)) else none

theorem isOws_ascii {b : UInt8} (h : isOws b = true) : b < 0x80 := by
  rcases of_decide_eq_true h with rfl | rfl
  · decide
  · decide

theorem isWhitespace_ows {b : UInt8} (h : isOws b = true) : isWhitespace (chr b) = true := by
  rcases of_decide_eq_true h with rfl | rfl
  · decide
  · decide

/-- A value of ASCII bytes that are no white space, between optional white
space. -/
theorem trim_stripOws {v : Bytes} (hd : ∀ b ∈ stripOws v, b < 0x80 ∧ isWhitespace (chr b) = false) :
    (∀ b ∈ v, b < 0x80) ∧ trim (v.map chr) = (stripOws v).map chr := by
  obtain ⟨a, b, ha, hb, hv⟩ := exists_strip (p := isOws) v
  change v = a ++ stripOws v ++ b at hv
  have hmap : ∀ {l : Bytes} {q : Bool}, (∀ x ∈ l, isWhitespace (chr x) = q) →
      ∀ c ∈ l.map chr, isWhitespace c = q := by
    intro l q hl c hc
    obtain ⟨x, hx, rfl⟩ := List.mem_map.1 hc
    exact hl x hx
  constructor
  · intro x hx
    rw [hv] at hx
    rcases List.mem_append.1 hx with hx | hx
    · rcases List.mem_append.1 hx with hx | hx
      · exact isOws_ascii (ha x hx)
      · exact (hd x hx).1
    · exact isOws_ascii (hb x hx)
  · have hchars : v.map chr = a.map chr ++ (stripOws v).map chr ++ b.map chr := by
      rw [← List.map_append, ← List.map_append, ← hv]
    rw [hchars]
    exact strip_append (hmap fun x hx => isWhitespace_ows (ha x hx)) (hmap fun x hx => (hd x hx).2)
      (hmap fun x hx => isWhitespace_ows (hb x hx))

theorem digit_spec {b : UInt8} (h : isDigit b = true) :
    b < 0x80 ∧ isWhitespace (chr b) = false ∧ chr b ≠ '+' ∧ toDigit 10 (chr b) = some (b.toNat - 48) := by
  have hall : ∀ n < 10, UInt8.ofNat (48 + n) < 0x80 ∧ isWhitespace (chr (UInt8.ofNat (48 + n))) = false ∧
      chr (UInt8.ofNat (48 + n)) ≠ '+' ∧
      toDigit 10 (chr (UInt8.ofNat (48 + n))) = some ((UInt8.ofNat (48 + n)).toNat - 48) := by decide
  obtain ⟨hlo, hhi⟩ := of_decide_eq_true h
  have hlo' : 48 ≤ b.toNat := UInt8.le_iff_toNat_le.1 hlo
  have hhi' : b.toNat ≤ 57 := UInt8.le_iff_toNat_le.1 hhi
  have hb : b = UInt8.ofNat (48 + (b.toNat - 48)) := by
    rw [show 48 + (b.toNat - 48) = b.toNat by omega, UInt8.ofNat_toNat]
  rw [hb]
  exact hall _ (by omega)

theorem le_foldl_digits (radix : Nat) (hradix : 0 < radix) (value : UInt8 → Nat) (acc : Nat) (ds : Bytes) :
    acc ≤ ds.foldl (fun n b => n * radix + value b) acc := by
  induction ds generalizing acc with
  | nil => exact Nat.le_refl acc
  | cons b ds ih =>
    have h : acc * radix + value b ≤ (b :: ds).foldl (fun n b => n * radix + value b) acc := ih _
    have hmul : acc * 1 ≤ acc * radix := Nat.mul_le_mul_left acc hradix
    omega

/-- Digits of any radix have the value they denote, if that is a `usize`. -/
theorem accumulate_foldl (radix : Nat) (hradix : 0 < radix) {value : UInt8 → Nat} {ds : Bytes}
    (hds : ∀ b ∈ ds, toDigit radix (chr b) = some (value b)) {acc : Nat} (hacc : acc < 2 ^ 64) :
    accumulate radix acc (ds.map chr) =
      if ds.foldl (fun n b => n * radix + value b) acc < 2 ^ 64
      then some (ds.foldl (fun n b => n * radix + value b) acc) else none := by
  induction ds generalizing acc with
  | nil => exact (if_pos hacc).symm
  | cons b ds ih =>
    rw [List.map_cons, accumulate_cons, hds b (.head _), Option.bind_some]
    show _ = if ds.foldl (fun n b => n * radix + value b) (acc * radix + value b) < 2 ^ 64 then _ else _
    split
    · rename_i hlt
      exact ih (fun x hx => hds x (.tail _ hx)) hlt
    · rename_i hge
      have hle := le_foldl_digits radix hradix value (acc * radix + value b) ds
      rw [if_neg (by omega)]

theorem accumulate_digits {ds : Bytes} (hds : ∀ b ∈ ds, isDigit b = true) {acc : Nat} (hacc : acc < 2 ^ 64) :
    accumulate 10 acc (ds.map chr) = if digitsValue acc ds < 2 ^ 64 then some (digitsValue acc ds) else none :=
  accumulate_foldl 10 (by decide) (fun b hb => (digit_spec (hds b hb)).2.2.2) hacc

theorem fromStrRadix_cons {c : Char} (hc : c ≠ '+') (radix : Nat) (s : List Char) :
    fromStrRadix radix (c :: s) = accumulate radix 0 (c :: s) := by
  unfold fromStrRadix
  split
  · rename_i h
    cases h
  · rename_i h
    cases h
    exact absurd rfl hc
  · rename_i h
    cases h
    exact absurd rfl hc
  · rfl

/-- A number is parsed as what it denotes, if that is a `usize`. -/
theorem parseContentLength_number {v : Bytes} {n : Nat} (h : number? v = some n) :
    parseContentLength v = if n < 2 ^ 64 then some n else none := by
  unfold number? at h
  split at h
  · rename_i hv
    obtain ⟨hne, hall⟩ := hv
    cases h
    have hds : ∀ b ∈ stripOws v, isDigit b = true := List.all_eq_true.1 hall
    obtain ⟨hascii, htrim⟩ := trim_stripOws fun b hb => ⟨(digit_spec (hds b hb)).1, (digit_spec (hds b hb)).2.1⟩
    unfold parseContentLength
    rw [fromUtf8_ascii hascii, Option.bind_some, htrim]
    rw [← accumulate_digits hds (by decide)]
    cases hs : stripOws v with
    | nil => exact absurd hs hne
    | cons b ds =>
      have hb : chr b ≠ '+' := (digit_spec (hds b (hs ▸ .head _))).2.2.1
      exact fromStrRadix_cons hb 10 (ds.map chr)
  · cases h

/-! ## Codings -/

/-- The codings of a `Transfer-Encoding` value. -/
def codingBytes (v : Bytes) : List Bytes := ((v.splitOn 44).map stripOws).filter (· ≠ [])

/-- The last coding of a value is `chunked`. -/
def lastIsChunked (v : Bytes) : Bool :=
  match (codingBytes v).getLast? with
  | some coding => eqIgnoreAsciiCase coding (bytes "chunked")
  | none => false

theorem splitComma_eq (s : List Char) : (splitComma s).1 :: (splitComma s).2 = s.splitOn ',' := by
  induction s with
  | nil => rfl
  | cons c s ih =>
    have hcons : splitComma (c :: s) = if c = ',' then ([], (splitComma s).1 :: (splitComma s).2)
        else (c :: (splitComma s).1, (splitComma s).2) := rfl
    rw [List.splitOn_cons_eq_if_modifyHead, ← ih, hcons]
    by_cases hc : c = ','
    · rw [if_pos hc, if_pos (beq_iff_eq.2 hc)]
    · rw [if_neg hc, if_neg (by simpa using hc)]
      rfl

theorem codings_eq (strip : List Char → List Char) (s : List Char) :
    codings strip s = ((s.splitOn ',').map strip).filter (· ≠ []) := by
  rw [← splitComma_eq]
  rfl

theorem codings_append (strip : List Char → List Char) (s s' : List Char) :
    codings strip (s ++ ',' :: s') = codings strip s ++ codings strip s' := by
  rw [codings_eq, codings_eq, codings_eq, List.splitOn_append_cons_self, List.map_append, List.filter_append]

theorem codingBytes_append (v v' : Bytes) : codingBytes (v ++ 44 :: v') = codingBytes v ++ codingBytes v' := by
  unfold codingBytes
  rw [List.splitOn_append_cons_self, List.map_append, List.filter_append]

/-- A byte of `chunked`, in either case. -/
theorem chunked_byte {b : UInt8} (h : toAsciiLowercase b ∈ bytes "chunked") :
    (b < 0x80 ∧ isWhitespace (chr b) = false) ∧ (chr b).toLower = chr (toAsciiLowercase b) := by
  have hall : ∀ n < 256, toAsciiLowercase (UInt8.ofNat n) ∈ bytes "chunked" →
      (UInt8.ofNat n < 0x80 ∧ isWhitespace (chr (UInt8.ofNat n)) = false) ∧
        (chr (UInt8.ofNat n)).toLower = chr (toAsciiLowercase (UInt8.ofNat n)) := by decide +kernel
  have hb := hall b.toNat b.toNat_lt
  rw [UInt8.ofNat_toNat] at hb
  exact hb h

theorem chunked_spec {coding : Bytes} (h : eqIgnoreAsciiCase coding (bytes "chunked") = true) :
    (∀ b ∈ coding, b < 0x80 ∧ isWhitespace (chr b) = false) ∧ isChunkedCoding (coding.map chr) = true := by
  have hlower : lowercase coding = bytes "chunked" := (of_decide_eq_true h).trans (by decide)
  have hmem : ∀ b ∈ coding, toAsciiLowercase b ∈ bytes "chunked" := fun b hb =>
    hlower ▸ List.mem_map_of_mem hb
  refine ⟨fun b hb => (chunked_byte (hmem b hb)).1, ?_⟩
  have hchars : (coding.map chr).map Char.toLower = (lowercase coding).map chr := by
    rw [lowercase, List.map_map, List.map_map]
    exact List.map_congr_left fun b hb => (chunked_byte (hmem b hb)).2
  unfold isChunkedCoding
  rw [hchars, hlower]
  decide

/-- The codings of a value without commas. -/
theorem codingBytes_single {v : Bytes} (hv : 44 ∉ v) : codingBytes v = [stripOws v].filter (· ≠ []) := by
  unfold codingBytes
  rw [List.splitOn_eq_singleton hv]
  rfl

theorem codings_single {s : List Char} (hs : ',' ∉ s) : codings trim s = [trim s].filter (· ≠ []) := by
  rw [codings_eq, List.splitOn_eq_singleton hs]
  rfl

theorem not_mem_map_chr {v : Bytes} (hascii : ∀ b ∈ v, b < 0x80) (hv : 44 ∉ v) : ',' ∉ v.map chr := by
  intro hm
  obtain ⟨b, hb, hchr⟩ := List.mem_map.1 hm
  have hall : ∀ n < 128, Char.ofNat n = ',' → n = 44 := by decide
  have hn := hall b.toNat (UInt8.lt_iff_toNat_lt.1 (hascii b hb)) hchr
  apply hv
  rw [show (44 : UInt8) = b from UInt8.toNat_inj.1 hn.symm]
  exact hb

/-- The last comma of a value. -/
theorem exists_last_comma (v : Bytes) : 44 ∉ v ∨ ∃ pre last, v = pre ++ 44 :: last ∧ 44 ∉ last := by
  induction v with
  | nil => exact .inl List.not_mem_nil
  | cons b v ih =>
    rcases ih with hv | ⟨pre, last, rfl, hlast⟩
    · by_cases hb : b = 44
      · exact .inr ⟨[], v, by rw [hb]; rfl, hv⟩
      · exact .inl fun h => (List.mem_cons.1 h).elim (fun he => hb he.symm) hv
    · exact .inr ⟨b :: pre, last, rfl, hlast⟩

/-- A last coding that is there is the last one for `http.rs` too. -/
theorem codings_last {last : Bytes} (hcomma : 44 ∉ last)
    (hd : ∀ b ∈ stripOws last, b < 0x80 ∧ isWhitespace (chr b) = false) :
    (∀ b ∈ last, b < 0x80) ∧ codings trim (last.map chr) = (codingBytes last).map (·.map chr) := by
  obtain ⟨hascii, htrim⟩ := trim_stripOws hd
  refine ⟨hascii, ?_⟩
  rw [codings_single (not_mem_map_chr hascii hcomma), codingBytes_single hcomma, htrim]
  cases stripOws last with
  | nil => rfl
  | cons b c => rfl

theorem lastIsChunked_iff {v : Bytes} : lastIsChunked v = true ↔
    ∃ coding, (codingBytes v).getLast? = some coding ∧ eqIgnoreAsciiCase coding (bytes "chunked") = true := by
  unfold lastIsChunked
  cases (codingBytes v).getLast? with
  | none => exact ⟨nofun, nofun⟩
  | some coding => exact ⟨fun h => ⟨coding, rfl, h⟩, fun ⟨_, hc, h⟩ => Option.some.inj hc ▸ h⟩

theorem endsChunked_iff {v : Bytes} {s : List Char} (hs : fromUtf8 v = some s) : endsChunked trim v = true ↔
    ∃ coding, (codings trim s).getLast? = some coding ∧ isChunkedCoding coding = true := by
  unfold endsChunked
  rw [hs]
  dsimp only
  cases (codings trim s).getLast? with
  | none => exact ⟨nofun, nofun⟩
  | some coding => exact ⟨fun h => ⟨coding, rfl, h⟩, fun ⟨_, hc, h⟩ => Option.some.inj hc ▸ h⟩

/-- The codings after the last comma, where `pre` are those before it. -/
theorem chunked_last (pre : List (List Char)) {preBytes : List Bytes} {last coding : Bytes} (hcomma : 44 ∉ last)
    (hl : (preBytes ++ codingBytes last).getLast? = some coding)
    (hc : eqIgnoreAsciiCase coding (bytes "chunked") = true) :
    (∀ b ∈ last, b < 0x80) ∧
      ((codingBytes last = [] ∧ preBytes.getLast? = some coding ∧ codings trim (last.map chr) = []) ∨
        (pre ++ codings trim (last.map chr)).getLast? = some (coding.map chr)) := by
  cases hs : stripOws last with
  | nil =>
    have hempty : codingBytes last = [] := by rw [codingBytes_single hcomma, hs]; rfl
    obtain ⟨hascii, hcodings⟩ := codings_last hcomma (by rw [hs]; exact nofun)
    rw [hempty] at hl hcodings
    rw [List.append_nil] at hl
    exact ⟨hascii, .inl ⟨hempty, hl, hcodings⟩⟩
  | cons b c =>
    have hone : codingBytes last = [stripOws last] := by rw [codingBytes_single hcomma, hs]; rfl
    rw [hone, List.getLast?_concat] at hl
    have hcoding : stripOws last = coding := Option.some.inj hl
    obtain ⟨hascii, hcodings⟩ := codings_last hcomma (by rw [hcoding]; exact (chunked_spec hc).1)
    refine ⟨hascii, .inr ?_⟩
    rw [hcodings, hone, hcoding]
    exact List.getLast?_concat

/-- The last coding of a UTF-8 value is `chunked` for `http.rs` too. The
induction is on the number of its commas. -/
theorem endsChunked_of_lastIsChunked {v : Bytes} {s : List Char} (hs : fromUtf8 v = some s)
    (h : lastIsChunked v = true) : endsChunked trim v = true := by
  obtain ⟨coding, hl, hc⟩ := lastIsChunked_iff.1 h
  rw [endsChunked_iff hs]
  induction hn : v.length using Nat.strongRecOn generalizing v s with
  | ind n ih =>
    rcases exists_last_comma v with hcomma | ⟨pre, last, rfl, hcomma⟩
    · rw [← List.nil_append (codingBytes v)] at hl
      obtain ⟨hascii, hlast⟩ := chunked_last [] hcomma hl hc
      rw [fromUtf8_ascii hascii] at hs
      cases hs
      rcases hlast with ⟨-, hnone, -⟩ | hlast
      · cases hnone
      · exact ⟨coding.map chr, hlast, (chunked_spec hc).2⟩
    · rw [codingBytes_append] at hl
      obtain ⟨hascii, -⟩ := chunked_last [] hcomma hl hc
      have hall : ∀ b ∈ 44 :: last, b < 0x80 := by
        intro b hb
        rcases List.mem_cons.1 hb with rfl | hb
        · decide
        · exact hascii b hb
      rw [fromUtf8_append hall] at hs
      obtain ⟨s₀, hs₀, rfl⟩ := Option.map_eq_some_iff.1 hs
      show ∃ coding, (codings trim (s₀ ++ ',' :: last.map chr)).getLast? = some coding ∧ _
      rw [codings_append]
      obtain ⟨-, hlast⟩ := chunked_last (codings trim s₀) hcomma hl hc
      rcases hlast with ⟨-, hpre, hnone⟩ | hlast
      · rw [hnone, List.append_nil]
        refine ih pre.length ?_ hs₀ (lastIsChunked_iff.2 ⟨coding, hpre, hc⟩) hpre rfl
        rw [← hn, List.length_append, List.length_cons]
        omega
      · exact ⟨coding.map chr, hlast, (chunked_spec hc).2⟩

end Multiloop.Http
