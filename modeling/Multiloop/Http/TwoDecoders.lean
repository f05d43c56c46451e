import Multiloop.Http.Accepted
import Multiloop.Http.ReadChunkedBody

/-!
# The two chunked decoders

The engine of `http.rs` and `_read_chunked_body` of `wsgi.py` on the bytes of one
body. A line that both read as a size has one size for both. So the two go side
by side as long as both go on, and agree on the bytes if one ends only where
both do.
-/

namespace Multiloop.Http

open Rest MultiloopWSGIWorker

/-! ## Sizes -/

section Sizes

variable {line core s : Bytes} {acc m n : Nat} {k : Int}

/-- A byte of what `int` takes for a number. -/
def IsNumeral (b : UInt8) : Prop := isHexDigit b = true ∨ b = 43 ∨ b = 45 ∨ b = 95 ∨ b = 120 ∨ b = 88

theorem IsNumeral.spec {b : UInt8} (h : IsNumeral b) : b < 0x80 ∧ isWhitespace (chr b) = false := by
  rcases h with h | rfl | rfl | rfl | rfl | rfl
  · exact ⟨(hexDigit_spec h).1, (hexDigit_spec h).2.1⟩
  all_goals decide

theorem isWhitespace_pySpace {b : UInt8} (h : isPySpace b = true) : b < 0x80 ∧ isWhitespace (chr b) = true := by
  have hall : ∀ n < 33, isPySpace (UInt8.ofNat n) = true → UInt8.ofNat n < 0x80 ∧
      isWhitespace (chr (UInt8.ofNat n)) = true := by decide +kernel
  have hb : b.toNat < 33 := by
    rcases of_decide_eq_true h with ⟨-, hle⟩ | rfl
    · have hle' := UInt8.le_iff_toNat_le.1 hle
      change b.toNat ≤ 13 at hle'
      omega
    · decide
  have hspec := hall b.toNat hb
  rw [UInt8.ofNat_toNat] at hspec
  exact hspec h

theorem moreHexDigits_mem (h : moreHexDigits acc s = some n) : ∀ b ∈ s, IsNumeral b := by
  fun_induction moreHexDigits acc s with
  | case1 => exact fun b hb => absurd hb List.not_mem_nil
  | case2 acc b bs hhex ih =>
    intro x hx
    rcases List.mem_cons.1 hx with rfl | hx
    · exact .inr (.inr (.inr (.inl rfl)))
    rcases List.mem_cons.1 hx with rfl | hx
    · exact .inl hhex
    · exact ih h x hx
  | case3 => cases h
  | case4 acc b bs _ hhex ih =>
    intro x hx
    rcases List.mem_cons.1 hx with rfl | hx
    · exact .inl hhex
    · exact ih h x hx
  | case5 => cases h

theorem hexNumber_mem (h : hexNumber s = some n) : ∀ b ∈ s, IsNumeral b := by
  cases s with
  | nil => cases h
  | cons b bs =>
    rw [hexNumber] at h
    split at h
    · rename_i hhex
      intro x hx
      rcases List.mem_cons.1 hx with rfl | hx
      · exact .inl hhex
      · exact moreHexDigits_mem h x hx
    · cases h

theorem unsignedHex_mem (h : unsignedHex s = some n) : ∀ b ∈ s, IsNumeral b := by
  have hmore : ∀ {x y : UInt8} {bs : Bytes}, IsNumeral x → IsNumeral y → (∀ b ∈ bs, IsNumeral b) →
      ∀ b ∈ x :: y :: bs, IsNumeral b := by
    intro x y bs hx hy hbs b hb
    rcases List.mem_cons.1 hb with rfl | hb
    · exact hx
    rcases List.mem_cons.1 hb with rfl | hb
    · exact hy
    · exact hbs b hb
  unfold unsignedHex at h
  split at h
  · split at h
    · rename_i hpre
      have hx : IsNumeral _ := hpre.elim (fun hx => .inr (.inr (.inr (.inr (.inl hx)))))
        fun hx => .inr (.inr (.inr (.inr (.inr hx))))
      refine hmore (.inl (by decide)) hx ?_
      split at h
      · intro b hb
        rcases List.mem_cons.1 hb with rfl | hb
        · exact .inr (.inr (.inr (.inl rfl)))
        · exact hexNumber_mem h b hb
      · exact hexNumber_mem h
    · exact hexNumber_mem h
  · exact hexNumber_mem h

theorem signedHex_mem (h : signedHex s = some k) : ∀ b ∈ s, IsNumeral b := by
  unfold signedHex at h
  split at h
  · obtain ⟨n, hn, -⟩ := Option.map_eq_some_iff.1 h
    intro b hb
    rcases List.mem_cons.1 hb with rfl | hb
    · exact .inr (.inl rfl)
    · exact unsignedHex_mem hn b hb
  · obtain ⟨n, hn, -⟩ := Option.map_eq_some_iff.1 h
    intro b hb
    rcases List.mem_cons.1 hb with rfl | hb
    · exact .inr (.inr (.inl rfl))
    · exact unsignedHex_mem hn b hb
  · obtain ⟨n, hn, -⟩ := Option.map_eq_some_iff.1 h
    exact unsignedHex_mem hn

/-- A byte that is no digit is no digit of a `usize` either. -/
theorem accumulate_no_digit {b : UInt8} (hb : toDigit 16 (chr b) = none) :
    accumulate 16 acc ((b :: s).map chr) ≠ some n := by
  rw [List.map_cons, accumulate_cons, hb]
  exact nofun

theorem moreHexDigits_eq (h : moreHexDigits acc s = some m) (h' : accumulate 16 acc (s.map chr) = some n) : m = n := by
  fun_induction moreHexDigits acc s with
  | case1 acc => exact (Option.some.inj h).symm.trans (Option.some.inj h')
  | case2 => exact absurd h' (accumulate_no_digit (by decide))
  | case3 => cases h
  | case4 acc b bs _ hhex ih =>
    rw [List.map_cons, accumulate_cons, (hexDigit_spec hhex).2.2.2, Option.bind_some] at h'
    split at h'
    · exact ih h h'
    · cases h'
  | case5 => cases h

theorem hexNumber_eq (h : hexNumber s = some m) (h' : accumulate 16 0 (s.map chr) = some n) : m = n := by
  cases s with
  | nil => cases h
  | cons b bs =>
    rw [hexNumber] at h
    split at h
    · rename_i hhex
      rw [List.map_cons, accumulate_cons, (hexDigit_spec hhex).2.2.2, Option.bind_some] at h'
      split at h'
      · rw [Nat.zero_mul, Nat.zero_add] at h'
        exact moreHexDigits_eq h h'
      · cases h'
    · cases h

/-- After `0x` there is no number for `http.rs`. -/
theorem unsignedHex_eq (h : unsignedHex s = some m) (h' : accumulate 16 0 (s.map chr) = some n) : m = n := by
  unfold unsignedHex at h
  split at h
  · rename_i x bs
    split at h
    · rename_i hpre
      have hx : toDigit 16 (chr x) = none := by
        rcases hpre with rfl | rfl
        · decide
        · decide
      rw [List.map_cons, accumulate_cons] at h'
      exact absurd h' (accumulate_no_digit hx)
    · exact hexNumber_eq h h'
  · exact hexNumber_eq h h'

theorem signedHex_eq (h : signedHex s = some k) (h' : fromStrRadix 16 (s.map chr) = some n) : k = n := by
  have hplain : ∀ {b : UInt8} {bs : Bytes}, chr b ≠ '+' → fromStrRadix 16 ((b :: bs).map chr) = some n →
      accumulate 16 0 ((b :: bs).map chr) = some n := fun hb hn => (fromStrRadix_cons hb 16 _).symm.trans hn
  unfold signedHex at h
  split at h
  · rename_i s'
    obtain ⟨m, hm, rfl⟩ := Option.map_eq_some_iff.1 h
    cases s' with
    | nil => cases h'
    | cons b bs => exact congrArg Int.ofNat (unsignedHex_eq hm h')
  · exact absurd (hplain (by decide) h') (accumulate_no_digit (by decide))
  · rename_i hplus _
    obtain ⟨m, hm, rfl⟩ := Option.map_eq_some_iff.1 h
    cases s with
    | nil => cases h'
    | cons b bs =>
      refine congrArg Int.ofNat (unsignedHex_eq hm (hplain ?_ h'))
      intro hb
      rcases unsignedHex_mem hm b (.head _) with hhex | rfl | rfl | rfl | rfl | rfl
      · exact (hexDigit_spec hhex).2.2.1 hb
      · exact hplus bs rfl
      all_goals exact absurd hb (by decide)

/-- Stripped or not, what is before the first semicolon is the same between
white space. -/
theorem takeWhile_strip {α : Type} {p q : α → Bool} (hqp : ∀ x, q x = true → p x = true) (l : List α) :
    ∃ a b, (∀ x ∈ a, q x = true) ∧ (∀ x ∈ b, q x = true) ∧
      l.takeWhile p = a ++ ((l.dropWhile q).rdropWhile q).takeWhile p ++ b := by
  obtain ⟨a, b, ha, hb, hstrip⟩ := exists_strip (p := q) l
  generalize (l.dropWhile q).rdropWhile q = m at hstrip ⊢
  have htake : l.takeWhile p = a ++ (m ++ b).takeWhile p := by
    rw [hstrip, List.append_assoc, List.takeWhile_append_of_pos fun x hx => hqp x (ha x hx)]
  rw [List.takeWhile_append] at htake
  split at htake
  · rename_i hall
    rw [List.takeWhile_eq_self_iff.2 fun x hx => hqp x (hb x hx)] at htake
    refine ⟨a, b, ha, hb, ?_⟩
    rw [(List.takeWhile_prefix p).eq_of_length hall, List.append_assoc]
    exact htake
  · exact ⟨a, [], ha, fun x hx => absurd hx List.not_mem_nil, by rw [List.append_nil]; exact htake⟩

/-- The size is in what is before the first semicolon, between white space. -/
theorem text_of_chunkLen (h : chunkLen line = some k) : ∃ a core b, line.takeWhile (· ≠ 59) = a ++ core ++ b ∧
    (∀ x ∈ a, isPySpace x = true) ∧ (∀ x ∈ b, isPySpace x = true) ∧ signedHex core = some k := by
  have hspace : ∀ x, isPySpace x = true → decide (x ≠ 59) = true := by
    intro x hx
    refine decide_eq_true ?_
    rintro rfl
    exact absurd hx (by decide)
  obtain ⟨a, b, ha, hb, hline⟩ := takeWhile_strip hspace line
  obtain ⟨a', b', ha', hb', hcore⟩ := exists_strip (p := isPySpace) ((pyStrip line).takeWhile (· ≠ 59))
  refine ⟨a ++ a', _, b' ++ b, ?_, fun x hx => (List.mem_append.1 hx).elim (ha x) (ha' x),
    fun x hx => (List.mem_append.1 hx).elim (hb' x) (hb x), h⟩
  refine hline.trans ?_
  change _ = a' ++ pyStrip _ ++ b' at hcore
  conv_lhs => rw [show (line.dropWhile isPySpace).rdropWhile isPySpace = pyStrip line from rfl, hcore]
  simp only [List.append_assoc]

/-- A line that both read as a size has one size for both. -/
theorem size_eq (h : chunkLen line = some k) (h' : SizeLine line n) : k = n := by
  obtain ⟨a, core, b, hline, ha, hb, hcore⟩ := text_of_chunkLen h
  have hmap : ∀ {l : Bytes} {q : Bool}, (∀ x ∈ l, isWhitespace (chr x) = q) →
      ∀ c ∈ l.map chr, isWhitespace c = q := by
    intro l q hl c hc
    obtain ⟨x, hx, rfl⟩ := List.mem_map.1 hc
    exact hl x hx
  have hascii : ∀ x ∈ a ++ core ++ b, x < 0x80 := by
    intro x hx
    rcases List.mem_append.1 hx with hx | hx
    · rcases List.mem_append.1 hx with hx | hx
      · exact (isWhitespace_pySpace (ha x hx)).1
      · exact (signedHex_mem hcore x hx).spec.1
    · exact (isWhitespace_pySpace (hb x hx)).1
  have htrim : trim ((a ++ core ++ b).map chr) = core.map chr := by
    rw [List.map_append, List.map_append]
    exact strip_append (hmap fun x hx => (isWhitespace_pySpace (ha x hx)).2)
      (hmap fun x hx => (signedHex_mem hcore x hx).spec.2) (hmap fun x hx => (isWhitespace_pySpace (hb x hx)).2)
  have hsize := h'.announces
  unfold FastHttpConnection.sizeText at hsize
  rw [hline, fromUtf8_ascii hascii, Option.map_some, htrim, Option.bind_some] at hsize
  exact signedHex_eq hcore hsize

end Sizes

/-! ## Side by side -/

/-- The size lines that `_read_chunked_body` takes. -/
def Counted (maxRequestBody total : Nat) (line : Bytes) (n : Nat) : Prop :=
  chunkLen line = some (n : Int) ∧ (n = 0 ∨ total + n ≤ maxRequestBody)

/-- The size lines that both take. -/
def Common (maxBodySize total : Nat) (line : Bytes) (n : Nat) : Prop :=
  Taken maxBodySize total line n ∧ Counted maxBodySize total line n

section

variable {maxBodySize : Nat} {p q q' r : Rest} {rest : Bytes}

theorem taken_of_common (total : Nat) (line : Bytes) (n : Nat) (h : Common maxBodySize total line n) :
    Taken maxBodySize total line n := h.1

theorem first_of_common (total : Nat) (line : Bytes) (n : Nat) (h : Common maxBodySize total line n) :
    position crlf line = none := h.1.1.first

theorem piece_of_chunk (h : Rest.Chunk (Common maxBodySize) p q) : p.Piece maxBodySize q := by
  obtain ⟨line, data, hat, ⟨-, hline, hsum⟩, hdata, hread⟩ := h
  have hne : data.length ≠ 0 := fun h => hdata (List.length_eq_zero_iff.1 h)
  refine ⟨line, _, data.length, hat, hline, hne, ?_, hsum.resolve_left hne, ?_, ?_⟩
  · rw [List.length_append, List.length_append]
    show data.length + 2 ≤ data.length + (2 + q.ahead.length)
    omega
  · rw [List.take_left]
    exact hread
  · rw [← List.drop_drop, List.drop_left]
    rfl

theorem pieces_of_reads (h : Reads (Common maxBodySize) p q) : Pieces maxBodySize p q := by
  induction h with
  | refl => exact .refl
  | tail _ hchunk ih => exact ih.tail (piece_of_chunk hchunk)

/-- Where both take a chunk, it is one chunk. -/
theorem chunk_of_piece (h : p.Piece maxBodySize r) (h' : Rest.Chunk (Taken maxBodySize) p q) :
    r = q ∧ Rest.Chunk (Common maxBodySize) p q := by
  obtain ⟨line, data, hat, hline, hdata, hread⟩ := h'
  obtain ⟨line', more, n, hat', hline', hn, hmore, hsum, hread', hahead⟩ := id h
  obtain ⟨rfl, rfl⟩ := hat.unique hat'
  have hsize : n = data.length := Int.ofNat.inj (size_eq hline' hline.1)
  subst hsize
  have hchunk : Rest.Chunk (Common maxBodySize) p q := ⟨line, data, hat, ⟨hline, hline', .inr hsum⟩, hdata, hread⟩
  exact ⟨h.unique (piece_of_chunk hchunk), hchunk⟩

/-- Where the engine finds the last line, no chunk is taken. -/
theorem Rest.Ends.no_piece (h : p.Ends (Taken maxBodySize) rest) : ¬ p.Piece maxBodySize r := by
  rintro ⟨line', more, n, hat', hline', hn, -, -, -, -⟩
  obtain ⟨line, trailers, hat, hline, -⟩ := h
  obtain ⟨rfl, -⟩ := hat.unique hat'
  exact hn (Int.ofNat.inj (size_eq hline' hline.1))

/-- If the engine comes to the end of a body, the chunks that are taken are on
its way. -/
theorem pieces_on_way (h : Pieces maxBodySize p q) (hreads : Reads (Taken maxBodySize) p q')
    (hends : q'.Ends (Taken maxBodySize) rest) :
    Reads (Common maxBodySize) p q ∧ Reads (Taken maxBodySize) q q' := by
  induction h using Relation.ReflTransGen.head_induction_on with
  | refl => exact ⟨.refl, hreads⟩
  | head hpiece _ ih =>
    rcases Relation.ReflTransGen.cases_head hreads with rfl | ⟨r, hchunk, hmore⟩
    · exact absurd hpiece hends.no_piece
    · obtain ⟨rfl, hcommon⟩ := chunk_of_piece hpiece hchunk
      obtain ⟨hleft, hright⟩ := ih hmore
      exact ⟨.head hcommon hleft, hright⟩

/-- A line on the way of the engine announces what it takes. -/
theorem announced_on_way {line more : Bytes} {k : Int} (hreads : Reads (Taken maxBodySize) q q')
    (hends : q'.Ends (Taken maxBodySize) rest) (hat : q.Line line more) (hline : chunkLen line = some k) :
    ∃ n : Nat, k = n ∧ (n = 0 → q = q') := by
  rcases Relation.ReflTransGen.cases_head hreads with rfl | ⟨r, ⟨line', data, hat', hline', hdata, -⟩, -⟩
  · obtain ⟨line', trailers, hat', hline', -⟩ := hends
    obtain ⟨rfl, -⟩ := hat.unique hat'
    exact ⟨0, size_eq hline hline'.1, fun _ => rfl⟩
  · obtain ⟨rfl, -⟩ := hat.unique hat'
    exact ⟨_, size_eq hline hline'.1, fun hzero => absurd (List.length_eq_zero_iff.1 hzero) hdata⟩

/-- The engine comes to no end of a body on whose way a negative size is. -/
theorem not_negative (hreads : Reads (Taken maxBodySize) p q') (hends : q'.Ends (Taken maxBodySize) rest) :
    ¬ p.Negative maxBodySize := by
  rintro ⟨q, line, more, k, hpieces, hat, hline, hneg⟩
  obtain ⟨-, hmore⟩ := pieces_on_way hpieces hreads hends
  obtain ⟨n, rfl, -⟩ := announced_on_way hmore hends hat hline
  omega

/-- Where both come to an end, the bytes begin with a body that both read. -/
theorem common_of_ends (hpieces : Pieces maxBodySize p q) (hzero : q.Zero) (hreads : Reads (Taken maxBodySize) p q')
    (hends : q'.Ends (Taken maxBodySize) rest) :
    Reads (Common maxBodySize) p q ∧ q.Ends (Common maxBodySize) rest := by
  obtain ⟨hcommon, hmore⟩ := pieces_on_way hpieces hreads hends
  obtain ⟨line, more, hat, hline⟩ := hzero
  obtain ⟨n, hn, hsame⟩ := announced_on_way hmore hends hat hline
  obtain rfl := hsame (by omega)
  obtain ⟨line', trailers, hat', hline', htrailers⟩ := hends
  obtain ⟨rfl, -⟩ := hat.unique hat'
  exact ⟨hcommon, line, trailers, hat', ⟨hline', hline, .inl rfl⟩, htrailers⟩

theorem zero_of_ends (h : q.Ends (Common maxBodySize) rest) : q.Zero := by
  obtain ⟨line, trailers, hat, ⟨-, hline, -⟩, -⟩ := h
  exact ⟨line, _, hat, hline⟩

end

/-! ## The two decoders agree -/

/-- The bytes `u` behind a head: those that came with it, and then reads of at
most 4096 bytes, up to the end of the stream. -/
structure Segments (u initial : Bytes) (reader : List Bytes) : Prop where
  bytes : initial ++ reader.flatten = u
  reads : ∀ chunk ∈ reader, chunk ≠ [] ∧ chunk.length ≤ 4096

/-- However the bytes `u` are cut, `_read_chunked_body` returns or raises the
same, and returns a body exactly when the engine completes the request with it. -/
def AgreeOn (parse : Httparse) (c : FastHttpConnection) (u : Bytes) : Prop :=
  ∃ r, (∀ initial reader, Segments u initial reader →
      ∃ left, readChunkedBody c.maxBodySize reader initial = some (r, left)) ∧
    ∀ seg segs, FedBody parse c u seg segs → ∀ body, r = .ok body ↔
      (∃ rest, (c.feedAll .release parse (seg :: segs)).Completes rest) ∧
        (c.feedAll .release parse (seg :: segs)).body = body

/-- If one of the two comes to the end of a body, the bytes begin with a body
whose size lines both read, with the exact sum within the limit, with the end of
a line behind each chunk and a whole trailer section. -/
def EndsForBoth (maxBodySize : Nat) (u : Bytes) : Prop :=
  ((∃ p rest, u = p ++ rest ∧ ChunkedBody (Taken maxBodySize) 0 p) ∨
      ∃ q, Pieces maxBodySize ⟨[], u⟩ q ∧ q.Zero) →
    ∃ p rest, u = p ++ rest ∧ ChunkedBody (Common maxBodySize) 0 p

theorem first_of_taken {maxBodySize : Nat} (total : Nat) (line : Bytes) (n : Nat) (h : Taken maxBodySize total line n) :
    position crlf line = none := h.1.first

/-- What `_read_chunked_body` returns or raises, however the bytes are cut. -/
theorem readChunkedBody_gives {maxRequestBody : Nat} {u initial : Bytes} {reader : List Bytes}
    (hneg : ¬ Negative maxRequestBody ⟨[], u⟩) (h : Segments u initial reader) :
    ∃ q r left, Pieces maxRequestBody ⟨[], u⟩ q ∧ q.Stops maxRequestBody r ∧
      readChunkedBody maxRequestBody reader initial = some (r, left) := by
  have hu := h.bytes
  rw [← hu] at hneg ⊢
  exact chunkLoop_gives (fun chunk hchunk => (h.reads chunk hchunk).1) (by rw [List.length_append]; omega) hneg

/-- Once the head of a chunked request is read: if `_read_chunked_body` reads no
negative size of the bytes behind it, and neither decoder comes to the end of a
body that the other does not end, they agree on the bytes, however these are
cut. Without negative sizes they agree only then, if the head can come alone and
the bytes fit in memory. And behind a negative size the engine completes
nothing. -/
theorem chunked_decoders_iff {parse : Httparse} (hparse : InRange parse)
    {maxBodySize maxHeaderSize maxKeepaliveRequests : Nat} (hk : maxKeepaliveRequests < usizeEnd) {s : Session}
    (h : (session parse maxBodySize maxHeaderSize maxKeepaliveRequests).Reachable s) (u : Bytes) :
    (¬ Negative s.conn.maxBodySize ⟨[], u⟩ ∧ EndsForBoth s.conn.maxBodySize u → AgreeOn parse s.conn u) ∧
      (∀ head, HeadAlone parse s.conn u head → ¬ Negative s.conn.maxBodySize ⟨[], u⟩ → AgreeOn parse s.conn u →
        EndsForBoth s.conn.maxBodySize u) ∧
      (Negative s.conn.maxBodySize ⟨[], u⟩ → ∀ seg segs, FedBody parse s.conn u seg segs →
        ∀ rest, ¬ (s.conn.feedAll .release parse (seg :: segs)).Completes rest) := by
  have hone := announces_taken s.conn.maxBodySize
  have hbody : (∃ p rest, u = p ++ rest ∧ ChunkedBody (Common s.conn.maxBodySize) 0 p) →
      ∃ q rest, Reads (Common s.conn.maxBodySize) ⟨[], u⟩ q ∧ q.Ends (Common s.conn.maxBodySize) rest := by
    rintro ⟨p, rest, hp⟩
    obtain ⟨q, hq⟩ := (chunkedBody_iff first_of_common).1 ⟨p, hp⟩
    exact ⟨q, rest, hq⟩
  refine ⟨?_, ?_, ?_⟩
  · rintro ⟨hneg, hends⟩
    have hwhole : Segments u u [] := ⟨List.append_nil u, fun c hc => absurd hc List.not_mem_nil⟩
    obtain ⟨q, r, -, hpieces, hstops, -⟩ := readChunkedBody_gives hneg hwhole
    refine ⟨r, fun initial reader hsegs => ?_, fun seg segs hfed body => ?_⟩
    · obtain ⟨q', r', left, hpieces', hstops', hgives⟩ := readChunkedBody_gives hneg hsegs
      obtain rfl := hpieces.unique hpieces' (fun _ => hstops.no_piece) fun _ => hstops'.no_piece
      rw [hstops.outcome, ← hstops'.outcome]
      exact ⟨left, hgives⟩
    · have hverdict := verdict_of_fed hparse hk h hfed
      constructor
      · rintro rfl
        have hzero := hstops.zero rfl
        obtain ⟨q', rest, hreads, hlast⟩ := hbody (hends (.inr ⟨q, hpieces, hzero⟩))
        obtain rfl := hpieces.unique (pieces_of_reads hreads) (fun _ => hstops.no_piece)
          fun _ => (zero_of_ends hlast).no_piece
        have htaken := hlast.mono taken_of_common
        have hdone := hverdict.completes (hreads.mono taken_of_common) htaken
        obtain ⟨p, hreads', hends', htold⟩ := hverdict.of_completes hdone
        rw [hreads'.unique hone (hreads.mono taken_of_common) (fun _ => hends'.no_chunk hone)
          fun _ => htaken.no_chunk hone] at htold
        have hok := hstops.ok_iff.1 hzero
        exact ⟨⟨rest, hdone⟩, htold.trans (Except.ok.inj hok).symm⟩
      · rintro ⟨⟨rest, hdone⟩, rfl⟩
        obtain ⟨p, hreads', hends', htold⟩ := hverdict.of_completes hdone
        obtain ⟨p', hp'⟩ := (chunkedBody_iff first_of_taken).2 ⟨p, hreads', hends'⟩
        obtain ⟨q', rest', hreads, hlast⟩ := hbody (hends (.inl ⟨p', rest, hp'⟩))
        have hzero := zero_of_ends hlast
        obtain rfl := hpieces.unique (pieces_of_reads hreads) (fun _ => hstops.no_piece) fun _ => hzero.no_piece
        rw [htold, hreads'.unique hone (hreads.mono taken_of_common) (fun _ => hends'.no_chunk hone)
          fun _ => (hlast.mono taken_of_common).no_chunk hone]
        exact hstops.ok_iff.1 hzero
  · rintro head ⟨hhead, hend, hlen⟩ hneg ⟨r, hreads, hagree⟩ hsome
    have hsound := Session.sound_of_reachable hparse hk h
    have hfed : FedBody parse s.conn u head [u] := by
      refine ⟨hhead, by rw [hend]; exact List.append_nil u, ?_⟩
      refine FastHttpConnection.hasRoom_of_length hparse hsound.bounded hsound.mode ?_
      rw [show [head, u].flatten = head ++ u from congrArg (head ++ ·) (List.append_nil u)]
      exact hlen
    have hverdict := verdict_of_fed hparse hk h hfed
    have hwhole : Segments u u [] := ⟨List.append_nil u, fun c hc => absurd hc List.not_mem_nil⟩
    obtain ⟨q, r', left, hpieces, hstops, hgives⟩ := readChunkedBody_gives hneg hwhole
    obtain ⟨left', hgives'⟩ := hreads u [] hwhole
    obtain rfl : r = r' := congrArg Prod.fst (Option.some.inj (hgives'.symm.trans hgives))
    have hboth : q.Zero ∧ ∃ p rest, Reads (Taken s.conn.maxBodySize) ⟨[], u⟩ p ∧
        p.Ends (Taken s.conn.maxBodySize) rest := by
      rcases hsome with ⟨p, rest, hp⟩ | ⟨q', hpieces', hzero⟩
      · obtain ⟨q', hreads', hends'⟩ := (chunkedBody_iff first_of_taken).1 ⟨p, hp⟩
        have hok := (hagree head [u] hfed _).2 ⟨⟨rest, hverdict.completes hreads' hends'⟩, rfl⟩
        exact ⟨hstops.zero hok, q', rest, hreads', hends'⟩
      · obtain rfl := hpieces.unique hpieces' (fun _ => hstops.no_piece) fun _ => hzero.no_piece
        obtain ⟨⟨rest, hdone⟩, -⟩ := (hagree head [u] hfed _).1 (hstops.ok_iff.1 hzero)
        obtain ⟨p, hreads', hends', -⟩ := hverdict.of_completes hdone
        exact ⟨hzero, p, rest, hreads', hends'⟩
    obtain ⟨hzero, p, rest, hreads', hends'⟩ := hboth
    obtain ⟨hcommon, hlast⟩ := common_of_ends hpieces hzero hreads' hends'
    obtain ⟨b, hb⟩ := (chunkedBody_iff first_of_common).2 ⟨q, hcommon, hlast⟩
    exact ⟨b, rest, hb⟩
  · intro hneg seg segs hfed rest hdone
    obtain ⟨p, hreads, hends, -⟩ := (verdict_of_fed hparse hk h hfed).of_completes hdone
    exact not_negative hreads hends hneg

/-- A body in chunks with an extension, and the same bytes in other segments. -/
theorem chunked_decoders_extension :
    AgreeOn parseChunkedHead (.new 1000 1000 1000) (bytes "2 ;x=y\r\nab\r\n0\r\n\r\n") ∧
    EndsForBoth 1000 (bytes "2 ;x=y\r\nab\r\n0\r\n\r\n") := by
  have hs : (session parseChunkedHead 1000 1000 1000).Reachable ⟨.new 1000 1000 1000, []⟩ := .init rfl
  have hiff := chunked_decoders_iff parseChunkedHead_inRange (by decide) hs (bytes "2 ;x=y\r\nab\r\n0\r\n\r\n")
  have hchunk : Rest.Chunk (Common 1000) ⟨[], bytes "2 ;x=y\r\nab\r\n0\r\n\r\n"⟩ ⟨bytes "ab", bytes "0\r\n\r\n"⟩ :=
    ⟨bytes "2 ;x=y", bytes "ab", ⟨by decide +kernel, by decide +kernel⟩,
      ⟨⟨⟨by decide +kernel, by decide +kernel⟩, .inr (by decide)⟩, by decide +kernel, .inr (by decide)⟩,
      by decide +kernel, rfl⟩
  have hends : Ends (Common 1000) ⟨bytes "ab", bytes "0\r\n\r\n"⟩ [] :=
    ⟨bytes "0", crlf, ⟨by decide +kernel, by decide +kernel⟩,
      ⟨⟨⟨by decide +kernel, by decide +kernel⟩, .inl rfl⟩, by decide +kernel, .inl rfl⟩, .last⟩
  have hreads : Reads (Common 1000) ⟨[], bytes "2 ;x=y\r\nab\r\n0\r\n\r\n"⟩ ⟨bytes "ab", bytes "0\r\n\r\n"⟩ :=
    .single hchunk
  have hneg : ¬ Negative 1000 ⟨[], bytes "2 ;x=y\r\nab\r\n0\r\n\r\n"⟩ :=
    not_negative (hreads.mono taken_of_common) (hends.mono taken_of_common)
  have hboth : EndsForBoth 1000 (bytes "2 ;x=y\r\nab\r\n0\r\n\r\n") := by
    intro _
    obtain ⟨p, hp⟩ := (chunkedBody_iff first_of_common).2 ⟨_, hreads, hends⟩
    exact ⟨p, [], hp⟩
  have hagree := hiff.1 ⟨hneg, hboth⟩
  exact ⟨hagree, hiff.2.1 chunkedHead
    ⟨⟨_, .inl rfl, rfl, by decide +kernel, by decide +kernel⟩, by decide +kernel, by decide +kernel⟩ hneg hagree⟩

/-- A chunk without the end of a line behind it: `_read_chunked_body` returns
its byte, and the engine refuses the request. -/
theorem boundary_skipped : ¬ AgreeOn parseChunkedHead (.new 1000 1000 1000) (bytes "1\r\naXX0\r\n\r\n") := by
  rintro ⟨r, hreads, hagree⟩
  obtain ⟨left, hleft⟩ := hreads (bytes "1\r\naXX0\r\n\r\n") []
    ⟨List.append_nil _, fun c hc => absurd hc List.not_mem_nil⟩
  have hread : readChunkedBody 1000 [] (bytes "1\r\naXX0\r\n\r\n") = some (.ok (bytes "a"), []) := by decide +kernel
  obtain rfl : r = .ok (bytes "a") := congrArg Prod.fst (Option.some.inj (hleft.symm.trans hread))
  have hfed : FedBody parseChunkedHead (.new 1000 1000 1000) (bytes "1\r\naXX0\r\n\r\n")
      (chunkedHead ++ bytes "1\r\naXX0\r\n\r\n") [] :=
    ⟨⟨_, .inl rfl, rfl, by decide +kernel, by decide +kernel⟩, by decide +kernel, by decide +kernel⟩
  obtain ⟨⟨rest, hdone⟩, -⟩ := (hagree _ _ hfed _).1 rfl
  have hclosed : (FastHttpConnection.feedAll .release parseChunkedHead (.new 1000 1000 1000)
      [chunkedHead ++ bytes "1\r\naXX0\r\n\r\n"]).conn.state = .closed := by decide +kernel
  have hserving := hdone.serving
  rw [hclosed] at hserving
  cases hserving

end Multiloop.Http
