import Mathlib.Logic.Relation
import Multiloop.Http.Bodies
import Multiloop.Http.Chunks

/-!
# The chunked transfer coding

The grammar of a body in chunks: a line with the size before each chunk, a line
with the size zero behind the last one, and the trailer section. Which bytes
are a size line, and when a size is too much, are parameters:

* `InGrammar` is what the grammar says: hexadecimal digits, white space, an
  extension, and sizes whose exact sum is within the limit;
* `Taken` is what the engine reads a size of, and counts without an overflow.

Wherever the bytes stop, or go wrong, a line and what it announces are the same
for everyone who reads them, so there is one way to read them (`Reads.unique`).
-/

namespace Multiloop.Http

/-- Where each place has at most one next place, two ways from one place that
cannot go on end at the same place. -/
theorem last_unique {α : Type} {next : α → α → Prop} (hnext : Relator.RightUnique next) {a b b' : α}
    (h : Relation.ReflTransGen next a b) (h' : Relation.ReflTransGen next a b') (hb : ∀ d, ¬ next b d)
    (hb' : ∀ d, ¬ next b' d) : b = b' := by
  rcases Relation.ReflTransGen.total_of_right_unique hnext h h' with h | h
  · rcases Relation.ReflTransGen.cases_head h with heq | ⟨d, hd, -⟩
    · exact heq
    · exact absurd hd (hb d)
  · rcases Relation.ReflTransGen.cases_head h with heq | ⟨d, hd, -⟩
    · exact heq.symm
    · exact absurd hd (hb' d)

/-! ## Lines -/

/-- A line ends where the first end of a line is: its bytes may end with a
carriage return, but no end of a line begins there. -/
theorem position_crlf {line : Bytes} (hline : position crlf line = none) (rest : Bytes) :
    position crlf (line ++ (crlf ++ rest)) = some line.length := by
  induction line with
  | nil => rfl
  | cons b line ih =>
    rw [position_cons] at hline
    split at hline
    · cases hline
    rename_i hno
    have hno' : ¬ crlf.isPrefixOf (b :: (line ++ (crlf ++ rest))) = true := by
      intro hp
      obtain ⟨hb, hp'⟩ := List.cons_prefix_cons.1 (List.isPrefixOf_iff_prefix.1 hp)
      cases line with
      | nil => exact absurd (List.cons_prefix_cons.1 hp').1 (by decide)
      | cons x line =>
        obtain ⟨hx, -⟩ := List.cons_prefix_cons.1 hp'
        refine hno (List.isPrefixOf_iff_prefix.2 ?_)
        rw [← hb, ← hx]
        exact ⟨line, rfl⟩
    rw [List.cons_append, position_cons, if_neg hno', ih (Option.map_eq_none_iff.1 hline)]
    rfl

theorem line_unique {line line' more more' : Bytes} (h : position crlf line = none) (h' : position crlf line' = none)
    (heq : line ++ (crlf ++ more) = line' ++ (crlf ++ more')) : line = line' ∧ more = more' := by
  have hlen := congrArg (position crlf) heq
  rw [position_crlf h, position_crlf h'] at hlen
  obtain ⟨hl, hm⟩ := List.append_inj heq (Option.some.inj hlen)
  exact ⟨hl, List.append_cancel_left hm⟩

/-- Where a pattern is not found, a longer one is not. -/
theorem position_longer {pat pat' bs : Bytes} (hpat : pat <+: pat') (h : position pat bs = none) :
    position pat' bs = none := by
  induction bs with
  | nil => rfl
  | cons b bs ih =>
    rw [position_cons] at h
    split at h
    · cases h
    rename_i hno
    have hno' : ¬ pat'.isPrefixOf (b :: bs) = true := by
      rw [List.isPrefixOf_iff_prefix] at hno ⊢
      exact fun hp => hno (hpat.trans hp)
    rw [position_cons, if_neg hno', ih (Option.map_eq_none_iff.1 h)]
    rfl

/-! ## Trailer sections -/

/-- The fields after the last chunk, with the empty line that ends them. -/
inductive TrailerSection : Bytes → Prop
  | last : TrailerSection crlf
  | field {line rest : Bytes} (hline : position crlf line = none) (hne : line ≠ []) (h : TrailerSection rest) :
    TrailerSection (line ++ (crlf ++ rest))

/-- Where the engine finds the end of the trailers. -/
def trailersEnd (bs : Bytes) : Option Nat :=
  if crlf.isPrefixOf bs then some 2 else (position (crlf ++ crlf) bs).map (· + 4)

/-- Behind a line, an empty one comes next or later. -/
theorem position_empty {line : Bytes} (hline : position crlf line = none) (rest : Bytes) :
    position (crlf ++ crlf) (line ++ (crlf ++ rest)) =
      if crlf.isPrefixOf rest then some line.length
      else (position (crlf ++ crlf) rest).map (· + (line.length + 2)) := by
  induction line with
  | nil =>
    show position (crlf ++ crlf) (13 :: 10 :: rest) = _
    have hpre : (crlf ++ crlf).isPrefixOf (13 :: 10 :: rest) = crlf.isPrefixOf rest := rfl
    have hnext : ¬ (crlf ++ crlf).isPrefixOf (10 :: rest) = true := nofun
    rw [position_cons, position_cons, hpre, if_neg hnext, Option.map_map]
    rfl
  | cons b line ih =>
    have hfirst := position_crlf hline rest
    rw [position_cons] at hline
    split at hline
    · cases hline
    have hno : ¬ (crlf ++ crlf).isPrefixOf (b :: (line ++ (crlf ++ rest))) = true := by
      intro hp
      have hp' : crlf <+: b :: (line ++ (crlf ++ rest)) :=
        (List.prefix_append crlf crlf).trans (List.isPrefixOf_iff_prefix.1 hp)
      rw [List.cons_append, position_cons, if_pos (List.isPrefixOf_iff_prefix.2 hp')] at hfirst
      cases hfirst
    rw [List.cons_append, position_cons, if_neg hno, ih (Option.map_eq_none_iff.1 hline)]
    split
    · rfl
    · rw [Option.map_map]
      rfl

/-- A line that is not empty is skipped. -/
theorem trailersEnd_line {line : Bytes} (hline : position crlf line = none) (hne : line ≠ []) (rest : Bytes) :
    trailersEnd (line ++ (crlf ++ rest)) = (trailersEnd rest).map (· + (line.length + 2)) := by
  have hno : ¬ crlf.isPrefixOf (line ++ (crlf ++ rest)) = true := by
    intro hp
    have hfirst := position_crlf hline rest
    cases line with
    | nil => exact hne rfl
    | cons b line =>
      rw [List.cons_append] at hp hfirst
      rw [position_cons, if_pos hp] at hfirst
      cases hfirst
  unfold trailersEnd
  rw [if_neg hno, position_empty hline]
  split
  · show some (line.length + 4) = some (2 + (line.length + 2))
    rw [show 2 + (line.length + 2) = line.length + 4 by omega]
  · rw [Option.map_map, Option.map_map]
    refine congrArg (Option.map · _) (funext fun k => ?_)
    show k + (line.length + 2) + 4 = k + 4 + (line.length + 2)
    omega

theorem trailersEnd_append {t : Bytes} (h : TrailerSection t) (rest : Bytes) :
    trailersEnd (t ++ rest) = some t.length := by
  induction h with
  | last => rfl
  | @field line more hline hne h ih =>
    rw [List.append_assoc, List.append_assoc, trailersEnd_line hline hne, ih, List.length_append, List.length_append]
    show some (more.length + (line.length + 2)) = some (line.length + (2 + more.length))
    rw [show more.length + (line.length + 2) = line.length + (2 + more.length) by omega]

theorem trailers_of_end {bs : Bytes} {n : Nat} (h : trailersEnd bs = some n) :
    n ≤ bs.length ∧ TrailerSection (bs.take n) := by
  induction hlen : bs.length using Nat.strong_induction_on generalizing bs n with
  | _ len ih =>
    by_cases hp : crlf.isPrefixOf bs = true
    · obtain ⟨rest, rfl⟩ := List.isPrefixOf_iff_prefix.1 hp
      rw [trailersEnd, if_pos hp] at h
      cases h
      rw [List.length_append] at hlen
      exact ⟨by change 2 + rest.length = len at hlen; omega, .last⟩
    · cases hpos : position crlf bs with
      | none =>
        rw [trailersEnd, if_neg hp, position_longer (List.prefix_append crlf crlf) hpos] at h
        cases h
      | some pos =>
        have hle : pos + 2 ≤ bs.length := position_le hpos
        have hsplit : bs = bs.take pos ++ (crlf ++ bs.drop (pos + 2)) := position_split hpos
        have htake : (bs.take pos).length = pos := List.length_take_of_le (by omega)
        have hne : bs.take pos ≠ [] := by
          intro hnil
          rw [hnil] at hsplit
          exact hp (List.isPrefixOf_iff_prefix.2 ⟨_, hsplit.symm⟩)
        rw [hsplit, trailersEnd_line (position_take hpos) hne] at h
        obtain ⟨k, hk, hn⟩ := Option.map_eq_some_iff.1 h
        rw [htake] at hn
        subst hn
        obtain ⟨hk', hsection⟩ := ih (bs.drop (pos + 2)).length (by rw [List.length_drop]; omega) hk rfl
        rw [List.length_drop] at hk'
        refine ⟨by omega, ?_⟩
        have hwhole : bs.take (k + (pos + 2)) = bs.take pos ++ (crlf ++ (bs.drop (pos + 2)).take k) := by
          conv_lhs => rw [hsplit]
          have hk : k + (pos + 2) = (bs.take pos).length + (crlf.length + k) := by
            rw [htake]
            show _ = pos + (2 + k)
            omega
          rw [hk, List.take_length_add_append, List.take_length_add_append]
        rw [hwhole]
        exact .field (position_take hpos) hne hsection

/-! ## Bodies in chunks -/

/-- `p` is a body in chunks, of which `total` bytes came before it. `admits`
says which line announces a chunk of how many bytes, and that these are not too
many after those before. -/
inductive ChunkedBody (admits : Nat → Bytes → Nat → Prop) : Nat → Bytes → Prop
  | last {total : Nat} {line trailers : Bytes} (hline : admits total line 0) (htrailers : TrailerSection trailers) :
    ChunkedBody admits total (line ++ (crlf ++ trailers))
  | chunk {total : Nat} {line data p : Bytes} (hline : admits total line data.length) (hdata : data ≠ [])
    (h : ChunkedBody admits (total + data.length) p) :
    ChunkedBody admits total (line ++ (crlf ++ (data ++ (crlf ++ p))))

/-- The bytes of the chunks that were read, and those that are still ahead. -/
structure Rest where
  read : Bytes
  ahead : Bytes

namespace Rest

/-- How many bytes the chunks had. -/
abbrev total (p : Rest) : Nat := p.read.length

/-- The line that comes next, and what is behind its end. -/
structure Line (p : Rest) (line more : Bytes) : Prop where
  first : position crlf line = none
  ahead : p.ahead = line ++ (crlf ++ more)

section

variable (admits : Nat → Bytes → Nat → Prop) (p : Rest)

/-- A chunk is read. -/
inductive Chunk (q : Rest) : Prop
  | mk (line data : Bytes) (hat : p.Line line (data ++ (crlf ++ q.ahead))) (hline : admits p.total line data.length)
    (hdata : data ≠ []) (hread : q.read = p.read ++ data)

/-- The body ends here, and then comes `rest`. -/
inductive Ends (rest : Bytes) : Prop
  | mk (line trailers : Bytes) (hat : p.Line line (trailers ++ rest)) (hline : admits p.total line 0)
    (htrailers : TrailerSection trailers)

/-- The bytes stop in the middle of a size line, of a chunk or of the trailer
section. -/
inductive Open : Prop
  | line (h : position crlf p.ahead = none)
  | data (line more : Bytes) (n : Nat) (hat : p.Line line more) (hline : admits p.total line n) (hn : n ≠ 0)
    (hmore : more.length < n + 2)
  | trailers (line more : Bytes) (hat : p.Line line more) (hline : admits p.total line 0)
    (hmore : ∀ t, TrailerSection t → ¬ t <+: more)

/-- The next line is no size line, or the chunk behind it does not end with the
end of a line. -/
inductive Malformed : Prop
  | line (line more : Bytes) (hat : p.Line line more) (hno : ∀ n, ¬ admits p.total line n)
  | boundary (line more : Bytes) (n : Nat) (hat : p.Line line more) (hline : admits p.total line n) (hn : n ≠ 0)
    (hmore : n + 2 ≤ more.length) (hboundary : (more.drop n).take 2 ≠ crlf)

end

/-- `q` is what is left after some chunks. -/
abbrev Reads (admits : Nat → Bytes → Nat → Prop) : Rest → Rest → Prop := Relation.ReflTransGen (Chunk admits)

variable {admits admits' : Nat → Bytes → Nat → Prop} {p q q' : Rest}

theorem Line.unique {line line' more more' : Bytes} (h : p.Line line more) (h' : p.Line line' more') :
    line = line' ∧ more = more' := line_unique h.first h'.first (h.ahead.symm.trans h'.ahead)

theorem Line.found {line more : Bytes} (h : p.Line line more) : position crlf p.ahead = some line.length := by
  rw [h.ahead]
  exact position_crlf h.first more

/-- The rest after the chunks is the same with more bytes behind it. -/
theorem Line.append {line more : Bytes} (h : p.Line line more) (b : Bytes) :
    Line ⟨p.read, p.ahead ++ b⟩ line (more ++ b) := by
  refine ⟨h.first, ?_⟩
  show p.ahead ++ b = _
  rw [h.ahead, List.append_assoc, List.append_assoc]

theorem Chunk.append (h : Chunk admits p q) (b : Bytes) :
    Chunk admits ⟨p.read, p.ahead ++ b⟩ ⟨q.read, q.ahead ++ b⟩ := by
  obtain ⟨line, data, hat, hline, hdata, hread⟩ := h
  refine ⟨line, data, ?_, hline, hdata, hread⟩
  have hmore := hat.append b
  rw [List.append_assoc, List.append_assoc] at hmore
  exact hmore

theorem Reads.append (h : Reads admits p q) (b : Bytes) :
    Reads admits ⟨p.read, p.ahead ++ b⟩ ⟨q.read, q.ahead ++ b⟩ := by
  induction h with
  | refl => exact .refl
  | tail _ hchunk ih => exact ih.tail (hchunk.append b)

theorem Ends.append {rest : Bytes} (h : p.Ends admits rest) (b : Bytes) :
    Ends admits ⟨p.read, p.ahead ++ b⟩ (rest ++ b) := by
  obtain ⟨line, trailers, hat, hline, htrailers⟩ := h
  refine ⟨line, trailers, ?_, hline, htrailers⟩
  have hmore := hat.append b
  rw [List.append_assoc] at hmore
  exact hmore

theorem Malformed.append (h : p.Malformed admits) (b : Bytes) : Malformed admits ⟨p.read, p.ahead ++ b⟩ := by
  rcases h with ⟨line, more, hat, hno⟩ | ⟨line, more, n, hat, hline, hn, hmore, hboundary⟩
  · exact .line line _ (hat.append b) hno
  · refine .boundary line _ n (hat.append b) hline hn (by rw [List.length_append]; omega) ?_
    rw [List.drop_append_of_le_length (by omega), List.take_append_of_le_length (by rw [List.length_drop]; omega)]
    exact hboundary

/-- The bytes of the chunks, whatever is behind them. -/
theorem Reads.cut (h : Reads admits p q) :
    ∃ w, p.ahead = w ++ q.ahead ∧ ∀ b, Reads admits ⟨p.read, w ++ b⟩ ⟨q.read, b⟩ := by
  induction h with
  | refl => exact ⟨[], rfl, fun b => .refl⟩
  | @tail q r _ hchunk ih =>
    obtain ⟨w, hw, hreads⟩ := ih
    obtain ⟨line, data, hat, hline, hdata, hread⟩ := hchunk
    refine ⟨w ++ (line ++ (crlf ++ (data ++ crlf))), ?_, fun b => ?_⟩
    · rw [hw, hat.ahead]
      simp only [List.append_assoc]
    · have hmore := hreads (line ++ (crlf ++ (data ++ (crlf ++ b))))
      simp only [List.append_assoc]
      exact hmore.tail ⟨line, data, ⟨hat.first, rfl⟩, hline, hdata, hread⟩

/-- What fewer lines admit, more do. -/
theorem Reads.mono (hmono : ∀ total line n, admits total line n → admits' total line n) (h : Reads admits p q) :
    Reads admits' p q := by
  induction h with
  | refl => exact .refl
  | tail _ hchunk ih =>
    obtain ⟨line, data, hat, hline, hdata, hread⟩ := hchunk
    exact ih.tail ⟨line, data, hat, hmono _ _ _ hline, hdata, hread⟩

theorem Ends.mono (hmono : ∀ total line n, admits total line n → admits' total line n) {rest : Bytes}
    (h : p.Ends admits rest) : p.Ends admits' rest := by
  obtain ⟨line, trailers, hat, hline, htrailers⟩ := h
  exact ⟨line, trailers, hat, hmono _ _ _ hline, htrailers⟩

theorem Open.mono (hmono : ∀ total line n, admits total line n → admits' total line n) (h : p.Open admits) :
    p.Open admits' := by
  rcases h with h | ⟨line, more, n, hat, hline, hn, hmore⟩ | ⟨line, more, hat, hline, hmore⟩
  · exact .line h
  · exact .data line more n hat (hmono _ _ _ hline) hn hmore
  · exact .trailers line more hat (hmono _ _ _ hline) hmore

/-! ### There is one way to read -/

/-- What a line announces is one number. -/
def Announces (admits : Nat → Bytes → Nat → Prop) : Prop :=
  ∀ total line n n', admits total line n → admits total line n' → n = n'

theorem Ends.unique {rest rest' : Bytes} (h : p.Ends admits rest) (h' : p.Ends admits rest') : rest = rest' := by
  obtain ⟨line, trailers, hat, -, htrailers⟩ := h
  obtain ⟨line', trailers', hat', -, htrailers'⟩ := h'
  obtain ⟨-, hmore⟩ := hat.unique hat'
  have hlen := trailersEnd_append htrailers rest
  rw [hmore, trailersEnd_append htrailers'] at hlen
  exact (List.append_inj hmore (Option.some.inj hlen).symm).2

section

variable (hone : Announces admits)

include hone

theorem Chunk.unique (h : Chunk admits p q) (h' : Chunk admits p q') : q = q' := by
  obtain ⟨line, data, hat, hline, -, hread⟩ := h
  obtain ⟨line', data', hat', hline', -, hread'⟩ := h'
  obtain ⟨rfl, hmore⟩ := hat.unique hat'
  have hlen := hone _ _ _ _ hline hline'
  obtain ⟨rfl, hrest⟩ := List.append_inj hmore hlen
  have hahead := List.append_cancel_left hrest
  obtain ⟨read, ahead⟩ := q
  obtain ⟨read', ahead'⟩ := q'
  rw [show ahead = ahead' from hahead, show read = read' from hread.trans hread'.symm]

theorem Ends.no_chunk {rest : Bytes} (h : p.Ends admits rest) : ¬ Chunk admits p q := by
  rintro ⟨line', data, hat', hline', hdata, -⟩
  obtain ⟨line, trailers, hat, hline, -⟩ := h
  obtain ⟨rfl, -⟩ := hat.unique hat'
  exact hdata (List.length_eq_zero_iff.1 (hone _ _ _ _ hline' hline))

theorem Open.no_chunk (h : p.Open admits) : ¬ Chunk admits p q := by
  rintro ⟨line', data, hat', hline', hdata, -⟩
  rcases h with h | ⟨line, more, n, hat, hline, hn, hmore⟩ | ⟨line, more, hat, hline, hmore⟩
  · rw [hat'.found] at h
    cases h
  · obtain ⟨rfl, rfl⟩ := hat.unique hat'
    rw [hone _ _ _ _ hline hline', List.length_append, List.length_append] at hmore
    change data.length + (2 + q.ahead.length) < _ at hmore
    omega
  · obtain ⟨rfl, -⟩ := hat.unique hat'
    exact hdata (List.length_eq_zero_iff.1 (hone _ _ _ _ hline' hline))

theorem Malformed.no_chunk (h : p.Malformed admits) : ¬ Chunk admits p q := by
  rintro ⟨line', data, hat', hline', hdata, -⟩
  rcases h with ⟨line, more, hat, hno⟩ | ⟨line, more, n, hat, hline, hn, hmore, hboundary⟩
  · obtain ⟨rfl, -⟩ := hat.unique hat'
    exact hno _ hline'
  · obtain ⟨rfl, rfl⟩ := hat.unique hat'
    rw [hone _ _ _ _ hline hline', List.drop_left] at hboundary
    exact hboundary rfl

theorem Ends.not_open {rest : Bytes} (h : p.Ends admits rest) : ¬ p.Open admits := by
  obtain ⟨line, trailers, hat, hline, htrailers⟩ := h
  rintro (hno | ⟨line', more, n, hat', hline', hn, -⟩ | ⟨line', more, hat', -, hmore⟩)
  · rw [hat.found] at hno
    cases hno
  · obtain ⟨rfl, -⟩ := hat.unique hat'
    exact hn (hone _ _ _ _ hline' hline)
  · obtain ⟨-, rfl⟩ := hat.unique hat'
    exact hmore trailers htrailers (List.prefix_append _ _)

theorem Ends.not_malformed {rest : Bytes} (h : p.Ends admits rest) : ¬ p.Malformed admits := by
  obtain ⟨line, trailers, hat, hline, -⟩ := h
  rintro (⟨line', more, hat', hno⟩ | ⟨line', more, n, hat', hline', hn, -, -⟩)
  · obtain ⟨rfl, -⟩ := hat.unique hat'
    exact hno _ hline
  · obtain ⟨rfl, -⟩ := hat.unique hat'
    exact hn (hone _ _ _ _ hline' hline)

theorem Open.not_malformed (h : p.Open admits) : ¬ p.Malformed admits := by
  rintro (⟨line', more', hat', hno⟩ | ⟨line', more', n', hat', hline', hn', hmore', -⟩)
  · rcases h with h | ⟨line, more, n, hat, hline, -, -⟩ | ⟨line, more, hat, hline, -⟩
    · rw [hat'.found] at h
      cases h
    · obtain ⟨rfl, -⟩ := hat.unique hat'
      exact hno _ hline
    · obtain ⟨rfl, -⟩ := hat.unique hat'
      exact hno _ hline
  · rcases h with h | ⟨line, more, n, hat, hline, -, hmore⟩ | ⟨line, more, hat, hline, -⟩
    · rw [hat'.found] at h
      cases h
    · obtain ⟨rfl, rfl⟩ := hat.unique hat'
      rw [hone _ _ _ _ hline hline'] at hmore
      omega
    · obtain ⟨rfl, -⟩ := hat.unique hat'
      exact hn' (hone _ _ _ _ hline' hline)

/-- Two readings that cannot go on end at the same place. -/
theorem Reads.unique (h : Reads admits p q) (h' : Reads admits p q') (hq : ∀ r, ¬ Chunk admits q r)
    (hq' : ∀ r, ¬ Chunk admits q' r) : q = q' := by
  have hnext : Relator.RightUnique (Chunk admits) := fun _ _ _ h h' => Chunk.unique hone h h'
  exact last_unique hnext h h' hq hq'

end

/-! ### Lines that fewer admit -/

section

variable (hmono : ∀ total line n, admits total line n → admits' total line n) (hone : Announces admits')

/-- Every line that is read of what is ahead of `p`, as `admits'` has it, is
one that `admits` has. -/
def Plain (admits admits' : Nat → Bytes → Nat → Prop) (p : Rest) : Prop :=
  ∀ q line more n, Reads admits' p q → q.Line line more → admits' q.total line n → admits q.total line n

theorem Plain.reads (hplain : Plain admits admits' p) (h : Reads admits' p q) : Reads admits p q := by
  induction h with
  | refl => exact .refl
  | tail hreads hchunk ih =>
    obtain ⟨line, data, hat, hline, hdata, hread⟩ := hchunk
    exact ih.tail ⟨line, data, hat, hplain _ _ _ _ hreads hat hline, hdata, hread⟩

theorem Plain.ends (hplain : Plain admits admits' p) (h : Reads admits' p q) {rest : Bytes}
    (hends : q.Ends admits' rest) : q.Ends admits rest := by
  obtain ⟨line, trailers, hat, hline, htrailers⟩ := hends
  exact ⟨line, trailers, hat, hplain _ _ _ _ h hat hline, htrailers⟩

theorem Plain.opens (hplain : Plain admits admits' p) (h : Reads admits' p q) (hopen : q.Open admits') :
    q.Open admits := by
  rcases hopen with hno | ⟨line, more, n, hat, hline, hn, hmore⟩ | ⟨line, more, hat, hline, hmore⟩
  · exact .line hno
  · exact .data line more n hat (hplain _ _ _ _ h hat hline) hn hmore
  · exact .trailers line more hat (hplain _ _ _ _ h hat hline) hmore

include hmono hone

/-- If `admits` reads to a place where `admits'` does not go on, it has all the
lines that `admits'` reads. -/
theorem plain_of_reads (h : Reads admits p q) (hstuck : ∀ r, ¬ Chunk admits' q r)
    (hlast : ∀ line more n, q.Line line more → admits' q.total line n → admits q.total line n) :
    Plain admits admits' p := by
  intro q' line more n hreads hat hline
  induction hreads using Relation.ReflTransGen.head_induction_on with
  | refl =>
    rcases Relation.ReflTransGen.cases_head h with rfl | ⟨r, ⟨line', data, hat', hline', -, -⟩, -⟩
    · exact hlast line more n hat hline
    · obtain ⟨rfl, -⟩ := hat.unique hat'
      rw [hone _ _ _ _ hline (hmono _ _ _ hline')]
      exact hline'
  | head hchunk _ ih =>
    rcases Relation.ReflTransGen.cases_head h with rfl | ⟨r, hr, hrest⟩
    · exact absurd hchunk (hstuck _)
    · obtain ⟨line', data, hat', hline', hdata, hread⟩ := hr
      have hr' : Chunk admits' _ r := ⟨line', data, hat', hmono _ _ _ hline', hdata, hread⟩
      rw [Chunk.unique hone hr' hchunk] at hrest
      exact ih hrest

theorem plain_of_ends {rest : Bytes} (h : Reads admits p q) (hends : q.Ends admits rest) : Plain admits admits' p := by
  refine plain_of_reads hmono hone h (fun r => (hends.mono hmono).no_chunk hone) fun line more n hat hline => ?_
  obtain ⟨line', trailers, hat', hline', -⟩ := hends
  obtain ⟨rfl, -⟩ := hat.unique hat'
  rw [hone _ _ _ _ hline (hmono _ _ _ hline')]
  exact hline'

theorem plain_of_open (h : Reads admits p q) (hopen : q.Open admits) : Plain admits admits' p := by
  refine plain_of_reads hmono hone h (fun r => (hopen.mono hmono).no_chunk hone) fun line more n hat hline => ?_
  rcases hopen with hno | ⟨line', more', n', hat', hline', -, -⟩ | ⟨line', more', hat', hline', -⟩
  · rw [hat.found] at hno
    cases hno
  · obtain ⟨rfl, -⟩ := hat.unique hat'
    rw [hone _ _ _ _ hline (hmono _ _ _ hline')]
    exact hline'
  · obtain ⟨rfl, -⟩ := hat.unique hat'
    rw [hone _ _ _ _ hline (hmono _ _ _ hline')]
    exact hline'

end

end Rest

/-- A body in chunks, after chunks that were read, and what follows it. -/
theorem chunkedBody_after {admits : Nat → Bytes → Nat → Prop}
    (hfirst : ∀ total line n, admits total line n → position crlf line = none) (read u rest : Bytes) :
    (∃ p, u = p ++ rest ∧ ChunkedBody admits read.length p) ↔
      ∃ q, Rest.Reads admits ⟨read, u⟩ q ∧ q.Ends admits rest := by
  constructor
  · rintro ⟨p, rfl, h⟩
    generalize htotal : read.length = total at h
    induction h generalizing read with
    | @last total line trailers hline htrailers =>
      subst htotal
      refine ⟨_, .refl, line, trailers, ⟨hfirst _ _ _ hline, ?_⟩, hline, htrailers⟩
      rw [List.append_assoc, List.append_assoc]
    | @chunk total line data p hline hdata _ ih =>
      subst htotal
      obtain ⟨q, hreads, hends⟩ := @ih (read ++ data) List.length_append
      refine ⟨q, .head (b := ⟨read ++ data, p ++ rest⟩)
        ⟨line, data, ⟨hfirst _ _ _ hline, ?_⟩, hline, hdata, rfl⟩ hreads, hends⟩
      simp only [List.append_assoc]
  · rintro ⟨q, hreads, hends⟩
    generalize hstart : Rest.mk read u = start at hreads
    induction hreads using Relation.ReflTransGen.head_induction_on generalizing read u with
    | refl =>
      obtain ⟨line, trailers, hat, hline, htrailers⟩ := hends
      subst hstart
      refine ⟨line ++ (crlf ++ trailers), ?_, .last hline htrailers⟩
      rw [List.append_assoc, List.append_assoc]
      exact hat.ahead
    | @head _ r hchunk _ ih =>
      obtain ⟨line, data, hat, hline, hdata, hread⟩ := hchunk
      subst hstart
      obtain ⟨p, hp, hbody⟩ := @ih (read ++ data) r.ahead (by rw [← hread])
      rw [List.length_append] at hbody
      refine ⟨line ++ (crlf ++ (data ++ (crlf ++ p))), ?_, .chunk hline hdata hbody⟩
      have hahead : u = line ++ (crlf ++ (data ++ (crlf ++ r.ahead))) := hat.ahead
      rw [hahead, hp]
      simp only [List.append_assoc]

theorem chunkedBody_iff {admits : Nat → Bytes → Nat → Prop}
    (hfirst : ∀ total line n, admits total line n → position crlf line = none) {u rest : Bytes} :
    (∃ p, u = p ++ rest ∧ ChunkedBody admits 0 p) ↔ ∃ q, Rest.Reads admits ⟨[], u⟩ q ∧ q.Ends admits rest :=
  chunkedBody_after hfirst [] u rest

/-! ## Size lines -/

/-- A size line as the grammar has it: hexadecimal digits, and then white space
and an extension. -/
structure Spelling (line : Bytes) (n : Nat) : Prop where
  first : position crlf line = none
  spells : ∃ digits ows ext, line = digits ++ (ows ++ ext) ∧ digits ≠ [] ∧ (∀ b ∈ digits, isHexDigit b = true) ∧
    valueIn 16 hexDigit 0 digits = n ∧ (∀ b ∈ ows, isOws b = true) ∧ (ext = [] ∨ ∃ e, ext = 59 :: e)
  size : n < 2 ^ 64

/-- The grammar admits a size line if the sum of the sizes is within the
limit. -/
def InGrammar (maxBodySize total : Nat) (line : Bytes) (n : Nat) : Prop := Spelling line n ∧ total + n ≤ maxBodySize

/-- The engine admits what it reads a size of, if the sum, which may wrap
around, is within the limit. -/
def Taken (maxBodySize total : Nat) (line : Bytes) (n : Nat) : Prop :=
  SizeLine line n ∧ (n = 0 ∨ (total + n) % usizeEnd ≤ maxBodySize)

/-- A size line of the grammar is read as what it spells. -/
theorem Spelling.sizeLine {line : Bytes} {n : Nat} (h : Spelling line n) : SizeLine line n := by
  obtain ⟨digits, ows, ext, rfl, hne, hhex, hvalue, hows, hext⟩ := h.spells
  refine ⟨h.first, ?_⟩
  have hline : (digits ++ (ows ++ ext)).takeWhile (· ≠ 59) = digits ++ ows := by
    have hkept : ∀ b ∈ digits ++ ows, decide (b ≠ 59) = true := by
      intro b hb
      rcases List.mem_append.1 hb with hb | hb
      · exact decide_eq_true (ne_of_hexDigit (hhex b hb) (by decide))
      · rcases of_decide_eq_true (hows b hb) with rfl | rfl
        · decide
        · decide
    rw [← List.append_assoc, List.takeWhile_append_of_pos hkept]
    rcases hext with rfl | ⟨e, rfl⟩
    · exact List.append_nil _
    · exact List.append_nil _
  have hstrip : stripOws (digits ++ ows) = digits :=
    strip_append (a := []) (fun x hx => absurd hx List.not_mem_nil) (fun x hx => isOws_hexDigit (hhex x hx)) hows
  have htrim := trim_stripOws (v := digits ++ ows) fun b hb => by
    rw [hstrip] at hb
    exact ⟨(hexDigit_spec (hhex b hb)).1, (hexDigit_spec (hhex b hb)).2.1⟩
  have hacc := accumulate_foldl 16 (by decide) (fun b hb => (hexDigit_spec (hhex b hb)).2.2.2)
    (show 0 < 2 ^ 64 by decide)
  rw [show digits.foldl (fun n b => n * 16 + hexDigit b) 0 = n from hvalue, if_pos h.size] at hacc
  unfold FastHttpConnection.sizeText
  rw [hline, fromUtf8_ascii htrim.1, Option.map_some, htrim.2, hstrip, Option.bind_some, ← hacc]
  cases digits with
  | nil => exact absurd rfl hne
  | cons b ds => exact fromStrRadix_cons (hexDigit_spec (hhex b (.head _))).2.2.1 16 (ds.map chr)

theorem taken_of_grammar {maxBodySize : Nat} (total : Nat) (line : Bytes) (n : Nat)
    (h : InGrammar maxBodySize total line n) : Taken maxBodySize total line n :=
  ⟨h.1.sizeLine, .inr (Nat.le_trans (Nat.mod_le _ _) h.2)⟩

theorem announces_taken (maxBodySize : Nat) : Rest.Announces (Taken maxBodySize) := fun _ _ _ _ h h' =>
  Option.some.inj (h.1.announces.symm.trans h'.1.announces)

end Multiloop.Http
