import Multiloop.Http.ChunkedCoding

/-!
# `_read_chunked_body`

How `MultiloopWSGIWorker` of `multiloop/wsgi.py` reads a body in chunks from the
bytes that came with the head and an `asyncio.StreamReader`. It takes for a size
what `int(size_line, 16)` takes for a number, and skips two bytes after each
chunk, whatever they are.

As long as no size is negative, what it returns or raises depends on the bytes
alone, not on how they arrive (`chunkLoop_gives`).
-/

namespace Multiloop.Http

/-! ## `bytes` and `int` of Python -/

/-- `Py_ISSPACE`. -/
def isPySpace (b : UInt8) : Bool := (9 ≤ b ∧ b ≤ 13) ∨ b = 32

/-- `bs.strip()`. -/
def pyStrip (bs : Bytes) : Bytes := (bs.dropWhile isPySpace).rdropWhile isPySpace

/-- The digits after the first one. Between two digits there may be one
underscore. -/
def moreHexDigits (acc : Nat) : Bytes → Option Nat
  | [] => some acc
  | 95 :: b :: bs => if isHexDigit b then moreHexDigits (acc * 16 + hexDigit b) bs else none
  | b :: bs => if isHexDigit b then moreHexDigits (acc * 16 + hexDigit b) bs else none

def hexNumber : Bytes → Option Nat
  | [] => none
  | b :: bs => if isHexDigit b then moreHexDigits (hexDigit b) bs else none

/-- A number without a sign. The digits may come after `0x`, and then after one
underscore. -/
def unsignedHex : Bytes → Option Nat
  | 48 :: x :: bs =>
    if x = 120 ∨ x = 88 then
      match bs with
      | 95 :: bs => hexNumber bs
      | bs => hexNumber bs
    else hexNumber (48 :: x :: bs)
  | bs => hexNumber bs

def signedHex : Bytes → Option Int
  | 43 :: s => (unsignedHex s).map Int.ofNat
  | 45 :: s => (unsignedHex s).map fun n : Nat => -(n : Int)
  | s => (unsignedHex s).map Int.ofNat

/-- `int(bs, 16)`, where `none` is a `ValueError`. -/
def intHex (bs : Bytes) : Option Int := signedHex (pyStrip bs)

/-- Where a slice of a `bytearray` that ends at `stop` ends. -/
def sliceEnd (buf : Bytes) (stop : Int) : Nat := if stop < 0 then (buf.length + stop).toNat else stop.toNat

/-- An exception of `_read_chunked_body`. -/
inductive PyRaised
  | connectionResetError (message : String)
  | valueError (message : String)
deriving DecidableEq

namespace MultiloopWSGIWorker

/-! ## The method -/

/-- The size that a line announces. -/
def chunkLen (line : Bytes) : Option Int := intHex ((pyStrip line).takeWhile (· ≠ 59))

/-- The buffer is filled until it has the end of a line: where that is, the
buffer, and the reads that are left. An empty read is the end of the stream. -/
def fillLine (buf : Bytes) : List Bytes → Option (Nat × Bytes × List Bytes)
  | [] => (position crlf buf).map (·, buf, [])
  | chunk :: reader =>
    match position crlf buf with
    | some idx => some (idx, buf, chunk :: reader)
    | none => if chunk = [] then none else fillLine (buf ++ chunk) reader

/-- The buffer is filled until it has `needed` bytes. -/
def fill (needed : Int) (buf : Bytes) : List Bytes → Option (Bytes × List Bytes)
  | [] => if (buf.length : Int) < needed then none else some (buf, [])
  | chunk :: reader =>
    if (buf.length : Int) < needed then
      if chunk = [] then none else fill needed (buf ++ chunk) reader
    else some (buf, chunk :: reader)

/-- The loop of `_read_chunked_body`, over the reads that the reader will give:
what is returned or raised, and the reads that are left. The end of the line
behind the last chunk is awaited, but nothing is done if it is not there. -/
def chunkLoop (maxRequestBody : Nat) :
    Nat → Bytes → Bytes → List Bytes → Option (Except PyRaised Bytes × List Bytes)
  | 0, _, _, _ => none
  | fuel + 1, body, buf, reader =>
    match fillLine buf reader with
    | none => some (.error (.connectionResetError "Unexpected EOF while reading chunk size"), [])
    | some (idx, buf, reader) =>
      match chunkLen (buf.take idx) with
      | none => some (.error (.valueError "Invalid chunked encoding length"), reader)
      | some n =>
        if n = 0 then some (.ok body, ((fill 2 (buf.drop (idx + 2)) reader).map Prod.snd).getD [])
        else
          match fill (n + 2) (buf.drop (idx + 2)) reader with
          | none => some (.error (.connectionResetError "Unexpected EOF while reading chunk data"), [])
          | some (buf, reader) =>
            if maxRequestBody < body.length + n then some (.error (.valueError "Payload Too Large"), reader)
            else chunkLoop maxRequestBody fuel (body ++ buf.take (sliceEnd buf n)) (buf.drop (sliceEnd buf (n + 2)))
              reader

/-- Each pass through the loop takes the end of a line off the bytes, so these
are enough passes. -/
def readChunkedBody (maxRequestBody : Nat) (reader : List Bytes) (initial : Bytes) :
    Option (Except PyRaised Bytes × List Bytes) :=
  chunkLoop maxRequestBody (initial.length + reader.flatten.length + 1) [] initial reader

end MultiloopWSGIWorker

/-! ## What is read of the bytes as a whole -/

namespace Rest

open MultiloopWSGIWorker (chunkLen)

section

variable (maxRequestBody : Nat) (p : Rest)

/-- A chunk is taken, and two bytes after it. -/
inductive Piece (q : Rest) : Prop
  | mk (line more : Bytes) (n : Nat) (hat : p.Line line more) (hline : chunkLen line = some (n : Int)) (hn : n ≠ 0)
    (hmore : n + 2 ≤ more.length) (hsum : p.total + n ≤ maxRequestBody) (hread : q.read = p.read ++ more.take n)
    (hahead : q.ahead = more.drop (n + 2))

/-- Nothing more is taken: what is returned or raised. -/
inductive Stops : Except PyRaised Bytes → Prop
  | noLine (h : position crlf p.ahead = none) :
    Stops (.error (.connectionResetError "Unexpected EOF while reading chunk size"))
  | noSize (line more : Bytes) (hat : p.Line line more) (hline : chunkLen line = none) :
    Stops (.error (.valueError "Invalid chunked encoding length"))
  | last (line more : Bytes) (hat : p.Line line more) (hline : chunkLen line = some 0) : Stops (.ok p.read)
  | short (line more : Bytes) (n : Nat) (hat : p.Line line more) (hline : chunkLen line = some (n : Int)) (hn : n ≠ 0)
    (hmore : more.length < n + 2) :
    Stops (.error (.connectionResetError "Unexpected EOF while reading chunk data"))
  | tooLarge (line more : Bytes) (n : Nat) (hat : p.Line line more) (hline : chunkLen line = some (n : Int))
    (hn : n ≠ 0) (hmore : n + 2 ≤ more.length) (hsum : maxRequestBody < p.total + n) :
    Stops (.error (.valueError "Payload Too Large"))

/-- A line with the size zero comes next. -/
def Zero : Prop := ∃ line more, p.Line line more ∧ chunkLen line = some 0

end

/-- `q` is what is left after some chunks were taken. -/
abbrev Pieces (maxRequestBody : Nat) : Rest → Rest → Prop := Relation.ReflTransGen (Piece maxRequestBody)

/-- A line with a negative size is read. -/
def Negative (maxRequestBody : Nat) (p : Rest) : Prop :=
  ∃ q line more n, Pieces maxRequestBody p q ∧ q.Line line more ∧ chunkLen line = some n ∧ n < 0

variable {maxRequestBody : Nat} {p q q' : Rest} {r r' : Except PyRaised Bytes}

theorem Negative.pieces (h : q.Negative maxRequestBody) (hpieces : Pieces maxRequestBody p q) :
    p.Negative maxRequestBody := by
  obtain ⟨q', line, more, n, hmore, hat, hline, hn⟩ := h
  exact ⟨q', line, more, n, hpieces.trans hmore, hat, hline, hn⟩

theorem Piece.unique (h : p.Piece maxRequestBody q) (h' : p.Piece maxRequestBody q') : q = q' := by
  obtain ⟨line, more, n, hat, hline, -, -, -, hread, hahead⟩ := h
  obtain ⟨line', more', n', hat', hline', -, -, -, hread', hahead'⟩ := h'
  obtain ⟨rfl, rfl⟩ := hat.unique hat'
  have hn : (n : Int) = n' := Option.some.inj (hline.symm.trans hline')
  obtain rfl := Int.ofNat.inj hn
  obtain ⟨read, ahead⟩ := q
  obtain ⟨read', ahead'⟩ := q'
  rw [show read = read' from hread.trans hread'.symm, show ahead = ahead' from hahead.trans hahead'.symm]

theorem Zero.no_piece (h : p.Zero) : ¬ p.Piece maxRequestBody q := by
  obtain ⟨line, more, hat, hline⟩ := h
  rintro ⟨line', more', n, hat', hline', hn, -, -, -, -⟩
  obtain ⟨rfl, -⟩ := hat.unique hat'
  rw [hline] at hline'
  have hzero : (0 : Int) = n := Option.some.inj hline'
  omega

theorem Stops.no_piece (h : p.Stops maxRequestBody r) : ¬ p.Piece maxRequestBody q := by
  rintro ⟨line', more', n', hat', hline', hn', hmore', hsum', -, -⟩
  have hsize : ∀ {line more : Bytes} {n : Nat}, p.Line line more → chunkLen line = some (n : Int) →
      more = more' ∧ n = n' := by
    intro line more n hat hline
    obtain ⟨rfl, rfl⟩ := hat.unique hat'
    exact ⟨rfl, Int.ofNat.inj (Option.some.inj (hline.symm.trans hline'))⟩
  cases h with
  | noLine h =>
    rw [hat'.found] at h
    cases h
  | noSize line more hat hline =>
    obtain ⟨rfl, -⟩ := hat.unique hat'
    rw [hline] at hline'
    cases hline'
  | last line more hat hline =>
    obtain ⟨-, hn⟩ := hsize (n := 0) hat hline
    exact hn' hn.symm
  | short line more n hat hline hn hmore =>
    obtain ⟨rfl, rfl⟩ := hsize hat hline
    omega
  | tooLarge line more n hat hline hn hmore hsum =>
    obtain ⟨rfl, rfl⟩ := hsize hat hline
    omega

theorem Stops.zero (h : p.Stops maxRequestBody r) {body : Bytes} (hok : r = .ok body) : p.Zero := by
  cases h with
  | last line more hat hline => exact ⟨line, more, hat, hline⟩
  | noLine => cases hok
  | noSize => cases hok
  | short => cases hok
  | tooLarge => cases hok

/-- Where a whole body ends, it is returned, and only there. -/
theorem Stops.ok_iff (h : p.Stops maxRequestBody r) : p.Zero ↔ r = .ok p.read := by
  constructor
  · rintro ⟨line', more', hat', hline'⟩
    have hsize : ∀ {line more : Bytes} {n : Nat}, p.Line line more → chunkLen line = some (n : Int) → n = 0 := by
      intro line more n hat hline
      obtain ⟨rfl, -⟩ := hat.unique hat'
      have hn : (n : Int) = 0 := Option.some.inj (hline.symm.trans hline')
      omega
    cases h with
    | noLine h =>
      rw [hat'.found] at h
      cases h
    | noSize line more hat hline =>
      obtain ⟨rfl, -⟩ := hat.unique hat'
      rw [hline] at hline'
      cases hline'
    | last => rfl
    | short line more n hat hline hn => exact absurd (hsize hat hline) hn
    | tooLarge line more n hat hline hn => exact absurd (hsize hat hline) hn
  · exact h.zero

/-- What is returned or raised, as the lengths have it. -/
def outcome (p : Rest) : Except PyRaised Bytes :=
  match position crlf p.ahead with
  | none => .error (.connectionResetError "Unexpected EOF while reading chunk size")
  | some idx =>
    match chunkLen (p.ahead.take idx) with
    | none => .error (.valueError "Invalid chunked encoding length")
    | some n =>
      if n = 0 then .ok p.read
      else if (p.ahead.length : Int) < idx + 2 + (n + 2) then
        .error (.connectionResetError "Unexpected EOF while reading chunk data")
      else .error (.valueError "Payload Too Large")

theorem Line.outcome {line more : Bytes} {n : Nat} (hat : p.Line line more) (hline : chunkLen line = some (n : Int)) :
    p.outcome = if n = 0 then .ok p.read
      else if more.length < n + 2 then .error (.connectionResetError "Unexpected EOF while reading chunk data")
      else .error (.valueError "Payload Too Large") := by
  unfold Rest.outcome
  rw [hat.found]
  dsimp only
  have htake : p.ahead.take line.length = line := by rw [hat.ahead, List.take_left]
  have hlen : p.ahead.length = line.length + (2 + more.length) := by
    rw [hat.ahead, List.length_append, List.length_append]
    rfl
  rw [htake, hline, hlen]
  dsimp only
  by_cases hn : n = 0
  · rw [if_pos hn, if_pos (by omega)]
  rw [if_neg hn, if_neg (by omega)]
  by_cases hmore : more.length < n + 2
  · rw [if_pos hmore, if_pos (by omega)]
  · rw [if_neg hmore, if_neg (by omega)]

theorem Stops.outcome (h : p.Stops maxRequestBody r) : r = p.outcome := by
  cases h with
  | noLine h =>
    unfold Rest.outcome
    rw [h]
  | noSize line more hat hline =>
    have htake : p.ahead.take line.length = line := by rw [hat.ahead, List.take_left]
    unfold Rest.outcome
    rw [hat.found]
    dsimp only
    rw [htake, hline]
  | last line more hat hline => exact (hat.outcome (n := 0) hline).symm
  | short line more n hat hline hn hmore => rw [hat.outcome hline, if_neg hn, if_pos hmore]
  | tooLarge line more n hat hline hn hmore => rw [hat.outcome hline, if_neg hn, if_neg (Nat.not_lt.2 hmore)]

theorem Pieces.unique (h : Pieces maxRequestBody p q) (h' : Pieces maxRequestBody p q')
    (hq : ∀ r, ¬ q.Piece maxRequestBody r) (hq' : ∀ r, ¬ q'.Piece maxRequestBody r) : q = q' := by
  have hnext : Relator.RightUnique (Piece maxRequestBody) := fun _ _ _ h h' => Piece.unique h h'
  exact last_unique hnext h h' hq hq'

end Rest

namespace MultiloopWSGIWorker

open Rest

/-! ## The reads -/

section

variable {idx : Nat} {needed : Int} {buf buf' : Bytes} {reader reader' : List Bytes}

/-- No read is empty before the end of the stream. -/
def Arrives (reader : List Bytes) : Prop := ∀ chunk ∈ reader, chunk ≠ []

theorem fillLine_none (hreader : Arrives reader) (h : fillLine buf reader = none) :
    position crlf (buf ++ reader.flatten) = none := by
  induction reader generalizing buf with
  | nil =>
    rw [List.flatten_nil, List.append_nil]
    exact Option.map_eq_none_iff.1 h
  | cons chunk reader ih =>
    rw [fillLine] at h
    split at h
    · cases h
    rw [if_neg (hreader chunk (.head _))] at h
    rw [List.flatten_cons, ← List.append_assoc]
    exact ih (fun c hc => hreader c (.tail _ hc)) h

theorem fillLine_some (hreader : Arrives reader) (h : fillLine buf reader = some (idx, buf', reader')) :
    position crlf buf' = some idx ∧ buf' ++ reader'.flatten = buf ++ reader.flatten ∧ Arrives reader' := by
  induction reader generalizing buf with
  | nil =>
    obtain ⟨k, hk, heq⟩ := Option.map_eq_some_iff.1 h
    cases heq
    exact ⟨hk, rfl, hreader⟩
  | cons chunk reader ih =>
    rw [fillLine] at h
    split at h
    · rename_i k hk
      cases h
      exact ⟨hk, rfl, hreader⟩
    rw [if_neg (hreader chunk (.head _))] at h
    rw [List.flatten_cons, ← List.append_assoc]
    exact ih (fun c hc => hreader c (.tail _ hc)) h

theorem fill_none (hreader : Arrives reader) (h : fill needed buf reader = none) :
    ((buf ++ reader.flatten).length : Int) < needed := by
  induction reader generalizing buf with
  | nil =>
    rw [fill] at h
    rw [List.flatten_nil, List.append_nil]
    split at h
    · assumption
    · cases h
  | cons chunk reader ih =>
    rw [fill] at h
    split at h
    · rw [if_neg (hreader chunk (.head _))] at h
      rw [List.flatten_cons, ← List.append_assoc]
      exact ih (fun c hc => hreader c (.tail _ hc)) h
    · cases h

theorem fill_some (hreader : Arrives reader) (h : fill needed buf reader = some (buf', reader')) :
    needed ≤ buf'.length ∧ buf' ++ reader'.flatten = buf ++ reader.flatten ∧ Arrives reader' := by
  induction reader generalizing buf with
  | nil =>
    rw [fill] at h
    split at h
    · cases h
    · rename_i henough
      cases h
      exact ⟨Int.not_lt.1 henough, rfl, hreader⟩
  | cons chunk reader ih =>
    rw [fill] at h
    split at h
    · rw [if_neg (hreader chunk (.head _))] at h
      rw [List.flatten_cons, ← List.append_assoc]
      exact ih (fun c hc => hreader c (.tail _ hc)) h
    · rename_i henough
      cases h
      exact ⟨Int.not_lt.1 henough, rfl, hreader⟩

end

/-! ## The loop -/

section

variable {maxRequestBody : Nat}

/-- Whatever comes in which reads, the loop takes the chunks that are in the
bytes, and stops where nothing more is taken. -/
theorem chunkLoop_gives {fuel : Nat} {body buf : Bytes} {reader : List Bytes} (hreader : Arrives reader)
    (hfuel : (buf ++ reader.flatten).length < fuel)
    (hneg : ¬ Negative maxRequestBody ⟨body, buf ++ reader.flatten⟩) :
    ∃ q r left, Pieces maxRequestBody ⟨body, buf ++ reader.flatten⟩ q ∧ q.Stops maxRequestBody r ∧
      chunkLoop maxRequestBody fuel body buf reader = some (r, left) := by
  induction fuel generalizing body buf reader with
  | zero => omega
  | succ fuel ih =>
    rw [chunkLoop]
    generalize hu : buf ++ reader.flatten = u at hfuel hneg ⊢
    cases hfill : fillLine buf reader with
    | none => exact ⟨_, _, _, .refl, .noLine (hu ▸ fillLine_none hreader hfill), rfl⟩
    | some found =>
      obtain ⟨idx, buf', reader'⟩ := found
      obtain ⟨hpos, hsame, hreader'⟩ := fillLine_some hreader hfill
      have hsplit := position_split hpos
      have hle := position_le hpos
      change idx + 2 ≤ buf'.length at hle
      have hat : Rest.Line ⟨body, u⟩ (buf'.take idx) (buf'.drop (idx + 2) ++ reader'.flatten) := by
        refine ⟨position_take hpos, ?_⟩
        rw [← hu, ← hsame]
        conv_lhs => rw [hsplit]
        rw [List.append_assoc, List.append_assoc]
        rfl
      have hlen := congrArg List.length hsame
      rw [hu, List.length_append] at hlen
      dsimp only
      cases hline : chunkLen (buf'.take idx) with
      | none => exact ⟨_, _, _, .refl, .noSize _ _ hat hline, rfl⟩
      | some k =>
        have hk : 0 ≤ k := Int.not_lt.1 fun hlt => hneg ⟨_, _, _, k, .refl, hat, hline, hlt⟩
        obtain ⟨n, rfl⟩ := Int.eq_ofNat_of_zero_le hk
        dsimp only
        by_cases hn : n = 0
        · subst hn
          exact ⟨_, _, _, .refl, .last _ _ hat hline, if_pos rfl⟩
        rw [if_neg (show ¬ (n : Int) = 0 by omega)]
        cases hdata : fill (n + 2) (buf'.drop (idx + 2)) reader' with
        | none =>
          have hfew := fill_none hreader' hdata
          exact ⟨_, _, _, .refl, .short _ _ n hat hline hn (by omega), rfl⟩
        | some filled =>
          obtain ⟨buf'', reader''⟩ := filled
          obtain ⟨henough, hsame', hreader''⟩ := fill_some hreader' hdata
          have hmore : n + 2 ≤ buf''.length := by omega
          rw [← hsame'] at hat
          have hlen' := congrArg List.length hsame'
          rw [List.length_append, List.length_append, List.length_drop] at hlen'
          dsimp only
          split
          · rename_i hsum
            refine ⟨_, _, _, .refl, .tooLarge _ _ n hat hline hn ?_ ?_, rfl⟩
            · rw [List.length_append]
              omega
            · show maxRequestBody < body.length + n
              omega
          · rename_i hsum
            have hend : sliceEnd buf'' n = n := by
              rw [sliceEnd, if_neg (by omega)]
              omega
            have hend' : sliceEnd buf'' (n + 2) = n + 2 := by
              rw [sliceEnd, if_neg (by omega)]
              omega
            rw [hend, hend']
            have hpiece : Piece maxRequestBody ⟨body, u⟩
                ⟨body ++ buf''.take n, buf''.drop (n + 2) ++ reader''.flatten⟩ := by
              refine ⟨_, _, n, hat, hline, hn, ?_, ?_, ?_, ?_⟩
              · rw [List.length_append]
                omega
              · show body.length + n ≤ maxRequestBody
                omega
              · rw [List.take_append_of_le_length (by omega)]
              · rw [List.drop_append_of_le_length hmore]
            obtain ⟨q, r, left, hpieces, hstops, hloop⟩ := @ih (body ++ buf''.take n) (buf''.drop (n + 2)) reader''
              hreader'' (by rw [List.length_append, List.length_drop]; omega)
              fun hlater => hneg (hlater.pieces (.single hpiece))
            exact ⟨q, r, left, .head hpiece hpieces, hstops, hloop⟩

end

end MultiloopWSGIWorker

end Multiloop.Http
