import Mathlib.Data.List.Basic
import Multiloop.Http.Text

/-!
# `wsgi.input`

`SyncStreamReader` of `multiloop/wsgi.py`: over a whole body, where every call
goes to an `io.BytesIO`, and over the bytes that came with the head and a
channel that gives the others.
-/

namespace Multiloop.Http

/-- An exception of a call. -/
inductive PyError
  | overflowError
  | stopIteration
deriving DecidableEq

/-- An integer that CPython takes where it wants a `Py_ssize_t`. -/
def FitsSsize (n : Int) : Prop := -2 ^ 63 ≤ n ∧ n < 2 ^ 63

instance (n : Int) : Decidable (FitsSsize n) := inferInstanceAs (Decidable (_ ∧ _))

/-- The number of bytes up to the first newline and with it, or of all. -/
def lineLength : Bytes → Nat
  | [] => 0
  | b :: bs => if b = 10 then 1 else lineLength bs + 1

section LineLength

variable {bs more : Bytes} {m : Nat}

theorem lineLength_le : ∀ bs : Bytes, lineLength bs ≤ bs.length
  | [] => Nat.le_refl 0
  | b :: bs => by
    have hle := lineLength_le bs
    rw [lineLength, List.length_cons]
    split
    · omega
    · omega

theorem lineLength_pos (h : bs ≠ []) : 0 < lineLength bs := by
  cases bs with
  | nil => exact absurd rfl h
  | cons b bs =>
    rw [lineLength]
    split
    · decide
    · omega

theorem lineLength_take : ∀ (bs : Bytes) (m : Nat), lineLength (bs.take m) = min m (lineLength bs)
  | [], m => by rw [List.take_nil, lineLength, Nat.min_zero]
  | b :: bs, 0 => by rw [List.take_zero, lineLength, Nat.zero_min]
  | b :: bs, m + 1 => by
    have hle := lineLength_take bs m
    rw [List.take_succ_cons, lineLength, lineLength]
    split
    · omega
    · omega

/-- `find(b"\n")` finds the last byte of the line. -/
theorem lineLength_of_find {i : Nat} (h : bs.idxOf? 10 = some i) (more : Bytes) :
    lineLength (bs ++ more) = i + 1 := by
  induction bs generalizing i with
  | nil => cases h
  | cons b bs ih =>
    rw [List.idxOf?_cons] at h
    rw [List.cons_append, lineLength]
    by_cases hb : b = 10
    · rw [hb] at h
      cases h
      rw [if_pos hb]
    · rw [if_neg (by simpa using hb)] at h
      obtain ⟨j, hj, rfl⟩ := Option.map_eq_some_iff.1 h
      rw [if_neg hb, ih hj]

theorem lineLength_append_of_not_mem (h : (10 : UInt8) ∉ bs) (more : Bytes) :
    lineLength (bs ++ more) = bs.length + lineLength more := by
  induction bs with
  | nil => simp
  | cons b bs ih =>
    rw [List.mem_cons, not_or] at h
    rw [List.cons_append, lineLength, if_neg (Ne.symm h.1), ih h.2, List.length_cons]
    omega

/-- A line, or the beginning of one, has no newline before its last byte. -/
theorem newline_last : ∀ (bs : Bytes) (n : Nat), n ≤ lineLength bs → (10 : UInt8) ∉ (bs.take n).dropLast
  | [], n, _ => by simp
  | b :: bs, 0, _ => by simp
  | b :: bs, 1, _ => by simp
  | b :: bs, n + 2, h => by
    rw [lineLength] at h
    split at h
    · omega
    · rename_i hb
      have hrest := newline_last bs (n + 1) (by omega)
      cases bs with
      | nil => simp
      | cons c bs =>
        rw [List.take_succ_cons, List.take_succ_cons, List.dropLast_cons_cons, List.mem_cons, not_or]
        rw [List.take_succ_cons] at hrest
        exact ⟨Ne.symm hb, hrest⟩

end LineLength

/-- `io.BytesIO`: the bytes from its position on. -/
structure BytesIo where
  rest : Bytes
deriving DecidableEq

namespace BytesIo

/-- The bytes that a `size` lets through: all of them for a negative one. -/
def limit (b : BytesIo) (size : Int) : Nat :=
  if 0 ≤ size ∧ size < b.rest.length then size.toNat else b.rest.length

def read (b : BytesIo) (size : Int) : Except PyError Bytes × BytesIo :=
  if FitsSsize size then (.ok (b.rest.take (b.limit size)), ⟨b.rest.drop (b.limit size)⟩)
  else (.error .overflowError, b)

/-- `scan_eol`: the length of the next line, `size` bytes at most. -/
def scanEol (b : BytesIo) (size : Int) : Nat := lineLength (b.rest.take (b.limit size))

def readline (b : BytesIo) (size : Int) : Except PyError Bytes × BytesIo :=
  if FitsSsize size then (.ok (b.rest.take (b.scanEol size)), ⟨b.rest.drop (b.scanEol size)⟩)
  else (.error .overflowError, b)

/-- The loop of `readlines`; `size` is the length of the lines so far. -/
def readlinesLoop (maxsize : Int) (lines : List Bytes) (size : Nat) (b : BytesIo) : List Bytes × BytesIo :=
  let n := b.scanEol (-1)
  if n = 0 then (lines, b)
  else
    let next : BytesIo := ⟨b.rest.drop n⟩
    if 0 < maxsize ∧ maxsize ≤ (size + n : Nat) then (lines ++ [b.rest.take n], next)
    else readlinesLoop maxsize (lines ++ [b.rest.take n]) (size + n) next
termination_by b.rest.length
decreasing_by
  have hle : n ≤ b.rest.length := Nat.le_trans (lineLength_le _) (List.length_take_le' _ _)
  rw [List.length_drop]
  omega

def readlines (b : BytesIo) (hint : Int) : Except PyError (List Bytes) × BytesIo :=
  if FitsSsize hint then
    let (lines, b) := b.readlinesLoop hint [] 0
    (.ok lines, b)
  else (.error .overflowError, b)

end BytesIo

/-- A reader over a channel. `channel` is what `recv_sync` still gives, in
order, before the channel is closed. -/
structure ChannelReader where
  buffer : Bytes
  channel : List Bytes
  eof : Bool
deriving DecidableEq

namespace ChannelReader

/-- The bytes that are still to be read. -/
def unread (r : ChannelReader) : Bytes := r.buffer ++ r.channel.flatten

/-- The loops of `read`: until the buffer has `size` bytes, or up to the end. An
empty chunk is the end marker, and a closed channel raises. -/
def fill (size : Option Nat) (buffer : Bytes) (eof : Bool) (channel : List Bytes) : ChannelReader :=
  if eof ∨ size.any (· ≤ buffer.length) then ⟨buffer, channel, eof⟩
  else
    match channel with
    | [] => ⟨buffer, [], true⟩
    | [] :: channel => ⟨buffer, channel, true⟩
    | chunk :: channel => fill size (buffer ++ chunk) eof channel

def read (r : ChannelReader) (size : Int) : Bytes × ChannelReader :=
  if size = 0 then ([], r)
  else if size < 0 then
    let r := fill none r.buffer r.eof r.channel
    (r.buffer, { r with buffer := [] })
  else
    let r := fill (some size.toNat) r.buffer r.eof r.channel
    (r.buffer.take size.toNat, { r with buffer := r.buffer.drop size.toNat })

def readlineLoop (maxLen : Option Nat) (buffer : Bytes) (eof : Bool) (channel : List Bytes) :
    Bytes × ChannelReader :=
  match buffer.idxOf? 10 with
  | some nlIdx =>
    let stop := match maxLen with
      | some n => if n < nlIdx + 1 then n else nlIdx + 1
      | none => nlIdx + 1
    (buffer.take stop, ⟨buffer.drop stop, channel, eof⟩)
  | none =>
    match maxLen.filter (· ≤ buffer.length) with
    | some n => (buffer.take n, ⟨buffer.drop n, channel, eof⟩)
    | none =>
      if eof then (buffer, ⟨[], channel, eof⟩)
      else
        match channel with
        | [] => (buffer, ⟨[], [], true⟩)
        | [] :: channel => (buffer, ⟨[], channel, true⟩)
        | chunk :: channel => readlineLoop maxLen (buffer ++ chunk) eof channel

/-- A `size` of `None`, or of 0 or less, sets no limit. -/
def limit (size : Option Int) : Option Nat := (size.filter (0 < ·)).map Int.toNat

def readline (r : ChannelReader) (size : Option Int) : Bytes × ChannelReader :=
  readlineLoop (limit size) r.buffer r.eof r.channel

/-! ## A line of the unread bytes -/

section Lines

variable {maxLen : Option Nat} {buffer : Bytes} {eof : Bool} {channel : List Bytes}

/-- The length of the next line of `unread`, `maxLen` at most. -/
def lineEnd (maxLen : Option Nat) (unread : Bytes) : Nat :=
  match maxLen with
  | some n => min n (lineLength unread)
  | none => lineLength unread

/-- The line ends in the buffer. -/
def Ends (maxLen : Option Nat) (buffer : Bytes) : Prop :=
  10 ∈ buffer ∨ ∃ n, maxLen = some n ∧ n ≤ buffer.length

theorem lineEnd_le (maxLen : Option Nat) (bs : Bytes) : lineEnd maxLen bs ≤ lineLength bs := by
  cases maxLen with
  | none => exact Nat.le_refl _
  | some n => exact Nat.min_le_right _ _

theorem lineEnd_of_not_ends (h : ¬ Ends maxLen buffer) : lineEnd maxLen buffer = buffer.length := by
  obtain ⟨hnl, hlen⟩ := not_or.1 h
  have hall : lineLength buffer = buffer.length := by
    simpa [lineLength] using lineLength_append_of_not_mem hnl []
  cases maxLen with
  | none => exact hall
  | some n =>
    have hlt : ¬ n ≤ buffer.length := fun hle => hlen ⟨n, rfl, hle⟩
    show min n (lineLength buffer) = _
    omega

theorem readlineLoop_of_ends (h : Ends maxLen buffer) (eof : Bool) (channel : List Bytes) (more : Bytes) :
    lineEnd maxLen (buffer ++ more) ≤ buffer.length ∧ readlineLoop maxLen buffer eof channel =
      (buffer.take (lineEnd maxLen (buffer ++ more)),
        ⟨buffer.drop (lineEnd maxLen (buffer ++ more)), channel, eof⟩) := by
  cases hfind : buffer.idxOf? 10 with
  | some i =>
    clear h
    have hline : lineLength (buffer ++ more) = i + 1 := lineLength_of_find hfind more
    have hi : lineLength buffer = i + 1 := by simpa using lineLength_of_find hfind []
    have hle : i + 1 ≤ buffer.length := hi ▸ lineLength_le buffer
    have hstop : lineEnd maxLen (buffer ++ more) =
        (match maxLen with | some n => if n < i + 1 then n else i + 1 | none => i + 1) := by
      cases maxLen with
      | none => exact hline
      | some n =>
        show min n (lineLength (buffer ++ more)) = if n < i + 1 then n else i + 1
        rw [hline]
        split
        · omega
        · omega
    refine ⟨Nat.le_trans (lineEnd_le _ _) (by omega), ?_⟩
    rw [readlineLoop.eq_def, hfind, hstop]
  | none =>
    have hnl : (10 : UInt8) ∉ buffer := by simpa using hfind
    obtain ⟨n, rfl, hn⟩ := h.resolve_left hnl
    have hstop : lineEnd (some n) (buffer ++ more) = n := by
      show min n (lineLength (buffer ++ more)) = n
      rw [lineLength_append_of_not_mem hnl]
      omega
    refine ⟨by omega, ?_⟩
    rw [readlineLoop.eq_def, hfind, hstop, Option.filter_some, if_pos (by simpa using hn)]

theorem readlineLoop_of_not_ends (h : ¬ Ends maxLen buffer) : readlineLoop maxLen buffer eof channel =
    if eof then (buffer, ⟨[], channel, eof⟩)
    else
      match channel with
      | [] => (buffer, ⟨[], [], true⟩)
      | [] :: channel => (buffer, ⟨[], channel, true⟩)
      | chunk :: channel => readlineLoop maxLen (buffer ++ chunk) eof channel := by
  obtain ⟨hnl, hlen⟩ := not_or.1 h
  have hfind : buffer.idxOf? 10 = none := by simpa using hnl
  have hfilter : maxLen.filter (· ≤ buffer.length) = none := by
    cases maxLen with
    | none => rfl
    | some n => simpa [Option.filter_some] using fun hle => hlen ⟨n, rfl, hle⟩
  rw [readlineLoop.eq_def, hfind]
  simp only [hfilter]

/-- No byte is lost. -/
theorem readlineLoop_append (maxLen : Option Nat) (buffer : Bytes) (eof : Bool) (channel : List Bytes) :
    (readlineLoop maxLen buffer eof channel).1 ++ (readlineLoop maxLen buffer eof channel).2.unread =
      buffer ++ channel.flatten := by
  induction channel generalizing buffer with
  | nil =>
    by_cases hends : Ends maxLen buffer
    · obtain ⟨-, heq⟩ := readlineLoop_of_ends hends eof [] []
      rw [heq, unread, ← List.append_assoc, List.take_append_drop]
    · rw [readlineLoop_of_not_ends hends]
      cases eof with
      | true => rfl
      | false => rfl
  | cons chunk channel ih =>
    by_cases hends : Ends maxLen buffer
    · obtain ⟨-, heq⟩ := readlineLoop_of_ends hends eof (chunk :: channel) []
      rw [heq, unread, ← List.append_assoc, List.take_append_drop]
    · rw [readlineLoop_of_not_ends hends]
      cases eof with
      | true => rfl
      | false =>
        cases chunk with
        | nil => rfl
        | cons b bs =>
          show (readlineLoop maxLen (buffer ++ b :: bs) false channel).1 ++ _ = _
          rw [List.flatten_cons, ← List.append_assoc]
          exact ih (buffer ++ b :: bs)

end Lines

def readlinesLoop (hint : Int) (lines : List Bytes) (r : ChannelReader) : List Bytes × ChannelReader :=
  let line := (r.readline (some (-1))).1
  let next := (r.readline (some (-1))).2
  if line = [] then (lines, next)
  else
    let lines := lines ++ [line]
    if 0 < hint ∧ hint ≤ ((lines.map List.length).foldr (· + ·) 0 : Nat) then (lines, next)
    else readlinesLoop hint lines next
termination_by r.unread.length
decreasing_by
  have hlen := congrArg List.length (readlineLoop_append none r.buffer r.eof r.channel)
  have hpos : 0 < line.length := List.length_pos_iff.2 ‹¬line = []›
  rw [List.length_append] at hlen
  exact Nat.lt_of_lt_of_eq (Nat.lt_add_of_pos_left hpos) hlen

def readlines (r : ChannelReader) (hint : Int) : List Bytes × ChannelReader := r.readlinesLoop hint []

/-! ## The calls of a reader that is fed -/

/-- What the feeder sends and the reader has not received: chunks that are not
empty, then the end marker; nothing after it. -/
inductive Fed : Bool → List Bytes → Prop
  | finished : Fed true []
  | marker : Fed false [[]]
  | chunk {c : Bytes} {cs : List Bytes} : c ≠ [] → Fed false cs → Fed false (c :: cs)

section Calls

variable {size : Option Nat} {buffer : Bytes} {eof : Bool} {channel : List Bytes} {r : ChannelReader}

/-- After `fill` the buffer has `size` bytes, or all that there were. -/
theorem fill_spec (h : Fed eof channel) (size : Option Nat) (buffer : Bytes) :
    (fill size buffer eof channel).unread = buffer ++ channel.flatten ∧
    Fed (fill size buffer eof channel).eof (fill size buffer eof channel).channel ∧
    ((fill size buffer eof channel).channel = [] ∨
      ∃ n, size = some n ∧ n ≤ (fill size buffer eof channel).buffer.length) := by
  have hstop : ∀ {eof : Bool} {channel : List Bytes} {buffer : Bytes}, Fed eof channel →
      (eof = true ∨ size.any (· ≤ buffer.length) = true) → fill size buffer eof channel = ⟨buffer, channel, eof⟩ →
      (fill size buffer eof channel).unread = buffer ++ channel.flatten ∧
      Fed (fill size buffer eof channel).eof (fill size buffer eof channel).channel ∧
      ((fill size buffer eof channel).channel = [] ∨
        ∃ n, size = some n ∧ n ≤ (fill size buffer eof channel).buffer.length) := by
    intro eof channel buffer hfed hwhy heq
    rw [heq]
    refine ⟨rfl, hfed, ?_⟩
    rcases hwhy with rfl | hany
    · cases hfed
      exact .inl rfl
    · obtain ⟨n, hn, hle⟩ := (Option.any_eq_true _ _).1 hany
      exact .inr ⟨n, hn, by simpa using hle⟩
  induction h generalizing buffer with
  | finished => exact hstop .finished (.inl rfl) (by simp [fill])
  | marker =>
    by_cases hany : size.any (· ≤ buffer.length) = true
    · exact hstop .marker (.inr hany) (by simp [fill, hany])
    · have heq : fill size buffer false [[]] = ⟨buffer, [], true⟩ := by simp [fill, hany]
      rw [heq]
      exact ⟨rfl, .finished, .inl rfl⟩
  | @chunk c cs hc hcs ih =>
    by_cases hany : size.any (· ≤ buffer.length) = true
    · exact hstop (.chunk hc hcs) (.inr hany) (by simp [fill, hany])
    · have heq : fill size buffer false (c :: cs) = fill size (buffer ++ c) false cs := by
        cases c with
        | nil => exact absurd rfl hc
        | cons b bs => simp [fill, hany]
      rw [heq, List.flatten_cons, ← List.append_assoc]
      exact ih (buffer ++ c)

theorem readlineLoop_spec (h : Fed eof channel) (maxLen : Option Nat) (buffer : Bytes) :
    ∃ r, readlineLoop maxLen buffer eof channel =
        ((buffer ++ channel.flatten).take (lineEnd maxLen (buffer ++ channel.flatten)), r) ∧
      Fed r.eof r.channel ∧
      r.unread = (buffer ++ channel.flatten).drop (lineEnd maxLen (buffer ++ channel.flatten)) := by
  have hends : ∀ {eof : Bool} {channel : List Bytes} {buffer : Bytes}, Fed eof channel → Ends maxLen buffer →
      ∃ r, readlineLoop maxLen buffer eof channel =
          ((buffer ++ channel.flatten).take (lineEnd maxLen (buffer ++ channel.flatten)), r) ∧
        Fed r.eof r.channel ∧
        r.unread = (buffer ++ channel.flatten).drop (lineEnd maxLen (buffer ++ channel.flatten)) := by
    intro eof channel buffer hfed h
    obtain ⟨hle, heq⟩ := readlineLoop_of_ends h eof channel channel.flatten
    refine ⟨⟨buffer.drop (lineEnd maxLen (buffer ++ channel.flatten)), channel, eof⟩, ?_, hfed, ?_⟩
    · rw [List.take_append_of_le_length hle]
      exact heq
    · rw [List.drop_append_of_le_length hle]
      rfl
  have hlast : ∀ {buffer : Bytes}, ¬ Ends maxLen buffer → (buffer ++ []).take (lineEnd maxLen (buffer ++ [])) = buffer ∧
      (buffer ++ []).drop (lineEnd maxLen (buffer ++ [])) = [] := by
    intro buffer h
    rw [List.append_nil, lineEnd_of_not_ends h, List.take_length, List.drop_length]
    exact ⟨rfl, rfl⟩
  induction h generalizing buffer with
  | finished =>
    by_cases he : Ends maxLen buffer
    · exact hends .finished he
    · refine ⟨⟨[], [], true⟩, ?_, .finished, (hlast he).2.symm⟩
      rw [readlineLoop_of_not_ends he, if_pos rfl]
      exact Prod.ext (hlast he).1.symm rfl
  | marker =>
    by_cases he : Ends maxLen buffer
    · exact hends .marker he
    · refine ⟨⟨[], [], true⟩, ?_, .finished, (hlast he).2.symm⟩
      rw [readlineLoop_of_not_ends he, if_neg Bool.false_ne_true]
      exact Prod.ext (hlast he).1.symm rfl
  | @chunk c cs hc hcs ih =>
    by_cases he : Ends maxLen buffer
    · exact hends (.chunk hc hcs) he
    · have heq : readlineLoop maxLen buffer false (c :: cs) = readlineLoop maxLen (buffer ++ c) false cs := by
        cases c with
        | nil => exact absurd rfl hc
        | cons b bs => rw [readlineLoop_of_not_ends he, if_neg Bool.false_ne_true]
      rw [heq, List.flatten_cons, ← List.append_assoc]
      exact ih (buffer ++ c)

/-- A call took the next `n` bytes. -/
structure Takes (r : ChannelReader) (n : Nat) (res : Bytes × ChannelReader) : Prop where
  fed : Fed res.2.eof res.2.channel
  taken : res.1 = r.unread.take n
  left : res.2.unread = r.unread.drop n

theorem takes_read (h : Fed r.eof r.channel) (size : Int) :
    Takes r (if size < 0 then r.unread.length else size.toNat) (r.read size) := by
  by_cases hzero : size = 0
  · subst hzero
    exact ⟨h, rfl, rfl⟩
  by_cases hneg : size < 0
  · obtain ⟨hunread, hfed, hstop⟩ := fill_spec h none r.buffer
    have hnil : (fill none r.buffer r.eof r.channel).channel = [] :=
      hstop.resolve_right fun ⟨n, hn, _⟩ => by cases hn
    have hread : r.read size = ((fill none r.buffer r.eof r.channel).buffer,
        { fill none r.buffer r.eof r.channel with buffer := [] }) := by
      rw [read, if_neg hzero, if_pos hneg]
    have hall : (fill none r.buffer r.eof r.channel).buffer = r.unread := by
      rw [unread, hnil, List.flatten_nil, List.append_nil] at hunread
      exact hunread
    rw [hread, if_pos hneg]
    refine ⟨hfed, ?_, ?_⟩
    · rw [List.take_length]
      exact hall
    · show [] ++ (fill none r.buffer r.eof r.channel).channel.flatten = _
      rw [hnil, List.drop_length]
      rfl
  · obtain ⟨hunread, hfed, hstop⟩ := fill_spec h (some size.toNat) r.buffer
    have hread : r.read size = ((fill (some size.toNat) r.buffer r.eof r.channel).buffer.take size.toNat,
        { fill (some size.toNat) r.buffer r.eof r.channel with
          buffer := (fill (some size.toNat) r.buffer r.eof r.channel).buffer.drop size.toNat }) := by
      rw [read, if_neg hzero, if_neg hneg]
    have hunread : r.unread = (fill (some size.toNat) r.buffer r.eof r.channel).buffer ++
        (fill (some size.toNat) r.buffer r.eof r.channel).channel.flatten := hunread.symm
    rw [hread, if_neg hneg]
    refine ⟨hfed, ?_, ?_⟩
    · rw [hunread]
      rcases hstop with hnil | ⟨n, hn, hle⟩
      · rw [hnil, List.flatten_nil, List.append_nil]
      · cases hn
        rw [List.take_append_of_le_length hle]
    · rw [hunread]
      rcases hstop with hnil | ⟨n, hn, hle⟩
      · rw [unread, hnil, List.flatten_nil, List.append_nil, List.append_nil]
      · cases hn
        rw [List.drop_append_of_le_length hle]
        rfl

theorem takes_readline (h : Fed r.eof r.channel) (size : Option Int) :
    Takes r (lineEnd (limit size) r.unread) (r.readline size) := by
  obtain ⟨r', heq, hfed, hleft⟩ := readlineLoop_spec h (limit size) r.buffer
  have heq : r.readline size = _ := heq
  rw [heq]
  exact ⟨hfed, rfl, hleft⟩

end Calls

end ChannelReader

/-! ## The two readers side by side -/

namespace BytesIo

variable {b : BytesIo} {size : Int}

theorem limit_le (b : BytesIo) (size : Int) : b.limit size ≤ b.rest.length := by
  rw [limit]
  split
  · omega
  · exact Nat.le_refl _

theorem limit_of_neg (h : size < 0) : b.limit size = b.rest.length := if_neg (by omega)

theorem limit_of_nonneg (h : 0 ≤ size) : b.limit size = min size.toNat b.rest.length := by
  rw [limit]
  split
  · omega
  · omega

theorem scanEol_eq (b : BytesIo) (size : Int) : b.scanEol size =
    if size < 0 then lineLength b.rest else min size.toNat (lineLength b.rest) := by
  have hle := lineLength_le b.rest
  rw [scanEol, lineLength_take]
  split
  · rename_i hneg
    rw [limit_of_neg hneg]
    omega
  · rename_i hnonneg
    rw [limit_of_nonneg (by omega)]
    omega

/-- The same bytes are to be read. -/
structure Alike (b : BytesIo) (r : ChannelReader) : Prop where
  fed : ChannelReader.Fed r.eof r.channel
  same : r.unread = b.rest

variable {r : ChannelReader}

theorem read_alike (h : b.Alike r) (hsize : FitsSsize size) :
    ∃ b', b.read size = (.ok (r.read size).1, b') ∧ b'.Alike (r.read size).2 := by
  have ht := ChannelReader.takes_read h.fed size
  have hcut : ∀ bs : Bytes, bs = b.rest → bs.take (if size < 0 then bs.length else size.toNat) =
      b.rest.take (b.limit size) ∧
      bs.drop (if size < 0 then bs.length else size.toNat) = b.rest.drop (b.limit size) := by
    rintro bs rfl
    split
    · rename_i hneg
      rw [limit_of_neg hneg]
      exact ⟨rfl, rfl⟩
    · rename_i hnonneg
      rw [limit_of_nonneg (by omega)]
      rcases Nat.le_total size.toNat b.rest.length with hle | hle
      · rw [Nat.min_eq_left hle]
        exact ⟨rfl, rfl⟩
      · rw [Nat.min_eq_right hle, List.take_of_length_le hle, List.drop_of_length_le hle, List.take_length,
          List.drop_length]
        exact ⟨rfl, rfl⟩
  obtain ⟨htake, hdrop⟩ := hcut r.unread h.same
  refine ⟨⟨b.rest.drop (b.limit size)⟩, ?_, ht.fed, ht.left.trans hdrop⟩
  rw [read, if_pos hsize, ht.taken, htake]

/-- A `readline` of at most 0 bytes reads nothing, and of 0 bytes over a channel
a whole line. -/
theorem lineEnd_eq_scanEol {size : Option Int} (h : r.unread = b.rest) : ChannelReader.lineEnd
    (ChannelReader.limit size) r.unread = b.scanEol (size.getD (-1)) ↔ size = some 0 → b.rest = [] := by
  rw [h, scanEol_eq]
  cases size with
  | none => exact ⟨fun _ hz => (by cases hz), fun _ => rfl⟩
  | some n =>
    rcases lt_trichotomy n 0 with hneg | rfl | hpos
    · rw [ChannelReader.limit, Option.filter_some, if_neg (by simpa using hneg.le), Option.getD_some, if_pos hneg]
      refine ⟨fun _ hz => ?_, fun _ => rfl⟩
      rw [Option.some_inj.1 hz] at hneg
      exact absurd hneg (lt_irrefl 0)
    · show lineLength b.rest = min 0 (lineLength b.rest) ↔ _
      rw [Nat.zero_min]
      refine ⟨fun hzero _ => ?_, fun hnil => ?_⟩
      · by_contra hne
        exact absurd hzero (Nat.ne_of_gt (lineLength_pos hne))
      · rw [hnil rfl, lineLength]
    · rw [ChannelReader.limit, Option.filter_some, if_pos (by simpa using hpos), Option.getD_some, if_neg hpos.not_gt]
      refine ⟨fun _ hz => ?_, fun _ => rfl⟩
      rw [Option.some_inj.1 hz] at hpos
      exact absurd hpos (lt_irrefl 0)

theorem readline_alike {size : Option Int} (h : b.Alike r) (hsize : FitsSsize (size.getD (-1)))
    (hzero : size = some 0 → b.rest = []) :
    ∃ b', b.readline (size.getD (-1)) = (.ok (r.readline size).1, b') ∧ b'.Alike (r.readline size).2 := by
  have ht := ChannelReader.takes_readline h.fed size
  rw [(lineEnd_eq_scanEol h.same).2 hzero] at ht
  refine ⟨⟨b.rest.drop (b.scanEol (size.getD (-1)))⟩, ?_, ht.fed, ht.left.trans (by rw [h.same])⟩
  rw [readline, if_pos hsize, ht.taken, h.same]

theorem total_snoc (lines : List Bytes) (line : Bytes) : ((lines ++ [line]).map List.length).foldr (· + ·) 0 =
    (lines.map List.length).foldr (· + ·) 0 + line.length := by
  induction lines with
  | nil => simp
  | cons l lines ih =>
    simp only [List.cons_append, List.map_cons, List.foldr_cons] at ih ⊢
    omega

theorem readlinesLoop_alike (hint : Int) (b : BytesIo) : ∀ (lines : List Bytes) (size : Nat) (r : ChannelReader),
    b.Alike r → (lines.map List.length).foldr (· + ·) 0 = size →
    (b.readlinesLoop hint lines size).1 = (r.readlinesLoop hint lines).1 ∧
      (b.readlinesLoop hint lines size).2.Alike (r.readlinesLoop hint lines).2 := by
  induction hn : b.rest.length using Nat.strong_induction_on generalizing b with
  | _ n ih =>
    intro lines size r h hsize
    have ht := ChannelReader.takes_readline h.fed (some (-1))
    have hend : ChannelReader.lineEnd (ChannelReader.limit (some (-1))) r.unread = b.scanEol (-1) :=
      (lineEnd_eq_scanEol h.same).2 fun heq => by cases heq
    rw [hend] at ht
    have hscan : b.scanEol (-1) = lineLength b.rest := by rw [scanEol_eq, if_pos (by decide)]
    have hle := lineLength_le b.rest
    have htaken : (r.readline (some (-1))).1 = b.rest.take (b.scanEol (-1)) := by rw [ht.taken, h.same]
    have halike : BytesIo.Alike ⟨b.rest.drop (b.scanEol (-1))⟩ (r.readline (some (-1))).2 :=
      ⟨ht.fed, ht.left.trans (by rw [h.same])⟩
    rw [readlinesLoop, ChannelReader.readlinesLoop]
    by_cases hnil : b.rest = []
    · have hline : (r.readline (some (-1))).1 = [] := by rw [htaken, hnil, List.take_nil]
      rw [if_pos (by rw [hscan, hnil, lineLength]), if_pos hline]
      refine ⟨rfl, halike.fed, halike.same.trans ?_⟩
      rw [hnil, List.drop_nil]
    · have hpos := lineLength_pos hnil
      have hline : (r.readline (some (-1))).1 ≠ [] := by
        rw [htaken, ne_eq, List.take_eq_nil_iff, not_or]
        exact ⟨by omega, hnil⟩
      have hlen : (b.rest.take (b.scanEol (-1))).length = b.scanEol (-1) := by
        rw [List.length_take]
        omega
      have htotal : ((lines ++ [b.rest.take (b.scanEol (-1))]).map List.length).foldr (· + ·) 0 =
          size + b.scanEol (-1) := by
        rw [total_snoc, hsize, hlen]
      rw [if_neg (by omega), if_neg hline]
      dsimp only
      rw [htaken, htotal]
      by_cases hstop : 0 < hint ∧ hint ≤ ((size + b.scanEol (-1) : Nat) : Int)
      · rw [if_pos hstop, if_pos hstop]
        exact ⟨rfl, halike⟩
      · rw [if_neg hstop, if_neg hstop]
        refine ih _ ?_ _ rfl _ _ _ halike htotal
        rw [List.length_drop]
        omega

end BytesIo

/-- No byte is lost. -/
theorem ChannelReader.readlinesLoop_append (hint : Int) (r : ChannelReader) : ∀ lines : List Bytes,
    (r.readlinesLoop hint lines).1.flatten ++ (r.readlinesLoop hint lines).2.unread = lines.flatten ++ r.unread := by
  induction hn : r.unread.length using Nat.strong_induction_on generalizing r with
  | _ n ih =>
    intro lines
    have happend : (r.readline (some (-1))).1 ++ (r.readline (some (-1))).2.unread = r.unread :=
      readlineLoop_append none r.buffer r.eof r.channel
    rw [readlinesLoop]
    by_cases hnil : (r.readline (some (-1))).1 = []
    · rw [if_pos hnil]
      rw [hnil] at happend
      exact congrArg (lines.flatten ++ ·) happend
    · have hpos := List.length_pos_iff.2 hnil
      have hlen := congrArg List.length happend
      rw [List.length_append] at hlen
      have hsnoc : (lines ++ [(r.readline (some (-1))).1]).flatten ++ (r.readline (some (-1))).2.unread =
          lines.flatten ++ r.unread := by
        rw [List.flatten_append, List.flatten_singleton, List.append_assoc, happend]
      rw [if_neg hnil]
      dsimp only
      split
      · exact hsnoc
      · rw [ih _ (by omega) _ rfl]
        exact hsnoc

/-- A buffer of an application, whose length is a `Py_ssize_t`. -/
structure ByteArrayBuffer where
  contents : Bytes
  fits : contents.length < 2 ^ 63

/-- A `SyncStreamReader` has a `BytesIo` unless it has a channel. -/
inductive SyncStreamReader
  | buffered (bio : BytesIo)
  | streaming (r : ChannelReader)
deriving DecidableEq

namespace SyncStreamReader

/-- `SyncStreamReader(data, channel)`. -/
def new (data : Option Bytes) (channel : Option (List Bytes)) : SyncStreamReader :=
  match channel with
  | some channel => .streaming ⟨data.getD [], channel, false⟩
  | none => .buffered ⟨data.getD []⟩

def read (s : SyncStreamReader) (size : Int) : Except PyError Bytes × SyncStreamReader :=
  match s with
  | .buffered bio => ((bio.read size).1, .buffered (bio.read size).2)
  | .streaming r => (.ok (r.read size).1, .streaming (r.read size).2)

def readinto (s : SyncStreamReader) (b : ByteArrayBuffer) : Except PyError (Nat × Bytes) × SyncStreamReader :=
  match s.read b.contents.length with
  | (.ok data, s) => (.ok (data.length, data ++ b.contents.drop data.length), s)
  | (.error e, s) => (.error e, s)

def readline (s : SyncStreamReader) (size : Option Int) : Except PyError Bytes × SyncStreamReader :=
  match s with
  | .buffered bio => ((bio.readline (size.getD (-1))).1, .buffered (bio.readline (size.getD (-1))).2)
  | .streaming r => (.ok (r.readline size).1, .streaming (r.readline size).2)

def readlines (s : SyncStreamReader) (hint : Int) : Except PyError (List Bytes) × SyncStreamReader :=
  match s with
  | .buffered bio => ((bio.readlines hint).1, .buffered (bio.readlines hint).2)
  | .streaming r => (.ok (r.readlines hint).1, .streaming (r.readlines hint).2)

/-- `__next__`. -/
def next (s : SyncStreamReader) : Except PyError Bytes × SyncStreamReader :=
  match s.readline (some (-1)) with
  | (.ok line, s) => (if line = [] then .error .stopIteration else .ok line, s)
  | (.error e, s) => (.error e, s)

/-- The bytes that are still to be read. -/
def unread : SyncStreamReader → Bytes
  | .buffered bio => bio.rest
  | .streaming r => r.unread

inductive Call
  | read (size : Int)
  | readline (size : Option Int)
  | readlines (hint : Int)
  | next
  | readinto (b : ByteArrayBuffer)

inductive Reply
  | bytes (data : Bytes)
  | lines (ls : List Bytes)
  /-- The number of bytes read, and the buffer. -/
  | filled (n : Nat) (contents : Bytes)
  | raised (e : PyError)
deriving DecidableEq

/-- The bytes of the body that a call returned. -/
def Reply.data : Reply → Bytes
  | .bytes data => data
  | .lines ls => ls.flatten
  | .filled n contents => contents.take n
  | .raised _ => []

/-- What a call returns or raises. -/
def Reply.of {β : Type} (f : β → Reply) : Except PyError β → Reply
  | .ok res => f res
  | .error e => .raised e

def call (s : SyncStreamReader) : Call → Reply × SyncStreamReader
  | .read size => (.of .bytes (s.read size).1, (s.read size).2)
  | .readline size => (.of .bytes (s.readline size).1, (s.readline size).2)
  | .readlines hint => (.of .lines (s.readlines hint).1, (s.readlines hint).2)
  | .next => (.of .bytes s.next.1, s.next.2)
  | .readinto b => (.of (fun res => .filled res.1 res.2) (s.readinto b).1, (s.readinto b).2)

def calls : SyncStreamReader → List Call → List Reply × SyncStreamReader
  | s, [] => ([], s)
  | s, c :: cs => ((s.call c).1 :: ((s.call c).2.calls cs).1, ((s.call c).2.calls cs).2)

/-- The condition on a call, with `unread` to be read: its integer is a
`Py_ssize_t`, and it is no `readline(0)` before the end. -/
def Call.Proper (unread : Bytes) : Call → Prop
  | .read size => FitsSsize size
  | .readline size => FitsSsize (size.getD (-1)) ∧ (size = some 0 → unread = [])
  | .readlines hint => FitsSsize hint
  | .next | .readinto _ => True

def AllProper : SyncStreamReader → List Call → Prop
  | _, [] => True
  | s, c :: cs => c.Proper s.unread ∧ (s.call c).2.AllProper cs

section Steps

variable {b b' : BytesIo} {r r' : ChannelReader} {cs : List Call}

theorem fitsSsize_length (b : ByteArrayBuffer) : FitsSsize b.contents.length := by
  have hfits := b.fits
  unfold FitsSsize
  omega

/-- A call that is proper returns the same from both readers, and leaves them
with the same bytes. -/
theorem call_alike (h : b.Alike r) {c : Call} (hc : c.Proper b.rest) : ∃ reply b' r',
    (buffered b).call c = (reply, .buffered b') ∧ (streaming r).call c = (reply, .streaming r') ∧ b'.Alike r' := by
  cases c with
  | read size =>
    obtain ⟨b', heq, hb'⟩ := BytesIo.read_alike h hc
    refine ⟨_, b', (r.read size).2, ?_, rfl, hb'⟩
    show (Reply.of Reply.bytes (b.read size).1, buffered (b.read size).2) = _
    rw [heq]
    rfl
  | readline size =>
    obtain ⟨b', heq, hb'⟩ := BytesIo.readline_alike h hc.1 hc.2
    refine ⟨_, b', (r.readline size).2, ?_, rfl, hb'⟩
    show (Reply.of Reply.bytes (b.readline (size.getD (-1))).1, buffered (b.readline (size.getD (-1))).2) = _
    rw [heq]
    rfl
  | readlines hint =>
    have hfits : FitsSsize hint := hc
    obtain ⟨hlines, hb'⟩ := BytesIo.readlinesLoop_alike hint b [] 0 r h rfl
    refine ⟨_, (b.readlinesLoop hint [] 0).2, (r.readlinesLoop hint []).2, ?_, rfl, hb'⟩
    show (Reply.of Reply.lines (b.readlines hint).1, buffered (b.readlines hint).2) =
      (Reply.lines (r.readlinesLoop hint []).1, _)
    rw [BytesIo.readlines, if_pos hfits, ← hlines]
    rfl
  | next =>
    obtain ⟨b', heq, hb'⟩ := BytesIo.readline_alike h (show FitsSsize ((some (-1)).getD (-1)) by decide)
      fun hz => by cases hz
    have hbuf : (buffered b).readline (some (-1)) = (.ok (r.readline (some (-1))).1, .buffered b') := by
      show ((b.readline (-1)).1, buffered (b.readline (-1)).2) = _
      rw [show b.readline (-1) = _ from heq]
    refine ⟨_, b', (r.readline (some (-1))).2, ?_, rfl, hb'⟩
    show (Reply.of Reply.bytes (buffered b).next.1, (buffered b).next.2) = _
    rw [next, hbuf]
    rfl
  | readinto buf =>
    obtain ⟨b', heq, hb'⟩ := BytesIo.read_alike h (fitsSsize_length buf)
    have hbuf : (buffered b).read buf.contents.length = (.ok (r.read buf.contents.length).1, .buffered b') := by
      show ((b.read _).1, buffered (b.read _).2) = _
      rw [heq]
    refine ⟨_, b', (r.read buf.contents.length).2, ?_, rfl, hb'⟩
    show (Reply.of _ ((buffered b).readinto buf).1, ((buffered b).readinto buf).2) = _
    rw [readinto, hbuf]
    rfl

/-- Any other call does not. -/
theorem proper_of_reply (h : b.Alike r) {c : Call}
    (heq : ((streaming r).call c).1 = ((buffered b).call c).1) : c.Proper b.rest := by
  cases c with
  | read size =>
    by_contra hfits
    have hfits : ¬ FitsSsize size := hfits
    have heq : Reply.bytes (r.read size).1 = Reply.of Reply.bytes (b.read size).1 := heq
    rw [BytesIo.read, if_neg hfits] at heq
    cases heq
  | readline size =>
    have heq : Reply.bytes (r.readline size).1 = Reply.of Reply.bytes (b.readline (size.getD (-1))).1 := heq
    by_cases hfits : FitsSsize (size.getD (-1))
    · refine ⟨hfits, (BytesIo.lineEnd_eq_scanEol h.same).1 ?_⟩
      rw [BytesIo.readline, if_pos hfits, (ChannelReader.takes_readline h.fed size).taken, h.same] at heq
      have hlen := congrArg List.length (Reply.bytes.inj heq)
      have hle := Nat.le_trans (ChannelReader.lineEnd_le (ChannelReader.limit size) b.rest) (lineLength_le b.rest)
      have hle' : b.scanEol (size.getD (-1)) ≤ b.rest.length := by
        rw [BytesIo.scanEol, lineLength_take]
        exact Nat.le_trans (Nat.min_le_left _ _) (b.limit_le _)
      rw [List.length_take, List.length_take, Nat.min_eq_left hle, Nat.min_eq_left hle'] at hlen
      rw [h.same]
      exact hlen
    · rw [BytesIo.readline, if_neg hfits] at heq
      cases heq
  | readlines hint =>
    by_contra hfits
    have hfits : ¬ FitsSsize hint := hfits
    have heq : Reply.lines (r.readlines hint).1 = Reply.of Reply.lines (b.readlines hint).1 := heq
    rw [BytesIo.readlines, if_neg hfits] at heq
    cases heq
  | next => trivial
  | readinto buf => trivial

/-- The replies of a whole run. -/
theorem calls_alike_iff (cs : List Call) : ∀ {b : BytesIo} {r : ChannelReader}, b.Alike r →
    (((streaming r).calls cs).1 = ((buffered b).calls cs).1 ↔ (buffered b).AllProper cs) := by
  induction cs with
  | nil => exact fun _ => ⟨fun _ => trivial, fun _ => rfl⟩
  | cons c cs ih =>
    intro b r h
    show (_ :: _ = _ :: _) ↔ c.Proper b.rest ∧ _
    constructor
    · intro heq
      have hc := proper_of_reply h (List.cons.inj heq).1
      obtain ⟨reply, b', r', hb, hr, h'⟩ := call_alike h hc
      have htail := (List.cons.inj heq).2
      rw [hb, hr] at htail
      rw [hb]
      exact ⟨hc, (ih h').1 htail⟩
    · rintro ⟨hc, hcs⟩
      obtain ⟨reply, b', r', hb, hr, h'⟩ := call_alike h hc
      rw [hb] at hcs
      rw [hb, hr, (ih h').2 hcs]

/-- What a call over a channel returns is a function of the bytes that are still
to be read, of which it takes those that it returns. -/
theorem call_streaming (b : BytesIo) (c : Call) : ∃ (reply : Reply) (b' : BytesIo), reply.data ++ b'.rest = b.rest ∧
    ∀ r, b.Alike r → ∃ r', (streaming r).call c = (reply, .streaming r') ∧ b'.Alike r' := by
  cases c with
  | read size =>
    refine ⟨.bytes (b.rest.take (if size < 0 then b.rest.length else size.toNat)),
      ⟨b.rest.drop (if size < 0 then b.rest.length else size.toNat)⟩, List.take_append_drop _ _, fun r h => ?_⟩
    have ht := ChannelReader.takes_read h.fed size
    rw [h.same] at ht
    refine ⟨(r.read size).2, ?_, ht.fed, ht.left.trans (by rw [h.same])⟩
    show (Reply.bytes (r.read size).1, _) = _
    rw [ht.taken, h.same]
    rfl
  | readline size =>
    refine ⟨.bytes (b.rest.take (ChannelReader.lineEnd (ChannelReader.limit size) b.rest)),
      ⟨b.rest.drop (ChannelReader.lineEnd (ChannelReader.limit size) b.rest)⟩,
      List.take_append_drop _ _, fun r h => ?_⟩
    have ht := ChannelReader.takes_readline h.fed size
    rw [h.same] at ht
    refine ⟨(r.readline size).2, ?_, ht.fed, ht.left.trans (by rw [h.same])⟩
    show (Reply.bytes (r.readline size).1, _) = _
    rw [ht.taken, h.same]
    rfl
  | readlines hint =>
    refine ⟨.lines (b.readlinesLoop hint [] 0).1, (b.readlinesLoop hint [] 0).2, ?_, fun r h => ?_⟩
    · have hover : b.Alike ⟨b.rest, [], true⟩ := ⟨.finished, List.append_nil _⟩
      obtain ⟨hlines, hb'⟩ := BytesIo.readlinesLoop_alike hint b [] 0 _ hover rfl
      have happend := ChannelReader.readlinesLoop_append hint ⟨b.rest, [], true⟩ []
      rw [← hlines, hb'.same, hover.same] at happend
      exact happend
    · obtain ⟨hlines, hb'⟩ := BytesIo.readlinesLoop_alike hint b [] 0 r h rfl
      refine ⟨(r.readlinesLoop hint []).2, ?_, hb'⟩
      rw [hlines]
      rfl
  | next =>
    refine ⟨if b.rest.take (lineLength b.rest) = [] then .raised .stopIteration else
      .bytes (b.rest.take (lineLength b.rest)), ⟨b.rest.drop (lineLength b.rest)⟩, ?_, fun r h => ?_⟩
    · split
      · rename_i hnil
        have happend := List.take_append_drop (lineLength b.rest) b.rest
        rwa [hnil] at happend
      · exact List.take_append_drop _ _
    · have ht := ChannelReader.takes_readline h.fed (some (-1))
      have hend : ChannelReader.lineEnd (ChannelReader.limit (some (-1))) r.unread = lineLength b.rest := by
        rw [h.same]
        rfl
      rw [hend] at ht
      refine ⟨(r.readline (some (-1))).2, ?_, ht.fed, ht.left.trans (by rw [h.same])⟩
      show (Reply.of Reply.bytes (if (r.readline (some (-1))).1 = [] then .error .stopIteration else
        .ok (r.readline (some (-1))).1), _) = _
      rw [ht.taken, h.same]
      split
      · rfl
      · rfl
  | readinto buf =>
    refine ⟨.filled (b.rest.take buf.contents.length).length (b.rest.take buf.contents.length ++
      buf.contents.drop (b.rest.take buf.contents.length).length), ⟨b.rest.drop buf.contents.length⟩, ?_, fun r h => ?_⟩
    · show List.take (b.rest.take buf.contents.length).length (_ ++ _) ++ _ = _
      rw [List.take_left]
      exact List.take_append_drop _ _
    · have ht := ChannelReader.takes_read h.fed buf.contents.length
      rw [if_neg (by omega), Int.toNat_natCast] at ht
      refine ⟨(r.read buf.contents.length).2, ?_, ht.fed, ht.left.trans (by rw [h.same])⟩
      show (Reply.filled (r.read buf.contents.length).1.length ((r.read buf.contents.length).1 ++
        buf.contents.drop (r.read buf.contents.length).1.length), _) = _
      rw [ht.taken, h.same]
      rfl

theorem calls_streaming (cs : List Call) : ∀ b : BytesIo, ∃ (replies : List Reply) (b' : BytesIo),
    (replies.map Reply.data).flatten ++ b'.rest = b.rest ∧
    ∀ r, b.Alike r → ∃ r', (streaming r).calls cs = (replies, .streaming r') ∧ b'.Alike r' := by
  induction cs with
  | nil => exact fun b => ⟨[], b, rfl, fun r h => ⟨r, rfl, h⟩⟩
  | cons c cs ih =>
    intro b
    obtain ⟨reply, b₁, hdata, hcall⟩ := call_streaming b c
    obtain ⟨replies, b', hrest, hcalls⟩ := ih b₁
    refine ⟨reply :: replies, b', ?_, fun r h => ?_⟩
    · rw [List.map_cons, List.flatten_cons, List.append_assoc, hrest, hdata]
    · obtain ⟨r₁, heq, h₁⟩ := hcall r h
      obtain ⟨r', heq', h'⟩ := hcalls r₁ h₁
      refine ⟨r', ?_, h'⟩
      show (_ :: _, _) = _
      rw [heq, heq']

/-- A `readline` over a channel returns one line at most. -/
theorem newline_last_of_readline (h : b.Alike r) {size : Option Int} {line : Bytes}
    (heq : ((streaming r).call (.readline size)).1 = .bytes line) : 10 ∉ line.dropLast := by
  have hline : (r.readline size).1 = line := Reply.bytes.inj heq
  rw [← hline, (ChannelReader.takes_readline h.fed size).taken]
  exact newline_last _ _ (ChannelReader.lineEnd_le _ _)

end Steps

/-- The feeder's chunks and the end marker are still to come. -/
theorem alike_new {chunks : List Bytes} (h : [] ∉ chunks) (initial : Bytes) :
    BytesIo.Alike ⟨initial ++ chunks.flatten⟩ ⟨initial, chunks ++ [[]], false⟩ := by
  refine ⟨?_, by simp [ChannelReader.unread]⟩
  show ChannelReader.Fed false (chunks ++ [[]])
  induction chunks with
  | nil => exact .marker
  | cons c chunks ih =>
    rw [List.mem_cons, not_or] at h
    exact .chunk (Ne.symm h.1) (ih h.2)

/-- The reader over a channel returns what the reader over the whole body
returns, to every call up to the last, exactly when no `readline(0)` is made
before the end and every integer is a `Py_ssize_t`. In any case its replies do
not depend on the chunks, no byte is lost or repeated, and no `readline` goes
past a newline. -/
theorem streaming_eq_buffered_iff (initial : Bytes) (chunks : List Bytes) (hchunks : [] ∉ chunks) (cs : List Call) :
    (((new (some initial) (some (chunks ++ [[]]))).calls cs).1 =
        ((new (some (initial ++ chunks.flatten)) none).calls cs).1 ↔
      (new (some (initial ++ chunks.flatten)) none).AllProper cs) ∧
    (∀ initial' chunks', [] ∉ chunks' → initial' ++ chunks'.flatten = initial ++ chunks.flatten →
      ((new (some initial') (some (chunks' ++ [[]]))).calls cs).1 =
        ((new (some initial) (some (chunks ++ [[]]))).calls cs).1) ∧
    (((new (some initial) (some (chunks ++ [[]]))).calls cs).1.map Reply.data).flatten ++
        ((new (some initial) (some (chunks ++ [[]]))).calls cs).2.unread = initial ++ chunks.flatten ∧
    ∀ size line, (((new (some initial) (some (chunks ++ [[]]))).calls cs).2.call (.readline size)).1 = .bytes line →
      10 ∉ line.dropLast := by
  have h := alike_new hchunks initial
  obtain ⟨replies, b', hdata, hcalls⟩ := calls_streaming cs ⟨initial ++ chunks.flatten⟩
  obtain ⟨r', heq, h'⟩ := hcalls _ h
  have heq : (new (some initial) (some (chunks ++ [[]]))).calls cs = (replies, .streaming r') := heq
  refine ⟨calls_alike_iff cs h, fun initial' chunks' hchunks' hbody => ?_, ?_, fun size line hline => ?_⟩
  · have h₂ := alike_new hchunks' initial'
    rw [hbody] at h₂
    obtain ⟨r₂, heq₂, -⟩ := hcalls _ h₂
    have heq₂ : (new (some initial') (some (chunks' ++ [[]]))).calls cs = (replies, .streaming r₂) := heq₂
    rw [heq, heq₂]
  · rw [heq]
    show (replies.map Reply.data).flatten ++ r'.unread = _
    rw [h'.same]
    exact hdata
  · rw [heq] at hline
    exact newline_last_of_readline h' hline

/-- The body `"ab\nc"` in three parts. -/
theorem streaming_eq_buffered_lines :
    (new (some [97, 98, 10, 99]) none).AllProper [.readline (some 2), .readline none, .read (-1)] ∧
    ((new (some [97]) (some ([[98], [10, 99]] ++ [[]]))).calls [.readline (some 2), .readline none, .read (-1)]).1 =
      ((new (some ([97] ++ [[98], [10, 99]].flatten)) none).calls
        [.readline (some 2), .readline none, .read (-1)]).1 :=
  have hproper : (new (some [97, 98, 10, 99]) none).AllProper [.readline (some 2), .readline none, .read (-1)] :=
    ⟨⟨by decide, fun h => by cases h⟩, ⟨by decide, fun h => by cases h⟩, show FitsSsize (-1) by decide, trivial⟩
  ⟨hproper, (streaming_eq_buffered_iff [97] [[98], [10, 99]] (by decide)
    [.readline (some 2), .readline none, .read (-1)]).1.2 hproper⟩

/-- `readline(0)` over a channel returns a line. -/
theorem readline_zero_differs :
    ((new (some [97]) (some ([[98, 10]] ++ [[]]))).calls [.readline (some 0)]).1 = [.bytes [97, 98, 10]] ∧
    ((new (some [97, 98, 10]) none).calls [.readline (some 0)]).1 = [.bytes []] := by
  decide +kernel

end SyncStreamReader

end Multiloop.Http
