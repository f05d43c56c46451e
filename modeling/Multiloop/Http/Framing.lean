import Multiloop.Http.Bounds
import Multiloop.Http.Fields

/-!
# The framing of a request

Which body a request head announces: the decision that the round takes that
reads the head, and the decision by the grammar of HTTP, in which numbers have
no end. They are the same unless one of three kinds of header fields occurs
(`Misread`).
-/

namespace Multiloop.Http

inductive Decision
  | rejected
  | chunked
  | sized (n : Nat)
  | noBody
deriving DecidableEq

/-- The values of the fields of one name. -/
def values (name : String) (headers : List Header) : List Bytes :=
  (headers.filter fun h => lowercase h.name = bytes name).map Header.value

/-- The decision by the grammar. -/
def reference (maxBodySize : Nat) (headers : List Header) : Decision :=
  let lengths := (values "content-length" headers).map number?
  let codings := values "transfer-encoding" headers
  if none ∈ lengths ∨ (∃ a ∈ lengths, ∃ b ∈ lengths, a ≠ b) ∨ (lengths ≠ [] ∧ codings ≠ []) ∨
      (∃ v ∈ codings, lastIsChunked v = false) ∨ (∃ a ∈ lengths, a.any (· > maxBodySize) = true) then
    .rejected
  else if codings ≠ [] then .chunked
  else match lengths with
    | some (n + 1) :: _ => .sized (n + 1)
    | _ => .noBody

/-- The decision that a round has taken, from the state and the events after
it. -/
def decision (state : HttpParserState) (events : List Event) : Option Decision :=
  match state, events with
  | .closed, [.error status _] => if status = 400 ∨ status = 413 then some .rejected else none
  | .receivingChunked .readingSize, [.requestStart start] => if start.hasBody then some .chunked else none
  | .servingApp, [.requestStart start] => if start.hasBody then none else some .noBody
  | .servingApp, [.requestStart start, .body chunk false] => if start.hasBody then some (.sized chunk.length) else none
  | .receivingContentLength remaining, [.requestStart start] =>
    if start.hasBody then some (.sized remaining) else none
  | .receivingContentLength remaining, [.requestStart start, .body chunk true] =>
    if start.hasBody then some (.sized (chunk.length + remaining)) else none
  | _, _ => none

/-- The header fields of which `http.rs` makes something else. -/
inductive Misread (maxBodySize : Nat) (headers : List Header) : Prop
  /-- White space other than spaces and tabs around a last coding. -/
  | coding (hcl : values "content-length" headers = [])
      (hte : ∀ v ∈ values "transfer-encoding" headers, endsChunked trim v = true)
      (hodd : ∃ v ∈ values "transfer-encoding" headers, lastIsChunked v = false)
  /-- Bytes that are no UTF-8 before a last coding. -/
  | utf8 (hcl : values "content-length" headers = [])
      (hte : ∀ v ∈ values "transfer-encoding" headers, lastIsChunked v = true)
      (hodd : ∃ v ∈ values "transfer-encoding" headers, fromUtf8 v = none)
  /-- A number that is no `isize`, or that is within the limit and has a sign
  or other white space. -/
  | length (hte : values "transfer-encoding" headers = []) (n : Nat)
      (hcl : values "content-length" headers ≠ [])
      (hlen : ∀ v ∈ values "content-length" headers, parseContentLength v = some n)
      (hodd : 2 ^ 63 ≤ n ∨ n ≤ maxBodySize ∧ ∃ v ∈ values "content-length" headers, number? v = none)

/-! ## The header fields -/

/-- What the loop over the header fields has found in the values that it has
read. -/
structure Folded (f : HeaderFold) (lengths codings : List Bytes) : Prop where
  teCount : f.teCount = codings.length
  isChunked : f.isChunked = codings.any (endsChunked trim)
  conflict : f.clConflict = true → (∃ v ∈ codings, endsChunked trim v = false) ∨
    (∃ v ∈ lengths, parseContentLength v = none) ∨
    ∃ v ∈ lengths, ∃ v' ∈ lengths, parseContentLength v ≠ parseContentLength v'
  agree : f.clConflict = false → (∀ v ∈ codings, endsChunked trim v = true) ∧
    ((lengths = [] ∧ f.hasCl = false ∧ f.contentLength = -1) ∨
      ∃ n, lengths ≠ [] ∧ (∀ v ∈ lengths, parseContentLength v = some n) ∧ f.hasCl = true ∧
        f.contentLength = asIsize n)

theorem asIsize_inj {a b : Nat} (ha : a < 2 ^ 64) (hb : b < 2 ^ 64) (h : asIsize a = asIsize b) : a = b := by
  unfold asIsize at h
  split at h <;> split at h <;> omega

theorem parseContentLength_lt {v : Bytes} {n : Nat} (h : parseContentLength v = some n) : n < 2 ^ 64 := by
  obtain ⟨s, -, hs⟩ := Option.bind_eq_some_iff.1 h
  exact fromStrRadix_lt hs

namespace Folded

variable {f : HeaderFold} {lengths codings : List Bytes}

/-- A conflict stays one. -/
theorem conflict_mono (h : Folded f lengths codings) (hc : f.clConflict = true) (ls cs : List Bytes) :
    (∃ v ∈ codings ++ cs, endsChunked trim v = false) ∨
    (∃ v ∈ lengths ++ ls, parseContentLength v = none) ∨
    ∃ v ∈ lengths ++ ls, ∃ v' ∈ lengths ++ ls, parseContentLength v ≠ parseContentLength v' := by
  rcases h.conflict hc with ⟨v, hv, hodd⟩ | ⟨v, hv, hnone⟩ | ⟨v, hv, v', hv', hne⟩
  · exact .inl ⟨v, List.mem_append_left _ hv, hodd⟩
  · exact .inr (.inl ⟨v, List.mem_append_left _ hv, hnone⟩)
  · exact .inr (.inr ⟨v, List.mem_append_left _ hv, v', List.mem_append_left _ hv', hne⟩)

theorem contentLengthField (h : Folded f lengths codings) (value : Bytes) :
    Folded (f.contentLengthField value) (lengths ++ [value]) codings := by
  have hlast : value ∈ lengths ++ [value] := List.mem_append_right _ (.head _)
  unfold HeaderFold.contentLengthField
  cases hp : parseContentLength value with
  | none => exact ⟨h.teCount, h.isChunked, fun _ => .inr (.inl ⟨value, hlast, hp⟩), nofun⟩
  | some val =>
    dsimp only
    split
    · rename_i hdiff
      refine ⟨h.teCount, h.isChunked, fun _ => ?_, nofun⟩
      cases hc : f.clConflict with
      | true => simpa using h.conflict_mono hc [value] []
      | false =>
        rcases (h.agree hc).2 with ⟨-, hcl, -⟩ | ⟨n, hne, hall, -, hlen⟩
        · rw [hcl] at hdiff
          exact absurd hdiff.1 Bool.false_ne_true
        · obtain ⟨v, hv⟩ := List.exists_mem_of_ne_nil _ hne
          refine .inr (.inr ⟨value, hlast, v, List.mem_append_left _ hv, fun heq => hdiff.2 ?_⟩)
          rw [hp, hall v hv] at heq
          rw [hlen, Option.some.inj heq]
    · rename_i hsame
      refine ⟨h.teCount, h.isChunked, fun hc => by simpa using h.conflict_mono hc [value] [], fun hc => ?_⟩
      obtain ⟨hcodings, hcl⟩ := h.agree hc
      refine ⟨hcodings, .inr ⟨val, List.append_ne_nil_of_right_ne_nil _ (List.cons_ne_nil _ _), fun v hv => ?_,
        rfl, rfl⟩⟩
      rcases List.mem_append.1 hv with hv | hv
      · rcases hcl with ⟨hnil, -, -⟩ | ⟨n, -, hall, hhas, hlen⟩
        · rw [hnil] at hv
          cases hv
        · have heq : asIsize val = asIsize n := by
            by_contra hne
            exact hsame ⟨hhas, hlen ▸ hne⟩
          rw [hall v hv, asIsize_inj (parseContentLength_lt hp) (parseContentLength_lt (hall v hv)) heq]
      · rw [List.mem_singleton.1 hv]
        exact hp

theorem transferEncodingField (h : Folded f lengths codings) (value : Bytes) :
    Folded (f.transferEncodingField value) lengths (codings ++ [value]) := by
  have hcount : f.teCount + 1 = (codings ++ [value]).length := by rw [h.teCount, List.length_append]; rfl
  unfold HeaderFold.transferEncodingField
  split
  · rename_i hchunked
    refine ⟨hcount, ?_, fun hc => by simpa using h.conflict_mono hc [] [value], fun hc => ?_⟩
    · rw [List.any_append, List.any_cons, hchunked, Bool.true_or, Bool.or_true]
    · obtain ⟨hcodings, hcl⟩ := h.agree hc
      refine ⟨fun v hv => ?_, hcl⟩
      rcases List.mem_append.1 hv with hv | hv
      · exact hcodings v hv
      · rw [List.mem_singleton.1 hv]
        exact hchunked
  · rename_i hodd
    have hodd' : endsChunked trim value = false := by simpa using hodd
    refine ⟨hcount, ?_, fun _ => .inl ⟨value, List.mem_append_right _ (.head _), hodd'⟩, nofun⟩
    rw [List.any_append, List.any_cons, hodd', List.any_nil, Bool.or_false, Bool.or_false]
    exact h.isChunked

/-- One round of the loop. -/
theorem field (h : Folded f lengths codings) (hd : Header) :
    Folded (f.field hd) (lengths ++ values "content-length" [hd]) (codings ++ values "transfer-encoding" [hd]) := by
  have hother : ∀ {name : String}, lowercase hd.name ≠ bytes name → values name [hd] = [] := by
    intro name hne
    unfold values
    rw [List.filter_cons_of_neg (by simpa using hne)]
    rfl
  have hvalue : ∀ {name : String}, lowercase hd.name = bytes name → values name [hd] = [hd.value] := by
    intro name heq
    unfold values
    rw [List.filter_cons_of_pos (by simpa using heq)]
    rfl
  unfold HeaderFold.field
  split
  · rename_i hname
    rw [hother (by rw [hname]; decide), hother (by rw [hname]; decide), List.append_nil, List.append_nil]
    exact h
  · dsimp only
    split
    · rename_i hname
      rw [hvalue hname, hother (by rw [hname]; decide), List.append_nil]
      obtain ⟨hte, hchunked, hconflict, hagree⟩ := h.contentLengthField hd.value
      exact ⟨hte, hchunked, hconflict, hagree⟩
    · rename_i hcl
      rw [hother hcl, List.append_nil]
      split
      · rename_i hname
        rw [hvalue hname]
        obtain ⟨hte, hchunked, hconflict, hagree⟩ := h.transferEncodingField hd.value
        exact ⟨hte, hchunked, hconflict, hagree⟩
      · rename_i hte
        rw [hother hte, List.append_nil]
        split
        · exact ⟨h.teCount, h.isChunked, h.conflict, h.agree⟩
        · split
          · exact ⟨h.teCount, h.isChunked, h.conflict, h.agree⟩
          · exact ⟨h.teCount, h.isChunked, h.conflict, h.agree⟩

theorem fold (h : Folded f lengths codings) (hs : List Header) :
    Folded (hs.foldl HeaderFold.field f) (lengths ++ values "content-length" hs)
      (codings ++ values "transfer-encoding" hs) := by
  induction hs generalizing f lengths codings with
  | nil => simpa [values] using h
  | cons hd hs ih =>
    have hcons : ∀ name, values name (hd :: hs) = values name [hd] ++ values name hs := by
      intro name
      unfold values
      rw [← List.map_append, ← List.filter_append]
      rfl
    rw [hcons, hcons, ← List.append_assoc, ← List.append_assoc]
    exact ih (h.field hd)

end Folded

theorem foldHeaders_spec (req : Request) :
    Folded (foldHeaders req) (values "content-length" req.headers) (values "transfer-encoding" req.headers) := by
  have hinit : Folded (.init req) [] [] := ⟨rfl, rfl, nofun, fun _ => ⟨nofun, .inl ⟨rfl, rfl, rfl⟩⟩⟩
  exact hinit.fold req.headers

/-! ## The two decisions -/

/-- The decision of `process_events`, from what the loop has found. -/
def HeaderFold.decision (f : HeaderFold) (maxBodySize : Nat) : Decision :=
  if f.clConflict ∨ f.isChunked ∧ f.hasCl ∨ f.teCount > 1 ∧ ¬ f.isChunked then .rejected
  else if f.isChunked then .chunked
  else if f.contentLength > 0 then
    if f.contentLength.toNat > maxBodySize then .rejected else .sized f.contentLength.toNat
  else .noBody

/-- A body of `n` bytes is announced, whatever part of it has arrived. -/
theorem decision_beginBody (d : Decoder) {n : Nat} {start : RequestStart} (hbody : start.hasBody = true) :
    decision (d.beginBody n (.requestStart start)).1.state (d.beginBody n (.requestStart start)).2.1 =
      some (.sized n) := by
  unfold Decoder.beginBody
  dsimp only
  split
  · simp [decision, hbody]
  · unfold Decoder.takeBody
    dsimp only
    split
    · rename_i hlt
      simp only [decision, hbody, if_true]
      rw [Nat.add_sub_cancel' (Nat.le_of_lt hlt)]
    · rename_i hge
      simp only [decision, hbody, if_true]
      rw [List.length_take_of_le (Nat.le_of_not_lt hge)]

/-- The round takes this decision. -/
theorem decision_acceptHead (lim : Limits) (d : Decoder) (offset : Nat) (req : Request)
    (hws : ¬ ((foldHeaders req).isUpgrade ∧ (foldHeaders req).upgradeProto = bytes "websocket")) :
    decision (d.acceptHead lim offset req).1.state (d.acceptHead lim offset req).2.1 =
      some ((foldHeaders req).decision lim.maxBodySize) := by
  unfold Decoder.acceptHead HeaderFold.decision
  dsimp only
  split
  · rfl
  split
  · rfl
  split
  · split
    · rfl
    · exact decision_beginBody _ rfl
  · rfl

theorem asIsize_pos {n : Nat} (hn : n < 2 ^ 64) : asIsize n > 0 ↔ 0 < n ∧ n < 2 ^ 63 := by
  unfold asIsize
  split <;> omega

theorem asIsize_toNat {n : Nat} (hn : n < 2 ^ 63) : (asIsize n).toNat = n := by
  unfold asIsize
  rw [if_pos hn]
  rfl

section Decisions

variable {maxBodySize : Nat} {headers : List Header} {f : HeaderFold}

/-- Requests with both kinds of fields. -/
theorem decision_both (maxBodySize : Nat)
    (h : Folded f (values "content-length" headers) (values "transfer-encoding" headers))
    (hcl : values "content-length" headers ≠ []) (hte : values "transfer-encoding" headers ≠ []) :
    f.decision maxBodySize = .rejected ∧ reference maxBodySize headers = .rejected := by
  constructor
  · apply if_pos
    cases hc : f.clConflict with
    | true => exact .inl rfl
    | false =>
      obtain ⟨hall, hlen⟩ := h.agree hc
      obtain ⟨v, hv⟩ := List.exists_mem_of_ne_nil _ hte
      rcases hlen with ⟨hnil, -⟩ | ⟨-, -, -, hhas, -⟩
      · exact absurd hnil hcl
      · exact .inr (.inl ⟨h.isChunked.trans (List.any_eq_true.2 ⟨v, hv, hall v hv⟩), hhas⟩)
  · exact if_pos (.inr (.inr (.inl ⟨by simpa using hcl, hte⟩)))

/-- What the loop has found when there is no conflict. -/
theorem decision_agree (h : Folded f (values "content-length" headers) (values "transfer-encoding" headers))
    (hc : f.clConflict = false) (hone : f.isChunked = true → f.hasCl = false) :
    f.decision maxBodySize = if f.isChunked then .chunked
      else if f.contentLength > 0 then
        if f.contentLength.toNat > maxBodySize then .rejected else .sized f.contentLength.toNat
      else .noBody := by
  apply if_neg
  rintro (hconflict | ⟨hchunked, hhas⟩ | ⟨hcount, hnot⟩)
  · rw [hc] at hconflict
    cases hconflict
  · rw [hone hchunked] at hhas
    cases hhas
  · rw [h.teCount] at hcount
    obtain ⟨v, hv⟩ := List.exists_mem_of_length_pos (Nat.lt_of_succ_lt hcount)
    exact hnot (h.isChunked.trans (List.any_eq_true.2 ⟨v, hv, (h.agree hc).1 v hv⟩))

/-- Requests with codings only. -/
theorem decision_codings (maxBodySize : Nat)
    (h : Folded f (values "content-length" headers) (values "transfer-encoding" headers))
    (hcl : values "content-length" headers = []) (hte : values "transfer-encoding" headers ≠ []) :
    f.decision maxBodySize =
        (if ∀ v ∈ values "transfer-encoding" headers, endsChunked trim v = true then .chunked else .rejected) ∧
      reference maxBodySize headers =
        (if ∀ v ∈ values "transfer-encoding" headers, lastIsChunked v = true then .chunked else .rejected) := by
  constructor
  · cases hc : f.clConflict with
    | true =>
      rw [if_neg]
      · exact if_pos (.inl hc)
      · intro hall
        rcases h.conflict hc with ⟨v, hv, hodd⟩ | ⟨v, hv, -⟩ | ⟨v, hv, -⟩
        · rw [hall v hv] at hodd
          cases hodd
        · rw [hcl] at hv
          cases hv
        · rw [hcl] at hv
          cases hv
    | false =>
      obtain ⟨hall, hlen⟩ := h.agree hc
      have hhas : f.hasCl = false := by
        rcases hlen with ⟨-, hhas, -⟩ | ⟨n, hne, -⟩
        · exact hhas
        · exact absurd hcl hne
      obtain ⟨v, hv⟩ := List.exists_mem_of_ne_nil _ hte
      have hchunked : f.isChunked = true := h.isChunked.trans (List.any_eq_true.2 ⟨v, hv, hall v hv⟩)
      rw [decision_agree h hc fun _ => hhas, if_pos hchunked, if_pos hall]
  · unfold reference
    rw [hcl]
    by_cases hall : ∀ v ∈ values "transfer-encoding" headers, lastIsChunked v = true
    · rw [if_pos hall, if_neg, if_pos hte]
      rintro (hnone | ⟨a, ha, -⟩ | ⟨hne, -⟩ | ⟨v, hv, hodd⟩ | ⟨a, ha, -⟩)
      · cases hnone
      · cases ha
      · exact hne rfl
      · rw [hall v hv] at hodd
        cases hodd
      · cases ha
    · rw [if_neg hall, if_pos]
      obtain ⟨v, hv⟩ := not_forall.1 hall
      obtain ⟨hv, hodd⟩ := Classical.not_imp.1 hv
      exact .inr (.inr (.inr (.inl ⟨v, hv, by simpa using hodd⟩)))

/-- Requests with neither. -/
theorem decision_none (maxBodySize : Nat)
    (h : Folded f (values "content-length" headers) (values "transfer-encoding" headers))
    (hcl : values "content-length" headers = []) (hte : values "transfer-encoding" headers = []) :
    f.decision maxBodySize = .noBody ∧ reference maxBodySize headers = .noBody := by
  constructor
  · have hc : f.clConflict = false := by
      by_contra hc
      rcases h.conflict (by simpa using hc) with ⟨v, hv, -⟩ | ⟨v, hv, -⟩ | ⟨v, hv, -⟩
      · rw [hte] at hv
        cases hv
      · rw [hcl] at hv
        cases hv
      · rw [hcl] at hv
        cases hv
    have hchunked : f.isChunked = false := by rw [h.isChunked, hte]; rfl
    have hone : f.isChunked = true → f.hasCl = false := by
      rw [hchunked]
      exact nofun
    rw [decision_agree h hc hone, hchunked]
    rcases (h.agree hc).2 with ⟨-, -, hlen⟩ | ⟨n, hne, -⟩
    · rw [hlen]
      rfl
    · exact absurd hcl hne
  · unfold reference
    rw [hcl, hte]
    rfl

/-- Requests with lengths only. -/
theorem decision_lengths (maxBodySize : Nat)
    (h : Folded f (values "content-length" headers) (values "transfer-encoding" headers))
    (hcl : values "content-length" headers ≠ []) (hte : values "transfer-encoding" headers = []) :
    (f.decision maxBodySize = .rejected ∧
      ¬ ∃ n, ∀ v ∈ values "content-length" headers, parseContentLength v = some n) ∨
    ∃ n, n < 2 ^ 64 ∧ (∀ v ∈ values "content-length" headers, parseContentLength v = some n) ∧
      f.decision maxBodySize = if 2 ^ 63 ≤ n then .noBody else if n > maxBodySize then .rejected
        else if n = 0 then .noBody else .sized n := by
  obtain ⟨v₀, hv₀⟩ := List.exists_mem_of_ne_nil _ hcl
  cases hc : f.clConflict with
  | true =>
    refine .inl ⟨if_pos (.inl hc), fun ⟨n, hall⟩ => ?_⟩
    rcases h.conflict hc with ⟨v, hv, -⟩ | ⟨v, hv, hnone⟩ | ⟨v, hv, v', hv', hne⟩
    · rw [hte] at hv
      cases hv
    · rw [hall v hv] at hnone
      cases hnone
    · exact hne ((hall v hv).trans (hall v' hv').symm)
  | false =>
    rcases (h.agree hc).2 with ⟨hnil, -⟩ | ⟨n, -, hall, hhas, hlen⟩
    · exact absurd hnil hcl
    · have hlt : n < 2 ^ 64 := parseContentLength_lt (hall v₀ hv₀)
      have hchunked : f.isChunked = false := by rw [h.isChunked, hte]; rfl
      refine .inr ⟨n, hlt, hall, ?_⟩
      have hone : f.isChunked = true → f.hasCl = false := by
        rw [hchunked]
        exact nofun
      rw [decision_agree h hc hone, hchunked, hlen]
      simp only [Bool.false_eq_true, if_false, asIsize_pos hlt]
      by_cases hbig : 2 ^ 63 ≤ n
      · rw [if_pos hbig, if_neg (by omega)]
      · rw [if_neg hbig, asIsize_toNat (by omega)]
        by_cases hzero : n = 0
        · rw [if_neg (by omega), if_neg (by omega), if_pos hzero]
        · rw [if_pos (by omega), if_neg hzero]

/-- The grammar, of requests with lengths only. -/
theorem reference_lengths (maxBodySize : Nat) (hcl : values "content-length" headers ≠ [])
    (hte : values "transfer-encoding" headers = []) :
    (reference maxBodySize headers = .rejected ∧
      ¬ ∃ n, ∀ v ∈ values "content-length" headers, number? v = some n) ∨
    ∃ n, (∀ v ∈ values "content-length" headers, number? v = some n) ∧
      reference maxBodySize headers = if n > maxBodySize then .rejected else if n = 0 then .noBody else .sized n := by
  obtain ⟨v₀, hv₀⟩ := List.exists_mem_of_ne_nil _ hcl
  by_cases hall : ∃ n, ∀ v ∈ values "content-length" headers, number? v = some n
  · obtain ⟨n, hn⟩ := hall
    refine .inr ⟨n, hn, ?_⟩
    have hlengths : ∀ a ∈ (values "content-length" headers).map number?, a = some n := by
      intro a ha
      obtain ⟨v, hv, rfl⟩ := List.mem_map.1 ha
      exact hn v hv
    unfold reference
    rw [hte]
    by_cases hbig : n > maxBodySize
    · rw [if_pos hbig, if_pos]
      exact .inr (.inr (.inr (.inr ⟨some n, List.mem_map.2 ⟨v₀, hv₀, hn v₀ hv₀⟩, by simpa using hbig⟩)))
    · rw [if_neg hbig, if_neg, if_neg (by simp)]
      · cases hls : (values "content-length" headers).map number? with
        | nil => exact absurd (List.map_eq_nil_iff.1 hls) hcl
        | cons a ls =>
          rw [hlengths a (hls ▸ .head _)]
          cases n with
          | zero => rfl
          | succ n => rfl
      · rintro (hnone | ⟨a, ha, b, hb, hne⟩ | ⟨-, hne⟩ | ⟨v, hv, -⟩ | ⟨a, ha, hgt⟩)
        · cases hlengths none hnone
        · exact hne ((hlengths a ha).trans (hlengths b hb).symm)
        · exact hne rfl
        · cases hv
        · rw [hlengths a ha] at hgt
          exact hbig (by simpa using hgt)
  · refine .inl ⟨if_pos ?_, hall⟩
    cases hv : number? v₀ with
    | none => exact .inl (List.mem_map.2 ⟨v₀, hv₀, hv⟩)
    | some n =>
      obtain ⟨v, hnot⟩ := not_forall.1 (not_exists.1 hall n)
      obtain ⟨hmem, hne⟩ := Classical.not_imp.1 hnot
      refine .inr (.inl ⟨number? v, List.mem_map_of_mem hmem, number? v₀, List.mem_map_of_mem hv₀, ?_⟩)
      rw [hv]
      exact hne

/-- Requests with codings only: the two readings of a value differ by what the
value has before its last comma, or by white space. -/
theorem codings_iff (h : Folded f (values "content-length" headers) (values "transfer-encoding" headers))
    (hcl : values "content-length" headers = []) (hte : values "transfer-encoding" headers ≠ []) :
    f.decision maxBodySize = reference maxBodySize headers ↔ ¬ Misread maxBodySize headers := by
  obtain ⟨hcode, href⟩ := decision_codings maxBodySize h hcl hte
  rw [hcode, href]
  constructor
  · intro heq hodd
    rcases hodd with ⟨-, hall, v, hv, hlast⟩ | ⟨-, hall, v, hv, hutf⟩ | ⟨hnil, -⟩
    · rw [if_pos hall, if_neg fun hl => by rw [hl v hv] at hlast; cases hlast] at heq
      cases heq
    · have hends : endsChunked trim v = false := by rw [endsChunked, hutf]
      rw [if_pos hall, if_neg fun hl => by rw [hl v hv] at hends; cases hends] at heq
      cases heq
    · exact hte hnil
  · intro hnot
    by_cases hends : ∀ v ∈ values "transfer-encoding" headers, endsChunked trim v = true
    · have hlast : ∀ v ∈ values "transfer-encoding" headers, lastIsChunked v = true := by
        by_contra hl
        obtain ⟨v, hv⟩ := not_forall.1 hl
        obtain ⟨hv, hodd⟩ := Classical.not_imp.1 hv
        exact hnot (.coding hcl hends ⟨v, hv, by simpa using hodd⟩)
      rw [if_pos hends, if_pos hlast]
    · have hlast : ¬ ∀ v ∈ values "transfer-encoding" headers, lastIsChunked v = true := by
        intro hl
        obtain ⟨v, hv⟩ := not_forall.1 hends
        obtain ⟨hv, hodd⟩ := Classical.not_imp.1 hv
        refine hnot (.utf8 hcl hl ⟨v, hv, ?_⟩)
        cases hs : fromUtf8 v with
        | none => rfl
        | some s => exact absurd (endsChunked_of_lastIsChunked hs (hl v hv)) hodd
      rw [if_neg hends, if_neg hlast]

/-- A number that both read is the same number. -/
theorem number_unique {v : Bytes} {n k : Nat} (hp : parseContentLength v = some n) (hn : number? v = some k) :
    k = n := by
  rw [parseContentLength_number hn] at hp
  split at hp
  · exact Option.some.inj hp
  · cases hp

/-- Requests with lengths only. -/
theorem lengths_iff (h : Folded f (values "content-length" headers) (values "transfer-encoding" headers))
    (hmax : maxBodySize < 2 ^ 64) (hcl : values "content-length" headers ≠ [])
    (hte : values "transfer-encoding" headers = []) :
    f.decision maxBodySize = reference maxBodySize headers ↔ ¬ Misread maxBodySize headers := by
  obtain ⟨v₀, hv₀⟩ := List.exists_mem_of_ne_nil _ hcl
  rcases decision_lengths maxBodySize h hcl hte with ⟨hcode, hnone⟩ | ⟨n, hlt, hall, hcode⟩
  · -- A number that all values denote is no usize, so it exceeds the limit.
    have href : reference maxBodySize headers = .rejected := by
      rcases reference_lengths maxBodySize hcl hte with ⟨href, -⟩ | ⟨k, hk, href⟩
      · exact href
      · rw [href]
        apply if_pos
        by_contra hle
        refine hnone ⟨k, fun v hv => ?_⟩
        rw [parseContentLength_number (hk v hv), if_pos (by omega)]
    rw [hcode, href]
    refine ⟨fun _ hodd => ?_, fun _ => rfl⟩
    rcases hodd with ⟨hnil, -⟩ | ⟨hnil, -⟩ | ⟨-, n, -, hn, -⟩
    · exact hcl hnil
    · exact hcl hnil
    · exact hnone ⟨n, hn⟩
  · have hmisread : Misread maxBodySize headers ↔
        2 ^ 63 ≤ n ∨ n ≤ maxBodySize ∧ ∃ v ∈ values "content-length" headers, number? v = none := by
      constructor
      · rintro (⟨hnil, -⟩ | ⟨hnil, -⟩ | ⟨-, k, -, hk, hodd⟩)
        · exact absurd hnil hcl
        · exact absurd hnil hcl
        · have hkn : k = n := Option.some.inj ((hk v₀ hv₀).symm.trans (hall v₀ hv₀))
          exact hkn ▸ hodd
      · exact fun hodd => .length hte n hcl hall hodd
    rw [hmisread, hcode]
    rcases reference_lengths maxBodySize hcl hte with ⟨href, hnot⟩ | ⟨k, hk, href⟩
    · have hodd : ∃ v ∈ values "content-length" headers, number? v = none := by
        by_contra hplain
        refine hnot ⟨n, fun v hv => ?_⟩
        cases hnum : number? v with
        | none => exact absurd ⟨v, hv, hnum⟩ hplain
        | some k => rw [number_unique (hall v hv) hnum]
      rw [href]
      by_cases hbig : 2 ^ 63 ≤ n
      · rw [if_pos hbig]
        exact iff_of_false nofun fun hnot => hnot (.inl hbig)
      · rw [if_neg hbig]
        by_cases hexceeds : n > maxBodySize
        · rw [if_pos hexceeds]
          refine iff_of_true rfl ?_
          rintro (hge | ⟨hle, -⟩)
          · exact hbig hge
          · exact absurd hexceeds (Nat.not_lt.2 hle)
        · rw [if_neg hexceeds]
          refine iff_of_false ?_ fun hnot => hnot (.inr ⟨Nat.le_of_not_lt hexceeds, hodd⟩)
          split
          · exact nofun
          · exact nofun
    · have hkn : k = n := number_unique (hall v₀ hv₀) (hk v₀ hv₀)
      have hplain : ¬ ∃ v ∈ values "content-length" headers, number? v = none := by
        rintro ⟨v, hv, hnum⟩
        rw [hk v hv] at hnum
        cases hnum
      rw [href, hkn]
      by_cases hbig : 2 ^ 63 ≤ n
      · rw [if_pos hbig]
        refine iff_of_false ?_ fun hnot => hnot (.inl hbig)
        split
        · exact nofun
        · rw [if_neg (show n ≠ 0 by omega)]
          exact nofun
      · rw [if_neg hbig]
        refine iff_of_true rfl ?_
        rintro (hge | ⟨-, hodd⟩)
        · exact hbig hge
        · exact hplain hodd

/-- The decisions are the same unless something is misread. -/
theorem decision_eq_reference (h : Folded f (values "content-length" headers) (values "transfer-encoding" headers))
    (hmax : maxBodySize < 2 ^ 64) :
    f.decision maxBodySize = reference maxBodySize headers ↔ ¬ Misread maxBodySize headers := by
  by_cases hcl : values "content-length" headers = []
  · by_cases hte : values "transfer-encoding" headers = []
    · obtain ⟨hcode, href⟩ := decision_none maxBodySize h hcl hte
      rw [hcode, href]
      refine ⟨fun _ hodd => ?_, fun _ => rfl⟩
      rcases hodd with ⟨-, -, v, hv, -⟩ | ⟨-, -, v, hv, -⟩ | ⟨-, n, hne, -⟩
      · rw [hte] at hv
        cases hv
      · rw [hte] at hv
        cases hv
      · exact hne hcl
    · exact codings_iff h hcl hte
  · by_cases hte : values "transfer-encoding" headers = []
    · exact lengths_iff h hmax hcl hte
    · obtain ⟨hcode, href⟩ := decision_both maxBodySize h hcl hte
      rw [hcode, href]
      refine ⟨fun _ hodd => ?_, fun _ => rfl⟩
      rcases hodd with ⟨hnil, -⟩ | ⟨hnil, -⟩ | ⟨hnil, -⟩
      · exact hcl hnil
      · exact hcl hnil
      · exact hte hnil

end Decisions

/-! ## The round that reads a head -/

section Round

variable {parse : Httparse} {s : Call} {offset : Nat} {req : Request}

/-- In every run, the round that reads a request head that is no websocket
upgrade takes a decision; it is that of the grammar exactly if the engine
misreads nothing. The limits are `usize`s. -/
theorem framing_decision (hparse : InRange parse) (h : (engine parse).Reachable s) (hmode : s.conn.mode = .http11)
    (hstate : s.conn.state = .waitingHeader ∨ s.conn.state = .keepAliveWait) (hmax : s.conn.maxBodySize < usizeEnd)
    (hne : s.conn.unread ≠ []) (hlen : s.conn.unread.length ≤ s.conn.maxHeaderSize)
    (hreq : parse s.conn.unread = .complete offset req)
    (hws : ¬ ((foldHeaders req).isUpgrade ∧ (foldHeaders req).upgradeProto = bytes "websocket")) (m : Arith) :
    ∃ r d, s.conn.round m parse = .ok r ∧ decision r.1.state r.2.1 = some d ∧
      (d = reference s.conn.maxBodySize req.headers ↔ ¬ Misread s.conn.maxBodySize req.headers) := by
  have hbounded : s.conn.Bounded := bounded_of_reachable hparse h
  have hnot : ∀ stage, s.conn.state ≠ .receivingChunked stage := by
    intro stage heq
    rw [heq] at hstate
    rcases hstate with hs | hs
    · cases hs
    · cases hs
  have hadds : s.conn.Adds m :=
    ⟨hbounded.count, fun hs => absurd hs (hnot _), fun n hs => absurd hs (hnot _)⟩
  have hround : s.conn.round m parse = .ok (s.conn.ofStep (s.conn.view.step s.conn.limits parse)) := by
    unfold FastHttpConnection.round
    rw [hmode]
    exact FastHttpConnection.httpRound_eq hparse hbounded.fits hadds
  have hhead : s.conn.view.step s.conn.limits parse = s.conn.view.acceptHead s.conn.limits offset req := by
    have hheader : s.conn.view.step s.conn.limits parse = s.conn.view.header s.conn.limits parse := by
      unfold Decoder.step
      rw [show s.conn.view.state = s.conn.state from rfl]
      rcases hstate with hs | hs
      · rw [hs]
      · rw [hs]
    have hsize : ¬ s.conn.view.unread.length > s.conn.limits.maxHeaderSize := Nat.not_lt.2 hlen
    rw [hheader, Decoder.header, if_neg (show ¬ s.conn.view.unread = [] from hne), if_neg hsize]
    rw [show parse s.conn.view.unread = _ from hreq]
  refine ⟨_, _, hround, ?_, decision_eq_reference (foldHeaders_spec req) hmax⟩
  rw [hhead]
  exact decision_acceptHead s.conn.limits s.conn.view offset req hws

/-- The head of a chunked request. -/
theorem framing_decision_chunked : ∃ (s : Call) (r : Round) (d : Decision),
    s.conn.round .release parseChunkedHead = .ok r ∧ decision r.1.state r.2.1 = some d ∧
      (d = reference 1000 [⟨bytes "transfer-encoding", bytes "chunked"⟩] ↔
        ¬ Misread 1000 [⟨bytes "transfer-encoding", bytes "chunked"⟩]) := by
  obtain ⟨s, hs, hmode, hstate, hunread, hbody, hsize⟩ : ∃ s, (engine parseChunkedHead).Reachable s ∧
      s.conn.mode = .http11 ∧ s.conn.state = .waitingHeader ∧ s.conn.unread = chunkedHead ∧
      s.conn.maxBodySize = 1000 ∧ s.conn.maxHeaderSize = 1000 :=
    System.exists_reachable_of_run [.feedData chunkedHead]
      (s := ⟨.new 1000 1000 1000, false⟩) ⟨1000, 1000, 1000, by decide, rfl⟩ (by decide +kernel)
  have hreq : parseChunkedHead s.conn.unread = .complete chunkedHead.length
      { method := some (bytes "POST"), path := some (bytes "/"), version := some 1
        headers := [⟨bytes "transfer-encoding", bytes "chunked"⟩] } := by
    rw [hunread]
    decide +kernel
  obtain ⟨r, d, hr, hd, hiff⟩ := framing_decision parseChunkedHead_inRange hs hmode (.inl hstate)
    (by rw [hbody]; decide) (by rw [hunread]; decide +kernel) (by rw [hunread, hsize]; decide +kernel) hreq
    (by decide +kernel) .release
  rw [hbody] at hiff
  exact ⟨s, r, d, hr, hd, hiff⟩

/-- A request with one `Content-Length` of `2 ^ 63`, and what httparse says of
it. -/
def hugeHead : Bytes := bytes "POST / HTTP/1.1\r\ncontent-length: 9223372036854775808\r\n\r\n"

def hugeHeaders : List Header := [⟨bytes "content-length", bytes "9223372036854775808"⟩]

def parseHugeHead (u : Bytes) : ParseResult :=
  if hugeHead.isPrefixOf u then
    .complete hugeHead.length
      { method := some (bytes "POST"), path := some (bytes "/"), version := some 1, headers := hugeHeaders }
  else if u.isPrefixOf hugeHead then .incomplete
  else .error

/-- The request is accepted as one without a body, though the limit is 1000. -/
theorem huge_length_accepted : ∃ s : Call, (engine parseHugeHead).Reachable s ∧ s.conn.unread = hugeHead ∧
    s.conn.maxBodySize = 1000 ∧
    (s.conn.round .release parseHugeHead).toOption.bind (fun r => decision r.1.state r.2.1) = some .noBody ∧
    reference 1000 hugeHeaders = .rejected :=
  System.exists_reachable_of_run [.feedData hugeHead]
    (s := ⟨.new 1000 1000 1000, false⟩) ⟨1000, 1000, 1000, by decide, rfl⟩ (by decide +kernel)

end Round

end Multiloop.Http
