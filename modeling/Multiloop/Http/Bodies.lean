import Multiloop.Http.Observer

/-!
# Requests in a stream

The bytes that a connection receives are those of one request after the other:
a head, and the bytes that its body is spelled with. What the engine tells of
the bodies is what these bytes spell, and it marks the part that completes a
body. A chunk whose end wraps around jams the engine: it panics in every call
from then on.
-/

namespace Multiloop.Http

/-- A part of a body, and whether more of them follow. -/
abbrev Part : Type := Bytes × Bool

/-! ## How a body is spelled -/

/-- How the body after a head is read. -/
inductive Framing
  | none
  | sized (total : Nat)
  | chunked
deriving DecidableEq

/-- What `process_events` makes of the header fields. -/
def framing (f : HeaderFold) : Framing :=
  if f.isUpgrade ∧ f.upgradeProto = bytes "websocket" then .none
  else if f.isChunked then .chunked
  else if f.contentLength > 0 then .sized f.contentLength.toNat
  else .none

/-- The bytes that some parts carry. -/
def carried (parts : List Part) : Bytes := parts.flatMap Prod.fst

/-- A line that announces a chunk of `n` bytes. -/
structure SizeLine (line : Bytes) (n : Nat) : Prop where
  first : position crlf line = none
  announces : (FastHttpConnection.sizeText line).bind (fromStrRadix 16) = some n

/-- The lines after the last chunk, with the empty line that ends them. -/
def Trailers (lines : Bytes) : Prop :=
  lines = crlf ∨ ∃ fields, lines = fields ++ (crlf ++ crlf) ∧ position (crlf ++ crlf) fields = none

/-- Chunks, and the parts that they carry. -/
inductive Chunks : Bytes → List Part → Prop
  | nil : Chunks [] []
  | chunk {wire : Bytes} {parts : List Part} {line data : Bytes} (h : Chunks wire parts)
      (hline : SizeLine line data.length) (hdata : data ≠ []) :
      Chunks (wire ++ (line ++ crlf ++ (data ++ crlf))) (parts ++ [(data, true)])

/-- The bytes of a body, or of the beginning of one, and the parts that they
carry. Only the part that completes the body is the last one. -/
inductive Body : Framing → Bytes → List Part → Prop
  | none : Body .none [] []
  | sized {total : Nat} {parts : List Part} (hmore : ∀ m ∈ parts, m.2 = true) (hless : (carried parts).length < total) :
      Body (.sized total) (carried parts) parts
  | sizedEnd {total : Nat} {parts : List Part} {last : Bytes} (hmore : ∀ m ∈ parts, m.2 = true)
      (hless : (carried parts).length < total) (hall : (carried parts).length + last.length = total) :
      Body (.sized total) (carried parts ++ last) (parts ++ [(last, false)])
  | chunked {wire : Bytes} {parts : List Part} (h : Chunks wire parts) : Body .chunked wire parts
  | chunkedEnd {wire : Bytes} {parts : List Part} {line trailers : Bytes} (h : Chunks wire parts)
      (hline : SizeLine line 0) (htrailers : Trailers trailers) :
      Body .chunked (wire ++ (line ++ crlf ++ trailers)) (parts ++ [([], false)])

/-- A request, as far as it was read. -/
structure Reading where
  head : Bytes
  wire : Bytes
  start : RequestStart
  parts : List Part

namespace Reading

variable (r : Reading)

def bytes : Bytes := r.head ++ r.wire

/-- What the owner of the engine is told of the request. -/
def told : RequestStart × List Part := (r.start, r.parts)

/-- The head is one that the engine accepts, with this framing. -/
def Headed (parse : Httparse) (f : Framing) : Prop :=
  ∃ req more, parse (r.head ++ more) = .complete r.head.length req ∧ framing (foldHeaders req) = f ∧
    r.start = requestStart req (foldHeaders req) (f ≠ .none)

/-- The request is spelled by its bytes. -/
def Sound (parse : Httparse) : Prop := ∃ f, r.Headed parse f ∧ Body f r.wire r.parts

/-- The body is complete. -/
def Complete : Prop := r.start.hasBody = true → ∃ parts last, r.parts = parts ++ [(last, false)]

end Reading

theorem carried_append (parts parts' : List Part) : carried (parts ++ parts') = carried parts ++ carried parts' :=
  List.flatMap_append

theorem carried_one (part : Part) : carried [part] = part.1 := List.append_nil _

theorem Chunks.more {wire : Bytes} {parts : List Part} (h : Chunks wire parts) : ∀ m ∈ parts, m.2 = true := by
  induction h with
  | nil => exact fun m hm => absurd hm List.not_mem_nil
  | chunk _ _ _ ih =>
    intro m hm
    rcases List.mem_append.1 hm with hm | hm
    · exact ih m hm
    · rw [List.mem_singleton.1 hm]

/-- What follows the part that completes a body. -/
theorem Body.last {f : Framing} {wire : Bytes} {parts : List Part} (h : Body f wire parts) {before after : List Part}
    {m : Part} (hparts : parts = before ++ m :: after) (hm : m.2 = false) : after = [] := by
  have hmore : ∀ {ps tail : List Part}, (∀ m ∈ ps, m.2 = true) → ps ≠ before ++ m :: tail := by
    rintro ps tail hps rfl
    rw [hps m (List.mem_append_right _ (.head _))] at hm
    cases hm
  have hend : ∀ {ps : List Part} {last : Part}, (∀ m ∈ ps, m.2 = true) → ps ++ [last] = before ++ m :: after →
      after = [] := by
    intro ps last hps heq
    rcases List.eq_nil_or_concat after with hnil | ⟨tail, final, rfl⟩
    · exact hnil
    · rw [List.concat_eq_append, ← List.cons_append, ← List.append_assoc] at heq
      exact absurd (List.append_inj_left' heq rfl) (hmore hps)
  cases h with
  | none => exact absurd hparts (by simp)
  | sized hps _ => exact absurd hparts (hmore hps)
  | sizedEnd hps _ _ => exact hend hps hparts
  | chunked hc => exact absurd hparts (hmore hc.more)
  | chunkedEnd hc _ _ => exact hend hc.more hparts

/-! ## What the owner is told -/

/-- The requests that the owner was told of, each with the parts of its body. -/
abbrev Told : Type := List (RequestStart × List Part)

/-- What the owner knows after an event; a part belongs to the request that was
started last, and whose body is not complete. -/
def Told.after (v : Told) : Event → Option Told
  | .requestStart start => some (v ++ [(start, [])])
  | .body chunk moreBody =>
    v.getLast?.bind fun last =>
      if last.1.hasBody = true ∧ ∀ m ∈ last.2, m.2 = true then
        some (v.dropLast ++ [(last.1, last.2 ++ [(chunk, moreBody)])])
      else none
  | _ => some v

/-- What the owner was told is spelled by the bytes received, up to some that
are left. -/
def Spelled (parse : Httparse) (fed : Bytes) (v : Told) : Prop :=
  ∃ rs : List Reading, v = rs.map Reading.told ∧ (∀ r ∈ rs, r.Sound parse) ∧ (∀ r ∈ rs.dropLast, r.Complete) ∧
    ∃ rest, fed = rs.flatMap Reading.bytes ++ rest

/-- What is read of a chunk, or of the end of a body, before the unread bytes. -/
def Pending (stage : ChunkedStage) (pending : Bytes) : Prop :=
  match stage with
  | .readingSize => pending = []
  | .readingData n => n ≠ 0 ∧ ∃ line, SizeLine line n ∧ pending = line ++ crlf
  | .readingTrailers => ∃ line, SizeLine line 0 ∧ pending = line ++ crlf

/-- What the owner was told, and the decoder where it stands in the bytes
received. -/
inductive Tracked (parse : Httparse) (fed : Bytes) (d : Decoder) : Told → Prop
  /-- Between two requests. -/
  | between (rs : List Reading) (hstate : d.state = .waitingHeader ∨ d.state = .keepAliveWait ∨ d.state = .servingApp)
      (hsound : ∀ r ∈ rs, r.Sound parse) (hcomplete : ∀ r ∈ rs, r.Complete)
      (hfed : fed = rs.flatMap Reading.bytes ++ d.unread) : Tracked parse fed d (rs.map Reading.told)
  | gone {v : Told} (hstate : d.state = .closed) (hspelled : Spelled parse fed v) : Tracked parse fed d v
  | sized (rs : List Reading) (r : Reading) (total remaining : Nat) (hstate : d.state = .receivingContentLength remaining)
      (hsound : ∀ r ∈ rs, r.Sound parse) (hcomplete : ∀ r ∈ rs, r.Complete) (hhead : r.Headed parse (.sized total))
      (hmore : ∀ m ∈ r.parts, m.2 = true) (hwire : r.wire = carried r.parts)
      (htotal : r.wire.length + remaining = total) (hleft : 0 < remaining)
      (hfed : fed = (rs ++ [r]).flatMap Reading.bytes ++ d.unread) : Tracked parse fed d ((rs ++ [r]).map Reading.told)
  | chunked (rs : List Reading) (r : Reading) (stage : ChunkedStage) (pending : Bytes)
      (hstate : d.state = .receivingChunked stage) (hsound : ∀ r ∈ rs, r.Sound parse) (hcomplete : ∀ r ∈ rs, r.Complete)
      (hhead : r.Headed parse .chunked) (hchunks : Chunks r.wire r.parts) (hpending : Pending stage pending)
      (hfed : fed = (rs ++ [r]).flatMap Reading.bytes ++ (pending ++ d.unread)) :
      Tracked parse fed d ((rs ++ [r]).map Reading.told)

section Tracking

variable {parse : Httparse} {fed : Bytes} {d d' : Decoder} {v v' : Told} {lim : Limits}

/-- The readings before the last one, and the last one. -/
theorem spelled_snoc {rs : List Reading} {r : Reading} (hsound : ∀ r ∈ rs, r.Sound parse)
    (hcomplete : ∀ r ∈ rs, r.Complete) (hr : r.Sound parse) {rest : Bytes}
    (hfed : fed = (rs ++ [r]).flatMap Reading.bytes ++ rest) : Spelled parse fed ((rs ++ [r]).map Reading.told) := by
  refine ⟨rs ++ [r], rfl, fun q hq => ?_, ?_, rest, hfed⟩
  · rcases List.mem_append.1 hq with hq | hq
    · exact hsound q hq
    · rw [List.mem_singleton.1 hq]
      exact hr
  · rw [List.dropLast_concat]
    exact hcomplete

theorem Tracked.spelled (h : Tracked parse fed d v) : Spelled parse fed v := by
  cases h with
  | between rs _ hsound hcomplete hfed =>
    exact ⟨rs, rfl, hsound, fun r hr => hcomplete r (List.dropLast_subset rs hr), d.unread, hfed⟩
  | gone _ hspelled => exact hspelled
  | sized rs r total remaining _ hsound hcomplete hhead hmore hwire htotal hleft hfed =>
    refine spelled_snoc hsound hcomplete ⟨_, hhead, ?_⟩ hfed
    rw [hwire]
    exact .sized hmore (by rw [← hwire]; omega)
  | chunked rs r stage pending _ hsound hcomplete hhead hchunks _ hfed =>
    exact spelled_snoc hsound hcomplete ⟨_, hhead, .chunked hchunks⟩ hfed

theorem after_start (v : Told) (start : RequestStart) : v.after (.requestStart start) = some (v ++ [(start, [])]) := rfl

theorem after_part {rs : List Reading} {r : Reading} (hbody : r.start.hasBody = true) (hmore : ∀ m ∈ r.parts, m.2 = true)
    (chunk : Bytes) (moreBody : Bool) : Told.after ((rs ++ [r]).map Reading.told) (.body chunk moreBody) =
      some (rs.map Reading.told ++ [(r.start, r.parts ++ [(chunk, moreBody)])]) := by
  have hmap : (rs ++ [r]).map Reading.told = rs.map Reading.told ++ [r.told] := List.map_append
  rw [hmap]
  show (List.getLast? (rs.map Reading.told ++ [r.told])).bind _ = _
  rw [List.getLast?_concat, Option.bind_some, if_pos ⟨hbody, hmore⟩, List.dropLast_concat]
  rfl

theorem Reading.Headed.hasBody {r : Reading} {f : Framing} (h : r.Headed parse f) : r.start.hasBody = decide (f ≠ .none) := by
  obtain ⟨req, more, -, -, hstart⟩ := h
  rw [hstart]
  rfl

/-- A request after complete ones, if it is complete too. -/
theorem tracked_complete {rs : List Reading} {r : Reading} (hstate : d.state = .servingApp)
    (hsound : ∀ r ∈ rs, r.Sound parse) (hcomplete : ∀ r ∈ rs, r.Complete) (hr : r.Sound parse) (hdone : r.Complete)
    (hfed : fed = (rs ++ [r]).flatMap Reading.bytes ++ d.unread) :
    Tracked parse fed d ((rs ++ [r]).map Reading.told) := by
  refine .between (rs ++ [r]) (.inr (.inr hstate)) (fun q hq => ?_) (fun q hq => ?_) hfed
  · rcases List.mem_append.1 hq with hq | hq
    · exact hsound q hq
    · rw [List.mem_singleton.1 hq]
      exact hr
  · rcases List.mem_append.1 hq with hq | hq
    · exact hcomplete q hq
    · rw [List.mem_singleton.1 hq]
      exact hdone

/-- The owner is told what the decoder does, and can follow it. -/
def Follows (parse : Httparse) (fed : Bytes) (v : Told) (s : Decoder.Step) : Prop :=
  ∃ v', s.2.1.foldlM Told.after v = some v' ∧ Tracked parse fed s.1 v'

theorem follows_stop (h : Tracked parse fed d v) : Follows parse fed v (d, [], .stop) := ⟨v, rfl, h⟩

theorem follows_fail (h : Spelled parse fed v) (d : Decoder) (status : Nat) (msg : String) :
    Follows parse fed v (d.fail status msg) := ⟨v, rfl, .gone rfl h⟩

theorem bytes_snoc (rs : List Reading) (r : Reading) (rest : Bytes) :
    (rs ++ [r]).flatMap Reading.bytes ++ rest = rs.flatMap Reading.bytes ++ (r.head ++ (r.wire ++ rest)) := by
  rw [List.flatMap_append, List.append_assoc]
  show _ ++ ((r.head ++ r.wire) ++ [] ++ rest) = _
  rw [List.append_nil, List.append_assoc]

/-- More bytes of a body with a length. -/
theorem follows_takeBody {rs : List Reading} {r : Reading} {total remaining : Nat} (hsound : ∀ r ∈ rs, r.Sound parse)
    (hcomplete : ∀ r ∈ rs, r.Complete) (hhead : r.Headed parse (.sized total)) (hmore : ∀ m ∈ r.parts, m.2 = true)
    (hwire : r.wire = carried r.parts) (htotal : r.wire.length + remaining = total) (hleft : 0 < remaining)
    (hfed : fed = (rs ++ [r]).flatMap Reading.bytes ++ d.unread) :
    Follows parse fed ((rs ++ [r]).map Reading.told) (d.takeBody remaining) := by
  have hbody : r.start.hasBody = true := hhead.hasBody
  unfold Decoder.takeBody
  split
  · rename_i hless
    refine ⟨(rs ++ [{ r with wire := r.wire ++ d.unread, parts := r.parts ++ [(d.unread, true)] }]).map Reading.told, ?_, ?_⟩
    · show (Told.after _ _).bind pure = _
      rw [after_part hbody hmore, List.map_append]
      rfl
    · refine .sized rs _ total (remaining - d.unread.length) rfl hsound hcomplete hhead (fun m hm => ?_) ?_ ?_ ?_ ?_
      · rcases List.mem_append.1 hm with hm | hm
        · exact hmore m hm
        · rw [List.mem_singleton.1 hm]
      · show r.wire ++ d.unread = carried (r.parts ++ [(d.unread, true)])
        rw [carried_append, carried_one, hwire]
      · show (r.wire ++ d.unread).length + _ = _
        rw [List.length_append]
        omega
      · omega
      · rw [hfed, bytes_snoc, bytes_snoc]
        simp
  · rename_i henough
    have hlen : (d.unread.take remaining).length = remaining := List.length_take_of_le (Nat.not_lt.1 henough)
    refine ⟨(rs ++ [{ r with
        wire := r.wire ++ d.unread.take remaining
        parts := r.parts ++ [(d.unread.take remaining, false)] }]).map Reading.told, ?_, ?_⟩
    · show (Told.after _ _).bind pure = _
      rw [after_part hbody hmore, List.map_append]
      rfl
    · refine tracked_complete rfl hsound hcomplete ⟨_, hhead, ?_⟩ (fun _ => ⟨_, _, rfl⟩) ?_
      · show Body _ (r.wire ++ _) (r.parts ++ _)
        rw [hwire] at htotal ⊢
        exact .sizedEnd hmore (by omega) (by omega)
      · rw [hfed, bytes_snoc, bytes_snoc]
        simp

/-- A request starts. -/
theorem follows_acceptHead {rs : List Reading} {offset : Nat} {req : Request} (hsound : ∀ r ∈ rs, r.Sound parse)
    (hcomplete : ∀ r ∈ rs, r.Complete) (hfed : fed = rs.flatMap Reading.bytes ++ d.unread)
    (hparse : parse d.unread = .complete offset req) (hoffset : offset ≤ d.unread.length) :
    Follows parse fed (rs.map Reading.told) (d.acceptHead lim offset req) := by
  have hspelled : Spelled parse fed (rs.map Reading.told) :=
    ⟨rs, rfl, hsound, fun r hr => hcomplete r (List.dropLast_subset rs hr), d.unread, hfed⟩
  have hhead : ∀ {f : Framing}, framing (foldHeaders req) = f →
      (Reading.mk (d.unread.take offset) [] (requestStart req (foldHeaders req) (f ≠ .none)) []).Headed parse f := by
    intro f hf
    refine ⟨req, d.unread.drop offset, ?_, hf, rfl⟩
    show parse (d.unread.take offset ++ d.unread.drop offset) = .complete (d.unread.take offset).length req
    rw [List.take_append_drop, List.length_take_of_le hoffset]
    exact hparse
  have hstream : ∀ (start : RequestStart) (rest : Bytes), d.unread.drop offset = rest →
      fed = (rs ++ [Reading.mk (d.unread.take offset) [] start []]).flatMap Reading.bytes ++ rest := by
    rintro start rest rfl
    rw [hfed, bytes_snoc]
    show _ = _ ++ (d.unread.take offset ++ ([] ++ d.unread.drop offset))
    rw [List.nil_append, List.take_append_drop]
  have htold : ∀ start : RequestStart, rs.map Reading.told ++ [(start, [])] =
      (rs ++ [Reading.mk (d.unread.take offset) [] start []]).map Reading.told := by
    intro start
    rw [List.map_append]
    rfl
  unfold Decoder.acceptHead
  dsimp only
  split
  · exact follows_fail hspelled _ _ _
  split
  · rename_i hws
    have hf : framing (foldHeaders req) = .none := if_pos hws
    refine ⟨_, rfl, ?_⟩
    rw [htold]
    exact tracked_complete rfl hsound hcomplete ⟨_, hhead hf, .none⟩ nofun (hstream _ _ rfl)
  rename_i hws
  split
  · rename_i hchunked
    have hf : framing (foldHeaders req) = .chunked := (if_neg hws).trans (if_pos hchunked)
    refine ⟨_, rfl, ?_⟩
    rw [htold]
    exact .chunked rs _ .readingSize [] rfl hsound hcomplete (hhead hf) .nil rfl (hstream _ _ rfl)
  rename_i hchunked
  split
  · rename_i hlength
    have hf : framing (foldHeaders req) = .sized (foldHeaders req).contentLength.toNat :=
      ((if_neg hws).trans (if_neg hchunked)).trans (if_pos hlength)
    have hpos : 0 < (foldHeaders req).contentLength.toNat := Int.pos_iff_toNat_pos.1 hlength
    split
    · exact follows_fail hspelled _ _ _
    · unfold Decoder.beginBody
      dsimp only
      split
      · refine ⟨_, rfl, ?_⟩
        rw [htold]
        exact .sized rs _ _ _ rfl hsound hcomplete (hhead hf) (fun m hm => absurd hm List.not_mem_nil) rfl
          (Nat.zero_add _) hpos (hstream _ _ rfl)
      · have htake := follows_takeBody (d := { d with
            unread := d.unread.drop offset
            requestCount := d.requestCount + 1
            keepAlive := (foldHeaders req).keepAlive
            state := .receivingContentLength (foldHeaders req).contentLength.toNat }) hsound hcomplete (hhead hf)
          (fun m hm => absurd hm List.not_mem_nil) rfl (Nat.zero_add _) hpos (hstream _ _ rfl)
        obtain ⟨v', hv', htracked⟩ := htake
        refine ⟨v', ?_, htracked⟩
        dsimp only
        rw [List.foldlM_cons, after_start, Option.bind_eq_bind, Option.bind_some, htold]
        exact hv'
  · rename_i hlength
    have hf : framing (foldHeaders req) = .none := ((if_neg hws).trans (if_neg hchunked)).trans (if_neg hlength)
    refine ⟨_, rfl, ?_⟩
    rw [htold]
    exact tracked_complete rfl hsound hcomplete ⟨_, hhead hf, .none⟩ nofun (hstream _ _ rfl)

theorem follows_header (hparse : InRange parse) {rs : List Reading} (hsound : ∀ r ∈ rs, r.Sound parse)
    (hcomplete : ∀ r ∈ rs, r.Complete) (hfed : fed = rs.flatMap Reading.bytes ++ d.unread)
    (hstop : Tracked parse fed d (rs.map Reading.told)) :
    Follows parse fed (rs.map Reading.told) (d.header lim parse) := by
  unfold Decoder.header
  split
  · exact follows_stop hstop
  split
  · exact follows_fail hstop.spelled _ _ _
  split
  · rename_i offset req hhead
    exact follows_acceptHead hsound hcomplete hfed hhead (hparse _ _ _ hhead)
  · exact follows_stop hstop
  · exact follows_fail hstop.spelled _ _ _

end Tracking

/-- Nothing is found before the first match. -/
theorem position_take {pat bs : Bytes} {n : Nat} (h : position pat bs = some n) : position pat (bs.take n) = none := by
  induction bs generalizing n with
  | nil => cases h
  | cons b bs ih =>
    rw [position_cons] at h
    split at h
    · cases h
      rfl
    · rename_i hno
      obtain ⟨k, hk, rfl⟩ := Option.map_eq_some_iff.1 h
      have hno' : ¬ pat.isPrefixOf (b :: bs.take k) = true := by
        rw [List.isPrefixOf_iff_prefix] at hno ⊢
        exact fun hp => hno (hp.trans (List.take_prefix (k + 1) (b :: bs)))
      rw [List.take_succ_cons, position_cons, if_neg hno', ih hk]
      rfl

/-- What is found, between what is before and after it. -/
theorem position_split {pat bs : Bytes} {n : Nat} (h : position pat bs = some n) :
    bs = bs.take n ++ (pat ++ bs.drop (n + pat.length)) := by
  induction bs generalizing n with
  | nil => cases h
  | cons b bs ih =>
    rw [position_cons] at h
    split at h
    · rename_i hp
      cases h
      obtain ⟨rest, hrest⟩ := List.isPrefixOf_iff_prefix.1 hp
      rw [← hrest]
      simp
    · obtain ⟨k, hk, rfl⟩ := Option.map_eq_some_iff.1 h
      rw [List.take_succ_cons, show k + 1 + pat.length = k + pat.length + 1 by omega, List.drop_succ_cons,
        List.cons_append, ← ih hk]

section Tracking

variable {parse : Httparse} {fed : Bytes} {d : Decoder} {v : Told} {lim : Limits} {rs : List Reading} {r : Reading}

theorem follows_size (hsound : ∀ r ∈ rs, r.Sound parse) (hcomplete : ∀ r ∈ rs, r.Complete)
    (hhead : r.Headed parse .chunked) (hchunks : Chunks r.wire r.parts)
    (hfed : fed = (rs ++ [r]).flatMap Reading.bytes ++ d.unread) (hstate : d.state = .receivingChunked .readingSize) :
    Follows parse fed ((rs ++ [r]).map Reading.told) (d.size lim) := by
  have hstop : Tracked parse fed d ((rs ++ [r]).map Reading.told) :=
    .chunked rs r .readingSize [] hstate hsound hcomplete hhead hchunks rfl hfed
  unfold Decoder.size
  split
  · exact follows_stop hstop
  rename_i pos hpos
  split
  · exact follows_fail hstop.spelled _ _ _
  rename_i text htext
  split
  · exact follows_fail hstop.spelled _ _ _
  rename_i chunkLen hnum
  have hline : SizeLine (d.unread.take pos) chunkLen := by
    refine ⟨position_take hpos, ?_⟩
    rw [htext]
    exact hnum
  have hread : fed = (rs ++ [r]).flatMap Reading.bytes ++ ((d.unread.take pos ++ crlf) ++ d.unread.drop (pos + 2)) := by
    have hsplit := position_split hpos
    rw [List.append_assoc]
    rw [hfed]
    exact congrArg _ hsplit
  unfold Decoder.acceptSize
  dsimp only
  split
  · rename_i hzero
    refine ⟨_, rfl, .chunked rs r .readingTrailers _ rfl hsound hcomplete hhead hchunks ⟨_, ?_, rfl⟩ hread⟩
    rw [← hzero]
    exact hline
  rename_i hzero
  split
  · exact follows_fail hstop.spelled _ _ _
  · exact ⟨_, rfl, .chunked rs r (.readingData chunkLen) _ rfl hsound hcomplete hhead hchunks ⟨hzero, _, hline, rfl⟩ hread⟩

theorem follows_data {n : Nat} {pending : Bytes} (hsound : ∀ r ∈ rs, r.Sound parse) (hcomplete : ∀ r ∈ rs, r.Complete)
    (hhead : r.Headed parse .chunked) (hchunks : Chunks r.wire r.parts) (hpending : Pending (.readingData n) pending)
    (hfed : fed = (rs ++ [r]).flatMap Reading.bytes ++ (pending ++ d.unread))
    (hstate : d.state = .receivingChunked (.readingData n)) :
    Follows parse fed ((rs ++ [r]).map Reading.told) (d.data n) := by
  have hstop : Tracked parse fed d ((rs ++ [r]).map Reading.told) :=
    .chunked rs r _ pending hstate hsound hcomplete hhead hchunks hpending hfed
  obtain ⟨hzero, line, hline, rfl⟩ := hpending
  have hbody : r.start.hasBody = true := hhead.hasBody
  unfold Decoder.data
  split
  · exact follows_stop hstop
  rename_i henough
  split
  · exact follows_fail hstop.spelled _ _ _
  rename_i hboundary
  have hlen : (d.unread.take n).length = n := List.length_take_of_le (by omega)
  have hunread : d.unread = d.unread.take n ++ (crlf ++ d.unread.drop (n + 2)) := by
    have hrest : d.unread.drop n = crlf ++ d.unread.drop (n + 2) := by
      rw [← not_not.1 hboundary, ← List.drop_drop, List.take_append_drop]
    rw [← hrest, List.take_append_drop]
  refine ⟨(rs ++ [{ r with
      wire := r.wire ++ (line ++ crlf ++ (d.unread.take n ++ crlf))
      parts := r.parts ++ [(d.unread.take n, true)] }]).map Reading.told, ?_, ?_⟩
  · show (Told.after _ _).bind pure = _
    rw [after_part hbody hchunks.more, List.map_append]
    rfl
  · refine .chunked rs _ .readingSize [] rfl hsound hcomplete hhead (.chunk hchunks ?_ ?_) rfl ?_
    · rw [hlen]
      exact hline
    · intro hnil
      rw [hnil] at hlen
      exact hzero hlen.symm
    · rw [hfed, bytes_snoc, bytes_snoc]
      conv_lhs => rw [hunread]
      simp

theorem follows_finish {n : Nat} {pending trailers : Bytes} (hsound : ∀ r ∈ rs, r.Sound parse)
    (hcomplete : ∀ r ∈ rs, r.Complete) (hhead : r.Headed parse .chunked) (hchunks : Chunks r.wire r.parts)
    (hpending : Pending .readingTrailers pending)
    (hfed : fed = (rs ++ [r]).flatMap Reading.bytes ++ (pending ++ d.unread)) (htrailers : Trailers trailers)
    (hunread : d.unread = trailers ++ d.unread.drop n) :
    Follows parse fed ((rs ++ [r]).map Reading.told) (d.finish n) := by
  obtain ⟨line, hline, rfl⟩ := hpending
  have hbody : r.start.hasBody = true := hhead.hasBody
  refine ⟨(rs ++ [{ r with
      wire := r.wire ++ (line ++ crlf ++ trailers)
      parts := r.parts ++ [([], false)] }]).map Reading.told, ?_, ?_⟩
  · show (Told.after _ _).bind pure = _
    rw [after_part hbody hchunks.more, List.map_append]
    rfl
  · refine tracked_complete rfl hsound hcomplete ⟨_, hhead, .chunkedEnd hchunks hline htrailers⟩
      (fun _ => ⟨_, _, rfl⟩) ?_
    rw [hfed, bytes_snoc, bytes_snoc]
    show _ = _ ++ (r.head ++ (r.wire ++ (line ++ crlf ++ trailers) ++ d.unread.drop n))
    conv_lhs => rw [hunread]
    simp

theorem follows_trailers {pending : Bytes} (hsound : ∀ r ∈ rs, r.Sound parse) (hcomplete : ∀ r ∈ rs, r.Complete)
    (hhead : r.Headed parse .chunked) (hchunks : Chunks r.wire r.parts) (hpending : Pending .readingTrailers pending)
    (hfed : fed = (rs ++ [r]).flatMap Reading.bytes ++ (pending ++ d.unread))
    (hstate : d.state = .receivingChunked .readingTrailers) :
    Follows parse fed ((rs ++ [r]).map Reading.told) d.trailers := by
  unfold Decoder.trailers
  split
  · rename_i hempty
    obtain ⟨rest, hrest⟩ := List.isPrefixOf_iff_prefix.1 hempty
    refine follows_finish hsound hcomplete hhead hchunks hpending hfed (.inl rfl) ?_
    rw [← hrest]
    rfl
  split
  · exact follows_stop (.chunked rs r _ pending hstate hsound hcomplete hhead hchunks hpending hfed)
  · rename_i pos hpos
    refine follows_finish hsound hcomplete hhead hchunks hpending hfed (.inr ⟨_, rfl, position_take hpos⟩) ?_
    have hsplit := position_split hpos
    rw [List.append_assoc]
    exact hsplit

/-- The owner can follow every step of the decoder. -/
theorem follows_step (hparse : InRange parse) (h : Tracked parse fed d v) : Follows parse fed v (d.step lim parse) := by
  unfold Decoder.step
  cases id h with
  | between rs hstate hsound hcomplete hfed =>
    rcases hstate with hs | hs | hs
    · rw [hs]
      exact follows_header hparse hsound hcomplete hfed h
    · rw [hs]
      exact follows_header hparse hsound hcomplete hfed h
    · rw [hs]
      exact follows_stop h
  | gone hs _ =>
    rw [hs]
    exact follows_stop h
  | sized rs r total remaining hs hsound hcomplete hhead hmore hwire htotal hleft hfed =>
    rw [hs]
    show Follows parse fed _ (d.contentLength remaining)
    unfold Decoder.contentLength
    split
    · exact follows_stop h
    · exact follows_takeBody hsound hcomplete hhead hmore hwire htotal hleft hfed
  | chunked rs r stage pending hs hsound hcomplete hhead hchunks hpending hfed =>
    rw [hs]
    cases stage with
    | readingSize =>
      obtain rfl : pending = [] := hpending
      exact follows_size hsound hcomplete hhead hchunks hfed hs
    | readingData n => exact follows_data hsound hcomplete hhead hchunks hpending hfed hs
    | readingTrailers => exact follows_trailers hsound hcomplete hhead hchunks hpending hfed hs

end Tracking

namespace FastHttpConnection

variable {parse : Httparse} {c : FastHttpConnection} {fed : Bytes} {v : Told}

theorem kept_tracked (hparse : InRange parse) (fed : Bytes) :
    Kept Told.after (fun c v => Tracked parse fed c.view v) parse := by
  apply kept_of_step hparse
  · rintro c v - htracked
    exact ⟨v, rfl, .gone rfl htracked.spelled⟩
  · rintro c v - - htracked
    have hfollows : Follows parse fed v (c.view.step c.limits parse) := follows_step hparse htracked
    obtain ⟨v', htold, htracked'⟩ := hfollows
    refine ⟨v', htold, ?_⟩
    rw [view_step]
    exact htracked'

/-! ## A jammed engine -/

/-- The next round panics. -/
def Jammed (parse : Httparse) (c : FastHttpConnection) : Prop := ∃ e, c.round .release parse = .error e

/-- Before a chunk whose end wraps around the next round panics if enough bytes
are there, and those around the cursor do not tell that the chunk is
malformed. -/
theorem jammed_iff (parse : Httparse) (c : FastHttpConnection) (hm : c.mode = .http11) (hf : c.Fits) {n : Nat} (hs : c.state = .receivingChunked (.readingData n))
    (hn : n < usizeEnd) (hsum : usizeEnd ≤ n + 2) :
    c.Jammed parse ↔ n + 2 - usizeEnd ≤ c.buffer.length - c.cursor ∧
      (c.cursor + n < usizeEnd ∨ (c.buffer.drop (c.cursor + n - usizeEnd)).take 2 = crlf) := by
  have hbig : 2 ^ 63 + 4 < usizeEnd := by decide
  have hlen := hf.length
  have hcur := hf.cursor
  have hround : c.round .release parse = c.dataRound .release n := by
    unfold round httpRound
    rw [hm, hs]
  unfold Jammed
  rw [hround]
  have hneeded : (n + 2) % usizeEnd = n + 2 - usizeEnd := by
    rw [Nat.mod_eq_sub_mod hsum]
    exact Nat.mod_eq_of_lt (by omega)
  unfold dataRound
  rw [sub_cursor hf, ok_bind, Arith.add_release, ok_bind, unread_length, hneeded]
  by_cases hfew : c.buffer.length - c.cursor < n + 2 - usizeEnd
  · rw [if_pos hfew]
    constructor
    · rintro ⟨e, he⟩
      cases he
    · intro h
      omega
  rw [if_neg hfew, Arith.add_release, ok_bind, Arith.add_release, ok_bind]
  have henough : n + 2 - usizeEnd ≤ c.buffer.length - c.cursor := Nat.not_lt.1 hfew
  by_cases hwrap : c.cursor + n < usizeEnd
  · have hinverted : (c.cursor + n + 2) % usizeEnd < c.cursor + n := by
      rw [Nat.mod_eq_sub_mod (by omega)]
      refine Nat.lt_of_le_of_lt (Nat.mod_le _ _) ?_
      omega
    rw [Nat.mod_eq_of_lt hwrap, slice_inverted hinverted]
    exact ⟨fun _ => ⟨henough, .inl hwrap⟩, fun _ => ⟨_, rfl⟩⟩
  · have hend : (c.cursor + n) % usizeEnd = c.cursor + n - usizeEnd := by
      rw [Nat.mod_eq_sub_mod (Nat.not_lt.1 hwrap)]
      exact Nat.mod_eq_of_lt (by omega)
    have hnext : (c.cursor + n - usizeEnd + 2) % usizeEnd = c.cursor + n - usizeEnd + 2 :=
      Nat.mod_eq_of_lt (by omega)
    have hle : c.cursor + n - usizeEnd + 2 ≤ c.buffer.length := by omega
    have hboundary : slice c.buffer (c.cursor + n - usizeEnd) (c.cursor + n - usizeEnd + 2) =
        .ok ((c.buffer.drop (c.cursor + n - usizeEnd)).take 2) :=
      slice_next (by rw [List.length_drop]; omega) (Nat.le_trans (Nat.le_add_right _ 2) hle)
    rw [hend, hnext, hboundary, ok_bind]
    by_cases hcrlf : (c.buffer.drop (c.cursor + n - usizeEnd)).take 2 = crlf
    · rw [if_neg (not_not.2 hcrlf), slice_inverted (by omega)]
      exact ⟨fun _ => ⟨henough, .inr hcrlf⟩, fun _ => ⟨_, rfl⟩⟩
    · rw [if_pos hcrlf]
      constructor
      · rintro ⟨e, he⟩
        cases he
      · rintro ⟨-, h | h⟩
        · exact absurd h hwrap
        · exact absurd h hcrlf

theorem Jammed.wraps (hparse : InRange parse) (hb : c.Bounded) (hm : c.mode = .http11) (h : c.Jammed parse) :
    c.state.Wraps := by
  obtain ⟨e, he⟩ := h
  exact wraps_of_fault hparse hb hm he

theorem Jammed.compact (hparse : InRange parse) (hb : c.Bounded) (hm : c.mode = .http11) (h : c.Jammed parse) :
    c.compactBuffer.Jammed parse := by
  obtain ⟨n, hs, hsum⟩ := h.wraps hparse hb hm
  have hn := hb.data n hs
  obtain ⟨hv, hmode, -, -⟩ := view_compact (c := c)
  have hs' : c.compactBuffer.state = .receivingChunked (.readingData n) := (congrArg Decoder.state hv).trans hs
  have hlen : c.compactBuffer.unread.length = c.unread.length := congrArg (fun d => d.unread.length) hv
  rw [unread_length, unread_length] at hlen
  have hj := (jammed_iff parse c hm hb.fits hs hn hsum).1 h
  refine (jammed_iff parse _ (hmode.trans hm) hb.compact.fits hs' hn hsum).2 ⟨?_, ?_⟩
  · rw [hlen]
    exact hj.1
  have hmoved : c.compactBuffer = c ∨ c.compactBuffer.cursor = 0 := by
    unfold compactBuffer
    split
    · exact .inr rfl
    split
    · exact .inr rfl
    · exact .inl rfl
  rcases hmoved with hsame | hzero
  · rw [hsame]
    exact hj.2
  · left
    rw [hzero, Nat.zero_add]
    exact hn

theorem Jammed.append (hparse : InRange parse) (hb : c.Bounded) (hm : c.mode = .http11) (h : c.Jammed parse) {data : Bytes}
    (hroom : (c.buffer ++ data).length < 2 ^ 63) :
    ({ c with buffer := c.buffer ++ data } : FastHttpConnection).Jammed parse := by
  obtain ⟨n, hs, hsum⟩ := h.wraps hparse hb hm
  have hn := hb.data n hs
  have hcur := hb.fits.cursor
  obtain ⟨henough, hnear⟩ := (jammed_iff parse c hm hb.fits hs hn hsum).1 h
  refine (jammed_iff parse { c with buffer := c.buffer ++ data } hm (hb.append hroom).fits hs hn hsum).2 ⟨?_, hnear.imp_right fun hcrlf => ?_⟩
  · show _ ≤ (c.buffer ++ data).length - c.cursor
    rw [List.length_append]
    omega
  · show ((c.buffer ++ data).drop (c.cursor + n - usizeEnd)).take 2 = crlf
    have htwo : 2 ≤ (c.buffer.drop (c.cursor + n - usizeEnd)).length := by
      have hlen := congrArg List.length hcrlf
      rw [List.length_take, show crlf.length = 2 from rfl] at hlen
      omega
    rw [List.length_drop] at htwo
    have hle : c.cursor + n - usizeEnd ≤ c.buffer.length := Nat.le_of_lt (Nat.lt_of_sub_pos (Nat.lt_of_lt_of_le Nat.two_pos htwo))
    rw [List.drop_append_of_le_length hle, List.take_append_of_le_length (by rw [List.length_drop]; exact htwo)]
    exact hcrlf

/-- A call of an engine that is jammed panics, and leaves it so. -/
theorem Jammed.call (hparse : InRange parse) (hb : c.Bounded) (hm : c.mode = .http11) (h : c.Jammed parse) :
    (c.processEvents .release parse).fault ≠ none := by
  obtain ⟨e, he⟩ := h.compact hparse hb hm
  unfold processEvents
  rw [show c.enough = c.buffer.length + 2 + 1 from rfl]
  simp only [rounds, he]
  exact Option.some_ne_none e

theorem jammed_rounds (hparse : InRange parse) {fuel : Nat} (hb : c.Bounded) (hm : c.mode = .http11)
    (hf : c.view.work < fuel) (hfault : (rounds .release parse fuel c).fault ≠ none) :
    (rounds .release parse fuel c).conn.Jammed parse := by
  induction fuel generalizing c with
  | zero => exact absurd hf (Nat.not_lt_zero _)
  | succ fuel ih =>
    unfold rounds at hfault ⊢
    split at hfault
    · rename_i fault hr
      exact ⟨fault, hr⟩
    · exact absurd rfl hfault
    · rename_i c' events hr
      have hless : c'.view.work < c.view.work := work_round hparse hb hm hr
      exact ih (hb.round hparse hr) (mode_round hparse hb hm hr) (by omega) hfault

/-- A call that panics leaves the engine jammed. -/
theorem jammed_of_fault (hparse : InRange parse) (hb : c.Bounded) (hm : c.mode = .http11)
    (hfault : (c.processEvents .release parse).fault ≠ none) : (c.processEvents .release parse).conn.Jammed parse := by
  obtain ⟨hv, hmode, -, -⟩ := view_compact (c := c)
  have hwork := Decoder.work_le c.view
  rw [view_unread, unread_length] at hwork
  apply jammed_rounds hparse hb.compact (hmode.trans hm) _ hfault
  rw [hv]
  unfold enough
  omega

/-! ## The engine in the stream -/

/-- What the owner was told, and the engine: it stands somewhere in the bytes
received, or is jammed, whatever it has read since. -/
def Linked (parse : Httparse) (fed : Bytes) (c : FastHttpConnection) (v : Told) : Prop :=
  Tracked parse fed c.view v ∨ c.Jammed parse ∧ Spelled parse fed v

theorem Linked.spelled (h : c.Linked parse fed v) : Spelled parse fed v := h.elim Tracked.spelled And.right

/-- More bytes are received. -/
theorem Linked.append (hparse : InRange parse) (hb : c.Bounded) (hm : c.mode = .http11) (h : c.Linked parse fed v)
    {data : Bytes} (hroom : (c.buffer ++ data).length < 2 ^ 63) :
    Linked parse (fed ++ data) { c with buffer := c.buffer ++ data } v := by
  have hlater : Spelled parse fed v → Spelled parse (fed ++ data) v := by
    rintro ⟨rs, hv, hsound, hcomplete, rest, hfed⟩
    exact ⟨rs, hv, hsound, hcomplete, rest ++ data, by rw [hfed, List.append_assoc]⟩
  have hunread : ({ c with buffer := c.buffer ++ data } : FastHttpConnection).view.unread = c.view.unread ++ data :=
    List.drop_append_of_le_length hb.fits.cursor
  refine h.imp (fun htracked => ?_) fun ⟨hj, hspelled⟩ => ⟨hj.append hparse hb hm hroom, hlater hspelled⟩
  cases htracked with
  | between rs hstate hsound hcomplete hfed =>
    exact .between rs hstate hsound hcomplete (by rw [hunread, hfed, List.append_assoc])
  | gone hstate hspelled => exact .gone hstate (hlater hspelled)
  | sized rs r total remaining hstate hsound hcomplete hhead hmore hwire htotal hleft hfed =>
    exact .sized rs r total remaining hstate hsound hcomplete hhead hmore hwire htotal hleft
      (by rw [hunread, hfed, List.append_assoc])
  | chunked rs r stage pending hstate hsound hcomplete hhead hchunks hpending hfed =>
    exact .chunked rs r stage pending hstate hsound hcomplete hhead hchunks hpending
      (by rw [hunread, hfed]; simp only [List.append_assoc])

/-- The engine is reset. -/
theorem Linked.reset (hparse : InRange parse) (hb : c.Bounded) (hm : c.mode = .http11) (h : c.Linked parse fed v) :
    c.resetForNextRequest.Linked parse fed v := by
  by_cases hs : c.state = .servingApp
  · have htracked := h.resolve_right fun hj => by
      obtain ⟨n, hn, -⟩ := hj.1.wraps hparse hb hm
      rw [hs] at hn
      cases hn
    unfold resetForNextRequest
    rw [if_pos hs]
    cases id htracked with
    | between rs hstate hsound hcomplete hfed =>
      split
      · exact .inl (.gone rfl htracked.spelled)
      · exact .inl (.between rs (.inr (.inl rfl)) hsound hcomplete hfed)
    | gone hstate _ =>
      change c.state = .closed at hstate
      rw [hs] at hstate
      cases hstate
    | sized rs r total remaining hstate =>
      change c.state = _ at hstate
      rw [hs] at hstate
      cases hstate
    | chunked rs r stage pending hstate =>
      change c.state = _ at hstate
      rw [hs] at hstate
      cases hstate
  · have hsame : c.resetForNextRequest = c := if_neg hs
    rw [hsame]
    exact h

/-- A call that returns: the owner is told what the engine reads. -/
theorem Linked.told (hparse : InRange parse) (hb : c.Bounded) (hm : c.mode = .http11) (h : c.Linked parse fed v)
    (hfault : (c.processEvents .release parse).fault = none) :
    ∃ v', (c.processEvents .release parse).events.foldlM Told.after v = some v' ∧
      (c.processEvents .release parse).conn.Linked parse fed v' := by
  have htracked := h.resolve_right fun hj => hj.1.call hparse hb hm hfault
  have hcompact : Tracked parse fed c.compactBuffer.view v := by
    rw [(view_compact (c := c)).1]
    exact htracked
  obtain ⟨-, v', htold, htracked'⟩ := (observed_processEvents hparse (kept_tracked hparse fed) hb hm hcompact).told hfault
  exact ⟨v', htold, .inl htracked'⟩

/-- A call that panics tells nothing. -/
theorem Linked.panicked (hparse : InRange parse) (hb : c.Bounded) (hm : c.mode = .http11) (h : c.Linked parse fed v)
    (hfault : (c.processEvents .release parse).fault ≠ none) :
    (c.processEvents .release parse).conn.Linked parse fed v :=
  .inr ⟨jammed_of_fault hparse hb hm hfault, h.spelled⟩

theorem linked_new (maxBodySize maxHeaderSize maxKeepaliveRequests : Nat) :
    (new maxBodySize maxHeaderSize maxKeepaliveRequests).Linked parse [] [] :=
  .inl (.between [] (.inl rfl) (fun _ hr => absurd hr List.not_mem_nil) (fun _ hr => absurd hr List.not_mem_nil) rfl)

end FastHttpConnection

end Multiloop.Http
