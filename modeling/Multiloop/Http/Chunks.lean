import Multiloop.Http.Grammar
import Multiloop.Http.Wire

/-!
# Chunks, there and back

An engine that has just read the head of a chunked request, and is fed what
`format_chunk` returns for some chunks: however the bytes are cut, it tells
these chunks and the end of the body, and leaves what follows it unread.

`At` is where in the coded body a decoder is: what it has not read yet and what
it is still to be fed are the rest of the coding. A step goes on to a later
place or waits for bytes that are still to come.
-/

namespace Multiloop.Http

/-! ## Size lines -/

theorem hexDigit_spec {b : UInt8} (h : isHexDigit b = true) :
    b < 0x80 ∧ isWhitespace (chr b) = false ∧ chr b ≠ '+' ∧ toDigit 16 (chr b) = some (hexDigit b) := by
  have hall : ∀ n < 103, isHexDigit (UInt8.ofNat n) = true → UInt8.ofNat n < 0x80 ∧
      isWhitespace (chr (UInt8.ofNat n)) = false ∧ chr (UInt8.ofNat n) ≠ '+' ∧
      toDigit 16 (chr (UInt8.ofNat n)) = some (hexDigit (UInt8.ofNat n)) := by decide +kernel
  have hb : b.toNat < 103 := by
    rcases of_decide_eq_true h with hd | ⟨-, hd⟩ | ⟨-, hd⟩
    · have hle := UInt8.le_iff_toNat_le.1 (of_decide_eq_true hd).2
      change b.toNat ≤ 57 at hle
      omega
    · have hle := UInt8.le_iff_toNat_le.1 hd
      change b.toNat ≤ 70 at hle
      omega
    · have hle := UInt8.le_iff_toNat_le.1 hd
      change b.toNat ≤ 102 at hle
      omega
  have hspec := hall b.toNat hb
  rw [UInt8.ofNat_toNat] at hspec
  exact hspec h

theorem sizeText_upperHex (n : Nat) : FastHttpConnection.sizeText (upperHex n) = some ((upperHex n).map chr) := by
  have hhex := isHexDigit_upperHex n
  have hline : (upperHex n).takeWhile (· ≠ 59) = upperHex n :=
    List.takeWhile_eq_self_iff.2 fun b hb => decide_eq_true (ne_of_hexDigit (hhex b hb) (by decide))
  have hstrip : stripOws (upperHex n) = upperHex n := stripOws_of_not fun b hb => isOws_hexDigit (hhex b hb)
  have htrim := trim_stripOws (v := upperHex n) fun b hb => by
    rw [hstrip] at hb
    exact ⟨(hexDigit_spec (hhex b hb)).1, (hexDigit_spec (hhex b hb)).2.1⟩
  unfold FastHttpConnection.sizeText
  rw [hline, fromUtf8_ascii htrim.1, Option.map_some, htrim.2, hstrip]

theorem fromStrRadix_upperHex {n : Nat} (hn : n < 2 ^ 64) : fromStrRadix 16 ((upperHex n).map chr) = some n := by
  have hhex := isHexDigit_upperHex n
  have hvalue : (upperHex n).foldl (fun n b => n * 16 + hexDigit b) 0 = n := hexValue_upperHex n
  have hacc := accumulate_foldl 16 (by decide) (fun b hb => (hexDigit_spec (hhex b hb)).2.2.2)
    (show 0 < 2 ^ 64 by decide)
  rw [hvalue, if_pos hn] at hacc
  cases hs : upperHex n with
  | nil => exact absurd hs (upperHex_ne_nil n)
  | cons b ds =>
    rw [hs] at hacc
    have hb : chr b ≠ '+' := (hexDigit_spec (hhex b (hs ▸ .head _))).2.2.1
    exact (fromStrRadix_cons hb 16 (ds.map chr)).trans hacc

/-- The first end of a line comes after bytes without a carriage return. -/
theorem position_line {line : Bytes} (hline : 13 ∉ line) (rest : Bytes) :
    position crlf (line ++ (crlf ++ rest)) = some line.length := by
  induction line with
  | nil => rfl
  | cons b line ih =>
    have hb : b ≠ 13 := fun h => hline (h ▸ .head _)
    have hno : ¬ crlf.isPrefixOf (b :: (line ++ (crlf ++ rest))) = true := by
      intro h
      have hhead := List.cons_prefix_cons.1 (List.isPrefixOf_iff_prefix.1 h)
      exact hb hhead.1.symm
    rw [List.cons_append, position_cons, if_neg hno, ih fun h => hline (.tail _ h)]
    rfl

/-- Bytes that are expected first, taken off the bytes at hand. -/
theorem take_off {u future w rest : Bytes} (h : u ++ future = w ++ rest) (hle : w.length ≤ u.length) :
    ∃ u', u = w ++ u' ∧ u' ++ future = rest := by
  rcases List.append_eq_append_iff.1 h with ⟨a, hw, hfuture⟩ | ⟨a, hu, hrest⟩
  · have ha : a = [] := by
      have hlen := congrArg List.length hw
      rw [List.length_append] at hlen
      exact List.length_eq_zero_iff.1 (by omega)
    rw [ha, List.append_nil] at hw
    rw [ha, List.nil_append] at hfuture
    exact ⟨[], by rw [hw, List.append_nil], hfuture⟩
  · exact ⟨a, hu, hrest.symm⟩

/-- A line that is in the bytes at hand in full, with its end, or not yet. -/
theorem position_prefix {u future line rest : Bytes} (hline : 13 ∉ line) (h : u ++ future = line ++ (crlf ++ rest)) :
    (position crlf u = none ∧ future ≠ []) ∨
      position crlf u = some line.length ∧ ∃ u', u = line ++ (crlf ++ u') ∧ u' ++ future = rest := by
  cases hpos : position crlf u with
  | none =>
    refine .inl ⟨rfl, fun hnil => ?_⟩
    rw [hnil, List.append_nil] at h
    rw [h, position_line hline] at hpos
    cases hpos
  | some pos =>
    have hfirst := position_append hpos future
    rw [h, position_line hline] at hfirst
    cases hfirst
    refine .inr ⟨rfl, ?_⟩
    have hsplit : u ++ future = (line ++ crlf) ++ rest := by rw [h, List.append_assoc]
    obtain ⟨u', hu, hrest⟩ := take_off hsplit (by rw [List.length_append]; exact position_le hpos)
    exact ⟨u', by rw [hu, List.append_assoc], hrest⟩

/-! ## Coded bodies -/

/-- Chunks that `format_chunk` writes as chunks: bytes that fit in memory, and
not none. -/
def AreChunks (chunks : List Bytes) : Prop := ∀ chunk ∈ chunks, chunk ≠ [] ∧ chunk.length < 2 ^ 63

instance (chunks : List Bytes) : Decidable (AreChunks chunks) := List.decidableBAll _ chunks

/-- The chunks, with the end of the body in a part of its own. -/
def coded (chunks : List Bytes) : Bytes := chunks.flatMap (formatChunk · true) ++ formatChunk [] false

/-- The events of a body in chunks. -/
def chunkEvents (chunks : List Bytes) : List Event := chunks.map (.body · true) ++ [.body [] false]

theorem coded_nil : coded [] = bytes "0" ++ (crlf ++ crlf) := rfl

theorem coded_cons {chunk : Bytes} (hne : chunk ≠ []) (chunks : List Bytes) :
    coded (chunk :: chunks) = upperHex chunk.length ++ (crlf ++ (chunk ++ (crlf ++ coded chunks))) := by
  simp [coded, formatChunk, hne]

/-- The end of the body may be in the last part. -/
theorem coded_append (chunks : List Bytes) (last : Bytes) :
    chunks.flatMap (formatChunk · true) ++ formatChunk last false = coded (chunks ++ [last]) := by
  rw [coded, List.flatMap_append, List.append_assoc, formatChunk_last]
  simp [formatChunk]

namespace Decoder

variable {lim : Limits} {parse : Httparse} {d : Decoder} {rest future : Bytes} {evs : List Event}

/-- Where in a coded body a decoder is that has yet to be fed `future`, and the
events that it has yet to tell before `rest`. -/
inductive At (lim : Limits) (rest future : Bytes) (d : Decoder) : List Event → Prop
  | size {chunks : List Bytes} (hs : d.state = .receivingChunked .readingSize) (hc : AreChunks chunks)
    (hin : d.unread ++ future = coded chunks ++ rest)
    (htotal : d.totalBodyReceived + chunks.flatten.length ≤ lim.maxBodySize) : At lim rest future d (chunkEvents chunks)
  | data {chunk : Bytes} {chunks : List Bytes} (hs : d.state = .receivingChunked (.readingData chunk.length))
    (hc : AreChunks (chunk :: chunks)) (hin : d.unread ++ future = chunk ++ crlf ++ (coded chunks ++ rest))
    (htotal : d.totalBodyReceived + chunks.flatten.length ≤ lim.maxBodySize) :
    At lim rest future d (.body chunk true :: chunkEvents chunks)
  | trailers (hs : d.state = .receivingChunked .readingTrailers) (hin : d.unread ++ future = crlf ++ rest) :
    At lim rest future d [.body [] false]
  | done (hs : d.state = .servingApp) (hin : d.unread ++ future = rest) : At lim rest future d []

/-- A decoder at a place in a coded body goes on to a later one, or waits for
bytes that are still to come. -/
def Proceeds (lim : Limits) (parse : Httparse) (rest future : Bytes) (d : Decoder) (evs : List Event) : Prop :=
  (d.step lim parse = (d, [], .stop) ∧ (future = [] → d.state = .servingApp)) ∨
    ∃ d₁ e evs', d.step lim parse = (d₁, e, .again) ∧ evs = e ++ evs' ∧ At lim rest future d₁ evs'

theorem proceeds_size {chunks : List Bytes} (hs : d.state = .receivingChunked .readingSize) (hc : AreChunks chunks)
    (hin : d.unread ++ future = coded chunks ++ rest)
    (htotal : d.totalBodyReceived + chunks.flatten.length ≤ lim.maxBodySize) :
    Proceeds lim parse rest future d (chunkEvents chunks) := by
  have hstep : d.step lim parse = d.size lim := by
    unfold step
    rw [hs]
  cases chunks with
  | nil =>
    rw [coded_nil, List.append_assoc, List.append_assoc] at hin
    rcases position_prefix (by decide) hin with ⟨hpos, hfuture⟩ | ⟨hpos, u', hu, hrest⟩
    · refine .inl ⟨?_, fun h => absurd h hfuture⟩
      rw [hstep, size, hpos]
    · refine .inr ⟨{ d with unread := u', state := .receivingChunked .readingTrailers }, [], [.body [] false], ?_, rfl,
        .trailers rfl hrest⟩
      have htext : FastHttpConnection.sizeText (d.unread.take (bytes "0").length) = some ['0'] := by
        rw [hu, List.take_left]
        decide
      have hdrop : d.unread.drop ((bytes "0").length + 2) = u' := by rw [hu]; rfl
      rw [hstep, size, hpos]
      dsimp only
      rw [htext]
      dsimp only
      rw [show fromStrRadix 16 ['0'] = some 0 by decide]
      dsimp only
      unfold acceptSize
      dsimp only
      rw [if_pos rfl, hdrop]
  | cons chunk chunks =>
    obtain ⟨hne, hlen⟩ := hc chunk (.head _)
    rw [coded_cons hne, List.append_assoc, List.append_assoc] at hin
    have hline : 13 ∉ upperHex chunk.length := fun h =>
      ne_of_hexDigit (isHexDigit_upperHex _ 13 h) (by decide) rfl
    rcases position_prefix hline hin with ⟨hpos, hfuture⟩ | ⟨hpos, u', hu, hrest⟩
    · refine .inl ⟨?_, fun h => absurd h hfuture⟩
      rw [hstep, size, hpos]
    · have hpos' : chunk.length ≠ 0 := fun h => hne (List.length_eq_zero_iff.1 h)
      rw [List.flatten_cons, List.length_append] at htotal
      have htext : FastHttpConnection.sizeText (d.unread.take (upperHex chunk.length).length) =
          some ((upperHex chunk.length).map chr) := by
        rw [hu, List.take_left, sizeText_upperHex]
      have hdrop : d.unread.drop ((upperHex chunk.length).length + 2) = u' := by
        rw [hu, ← List.append_assoc]
        exact List.drop_left' (by rw [List.length_append]; rfl)
      have hsum : (d.totalBodyReceived + chunk.length) % usizeEnd ≤ d.totalBodyReceived + chunk.length := Nat.mod_le _ _
      refine .inr ⟨{ d with
          unread := u'
          totalBodyReceived := (d.totalBodyReceived + chunk.length) % usizeEnd
          state := .receivingChunked (.readingData chunk.length) }, [], _, ?_, rfl, .data rfl hc ?_ ?_⟩
      · rw [hstep, size, hpos]
        dsimp only
        rw [htext]
        dsimp only
        rw [fromStrRadix_upperHex (by omega)]
        dsimp only
        unfold acceptSize
        dsimp only
        rw [if_neg hpos', if_neg (by omega), hdrop]
      · rw [hrest, List.append_assoc, List.append_assoc, List.append_assoc]
      · show (d.totalBodyReceived + chunk.length) % usizeEnd + chunks.flatten.length ≤ lim.maxBodySize
        omega

theorem proceeds_data {chunk : Bytes} {chunks : List Bytes}
    (hs : d.state = .receivingChunked (.readingData chunk.length)) (hc : AreChunks (chunk :: chunks))
    (hin : d.unread ++ future = chunk ++ crlf ++ (coded chunks ++ rest))
    (htotal : d.totalBodyReceived + chunks.flatten.length ≤ lim.maxBodySize) :
    Proceeds lim parse rest future d (.body chunk true :: chunkEvents chunks) := by
  have hstep : d.step lim parse = d.data chunk.length := by
    unfold step
    rw [hs]
  have hlen : (chunk ++ crlf).length = chunk.length + 2 := List.length_append
  by_cases hshort : d.unread.length < chunk.length + 2
  · refine .inl ⟨?_, fun hnil => ?_⟩
    · rw [hstep, data, if_pos hshort]
    · rw [hnil, List.append_nil] at hin
      rw [hin, List.length_append] at hshort
      omega
  · obtain ⟨u', hu, hrest⟩ := take_off hin (by omega)
    refine .inr ⟨{ d with unread := u', state := .receivingChunked .readingSize }, [.body chunk true],
      chunkEvents chunks, ?_, rfl, .size rfl (fun c h => hc c (.tail _ h)) hrest htotal⟩
    have hboundary : (d.unread.drop chunk.length).take 2 = crlf := by
      rw [hu, List.append_assoc, List.drop_left]
      rfl
    have htake : d.unread.take chunk.length = chunk := by
      rw [hu, List.append_assoc, List.take_left]
    have hdrop : d.unread.drop (chunk.length + 2) = u' := by
      rw [hu]
      exact List.drop_left' hlen
    rw [hstep, data, if_neg hshort, if_neg (not_not.2 hboundary), htake, hdrop]

theorem proceeds_trailers (hs : d.state = .receivingChunked .readingTrailers) (hin : d.unread ++ future = crlf ++ rest) :
    Proceeds lim parse rest future d [.body [] false] := by
  have hstep : d.step lim parse = d.trailers := by
    unfold step
    rw [hs]
  by_cases hshort : d.unread.length < 2
  · have hpre : ¬ crlf.isPrefixOf d.unread = true := by
      intro h
      have hle := (List.isPrefixOf_iff_prefix.1 h).length_le
      change 2 ≤ d.unread.length at hle
      omega
    have hpos : position (crlf ++ crlf) d.unread = none := by
      cases hp : position (crlf ++ crlf) d.unread with
      | none => rfl
      | some pos =>
        have hle := position_le hp
        change pos + 4 ≤ d.unread.length at hle
        omega
    refine .inl ⟨?_, fun hnil => ?_⟩
    · rw [hstep, trailers, if_neg hpre, hpos]
    · rw [hnil, List.append_nil] at hin
      rw [hin, List.length_append] at hshort
      change 2 + rest.length < 2 at hshort
      omega
  · obtain ⟨u', hu, hrest⟩ := take_off hin (Nat.not_lt.1 hshort)
    have hpre : crlf.isPrefixOf d.unread = true := by
      rw [List.isPrefixOf_iff_prefix, hu]
      exact List.prefix_append _ _
    refine .inr ⟨{ d with unread := u', state := .servingApp }, [.body [] false], [], ?_, rfl, .done rfl hrest⟩
    rw [hstep, trailers, if_pos hpre, finish, hu]
    rfl

theorem At.proceeds (parse : Httparse) (h : At lim rest future d evs) : Proceeds lim parse rest future d evs := by
  cases h with
  | size hs hc hin htotal => exact proceeds_size hs hc hin htotal
  | data hs hc hin htotal => exact proceeds_data hs hc hin htotal
  | trailers hs hin => exact proceeds_trailers hs hin
  | done hs hin => exact .inl ⟨step_of_idle (.inr hs), fun _ => hs⟩

theorem At.sound (h : At lim rest future d evs) : d.Sound := by
  intro n hn
  cases h with
  | size hs hc hin htotal => rw [hs] at hn; cases hn
  | trailers hs hin => rw [hs] at hn; cases hn
  | done hs hin => rw [hs] at hn; cases hn
  | @data chunk chunks hs hc hin htotal =>
    rw [hs] at hn
    cases hn
    have hlen := (hc chunk (.head _)).2
    rw [usizeEnd]
    omega

/-- A call goes on to a later place, and to the end if nothing is to come. -/
theorem At.runs (parse : Httparse) (h : At lim rest future d evs) : ∃ d' evs₁ evs₂, Runs lim parse d evs₁ d' ∧ evs = evs₁ ++ evs₂ ∧
    At lim rest future d' evs₂ ∧ (future = [] → d'.state = .servingApp) := by
  induction hw : d.work using Nat.strong_induction_on generalizing d evs with
  | _ n ih =>
    rcases h.proceeds parse with ⟨hstop, hend⟩ | ⟨d₁, e, evs', hagain, rfl, hat⟩
    · exact ⟨d, [], evs, .stop h.sound hstop, rfl, h, hend⟩
    · obtain ⟨d', evs₁, evs₂, hruns, rfl, hat', hend⟩ := ih d₁.work (hw ▸ work_step hagain) hat rfl
      exact ⟨d', e ++ evs₁, evs₂, .again h.sound hagain hruns, (List.append_assoc _ _ _).symm, hat', hend⟩

/-- A decoder that has read the whole body. -/
theorem At.served (h : At lim rest future d evs) (hs : d.state = .servingApp) : evs = [] ∧ d.unread ++ future = rest := by
  cases h with
  | done _ hin => exact ⟨rfl, hin⟩
  | size hs' => rw [hs] at hs'; cases hs'
  | data hs' => rw [hs] at hs'; cases hs'
  | trailers hs' => rw [hs] at hs'; cases hs'

/-- The next segment arrives. -/
theorem At.feed {seg : Bytes} (h : At lim rest (seg ++ future) d evs) : At lim rest future (d.feed seg) evs := by
  have hmove : (d.feed seg).unread ++ future = d.unread ++ (seg ++ future) := List.append_assoc _ _ _
  cases h with
  | size hs hc hin htotal => exact .size hs hc (hmove.trans hin) htotal
  | data hs hc hin htotal => exact .data hs hc (hmove.trans hin) htotal
  | trailers hs hin => exact .trailers hs (hmove.trans hin)
  | done hs hin => exact .done hs (hmove.trans hin)

end Decoder

/-! ## Segments -/

namespace FastHttpConnection

variable {parse : Httparse} {c : FastHttpConnection} {rest : Bytes} {evs : List Event}

/-- One call of `feed_data` for each segment, up to one that panics: what they
leave, and the events of all of them. -/
def feedAll (m : Arith) (parse : Httparse) (c : FastHttpConnection) : List Bytes → Outcome
  | [] => ⟨c, [], none⟩
  | seg :: segs =>
    let o := c.feedData m parse seg
    if o.fault = none then
      let rest := feedAll m parse o.conn segs
      { rest with events := o.events ++ rest.events }
    else o

/-- Every segment finds room in the buffer: a `Vec` has at most `isize::MAX`
bytes. -/
def HasRoom (m : Arith) (parse : Httparse) (c : FastHttpConnection) : List Bytes → Prop
  | [] => True
  | seg :: segs => (c.buffer ++ seg).length < 2 ^ 63 ∧ HasRoom m parse (c.feedData m parse seg).conn segs

instance decidableHasRoom (m : Arith) (parse : Httparse) : ∀ (c : FastHttpConnection) (segs : List Bytes),
    Decidable (c.HasRoom m parse segs)
  | _, [] => .isTrue trivial
  | c, seg :: segs =>
    have := decidableHasRoom m parse (c.feedData m parse seg).conn segs
    inferInstanceAs (Decidable ((c.buffer ++ seg).length < 2 ^ 63 ∧ _))

/-- A call that reaches a place in a coded body is followed by calls to its
end. -/
theorem feedAll_at (hparse : InRange parse) {segs : List Bytes} {seg : Bytes} (hb : c.Bounded) (hm : c.mode = .http11)
    (hroom : HasRoom .release parse c (seg :: segs)) {evs₁ evs₂ : List Event} {d : Decoder}
    (hruns : Decoder.Runs c.limits parse (c.view.feed seg) evs₁ d)
    (hat : Decoder.At c.limits rest segs.flatten d evs₂) (hend : segs.flatten = [] → d.state = .servingApp) :
    ∃ c', feedAll .release parse c (seg :: segs) = ⟨c', evs₁ ++ evs₂, none⟩ ∧ c'.state = .servingApp ∧
      c'.unread = rest := by
  induction segs generalizing c seg d evs₁ evs₂ with
  | nil =>
    obtain ⟨c', hcall, rfl, -⟩ := feedData_eq hparse hb hm hroom.1 hruns
    obtain ⟨rfl, hrest⟩ := hat.served (hend rfl)
    refine ⟨c', ?_, hend rfl, (List.append_nil _).symm.trans hrest⟩
    simp only [feedAll, hcall, if_true]
  | cons seg' segs ih =>
    obtain ⟨c₁, hcall, rfl, hb₁, hm₁, hl₁, -⟩ := feedData_eq hparse hb hm hroom.1 hruns
    have hroom₁ : HasRoom .release parse c₁ (seg' :: segs) := by
      have h := hroom.2
      rwa [hcall] at h
    rw [← hl₁] at hat
    obtain ⟨d', evs₃, evs₄, hruns', rfl, hat', hend'⟩ := (Decoder.At.feed hat).runs parse
    obtain ⟨c', hrest, hserving, hunread⟩ := ih hb₁ hm₁ hroom₁ hruns' hat' hend'
    refine ⟨c', ?_, hserving, hunread⟩
    rw [feedAll, hcall]
    dsimp only
    rw [if_pos rfl, hrest]

end FastHttpConnection

/-! ## Every session -/

namespace Decoder

/-- A head leaves the number of bytes received in chunks as it is. -/
theorem total_header (lim : Limits) (parse : Httparse) (d : Decoder) : (d.header lim parse).1.totalBodyReceived = d.totalBodyReceived := by
  have htake : ∀ (e : Decoder) (r : Nat), (e.takeBody r).1.totalBodyReceived = e.totalBodyReceived := by
    intro e r
    unfold takeBody
    split
    · rfl
    · rfl
  unfold header
  split
  · rfl
  split
  · rfl
  split
  · unfold acceptHead
    dsimp only
    split
    · rfl
    split
    · rfl
    split
    · rfl
    split
    · split
      · rfl
      · unfold beginBody
        dsimp only
        split
        · rfl
        · exact htake _ _
    · rfl
  · rfl
  · rfl

end Decoder

namespace Session

variable {parse : Httparse} {s : Session}

/-- An engine that waits for a head has received nothing of a body. -/
def Unreceived (c : FastHttpConnection) : Prop :=
  c.state = .waitingHeader ∨ c.state = .keepAliveWait → c.totalBodyReceived = 0

theorem kept_unreceived (hparse : InRange parse) :
    FastHttpConnection.Kept (fun _ _ => some ()) (fun c (_ : Unit) => Unreceived c) parse := by
  apply FastHttpConnection.kept_of_step hparse
  · exact fun c v hw hR => ⟨(), rfl, nofun⟩
  · intro c v _ hw hR
    refine ⟨(), FastHttpConnection.learns_nothing _, ?_⟩
    have hstep : (c.view.step c.limits parse).1 = c.view ∨ c.view.Goes (c.view.step c.limits parse).1 :=
      Decoder.step_goes
    rcases hstep with heq | hgoes
    · rw [heq]
      exact hR
    · intro hwait
      rcases hwait with h | h
      · exact absurd h hgoes.waiting.1
      · exact absurd h hgoes.waiting.2

theorem unreceived_call (hparse : InRange parse) {c : FastHttpConnection} (hb : c.Bounded) (hm : c.mode = .http11)
    (h : Unreceived c) : Unreceived (c.processEvents .release parse).conn := by
  obtain ⟨hv, -⟩ := FastHttpConnection.view_compact (c := c)
  have hcompact : Unreceived c.compactBuffer := by
    intro hwait
    have hstate : c.compactBuffer.state = c.state := congrArg Decoder.state hv
    rw [hstate] at hwait
    exact (congrArg Decoder.totalBodyReceived hv).trans (h hwait)
  have hobs := FastHttpConnection.observed_processEvents hparse (kept_unreceived hparse) (v := ()) hb hm hcompact
  by_cases hfault : (c.processEvents .release parse).fault = none
  · obtain ⟨-, -, -, hR⟩ := hobs.told hfault
    exact hR
  · obtain ⟨-, -, hR⟩ := hobs.panicked hfault
    exact hR

theorem unreceived_of_reachable (hparse : InRange parse) {maxBodySize maxHeaderSize maxKeepaliveRequests : Nat}
    (hk : maxKeepaliveRequests < usizeEnd)
    (h : (session parse maxBodySize maxHeaderSize maxKeepaliveRequests).Reachable s) : Unreceived s.conn := by
  have hall : Sound (max 1 maxKeepaliveRequests) s ∧ Unreceived s.conn := by
    refine h.inv (I := fun s => Sound (max 1 maxKeepaliveRequests) s ∧ Unreceived s.conn) ?_ ?_
    · rintro s rfl
      exact ⟨sound_of_reachable hparse hk (.init rfl), fun _ => rfl⟩
    · rintro s a s' ⟨hs, hR⟩ hst
      refine ⟨hs.step hparse hst, ?_⟩
      cases a with
      | feedData data =>
        dsimp only [session, Session.step] at hst
        split at hst
        · rename_i hroom
          cases hst
          exact unreceived_call (c := { s.conn with buffer := s.conn.buffer ++ data }) hparse (hs.bounded.append hroom)
            hs.mode hR
        · cases hst
      | pumpEvents =>
        cases hst
        exact unreceived_call hparse hs.bounded hs.mode hR
      | resetForNextRequest =>
        cases hst
        show Unreceived s.conn.resetForNextRequest
        unfold FastHttpConnection.resetForNextRequest
        split
        · split
          · exact nofun
          · exact fun _ => rfl
        · exact hR
  exact hall.2

end Session

/-- What `feed_data(seg)` goes on with after its first round. -/
def FastHttpConnection.afterHead (parse : Httparse) (c : FastHttpConnection) (seg : Bytes) : Decoder :=
  ((c.view.feed seg).step c.limits parse).1

/-- The call `feed_data(seg)` first reads the head of a chunked request. -/
structure ReadsChunkedHead (parse : Httparse) (c : FastHttpConnection) (seg : Bytes) (start : RequestStart) : Prop where
  waiting : c.state = .waitingHeader ∨ c.state = .keepAliveWait
  told : ((c.view.feed seg).step c.limits parse).2.1 = [.requestStart start]
  again : ((c.view.feed seg).step c.limits parse).2.2 = .again
  reading : (c.afterHead parse seg).state = .receivingChunked .readingSize

/-- In every session, once the head of a chunked request is read: if the bytes
that follow it, in this call and in the next ones, however they are cut, are
the coding of chunks within the limit and then `rest`, the calls tell these
chunks in order and the end of the body, the engine waits for the response,
and what is unread is `rest`. The end of the body may be in a part of its own,
or in the last part. -/
theorem chunks_round_trip {parse : Httparse} (hparse : InRange parse)
    {maxBodySize maxHeaderSize maxKeepaliveRequests : Nat} (hk : maxKeepaliveRequests < usizeEnd) {s : Session}
    (h : (session parse maxBodySize maxHeaderSize maxKeepaliveRequests).Reachable s) {seg : Bytes}
    {start : RequestStart} (hhead : ReadsChunkedHead parse s.conn seg start) {chunks : List Bytes}
    (hc : AreChunks chunks) (htotal : chunks.flatten.length ≤ s.conn.maxBodySize) {rest : Bytes} {segs : List Bytes}
    (hroom : s.conn.HasRoom .release parse (seg :: segs)) {wire : Bytes}
    (hwire : wire = chunks.flatMap (formatChunk · true) ++ formatChunk [] false ∨ ∃ before last,
      chunks = before ++ [last] ∧ wire = before.flatMap (formatChunk · true) ++ formatChunk last false)
    (hin : (s.conn.afterHead parse seg).unread ++ segs.flatten = wire ++ rest) :
    ∃ c, s.conn.feedAll .release parse (seg :: segs) =
        ⟨c, .requestStart start :: (chunks.map (.body · true) ++ [.body [] false]), none⟩ ∧
      c.state = .servingApp ∧ c.unread = rest := by
  have hsound := Session.sound_of_reachable hparse hk h
  have hcoded : wire = coded chunks := by
    rcases hwire with rfl | ⟨before, last, rfl, rfl⟩
    · rfl
    · exact coded_append before last
  have hstep : (s.conn.view.feed seg).step s.conn.limits parse =
      (s.conn.afterHead parse seg, [.requestStart start], .again) := Prod.ext rfl (Prod.ext hhead.told hhead.again)
  have hzero : (s.conn.afterHead parse seg).totalBodyReceived = 0 := by
    have htotal := Decoder.total_header s.conn.limits parse (s.conn.view.feed seg)
    rw [← Decoder.step_header (d := s.conn.view.feed seg) hhead.waiting, hstep] at htotal
    exact htotal.trans (Session.unreceived_of_reachable hparse hk h hhead.waiting)
  have hat : Decoder.At s.conn.limits rest segs.flatten (s.conn.afterHead parse seg) (chunkEvents chunks) :=
    .size hhead.reading hc (hin.trans (by rw [hcoded])) (by rw [hzero, Nat.zero_add]; exact htotal)
  obtain ⟨d', evs₁, evs₂, hruns, hevs, hat', hend⟩ := hat.runs parse
  have hfirst : Decoder.Runs s.conn.limits parse (s.conn.view.feed seg) ([.requestStart start] ++ evs₁) d' :=
    .again (FastHttpConnection.sound_of_waiting hhead.waiting) hstep hruns
  obtain ⟨c, hfeed, hserving, hunread⟩ := FastHttpConnection.feedAll_at hparse hsound.bounded hsound.mode hroom hfirst
    hat' hend
  refine ⟨c, ?_, hserving, hunread⟩
  rw [hfeed, List.append_assoc, ← hevs]
  rfl

/-- Two chunks, cut between the two bytes that end a line, and pipelined bytes
behind them. -/
theorem chunks_round_trip_two : ∃ c, FastHttpConnection.feedAll .release parseChunkedHead (.new 1000 1000 1000)
      [chunkedHead ++ bytes "2\r", bytes "\nab\r\n3\r\ncde\r", bytes "\n0\r\n\r", bytes "\nGET"] =
        ⟨c, .requestStart ⟨bytes "POST", bytes "/", bytes "/", [], bytes "1.1",
          [(bytes "transfer-encoding", bytes "chunked")], true, false, [], true⟩ ::
          ([bytes "ab", bytes "cde"].map (.body · true) ++ [.body [] false]), none⟩ ∧
      c.state = .servingApp ∧ c.unread = bytes "GET" := by
  have hs : (session parseChunkedHead 1000 1000 1000).Reachable ⟨.new 1000 1000 1000, []⟩ := .init rfl
  exact chunks_round_trip parseChunkedHead_inRange (by decide) hs
    ⟨.inl rfl, by decide +kernel, by decide +kernel, by decide +kernel⟩ (by decide +kernel) (by decide +kernel)
    (by decide +kernel) (.inl rfl) (by decide +kernel)

end Multiloop.Http
