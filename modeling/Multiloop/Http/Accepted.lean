import Multiloop.Http.Absorbing
import Multiloop.Http.ChunkedCoding

/-!
# What the chunked decoder accepts

An engine that has just read the head of a chunked request, and is fed some
bytes: it reads them as the lines it takes have it. So it decodes as the
grammar says if every line that it reads is one of the grammar, with a sum
within the limit, or the bytes go wrong somewhere and are refused.
-/

namespace Multiloop.Http

open Rest

/-! ## What the events tell of a body -/

/-- The bytes of a body that an event tells. -/
def Event.payload : Event → Bytes
  | .body data _ => data
  | _ => []

/-- Whether an error was heard, and the bytes of the body so far. -/
structure Heard where
  failed : Bool
  body : Bytes

namespace Heard

variable (v : Heard)

def after (evs : List Event) : Heard where
  failed := v.failed || evs.any Event.isError
  body := v.body ++ evs.flatMap Event.payload

theorem after_nil : v.after [] = v := by
  unfold after
  rw [List.any_nil, Bool.or_false, List.flatMap_nil, List.append_nil]

theorem after_append (evs evs' : List Event) : v.after (evs ++ evs') = (v.after evs).after evs' := by
  unfold after
  rw [List.any_append, List.flatMap_append, Bool.or_assoc, List.append_assoc]

/-- One event is heard. -/
def hearing (e : Event) : Option Heard := some (v.after [e])

theorem hearing_all (evs : List Event) : evs.foldlM hearing v = some (v.after evs) := by
  induction evs generalizing v with
  | nil => rw [after_nil]; rfl
  | cons e evs ih =>
    rw [show e :: evs = [e] ++ evs from rfl, after_append]
    exact ih (v.after [e])

end Heard

/-! ## Steps -/

namespace Decoder

variable {lim : Limits} {parse : Httparse} {maxBodySize : Nat} {u : Bytes} {d : Decoder} {v : Heard}

/-- Where in the bytes `u` of a body a decoder is, and what was heard of it. -/
inductive Within (maxBodySize : Nat) (u : Bytes) (d : Decoder) : Heard → Prop
  | size (p : Rest) (hs : d.state = .receivingChunked .readingSize) (hreads : Reads (Taken maxBodySize) ⟨[], u⟩ p)
    (hahead : p.ahead = d.unread) (htotal : d.totalBodyReceived = p.total % usizeEnd) : Within maxBodySize u d ⟨false, p.read⟩
  | data (p : Rest) (line : Bytes) (n : Nat) (hs : d.state = .receivingChunked (.readingData n))
    (hreads : Reads (Taken maxBodySize) ⟨[], u⟩ p) (hat : p.Line line d.unread)
    (hline : Taken maxBodySize p.total line n)
    (hn : n ≠ 0) (htotal : d.totalBodyReceived = (p.total + n) % usizeEnd) : Within maxBodySize u d ⟨false, p.read⟩
  | trailers (p : Rest) (line : Bytes) (hs : d.state = .receivingChunked .readingTrailers)
    (hreads : Reads (Taken maxBodySize) ⟨[], u⟩ p) (hat : p.Line line d.unread)
    (hline : Taken maxBodySize p.total line 0) : Within maxBodySize u d ⟨false, p.read⟩
  | done (p : Rest) (hs : d.state = .servingApp) (hreads : Reads (Taken maxBodySize) ⟨[], u⟩ p)
    (hends : p.Ends (Taken maxBodySize) d.unread) : Within maxBodySize u d ⟨false, p.read⟩
  | malformed (p : Rest) (hs : d.state = .closed) (hreads : Reads (Taken maxBodySize) ⟨[], u⟩ p)
    (hbad : p.Malformed (Taken maxBodySize)) : Within maxBodySize u d ⟨true, p.read⟩
  /-- The end of the chunk wraps around, and bytes before the chunk are taken
  for those behind it. -/
  | wraps (p : Rest) (line : Bytes) (n : Nat) (hs : d.state = .closed) (hreads : Reads (Taken maxBodySize) ⟨[], u⟩ p)
    (hat : p.Line line d.unread) (hline : Taken maxBodySize p.total line n) (hsum : n + 1 = usizeEnd)
    (hmore : d.unread ≠ []) : Within maxBodySize u d ⟨true, p.read⟩

/-- What a step tells after chunks with the bytes `read` goes with where the
decoder is then. -/
def Reaches (maxBodySize : Nat) (u read : Bytes) (s : Step) : Prop :=
  Within maxBodySize u s.1 (Heard.after ⟨false, read⟩ s.2.1)

theorem reaches_quiet {read : Bytes} (h : d.Within maxBodySize u ⟨false, read⟩) (flow : Flow) :
    Reaches maxBodySize u read (d, [], flow) := by
  show Within maxBodySize u d (Heard.after _ [])
  rw [Heard.after_nil]
  exact h

theorem reaches_malformed {p : Rest} (hreads : Reads (Taken maxBodySize) ⟨[], u⟩ p)
    (hbad : p.Malformed (Taken maxBodySize)) (d : Decoder) (status : Nat) (msg : String) :
    Reaches maxBodySize u p.read (d.fail status msg) := by
  have hheard : Heard.after ⟨false, p.read⟩ (d.fail status msg).2.1 = ⟨true, p.read⟩ :=
    congrArg (Heard.mk true) (List.append_nil _)
  unfold Reaches
  rw [hheard]
  exact .malformed p rfl hreads hbad

theorem reaches_size {p : Rest} (hs : d.state = .receivingChunked .readingSize)
    (hreads : Reads (Taken lim.maxBodySize) ⟨[], u⟩ p) (hahead : p.ahead = d.unread)
    (htotal : d.totalBodyReceived = p.total % usizeEnd) : Reaches lim.maxBodySize u p.read (d.size lim) := by
  unfold size
  split
  · exact reaches_quiet (.size p hs hreads hahead htotal) _
  rename_i pos hpos
  have hat : p.Line (d.unread.take pos) (d.unread.drop (pos + 2)) :=
    ⟨position_take hpos, hahead.trans (position_split hpos)⟩
  have hno : ∀ {n : Nat}, Taken lim.maxBodySize p.total (d.unread.take pos) n →
      (FastHttpConnection.sizeText (d.unread.take pos)).bind (fromStrRadix 16) = some n := fun h => h.1.announces
  split
  · rename_i htext
    refine reaches_malformed hreads (.line _ _ hat fun n h => ?_) d _ _
    have hnone := hno h
    rw [htext] at hnone
    cases hnone
  rename_i text htext
  rw [htext, Option.bind_some] at hno
  split
  · rename_i hnum
    refine reaches_malformed hreads (.line _ _ hat fun n h => ?_) d _ _
    have hnone := hno h
    rw [hnum] at hnone
    cases hnone
  rename_i n hnum
  have hline : SizeLine (d.unread.take pos) n := ⟨hat.first, by rw [htext]; exact hnum⟩
  unfold acceptSize
  dsimp only
  split
  · rename_i hzero
    subst hzero
    exact reaches_quiet (.trailers p _ rfl hreads hat ⟨hline, .inl rfl⟩) _
  rename_i hzero
  have hsum : (d.totalBodyReceived + n) % usizeEnd = (p.total + n) % usizeEnd := by rw [htotal, Nat.mod_add_mod]
  rw [hsum]
  split
  · rename_i hmax
    refine reaches_malformed hreads (.line _ _ hat fun k h => ?_) _ _ _
    have hk := hno h
    rw [hnum] at hk
    cases hk
    rcases h.2 with h | h
    · exact hzero h
    · omega
  · rename_i hmax
    exact reaches_quiet (.data p _ n rfl hreads hat ⟨hline, .inr (Nat.not_lt.1 hmax)⟩ hzero rfl) _

theorem reaches_data {p : Rest} {line : Bytes} {n : Nat} (hs : d.state = .receivingChunked (.readingData n))
    (hreads : Reads (Taken maxBodySize) ⟨[], u⟩ p) (hat : p.Line line d.unread)
    (hline : Taken maxBodySize p.total line n)
    (hn : n ≠ 0) (htotal : d.totalBodyReceived = (p.total + n) % usizeEnd) : Reaches maxBodySize u p.read (d.data n) := by
  unfold data
  split
  · exact reaches_quiet (.data p line n hs hreads hat hline hn htotal) _
  rename_i henough
  split
  · rename_i hboundary
    exact reaches_malformed hreads (.boundary line _ n hat hline hn (Nat.not_lt.1 henough) hboundary) d _ _
  · rename_i hboundary
    have hlen : (d.unread.take n).length = n := List.length_take_of_le (by omega)
    have hrest : d.unread = d.unread.take n ++ (crlf ++ d.unread.drop (n + 2)) := by
      rw [← not_not.1 hboundary, ← List.drop_drop, List.take_append_drop, List.take_append_drop]
    have hchunk : Chunk (Taken maxBodySize) p ⟨p.read ++ d.unread.take n, d.unread.drop (n + 2)⟩ := by
      refine ⟨line, d.unread.take n, ?_, ?_, ?_, rfl⟩
      · exact ⟨hat.first, hat.ahead.trans (congrArg (fun more => line ++ (crlf ++ more)) hrest)⟩
      · rw [hlen]
        exact hline
      · intro hnil
        rw [hnil] at hlen
        exact hn hlen.symm
    have hheard : Heard.after ⟨false, p.read⟩ [.body (d.unread.take n) true] = ⟨false, p.read ++ d.unread.take n⟩ :=
      congrArg (fun more => Heard.mk false (p.read ++ more)) (List.append_nil _)
    show Within maxBodySize u _ (Heard.after ⟨false, p.read⟩ [.body (d.unread.take n) true])
    rw [hheard]
    refine .size _ rfl (hreads.tail hchunk) rfl ?_
    show d.totalBodyReceived = (p.read ++ d.unread.take n).length % usizeEnd
    rw [List.length_append, hlen]
    exact htotal

theorem trailers_eq (d : Decoder) : d.trailers = match trailersEnd d.unread with
    | none => (d, [], .stop)
    | some n => d.finish n := by
  unfold trailers trailersEnd
  split
  · rfl
  · cases position (crlf ++ crlf) d.unread with
    | none => rfl
    | some pos => rfl

theorem reaches_trailers {p : Rest} {line : Bytes} (hs : d.state = .receivingChunked .readingTrailers)
    (hreads : Reads (Taken maxBodySize) ⟨[], u⟩ p) (hat : p.Line line d.unread)
    (hline : Taken maxBodySize p.total line 0) : Reaches maxBodySize u p.read d.trailers := by
  rw [trailers_eq]
  split
  · exact reaches_quiet (.trailers p line hs hreads hat hline) _
  · rename_i n hend
    obtain ⟨-, hsection⟩ := trailers_of_end hend
    have hheard : Heard.after ⟨false, p.read⟩ (d.finish n).2.1 = ⟨false, p.read⟩ :=
      congrArg (Heard.mk false) (List.append_nil _)
    unfold Reaches
    rw [hheard]
    refine .done p rfl hreads ⟨line, _, ⟨hat.first, ?_⟩, hline, hsection⟩
    show p.ahead = line ++ (crlf ++ (d.unread.take n ++ d.unread.drop n))
    rw [List.take_append_drop]
    exact hat.ahead

/-- A step goes on in the bytes of the body. -/
theorem Within.step (h : d.Within lim.maxBodySize u v) (parse : Httparse) :
    Within lim.maxBodySize u (d.step lim parse).1 (v.after (d.step lim parse).2.1) := by
  have hstop : d.Idle →
      Within lim.maxBodySize u (d.step lim parse).1 (v.after (d.step lim parse).2.1) := by
    intro hidle
    rw [step_of_idle hidle]
    show Within lim.maxBodySize u d (v.after [])
    rw [Heard.after_nil]
    exact h
  unfold Decoder.step at hstop ⊢
  cases id h with
  | size p hs hreads hahead htotal =>
    rw [hs]
    exact reaches_size hs hreads hahead htotal
  | data p line n hs hreads hat hline hn htotal =>
    rw [hs]
    exact reaches_data hs hreads hat hline hn htotal
  | trailers p line hs hreads hat hline =>
    rw [hs]
    exact reaches_trailers hs hreads hat hline
  | done p hs hreads hends => exact hstop (.inr hs)
  | malformed p hs hreads hbad => exact hstop (.inl hs)
  | wraps p line n hs hreads hat hline hsum hmore => exact hstop (.inl hs)

/-- What is known before a chunk. -/
theorem Within.of_data {n : Nat} (h : d.Within maxBodySize u v) (hs : d.state = .receivingChunked (.readingData n)) :
    ∃ p line, Reads (Taken maxBodySize) ⟨[], u⟩ p ∧ p.Line line d.unread ∧ Taken maxBodySize p.total line n ∧ n ≠ 0 ∧
      v = ⟨false, p.read⟩ := by
  cases h with
  | data p line k hs' hreads hat hline hn _ =>
    rw [hs] at hs'
    cases hs'
    exact ⟨p, line, hreads, hat, hline, hn, rfl⟩
  | size p hs' => rw [hs] at hs'; cases hs'
  | trailers p line hs' => rw [hs] at hs'; cases hs'
  | done p hs' => rw [hs] at hs'; cases hs'
  | malformed p hs' => rw [hs] at hs'; cases hs'
  | wraps p line k hs' => rw [hs] at hs'; cases hs'

/-- More bytes of the body arrive. -/
theorem Within.feed (h : d.Within maxBodySize u v) (b : Bytes) : (d.feed b).Within maxBodySize (u ++ b) v := by
  cases h with
  | size p hs hreads hahead htotal =>
    exact .size ⟨p.read, p.ahead ++ b⟩ hs (hreads.append b) (congrArg (· ++ b) hahead) htotal
  | data p line n hs hreads hat hline hn htotal =>
    exact .data ⟨p.read, p.ahead ++ b⟩ line n hs (hreads.append b) (hat.append b) hline hn htotal
  | trailers p line hs hreads hat hline =>
    exact .trailers ⟨p.read, p.ahead ++ b⟩ line hs (hreads.append b) (hat.append b) hline
  | done p hs hreads hends => exact .done ⟨p.read, p.ahead ++ b⟩ hs (hreads.append b) (hends.append b)
  | malformed p hs hreads hbad => exact .malformed ⟨p.read, p.ahead ++ b⟩ hs (hreads.append b) (hbad.append b)
  | wraps p line n hs hreads hat hline hsum hmore =>
    exact .wraps ⟨p.read, p.ahead ++ b⟩ line n hs (hreads.append b) (hat.append b) hline hsum
      fun hnil => hmore (List.append_eq_nil_iff.1 hnil).1

end Decoder

/-! ## Calls -/

namespace FastHttpConnection

variable {parse : Httparse} {lim : Limits} {c c' : FastHttpConnection} {u : Bytes} {v : Heard}

/-- Before the cursor is the line end of the size line, unless the buffer was
compacted since. -/
def Behind (c : FastHttpConnection) : Prop :=
  ∀ n, c.state = .receivingChunked (.readingData n) → c.cursor = 0 ∨ ∃ before, c.buffer = before ++ (crlf ++ c.unread)

theorem Behind.compact (h : c.Behind) : c.compactBuffer.Behind := by
  unfold compactBuffer
  split
  · exact fun _ _ => .inl rfl
  split
  · exact fun _ _ => .inl rfl
  · exact h

theorem Behind.append (h : c.Behind) (hf : c.Fits) (data : Bytes) :
    ({ c with buffer := c.buffer ++ data } : FastHttpConnection).Behind := by
  intro n hn
  refine (h n hn).imp_right fun ⟨before, hbefore⟩ => ⟨before, ?_⟩
  show c.buffer ++ data = before ++ (crlf ++ (c.buffer ++ data).drop c.cursor)
  rw [List.drop_append_of_le_length hf.cursor]
  conv_lhs => rw [hbefore]
  rw [List.append_assoc, List.append_assoc]
  rfl

/-- A size line that announces a chunk is read to its end. -/
theorem data_of_size {d : Decoder} {n : Nat} (hs : d.state = .receivingChunked .readingSize)
    (h : (d.size lim).1.state = .receivingChunked (.readingData n)) :
    ∃ line, d.unread = line ++ (crlf ++ (d.size lim).1.unread) := by
  unfold Decoder.size at h ⊢
  split at h
  · rw [hs] at h
    cases h
  rename_i pos hpos
  refine ⟨d.unread.take pos, ?_⟩
  have hsplit := position_split hpos
  split at h
  · cases h
  split at h
  · cases h
  rename_i n' _
  have hunread : (d.acceptSize lim pos n').1.unread = d.unread.drop (pos + 2) := by
    unfold Decoder.acceptSize
    dsimp only
    split
    · rfl
    split
    · rfl
    · rfl
  rw [hunread]
  exact hsplit

/-- No chunk is read after a head. -/
theorem header_not_data {d : Decoder} (hs : d.state = .waitingHeader ∨ d.state = .keepAliveWait) (n : Nat) :
    (d.header lim parse).1.state ≠ .receivingChunked (.readingData n) := by
  have hstay : d.state ≠ .receivingChunked (.readingData n) := by
    rcases hs with hs | hs
    · rw [hs]; nofun
    · rw [hs]; nofun
  have htake : ∀ (e : Decoder) (r : Nat), (e.takeBody r).1.state ≠ .receivingChunked (.readingData n) := by
    intro e r
    unfold Decoder.takeBody
    split
    · nofun
    · nofun
  unfold Decoder.header
  split
  · exact hstay
  split
  · nofun
  split
  · unfold Decoder.acceptHead
    dsimp only
    split
    · nofun
    split
    · nofun
    split
    · nofun
    split
    · split
      · nofun
      · unfold Decoder.beginBody
        dsimp only
        split
        · nofun
        · exact htake _ _
    · nofun
  · exact hstay
  · nofun

/-- Before a chunk the decoder has just read the line that announces it, or it
was there before. -/
theorem data_of_step {d : Decoder} {n : Nat} (h : (d.step lim parse).1.state = .receivingChunked (.readingData n)) :
    d.step lim parse = (d, [], .stop) ∨ ∃ line, d.unread = line ++ (crlf ++ (d.step lim parse).1.unread) := by
  by_cases hidle : d.Idle
  · exact .inl (Decoder.step_of_idle hidle)
  unfold Decoder.step at h ⊢
  split at h
  · rename_i hs
    exact absurd (.inl hs) hidle
  · rename_i hs
    exact absurd (.inr hs) hidle
  · rename_i hs
    exact absurd h (header_not_data (.inl hs) n)
  · rename_i hs
    exact absurd h (header_not_data (.inr hs) n)
  · rename_i remaining hs
    unfold Decoder.contentLength Decoder.takeBody at h
    split at h
    · rw [hs] at h
      cases h
    split at h
    · cases h
    · cases h
  · rename_i hs
    exact .inr (data_of_size hs h)
  · rename_i k hs
    unfold Decoder.data at h ⊢
    split at h
    · rename_i hfew
      exact .inl (if_pos hfew)
    split at h
    · cases h
    · cases h
  · rename_i hs
    rw [Decoder.trailers_eq] at h
    split at h
    · rw [hs] at h
      cases h
    · cases h

theorem withView_view (hf : c.Fits) : c.withView c.view = c := congrArg Prod.fst (ofStep_stop hf)

/-- In the buffer too, the line is before the cursor. -/
theorem buffer_of_step {n : Nat}
    (h : (c.withView (c.view.step c.limits parse).1).state = .receivingChunked (.readingData n)) :
    c.view.step c.limits parse = (c.view, [], .stop) ∨ ∃ before, c.buffer =
      before ++ (crlf ++ (c.withView (c.view.step c.limits parse).1).unread) := by
  refine (data_of_step h).imp_right fun ⟨line, hline⟩ => ⟨c.buffer.take c.cursor ++ line, ?_⟩
  have hunread : (c.withView (c.view.step c.limits parse).1).unread = (c.view.step c.limits parse).1.unread :=
    congrArg Decoder.unread (view_step parse c)
  rw [hunread, List.append_assoc, ← hline]
  exact (List.take_append_drop _ _).symm

theorem Behind.step (parse : Httparse) (h : c.Behind) (hb : c.Bounded) :
    (c.withView (c.view.step c.limits parse).1).Behind := by
  intro n hn
  rcases buffer_of_step hn with hstop | hbefore
  · rw [hstop, withView_view hb.fits] at hn ⊢
    exact h n hn
  · exact .inr hbefore

/-- Before a chunk of 2⁶⁴ - 2 bytes a round panics: the bytes that are taken for
those behind the chunk are the line end before it. -/
theorem Behind.jammed (parse : Httparse) (h : c.Behind) (hb : c.Bounded) (hm : c.mode = .http11) {n : Nat}
    (hs : c.state = .receivingChunked (.readingData n)) (hsum : n + 2 = usizeEnd) : c.Jammed parse := by
  have hn := hb.data n hs
  refine (jammed_iff parse c hm hb.fits hs hn (by omega)).2 ⟨by omega, ?_⟩
  rcases h n hs with hzero | ⟨before, hbefore⟩
  · left
    omega
  · right
    have hcur := cursor_unread hb.fits
    have hlen := congrArg List.length hbefore
    rw [List.length_append, List.length_append] at hlen
    change c.buffer.length = before.length + (2 + c.unread.length) at hlen
    rw [show c.cursor + n - usizeEnd = before.length by omega, hbefore, List.drop_left]
    rfl

/-- Before a chunk of 2⁶⁴ - 1 bytes a round waits for the first of them. -/
theorem round_waits (parse : Httparse) (hf : c.Fits) (hm : c.mode = .http11) {n : Nat}
    (hs : c.state = .receivingChunked (.readingData n)) (hsum : n + 1 = usizeEnd) (hu : c.unread = []) :
    c.round .release parse = .ok (c, [], .stop) := by
  have hround : c.round .release parse = c.dataRound .release n := by
    unfold round httpRound
    rw [hm, hs]
  have hneeded : (n + 2) % usizeEnd = 1 := by
    rw [show n + 2 = 1 + usizeEnd by omega, Nat.add_mod_right]
    decide
  rw [hround]
  unfold dataRound
  rw [sub_cursor hf, ok_bind, Arith.add_release, ok_bind, hneeded, hu, if_pos (by decide)]
  rfl

/-- An engine in the bytes `u` of a body. -/
def Inside (lim : Limits) (u : Bytes) (c : FastHttpConnection) (v : Heard) : Prop :=
  c.limits = lim ∧ c.view.Within lim.maxBodySize u v ∧ c.Behind

theorem kept_inside (hparse : InRange parse) (lim : Limits) (u : Bytes) :
    Kept Heard.hearing (Inside lim u) parse := by
  rintro c v r hb hm ⟨rfl, hwithin, hbehind⟩ hr
  by_cases hw : c.state.Wraps
  · rcases round_wraps parse hb hm hw with h | h | ⟨e, h⟩
    · rw [h] at hr
      cases hr
      exact ⟨v, rfl, rfl, hwithin, hbehind⟩
    · obtain ⟨n, hs, hsum⟩ := hw
      have hn := hb.data n hs
      have hone : n + 1 = usizeEnd := by
        by_contra hne
        obtain ⟨e, he⟩ := hbehind.jammed parse hb hm hs (by omega)
        rw [he] at h
        cases h
      have hmore : c.unread ≠ [] := by
        intro hnil
        rw [round_waits parse hb.fits hm hs hone hnil] at h
        obtain ⟨-, htold⟩ := Prod.mk.inj (Except.ok.inj h)
        cases htold
      rw [h] at hr
      cases hr
      obtain ⟨p, line, hreads, hat, hline, -, rfl⟩ := hwithin.of_data hs
      refine ⟨⟨true, p.read⟩, ?_, rfl, .wraps p line n rfl hreads hat hline hone hmore, nofun⟩
      rw [Heard.hearing_all]
      exact congrArg (fun body => some (Heard.mk true body)) (List.append_nil _)
    · rw [h] at hr
      cases hr
  · rw [(round_eq hparse hb hm (sound_of_not_wraps hw)).1] at hr
    cases hr
    refine ⟨_, Heard.hearing_all v _, rfl, ?_, hbehind.step parse hb⟩
    show (c.withView (c.view.step c.limits parse).1).view.Within _ _ _
    rw [view_step]
    exact hwithin.step parse

/-- An engine between two calls. -/
structure Stands (parse : Httparse) (lim : Limits) (u : Bytes) (c : FastHttpConnection) (v : Heard) : Prop where
  bounded : c.Bounded
  mode : c.mode = .http11
  inside : c.Inside lim u v
  rests : c.Rests parse

/-- An engine before a chunk whose end wraps around, or that reads nothing more. -/
structure Stuck (c : FastHttpConnection) : Prop where
  bounded : c.Bounded
  mode : c.mode = .http11
  stuck : c.state.Wraps ∨ c.view.Idle

/-- What a stuck engine is fed stays unread. -/
theorem Stuck.feed (hparse : InRange parse) (h : c.Stuck) {seg : Bytes} (hroom : (c.buffer ++ seg).length < 2 ^ 63) :
    (c.feedData .release parse seg).conn.Stuck ∧ (c.feedData .release parse seg).conn.unread = c.unread ++ seg := by
  have hb := (h.bounded.append hroom).compact
  obtain ⟨hv, hmode, -, -⟩ := view_compact (c := { c with buffer := c.buffer ++ seg })
  have hm := hmode.trans h.mode
  have hfed := hv.trans (view_append h.bounded.fits seg)
  generalize hk : compactBuffer { c with buffer := c.buffer ++ seg } = k at hb hm hfed
  have hstate : k.state = c.state := congrArg Decoder.state hfed
  have hunread : k.unread = c.unread ++ seg := congrArg Decoder.unread hfed
  have hcall : c.feedData .release parse seg = rounds .release parse ((c.buffer ++ seg).length + 3) k := by
    rw [← hk]
    rfl
  rw [hcall, rounds]
  rcases h.stuck with hw | hidle
  · have hwk : k.state.Wraps := hstate ▸ hw
    rcases round_wraps parse hb hm hwk with hr | hr | ⟨e, hr⟩
    · rw [hr]
      exact ⟨⟨hb, hm, .inl hwk⟩, hunread⟩
    · have hb' := hb.round hparse hr
      rw [hr]
      exact ⟨⟨hb', hm, .inr (.inl rfl)⟩, hunread⟩
    · rw [hr]
      exact ⟨⟨hb, hm, .inl hwk⟩, hunread⟩
  · have hidlek : k.view.Idle := by
      unfold Decoder.Idle
      rw [hfed]
      exact hidle
    have hsound : k.view.Sound := by
      intro n hn
      rcases hidlek with hi | hi
      · rw [hi] at hn; cases hn
      · rw [hi] at hn; cases hn
    have hr := (round_eq hparse hb hm hsound).1
    rw [Decoder.step_of_idle hidlek, ofStep_stop hb.fits] at hr
    rw [hr]
    exact ⟨⟨hb, hm, .inr hidlek⟩, hunread⟩

/-- Bytes that stay unread are in memory. -/
theorem Stuck.room (hparse : InRange parse) (h : c.Stuck) {segs : List Bytes} (hroom : c.HasRoom .release parse segs) :
    (c.unread ++ segs.flatten).length < 2 ^ 63 := by
  induction segs generalizing c with
  | nil =>
    have hlen := h.bounded.fits.length
    rw [List.flatten_nil, List.append_nil, unread_length]
    omega
  | cons seg segs ih =>
    obtain ⟨hstuck, hunread⟩ := h.feed hparse hroom.1
    have hrest := ih hstuck hroom.2
    rwa [hunread, List.append_assoc] at hrest

/-- How calls end that are fed the bytes `u` of a body: they return, or one of
them panics before a chunk whose end wraps around. -/
def Ended (parse : Httparse) (lim : Limits) (u : Bytes) (v : Heard) (o : Outcome) : Prop :=
  o.fault = none ∧ o.conn.Stands parse lim u (v.after o.events) ∨
    o.fault ≠ none ∧ o.conn.Stuck ∧ o.conn.state.Wraps ∧ ∃ w, o.conn.view.Within lim.maxBodySize u w

theorem ended_rounds (hparse : InRange parse) (hb : c.Bounded) (hm : c.mode = .http11) (h : c.Inside lim u v)
    {fuel : Nat} (hf : c.view.work < fuel) : Ended parse lim u v (rounds .release parse fuel c) := by
  have hobs := observed_rounds hparse (kept_inside hparse lim u) hb hm h hf
  by_cases hfault : (rounds .release parse fuel c).fault = none
  · obtain ⟨hrests, v', htold, hinside⟩ := hobs.told hfault
    rw [Heard.hearing_all] at htold
    cases htold
    exact .inl ⟨hfault, hobs.bounded, hobs.mode, hinside, hrests⟩
  · obtain ⟨hw, v', -, hwithin, -⟩ := hobs.panicked hfault
    exact .inr ⟨hfault, ⟨hobs.bounded, hobs.mode, .inl hw⟩, hw, v', hwithin⟩

theorem Stands.feed (hparse : InRange parse) (h : c.Stands parse lim u v) {seg : Bytes}
    (hroom : (c.buffer ++ seg).length < 2 ^ 63) : Ended parse lim (u ++ seg) v (c.feedData .release parse seg) := by
  have hb := h.bounded.append hroom
  obtain ⟨hv, hmode, hlimits, -⟩ := view_compact (c := { c with buffer := c.buffer ++ seg })
  obtain ⟨hlim, hwithin, hbehind⟩ := h.inside
  have hfed := hv.trans (view_append h.bounded.fits seg)
  have hinside : Inside lim (u ++ seg) (compactBuffer { c with buffer := c.buffer ++ seg }) v := by
    refine ⟨hlimits.trans hlim, ?_, (hbehind.append h.bounded.fits seg).compact⟩
    rw [hfed]
    exact hwithin.feed seg
  have hwork := Decoder.work_le (c.view.feed seg)
  have hlen : (c.view.feed seg).unread.length ≤ (c.buffer ++ seg).length := by
    rw [Decoder.feed, view_unread, List.length_append, List.length_append, unread_length]
    omega
  refine ended_rounds hparse hb.compact (hmode.trans h.mode) hinside ?_
  rw [hfed]
  show _ < (c.buffer ++ seg).length + 3
  omega

/-- Some chunk that is announced ends behind all that can be in memory. -/
def Overruns (maxBodySize : Nat) (u : Bytes) : Prop :=
  ∃ p line n more, Reads (Taken maxBodySize) ⟨[], u⟩ p ∧ p.Line line more ∧ Taken maxBodySize p.total line n ∧ n ≠ 0 ∧
    usizeEnd ≤ n + 2 ∧ more.length < 2 ^ 63

/-- How the calls for all segments end. -/
def Ran (parse : Httparse) (lim : Limits) (u : Bytes) (v : Heard) (o : Outcome) : Prop :=
  o.fault = none ∧ o.conn.Stands parse lim u (v.after o.events) ∨
    o.fault ≠ none ∧ Overruns lim.maxBodySize u

theorem overruns_of_stuck (hparse : InRange parse) {n : Nat} (h : c.view.Within lim.maxBodySize u v)
    (hn : c.state = .receivingChunked (.readingData n)) (hsum : usizeEnd ≤ n + 2) (hstuck : c.Stuck) {segs : List Bytes}
    (hroom : c.HasRoom .release parse segs) : Overruns lim.maxBodySize (u ++ segs.flatten) := by
  obtain ⟨p, line, hreads, hat, hline, hzero, -⟩ := h.of_data hn
  exact ⟨_, line, n, _, hreads.append _, hat.append _, hline, hzero, hsum, hstuck.room hparse hroom⟩

/-- A call, and the calls after it if it returns. -/
theorem Ended.ran (hparse : InRange parse) {segs : List Bytes} {seg : Bytes}
    (h : Ended parse lim u v (c.feedData .release parse seg))
    (hroom : (c.feedData .release parse seg).conn.HasRoom .release parse segs) :
    Ran parse lim (u ++ segs.flatten) v (c.feedAll .release parse (seg :: segs)) := by
  induction segs generalizing c seg u v with
  | nil =>
    rw [feedAll, List.flatten_nil, List.append_nil]
    rcases h with ⟨hfault, hstands⟩ | ⟨hfault, hstuck, ⟨n, hn, hsum⟩, w, hwithin⟩
    · dsimp only
      rw [if_pos hfault]
      refine .inl ⟨rfl, ?_⟩
      show (c.feedData .release parse seg).conn.Stands parse lim u (v.after (_ ++ []))
      rw [List.append_nil]
      exact hstands
    · dsimp only
      rw [if_neg hfault]
      have hover := overruns_of_stuck hparse hwithin hn hsum hstuck hroom
      rw [List.flatten_nil, List.append_nil] at hover
      exact .inr ⟨hfault, hover⟩
  | cons seg' segs ih =>
    rw [feedAll]
    rcases h with ⟨hfault, hstands⟩ | ⟨hfault, hstuck, ⟨n, hn, hsum⟩, w, hwithin⟩
    · dsimp only
      rw [if_pos hfault]
      have hnext := ih (hstands.feed hparse hroom.1) hroom.2
      rw [List.append_assoc] at hnext
      refine hnext.imp (fun hstays => ?_) id
      obtain ⟨hnone, hlast⟩ := hstays
      rw [← Heard.after_append] at hlast
      exact ⟨hnone, hlast⟩
    · dsimp only
      rw [if_neg hfault]
      exact .inr ⟨hfault, overruns_of_stuck hparse hwithin hn hsum hstuck hroom⟩

end FastHttpConnection

/-! ## What the calls say of the bytes -/

/-- The calls return, and one of them tells an error. -/
def Outcome.TellsError (o : Outcome) : Prop := o.fault = none ∧ o.events.any Event.isError = true

/-- The calls complete the request, without an error, and leave `rest` unread. -/
structure Outcome.Completes (o : Outcome) (rest : Bytes) : Prop where
  returned : o.fault = none
  serving : o.conn.state = .servingApp
  quiet : o.events.any Event.isError = false
  left : o.conn.unread = rest

/-- The bytes of the body that the calls tell. -/
def Outcome.body (o : Outcome) : Bytes := o.events.flatMap Event.payload

/-- How the bytes `u` of a body are read. -/
inductive Verdict (maxBodySize : Nat) (u : Bytes) (o : Outcome) : Prop
  | served (p : Rest) (rest : Bytes) (h : o.Completes rest) (hreads : Reads (Taken maxBodySize) ⟨[], u⟩ p)
    (hends : p.Ends (Taken maxBodySize) rest) (hbody : o.body = p.read)
  | refused (p : Rest) (htold : o.TellsError) (hs : o.conn.state = .closed)
    (hreads : Reads (Taken maxBodySize) ⟨[], u⟩ p) (hbad : p.Malformed (Taken maxBodySize))
  | wrapped (p : Rest) (line more : Bytes) (n : Nat) (htold : o.TellsError) (hs : o.conn.state = .closed)
    (hreads : Reads (Taken maxBodySize) ⟨[], u⟩ p) (hat : p.Line line more) (hline : Taken maxBodySize p.total line n)
    (hsum : n + 1 = usizeEnd) (hmore : more ≠ []) (hlen : more.length < 2 ^ 63)
  | waits (p : Rest) (htold : ¬ o.TellsError) (hs : o.fault = none → o.conn.state ≠ .servingApp)
    (hreads : Reads (Taken maxBodySize) ⟨[], u⟩ p) (hopen : p.Open (Taken maxBodySize))

namespace FastHttpConnection

variable {parse : Httparse} {lim : Limits} {c c' : FastHttpConnection} {u : Bytes}

/-- Where the size of a chunk is awaited, there is no whole line. -/
theorem position_of_rests {d : Decoder} (hs : d.state = .receivingChunked .readingSize)
    (h : d.step lim parse = (d, [], .stop)) : position crlf d.unread = none := by
  cases hpos : position crlf d.unread with
  | none => rfl
  | some pos =>
    have hstate := congrArg (fun s : Decoder.Step => s.1.state) h
    unfold Decoder.step at hstate
    rw [hs] at hstate
    change (d.size lim).1.state = .receivingChunked .readingSize at hstate
    rw [Decoder.size, hpos] at hstate
    dsimp only at hstate
    split at hstate
    · cases hstate
    split at hstate
    · cases hstate
    unfold Decoder.acceptSize at hstate
    dsimp only at hstate
    split at hstate
    · cases hstate
    split at hstate
    · cases hstate
    · cases hstate

theorem length_of_rests {d : Decoder} {n : Nat} (hs : d.state = .receivingChunked (.readingData n))
    (h : d.step lim parse = (d, [], .stop)) : d.unread.length < n + 2 := by
  by_contra henough
  have hstate := congrArg (fun s : Decoder.Step => s.1.state) h
  unfold Decoder.step at hstate
  rw [hs] at hstate
  change (d.data n).1.state = .receivingChunked (.readingData n) at hstate
  rw [Decoder.data, if_neg henough] at hstate
  split at hstate
  · cases hstate
  · cases hstate

theorem trailersEnd_of_rests {d : Decoder} (hs : d.state = .receivingChunked .readingTrailers)
    (h : d.step lim parse = (d, [], .stop)) : trailersEnd d.unread = none := by
  have hstate := congrArg (fun s : Decoder.Step => s.1.state) h
  unfold Decoder.step at hstate
  rw [hs] at hstate
  change (d.trailers).1.state = .receivingChunked .readingTrailers at hstate
  rw [Decoder.trailers_eq] at hstate
  split at hstate
  · assumption
  · cases hstate

/-- Where an engine rests in the bytes of a body. -/
theorem Stands.verdict {o : Outcome} (hfault : o.fault = none)
    (h : o.conn.Stands parse lim u (Heard.after ⟨false, []⟩ o.events)) : Verdict lim.maxBodySize u o := by
  obtain ⟨rfl, hwithin, -⟩ := h.inside
  have hlen : o.conn.view.unread.length < 2 ^ 63 := by
    have hbuf := h.bounded.fits.length
    rw [view_unread, unread_length]
    omega
  have htold : o.events.any Event.isError = false → ¬ o.TellsError := fun hquiet hsome => by
    have hany := hsome.2
    rw [hquiet] at hany
    cases hany
  generalize hv : Heard.after ⟨false, []⟩ o.events = v at hwithin
  have hfailed : o.events.any Event.isError = v.failed := congrArg Heard.failed hv
  cases hwithin with
  | size p hs hreads hahead _ =>
    have hstep := h.rests.resolve_left fun hdata => by
      obtain ⟨n, hn, -⟩ := hdata
      change o.conn.state = _ at hs
      rw [hs] at hn
      cases hn
    refine .waits p (htold hfailed) (fun _ hserving => ?_) hreads (.line ?_)
    · change o.conn.state = _ at hs
      rw [hs] at hserving
      cases hserving
    · rw [hahead]
      exact position_of_rests hs hstep
  | data p line n hs hreads hat hline hn _ =>
    change o.conn.state = _ at hs
    refine .waits p (htold hfailed) (fun _ hserving => ?_) hreads (.data line _ n hat hline hn ?_)
    · rw [hs] at hserving
      cases hserving
    · rcases h.rests with ⟨k, hk, hsum⟩ | hstep
      · rw [hs] at hk
        cases hk
        rw [usizeEnd] at hsum
        omega
      · exact length_of_rests hs hstep
  | trailers p line hs hreads hat hline =>
    have hstep := h.rests.resolve_left fun hdata => by
      obtain ⟨n, hn, -⟩ := hdata
      change o.conn.state = _ at hs
      rw [hs] at hn
      cases hn
    refine .waits p (htold hfailed) (fun _ hserving => ?_) hreads (.trailers line _ hat hline fun t ht hpre => ?_)
    · change o.conn.state = _ at hs
      rw [hs] at hserving
      cases hserving
    · obtain ⟨rest, hrest⟩ := hpre
      have hnone := trailersEnd_of_rests hs hstep
      rw [← hrest, trailersEnd_append ht] at hnone
      cases hnone
  | done p hs hreads hends => exact .served p _ ⟨hfault, hs, hfailed, rfl⟩ hreads hends (congrArg Heard.body hv)
  | malformed p hs hreads hbad => exact .refused p ⟨hfault, hfailed⟩ hs hreads hbad
  | wraps p line n hs hreads hat hline hsum hmore =>
    exact .wrapped p line _ n ⟨hfault, hfailed⟩ hs hreads hat hline hsum hmore hlen

theorem Ran.verdict {o : Outcome} (h : Ran parse lim u ⟨false, []⟩ o) : Verdict lim.maxBodySize u o := by
  rcases h with ⟨hfault, hstands⟩ | ⟨hfault, p, line, n, more, hreads, hat, hline, hn, hsum, hlen⟩
  · exact hstands.verdict hfault
  · have hfew : more.length < n + 2 := by
      rw [usizeEnd] at hsum
      omega
    exact .waits p (fun htold => hfault htold.1) (fun hnone => absurd hnone hfault) hreads
      (.data line more n hat hline hn hfew)

/-- The call that reads the head goes on with the bytes behind it. -/
theorem ended_head (hparse : InRange parse) (hb : c.Bounded) (hm : c.mode = .http11) {seg : Bytes}
    (hroom : (c.buffer ++ seg).length < 2 ^ 63) {start : RequestStart} (hhead : ReadsChunkedHead parse c seg start)
    (hzero : (c.afterHead parse seg).totalBodyReceived = 0) :
    Ended parse c.limits (c.afterHead parse seg).unread ⟨false, []⟩ (c.feedData .release parse seg) := by
  have hbk := (hb.append hroom).compact
  obtain ⟨hv, hmode, hlimits, -⟩ := view_compact (c := { c with buffer := c.buffer ++ seg })
  have hmk := hmode.trans hm
  have hfed := hv.trans (view_append hb.fits seg)
  generalize hk : compactBuffer { c with buffer := c.buffer ++ seg } = k at hbk hlimits hmk hfed
  have hlk : k.limits = c.limits := hlimits
  have hcall : c.feedData .release parse seg = rounds .release parse ((c.buffer ++ seg).length + 2 + 1) k := by
    rw [← hk]
    rfl
  have hstep : k.view.step k.limits parse = (c.afterHead parse seg, [.requestStart start], .again) := by
    rw [hfed, hlk]
    exact Prod.ext rfl (Prod.ext hhead.told hhead.again)
  have hsound : k.view.Sound := by
    rw [hfed]
    exact sound_of_waiting hhead.waiting
  obtain ⟨hround, hbounded, hview⟩ := round_eq hparse hbk hmk hsound
  rw [hstep] at hround hbounded hview
  dsimp only at hround hbounded hview
  have hwork : (k.withView (c.afterHead parse seg)).view.work < (c.buffer ++ seg).length + 2 := by
    have hless := Decoder.work_step hstep
    have hall := Decoder.work_le k.view
    have hlen : k.view.unread.length ≤ (c.buffer ++ seg).length := by
      rw [hfed, Decoder.feed, view_unread, List.length_append, List.length_append, unread_length]
      omega
    rw [hview]
    omega
  have hinside : Inside c.limits (c.afterHead parse seg).unread (k.withView (c.afterHead parse seg)) ⟨false, []⟩ := by
    refine ⟨hlk, ?_, fun n hn => ?_⟩
    · rw [hview]
      exact .size _ hhead.reading .refl rfl hzero
    · change (c.afterHead parse seg).state = _ at hn
      rw [hhead.reading] at hn
      cases hn
  have hrest := ended_rounds hparse hbounded hmk hinside hwork
  rw [hcall, rounds, hround]
  exact hrest

end FastHttpConnection

/-- The bytes behind the head of a chunked request, in this call and in the
next ones, however they are cut. -/
structure FedBody (parse : Httparse) (c : FastHttpConnection) (u : Bytes) (seg : Bytes) (segs : List Bytes) : Prop where
  head : ∃ start, ReadsChunkedHead parse c seg start
  body : (c.afterHead parse seg).unread ++ segs.flatten = u
  room : c.HasRoom .release parse (seg :: segs)

theorem FedBody.zero {parse : Httparse} (hparse : InRange parse) {maxBodySize maxHeaderSize maxKeepaliveRequests : Nat}
    (hk : maxKeepaliveRequests < usizeEnd) {s : Session}
    (h : (session parse maxBodySize maxHeaderSize maxKeepaliveRequests).Reachable s) {u seg : Bytes} {segs : List Bytes}
    (hfed : FedBody parse s.conn u seg segs) : (s.conn.afterHead parse seg).totalBodyReceived = 0 := by
  obtain ⟨start, hhead⟩ := hfed.head
  have hstep : (s.conn.view.feed seg).step s.conn.limits parse =
      (s.conn.afterHead parse seg, [.requestStart start], .again) := Prod.ext rfl (Prod.ext hhead.told hhead.again)
  have htotal := Decoder.total_header s.conn.limits parse (s.conn.view.feed seg)
  rw [← Decoder.step_header (d := s.conn.view.feed seg) hhead.waiting, hstep] at htotal
  exact htotal.trans (Session.unreceived_of_reachable hparse hk h hhead.waiting)

theorem verdict_of_fed {parse : Httparse} (hparse : InRange parse)
    {maxBodySize maxHeaderSize maxKeepaliveRequests : Nat} (hk : maxKeepaliveRequests < usizeEnd) {s : Session}
    (h : (session parse maxBodySize maxHeaderSize maxKeepaliveRequests).Reachable s) {u seg : Bytes} {segs : List Bytes}
    (hfed : FedBody parse s.conn u seg segs) :
    Verdict s.conn.maxBodySize u (s.conn.feedAll .release parse (seg :: segs)) := by
  have hsound := Session.sound_of_reachable hparse hk h
  obtain ⟨start, hhead⟩ := hfed.head
  have hfirst := FastHttpConnection.ended_head hparse hsound.bounded hsound.mode hfed.room.1 hhead
    (hfed.zero hparse hk h)
  have hran := hfirst.ran hparse hfed.room.2
  rw [hfed.body] at hran
  exact hran.verdict

section Reading

variable {maxBodySize : Nat} {u rest : Bytes} {o : Outcome} {q : Rest}

/-- No error event, and the request is complete: so it is in the bytes. -/
theorem Verdict.of_completes (h : Verdict maxBodySize u o) (hdone : o.Completes rest) :
    ∃ p, Reads (Taken maxBodySize) ⟨[], u⟩ p ∧ p.Ends (Taken maxBodySize) rest ∧ o.body = p.read := by
  have hnot : o.conn.state ≠ .closed := by
    rw [hdone.serving]
    exact nofun
  cases h with
  | served p rest' h hreads hends hbody =>
    rw [← h.left, hdone.left] at hends
    exact ⟨p, hreads, hends, hbody⟩
  | refused p _ hs => exact absurd hs hnot
  | wrapped p line more n _ hs => exact absurd hs hnot
  | waits p _ hs => exact absurd hdone.serving (hs hdone.returned)

/-- A complete request in the bytes is completed. -/
theorem Verdict.completes (h : Verdict maxBodySize u o) (hreads : Reads (Taken maxBodySize) ⟨[], u⟩ q)
    (hends : q.Ends (Taken maxBodySize) rest) : o.Completes rest := by
  have hone := announces_taken maxBodySize
  have hq : ∀ r, ¬ Chunk (Taken maxBodySize) q r := fun r => hends.no_chunk hone
  cases h with
  | served p rest' h hreads' hends' =>
    rw [hreads'.unique hone hreads (fun r => hends'.no_chunk hone) hq] at hends'
    rw [hends.unique hends']
    exact h
  | refused p _ _ hreads' hbad =>
    rw [hreads'.unique hone hreads (fun r => hbad.no_chunk hone) hq] at hbad
    exact absurd hbad (hends.not_malformed hone)
  | wrapped p line more n _ _ hreads' hat hline hsum _ hlen =>
    have hopen : p.Open (Taken maxBodySize) :=
      .data line more n hat hline (by rw [usizeEnd] at hsum; omega) (by rw [usizeEnd] at hsum; omega)
    rw [hreads'.unique hone hreads (fun r => hopen.no_chunk hone) hq] at hopen
    exact absurd hopen (hends.not_open hone)
  | waits p _ _ hreads' hopen =>
    rw [hreads'.unique hone hreads (fun r => hopen.no_chunk hone) hq] at hopen
    exact absurd hopen (hends.not_open hone)

end Reading

/-- The bytes stop in the middle of a body of the grammar. -/
def Unfinished (maxBodySize : Nat) (u : Bytes) : Prop :=
  ∃ q, Reads (InGrammar maxBodySize) ⟨[], u⟩ q ∧ q.Open (InGrammar maxBodySize)

/-- The calls decode the bytes as the grammar says: they complete the request
exactly when the bytes begin with a body of the grammar, and leave what is
behind it; other bytes are refused with an error, or they are not all. -/
structure Decodes (maxBodySize : Nat) (u : Bytes) (o : Outcome) : Prop where
  accepts : ∀ rest, o.Completes rest ↔ ∃ p, u = p ++ rest ∧ ChunkedBody (InGrammar maxBodySize) 0 p
  others : (∀ rest, ¬ o.Completes rest) → o.TellsError ∨ Unfinished maxBodySize u

/-- The bytes `u` behind the head are decoded as the grammar says, however they
are cut. -/
def DecodesAll (parse : Httparse) (c : FastHttpConnection) (u : Bytes) : Prop :=
  ∀ seg segs, FedBody parse c u seg segs → Decodes c.maxBodySize u (c.feedAll .release parse (seg :: segs))

/-- The head of a chunked request can come alone, and the bytes behind it fit
in memory. -/
structure HeadAlone (parse : Httparse) (c : FastHttpConnection) (u head : Bytes) : Prop where
  reads : ∃ start, ReadsChunkedHead parse c head start
  alone : (c.afterHead parse head).unread = []
  room : (c.buffer ++ (head ++ u)).length < 2 ^ 63

/-- Every size line that is read is one of the grammar, with the sum within the
limit, or the bytes go wrong. -/
def PlainOrRefused (maxBodySize : Nat) (u : Bytes) : Prop :=
  Plain (InGrammar maxBodySize) (Taken maxBodySize) ⟨[], u⟩ ∨
    ∃ q, Reads (Taken maxBodySize) ⟨[], u⟩ q ∧ q.Malformed (Taken maxBodySize)

theorem first_of_grammar {maxBodySize : Nat} (total : Nat) (line : Bytes) (n : Nat)
    (h : InGrammar maxBodySize total line n) : position crlf line = none := h.1.first

theorem Verdict.decodes {maxBodySize : Nat} {u : Bytes} {o : Outcome} (h : Verdict maxBodySize u o)
    (hplain : PlainOrRefused maxBodySize u) : Decodes maxBodySize u o := by
  have hone := announces_taken maxBodySize
  constructor
  · intro rest
    rw [chunkedBody_iff first_of_grammar]
    constructor
    · intro hdone
      obtain ⟨p, hreads, hends, -⟩ := h.of_completes hdone
      rcases hplain with hplain | ⟨q, hreads', hbad⟩
      · exact ⟨p, hplain.reads hreads, hplain.ends hreads hends⟩
      · rw [hreads'.unique hone hreads (fun r => hbad.no_chunk hone) (fun r => hends.no_chunk hone)] at hbad
        exact absurd hbad (hends.not_malformed hone)
    · rintro ⟨q, hreads, hends⟩
      exact h.completes (hreads.mono taken_of_grammar) (hends.mono taken_of_grammar)
  · intro hnot
    cases h with
    | served p rest h => exact absurd h (hnot rest)
    | refused p htold _ _ _ => exact .inl htold
    | wrapped p line more n htold _ _ _ _ _ _ _ => exact .inl htold
    | waits p _ _ hreads hopen =>
      rcases hplain with hplain | ⟨q, hreads', hbad⟩
      · exact .inr ⟨p, hplain.reads hreads, hplain.opens hreads hopen⟩
      · rw [hreads'.unique hone hreads (fun r => hbad.no_chunk hone) (fun r => hopen.no_chunk hone)] at hbad
        exact absurd hbad (hopen.not_malformed hone)

/-! ## Bytes that the engine takes and the grammar does not -/

namespace FastHttpConnection

variable {parse : Httparse} {lim : Limits} {c : FastHttpConnection} {u : Bytes}

theorem kept_buffer (hparse : InRange parse) (size : Nat) :
    Kept (fun _ _ => some ()) (fun c (_ : Unit) => c.buffer.length ≤ size) parse := by
  apply kept_of_step hparse
  · exact fun c v _ h => ⟨(), rfl, h⟩
  · exact fun c v _ _ h => ⟨(), learns_nothing _, h⟩

/-- Bytes that are in memory all at once are if they are fed in segments. -/
theorem hasRoom_of_length (hparse : InRange parse) {segs : List Bytes} (hb : c.Bounded) (hm : c.mode = .http11)
    (hlen : (c.buffer ++ segs.flatten).length < 2 ^ 63) : c.HasRoom .release parse segs := by
  induction segs generalizing c with
  | nil => trivial
  | cons seg segs ih =>
    rw [List.flatten_cons, ← List.append_assoc, List.length_append] at hlen
    have hroom : (c.buffer ++ seg).length < 2 ^ 63 := by omega
    have hcompact := (view_compact (c := { c with buffer := c.buffer ++ seg })).2.2.2
    have hobs := observed_processEvents (c := { c with buffer := c.buffer ++ seg }) hparse
      (kept_buffer hparse (c.buffer ++ seg).length) (v := ()) (hb.append hroom) hm hcompact
    refine ⟨hroom, ih hobs.bounded hobs.mode ?_⟩
    have hafter : (c.feedData .release parse seg).conn.buffer.length ≤ (c.buffer ++ seg).length := by
      by_cases hfault : (c.feedData .release parse seg).fault = none
      · obtain ⟨-, -, -, hle⟩ := hobs.told hfault
        exact hle
      · obtain ⟨-, -, hle⟩ := hobs.panicked hfault
        exact hle
    rw [List.length_append]
    omega

/-- No line is ahead after no bytes. -/
theorem no_line_nil {read : Bytes} {p : Rest} {line more : Bytes} {admits : Nat → Bytes → Nat → Prop}
    (h : Reads admits ⟨read, []⟩ p) : ¬ p.Line line more := by
  intro hat
  obtain ⟨w, hw, -⟩ := h.cut
  have hnil := (List.append_eq_nil_iff.1 hw.symm).2
  rw [hat.ahead] at hnil
  exact absurd (List.append_eq_nil_iff.1 (List.append_eq_nil_iff.1 hnil).2).1 (by decide)

/-- After the head alone nothing is wrong. -/
theorem Ended.nil {v : Heard} {o : Outcome} (h : Ended parse lim [] v o) :
    o.fault = none ∧ o.conn.Stands parse lim [] (v.after o.events) := by
  rcases h with h | ⟨-, -, ⟨n, hn, -⟩, w, hwithin⟩
  · exact h
  · obtain ⟨p, line, hreads, hat, -⟩ := hwithin.of_data hn
    exact absurd hat (no_line_nil hreads)

/-- A chunk is announced, and none of its bytes are there: the engine waits
before it. -/
theorem Stands.before_chunk {v : Heard} {q : Rest} {line : Bytes} {n : Nat} (h : c.Stands parse lim u v)
    (hreads : Reads (Taken lim.maxBodySize) ⟨[], u⟩ q) (hat : q.Line line [])
    (hline : Taken lim.maxBodySize q.total line n)
    (hn : n ≠ 0) : c.state = .receivingChunked (.readingData n) ∧ c.unread = [] := by
  have hone := announces_taken lim.maxBodySize
  have hopen : q.Open (Taken lim.maxBodySize) := .data line [] n hat hline hn (by show 0 < n + 2; omega)
  have hq : ∀ r, ¬ Chunk (Taken lim.maxBodySize) q r := fun r => hopen.no_chunk hone
  have hlen : c.view.unread.length < 2 ^ 63 := by
    have hbuf := h.bounded.fits.length
    rw [view_unread, unread_length]
    omega
  obtain ⟨hlim, hwithin, -⟩ := h.inside
  cases hwithin with
  | size p hs hreads' hahead _ =>
    have hstep := h.rests.resolve_left fun hdata => by
      obtain ⟨k, hk, -⟩ := hdata
      change c.state = _ at hs
      rw [hs] at hk
      cases hk
    have hnone : position crlf p.ahead = none := by
      rw [hahead]
      exact position_of_rests hs hstep
    have hopen' : p.Open (Taken lim.maxBodySize) := .line hnone
    rw [hreads'.unique hone hreads (fun r => hopen'.no_chunk hone) hq, hat.found] at hnone
    cases hnone
  | data p line' k hs hreads' hat' hline' hk _ =>
    have hfew : c.view.unread.length < k + 2 := by
      rcases h.rests with ⟨k', hk', hsum⟩ | hstep
      · change c.state = _ at hs
        rw [hs] at hk'
        cases hk'
        rw [usizeEnd] at hsum
        omega
      · exact length_of_rests hs hstep
    have hopen' : p.Open (Taken lim.maxBodySize) := .data line' _ k hat' hline' hk hfew
    rw [hreads'.unique hone hreads (fun r => hopen'.no_chunk hone) hq] at hat' hline'
    obtain ⟨rfl, hunread⟩ := hat'.unique hat
    rw [hone _ _ _ _ hline hline']
    exact ⟨hs, hunread⟩
  | trailers p line' hs hreads' hat' hline' =>
    have hstuck : ∀ r, ¬ Chunk (Taken lim.maxBodySize) p r := by
      rintro r ⟨line'', data, hat'', hline'', hdata, -⟩
      obtain ⟨rfl, -⟩ := hat''.unique hat'
      exact hdata (List.length_eq_zero_iff.1 (hone _ _ _ _ hline'' hline'))
    rw [hreads'.unique hone hreads hstuck hq] at hat' hline'
    obtain ⟨rfl, -⟩ := hat'.unique hat
    exact absurd (hone _ _ _ _ hline hline') hn
  | done p hs hreads' hends =>
    rw [hreads'.unique hone hreads (fun r => hends.no_chunk hone) hq] at hends
    exact absurd hopen (hends.not_open hone)
  | malformed p hs hreads' hbad =>
    rw [hreads'.unique hone hreads (fun r => hbad.no_chunk hone) hq] at hbad
    exact absurd hbad (hopen.not_malformed hone)
  | wraps p line' k hs hreads' hat' hline' hsum hmore =>
    rw [usizeEnd] at hsum
    have hopen' : p.Open (Taken lim.maxBodySize) := .data line' _ k hat' hline' (by omega) (by omega)
    rw [hreads'.unique hone hreads (fun r => hopen'.no_chunk hone) hq] at hat'
    exact absurd (hat'.unique hat).2 hmore

/-- A call without bytes compacts the buffer, and then there is nothing before
the cursor. -/
theorem feed_nothing (hb : c.Bounded) (hm : c.mode = .http11) {n : Nat}
    (hs : c.state = .receivingChunked (.readingData n)) (hsum : n + 1 = usizeEnd) (hu : c.unread = []) :
    c.feedData .release parse [] = ⟨{ c with buffer := [], cursor := 0 }, [], none⟩ := by
  have hcursor : c.cursor = c.buffer.length := by
    have hcur := hb.fits.cursor
    have hlen := unread_length (c := c)
    rw [hu] at hlen
    change 0 = _ at hlen
    omega
  have hcompact : compactBuffer { c with buffer := c.buffer ++ [] } = { c with buffer := [], cursor := 0 } := by
    unfold compactBuffer
    exact if_pos (by rw [List.append_nil]; exact hcursor)
  have hround : round .release parse { c with buffer := [], cursor := 0 } =
      .ok ({ c with buffer := [], cursor := 0 }, [], .stop) :=
    round_waits parse (c := { c with buffer := [], cursor := 0 }) ⟨Nat.le_refl 0, by show 0 < 2 ^ 63; decide⟩ hm hs
      hsum rfl
  show rounds .release parse ((c.buffer ++ []).length + 2 + 1) _ = _
  rw [hcompact, rounds, hround]

/-- The first byte of a chunk of 2⁶⁴ - 1 bytes makes the engine panic, if there
is nothing before the cursor. -/
theorem feed_panics (hparse : InRange parse) (hm : c.mode = .http11) (hk : c.maxKeepaliveRequests < usizeEnd)
    {n : Nat} (hs : c.state = .receivingChunked (.readingData n)) (hsum : n + 1 = usizeEnd) {more : Bytes}
    (hmore : more ≠ []) (hlen : more.length < 2 ^ 63) :
    (feedData .release parse { c with buffer := [], cursor := 0 } more).fault ≠ none := by
  have hbounded : Bounded { c with buffer := more, cursor := 0 } := by
    refine ⟨⟨Nat.zero_le _, hlen⟩, fun hw => ?_, hk, fun k hk => ?_⟩
    · change c.state = _ ∨ c.state = _ at hw
      rw [hs] at hw
      rcases hw with hw | hw
      · cases hw
      · cases hw
    · change c.state = _ at hk
      rw [hs] at hk
      cases hk
      omega
  have hpos := List.length_pos_iff.2 hmore
  have hjam : Jammed parse { c with buffer := more, cursor := 0 } :=
    (jammed_iff parse { c with buffer := more, cursor := 0 } hm hbounded.fits hs (by omega) (by omega)).2
      ⟨by show n + 2 - usizeEnd ≤ more.length - 0; omega, .inl (by show 0 + n < usizeEnd; omega)⟩
  exact hjam.call hparse hbounded hm

/-- Fed the head, the bytes to the end of a line that announces 2⁶⁴ - 1 bytes,
nothing, and then some of these bytes, an engine panics. -/
theorem feedAll_panics (hparse : InRange parse) {head pre line more : Bytes} {n : Nat} {q : Rest}
    (hended : Ended parse lim [] ⟨false, []⟩ (c.feedData .release parse head))
    (hroom : c.HasRoom .release parse [head, pre, [], more])
    (hreads : Reads (Taken lim.maxBodySize) ⟨[], pre⟩ q) (hat : q.Line line [])
    (hline : Taken lim.maxBodySize q.total line n)
    (hsum : n + 1 = usizeEnd) (hmore : more ≠ []) (hlen : more.length < 2 ^ 63) :
    (c.feedAll .release parse [head, pre, [], more]).fault ≠ none := by
  have hn : n ≠ 0 := by
    rw [usizeEnd] at hsum
    omega
  obtain ⟨hfault, hstands⟩ := hended.nil
  rw [feedAll]
  dsimp only
  rw [if_pos hfault]
  have hroom₂ := hroom.2.1
  have hended₂ := hstands.feed hparse hroom₂
  generalize (c.feedData .release parse head).conn = c₁ at hended₂
  show (c₁.feedAll .release parse [pre, [], more]).fault ≠ none
  rw [feedAll]
  dsimp only
  split
  · rename_i hfault₂
    obtain ⟨-, hstands₂⟩ := hended₂.resolve_right fun h => h.1 hfault₂
    obtain ⟨hs, hu⟩ := hstands₂.before_chunk hreads hat hline hn
    generalize (c₁.feedData .release parse pre).conn = c₂ at hstands₂ hs hu
    show (c₂.feedAll .release parse [[], more]).fault ≠ none
    rw [feedAll, feed_nothing hstands₂.bounded hstands₂.mode hs hsum hu]
    dsimp only
    rw [if_pos rfl]
    show (feedAll .release parse { c₂ with buffer := [], cursor := 0 } [more]).fault ≠ none
    have hpanics := feed_panics hparse hstands₂.mode hstands₂.bounded.keepalive hs hsum hmore hlen
    rw [feedAll]
    dsimp only
    rw [if_neg hpanics]
    exact hpanics
  · assumption

end FastHttpConnection

section Grammar

variable {parse : Httparse} {maxBodySize maxHeaderSize maxKeepaliveRequests : Nat} {s : Session}

/-- Once the head of a chunked request is read: if every size line that the
engine reads of the bytes behind it is one of the grammar, with the sum of the
sizes within the limit, or if the bytes go wrong, the calls decode them as the
grammar says, however they are cut. And only then, if the head can come alone
and the bytes fit in memory. -/
theorem chunked_grammar_iff (hparse : InRange parse) (hk : maxKeepaliveRequests < usizeEnd)
    (h : (session parse maxBodySize maxHeaderSize maxKeepaliveRequests).Reachable s) (u : Bytes) :
    (PlainOrRefused s.conn.maxBodySize u → DecodesAll parse s.conn u) ∧
      ∀ head, HeadAlone parse s.conn u head → DecodesAll parse s.conn u → PlainOrRefused s.conn.maxBodySize u := by
  have hone := announces_taken s.conn.maxBodySize
  refine ⟨fun hplain seg segs hfed => (verdict_of_fed hparse hk h hfed).decodes hplain, ?_⟩
  rintro head ⟨⟨start, hhead⟩, hend, hlen⟩ hall
  have hsound := Session.sound_of_reachable hparse hk h
  have hfed : ∀ segs : List Bytes, segs.flatten = u → FedBody parse s.conn u head segs := by
    rintro segs rfl
    refine ⟨⟨start, hhead⟩, by rw [hend, List.nil_append], ?_⟩
    exact FastHttpConnection.hasRoom_of_length hparse hsound.bounded hsound.mode hlen
  have hopen : ∀ segs : List Bytes, segs.flatten = u →
      (∀ rest, ¬ (s.conn.feedAll .release parse (head :: segs)).Completes rest) →
      ¬ (s.conn.feedAll .release parse (head :: segs)).TellsError → PlainOrRefused s.conn.maxBodySize u := by
    intro segs hsegs hnot hquiet
    obtain ⟨q, hreads, hopen⟩ := ((hall head segs (hfed segs hsegs)).others hnot).resolve_left hquiet
    exact .inl (plain_of_open taken_of_grammar hone hreads hopen)
  have hone' : ([u] : List Bytes).flatten = u := by rw [List.flatten_cons, List.flatten_nil, List.append_nil]
  have hverdict := verdict_of_fed hparse hk h (hfed [u] hone')
  cases id hverdict with
  | served p rest hdone =>
    have hbody := ((hall head [u] (hfed [u] hone')).accepts rest).1 hdone
    rw [chunkedBody_iff first_of_grammar] at hbody
    obtain ⟨q, hreads, hends⟩ := hbody
    exact .inl (plain_of_ends taken_of_grammar hone hreads hends)
  | refused p _ _ hreads hbad => exact .inr ⟨p, hreads, hbad⟩
  | waits p hquiet hs _ _ => exact hopen [u] hone' (fun rest hdone => hs hdone.returned hdone.serving) hquiet
  | wrapped p line more n _ _ hreads hat hline hsum hmore hshort =>
    -- Cut where nothing is before the cursor, the engine panics and tells no error.
    obtain ⟨w, hw, hcut⟩ := hreads.cut
    have hu : u = w ++ (line ++ (crlf ++ more)) := hw.trans (by rw [hat.ahead])
    have hsegs : [w ++ (line ++ crlf), [], more].flatten = u := by
      rw [hu]
      simp
    have hroom := (hfed _ hsegs).room
    have hzero := (hfed _ hsegs).zero hparse hk h
    have hended := FastHttpConnection.ended_head hparse hsound.bounded hsound.mode hroom.1 hhead hzero
    rw [hend] at hended
    have hpre : Reads (Taken s.conn.maxBodySize) ⟨[], w ++ (line ++ crlf)⟩ ⟨p.read, line ++ (crlf ++ [])⟩ :=
      hcut (line ++ (crlf ++ []))
    have hpanics := FastHttpConnection.feedAll_panics hparse hended hroom hpre ⟨hat.first, rfl⟩ hline hsum hmore hshort
    exact hopen _ hsegs (fun rest hdone => hpanics hdone.returned) fun htold => hpanics htold.1

/-- A chunk whose size line has an extension, and the end of the body. -/
theorem chunked_grammar_extension :
    Decodes 1000 (bytes "2 ;x=y\r\nab\r\n0\r\n\r\nGET") (FastHttpConnection.feedAll .release parseChunkedHead
      (.new 1000 1000 1000) [chunkedHead ++ bytes "2 ;", bytes "x=y\r\nab\r", bytes "\n0\r\n\r\nGET"]) ∧
    PlainOrRefused 1000 (bytes "2 ;x=y\r\nab\r\n0\r\n\r\nGET") := by
  have hs : (session parseChunkedHead 1000 1000 1000).Reachable ⟨.new 1000 1000 1000, []⟩ := .init rfl
  have hiff := chunked_grammar_iff parseChunkedHead_inRange (by decide) hs (bytes "2 ;x=y\r\nab\r\n0\r\n\r\nGET")
  have hplain : PlainOrRefused 1000 (bytes "2 ;x=y\r\nab\r\n0\r\n\r\nGET") := by
    have hchunk : Chunk (InGrammar 1000) ⟨[], bytes "2 ;x=y\r\nab\r\n0\r\n\r\nGET"⟩
        ⟨bytes "ab", bytes "0\r\n\r\nGET"⟩ := by
      refine ⟨bytes "2 ;x=y", bytes "ab", ⟨by decide +kernel, by decide +kernel⟩,
        ⟨⟨by decide +kernel, ?_, by decide⟩, by decide⟩, by decide +kernel, rfl⟩
      exact ⟨bytes "2", bytes " ", bytes ";x=y", by decide +kernel, by decide +kernel, by decide +kernel,
        by decide +kernel, by decide +kernel, .inr ⟨bytes "x=y", by decide +kernel⟩⟩
    have hends : Ends (InGrammar 1000) ⟨bytes "ab", bytes "0\r\n\r\nGET"⟩ (bytes "GET") := by
      refine ⟨bytes "0", crlf, ⟨by decide +kernel, by decide +kernel⟩,
        ⟨⟨by decide +kernel, ?_, by decide⟩, by decide⟩, .last⟩
      exact ⟨bytes "0", [], [], by decide +kernel, by decide +kernel, by decide +kernel, by decide +kernel, nofun,
        .inl rfl⟩
    exact .inl (plain_of_ends taken_of_grammar (announces_taken 1000) (.single hchunk) hends)
  have hall := hiff.1 hplain
  refine ⟨hall _ _ ⟨⟨_, .inl rfl, rfl, by decide +kernel, by decide +kernel⟩, by decide +kernel, by decide +kernel⟩,
    hiff.2 chunkedHead
      ⟨⟨_, .inl rfl, rfl, by decide +kernel, by decide +kernel⟩, by decide +kernel, by decide +kernel⟩ hall⟩

/-- A plus sign before the size, which the grammar does not have, completes the
request. -/
theorem plus_accepted : ¬ Decodes 1000 (bytes "+1\r\na\r\n0\r\n\r\n")
    (FastHttpConnection.feedAll .release parseChunkedHead (.new 1000 1000 1000)
      [chunkedHead ++ bytes "+1\r\na\r\n0\r\n\r\n"]) := by
  intro hdecodes
  have hdone : (FastHttpConnection.feedAll .release parseChunkedHead (.new 1000 1000 1000)
      [chunkedHead ++ bytes "+1\r\na\r\n0\r\n\r\n"]).Completes [] :=
    ⟨by decide +kernel, by decide +kernel, by decide +kernel, by decide +kernel⟩
  have hbody := (hdecodes.accepts []).1 hdone
  rw [chunkedBody_iff first_of_grammar] at hbody
  obtain ⟨q, hreads, hends⟩ := hbody
  have hplain := plain_of_ends taken_of_grammar (announces_taken 1000) hreads hends
  obtain ⟨⟨-, ⟨digits, ows, ext, hline, hne, hhex, -⟩, -⟩, -⟩ := hplain ⟨[], bytes "+1\r\na\r\n0\r\n\r\n"⟩ (bytes "+1")
    (bytes "a\r\n0\r\n\r\n") 1 .refl ⟨by decide +kernel, by decide +kernel⟩
    ⟨⟨by decide +kernel, by decide +kernel⟩, .inr (by decide)⟩
  cases digits with
  | nil => exact hne rfl
  | cons b digits =>
    have hb : 43 = b := (List.cons.inj hline).1
    have hhexb := hhex b (.head _)
    rw [← hb] at hhexb
    exact absurd hhexb (by decide +kernel)

end Grammar

end Multiloop.Http
