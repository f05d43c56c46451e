import Multiloop.Http.Bounds

/-!
# Where the packets are cut

A decoder that is fed bytes in two parts goes through the same states, and
tells the same events apart from how a body is cut, as one that is fed them at
once. The exception is the limit on the size of a head: it is compared with all
unread bytes, of the head and of what follows it.
-/

namespace Multiloop.Http

/-! ## Runs of the decoder -/

namespace Decoder

variable {lim : Limits} {parse : Httparse} {d d₁ d' : Decoder} {evs : List Event}

/-- The bytes `b` arrive. -/
def feed (d : Decoder) (b : Bytes) : Decoder := { d with unread := d.unread ++ b }

/-- The chunk that is read is one that `chunk_len + 2` can be computed of. -/
def Sound (d : Decoder) : Prop := ∀ n, d.state = .receivingChunked (.readingData n) → n + 2 < usizeEnd

/-- The decoder goes from `d` on to `d'`, where the loop stops, through sound
states only, and tells `evs`. -/
inductive Runs (lim : Limits) (parse : Httparse) : Decoder → List Event → Decoder → Prop
  | stop {d d' : Decoder} {evs : List Event} (hs : d.Sound) (h : d.step lim parse = (d', evs, .stop)) :
    Runs lim parse d evs d'
  | again {d d₁ d' : Decoder} {evs evs' : List Event} (hs : d.Sound)
    (h : d.step lim parse = (d₁, evs, .again)) (hr : Runs lim parse d₁ evs' d') :
    Runs lim parse d (evs ++ evs') d'

/-- The states that the loop goes through from `d`. -/
inductive Visits (lim : Limits) (parse : Httparse) : Decoder → Decoder → Prop
  | refl (d : Decoder) : Visits lim parse d d
  | step {d d₁ d' : Decoder} {evs : List Event} (h : d.step lim parse = (d₁, evs, .again))
    (hv : Visits lim parse d₁ d') : Visits lim parse d d'

/-- What is left to do: every round but the last makes it less. -/
def work (d : Decoder) : Nat :=
  d.unread.length + match d.state with
    | .waitingHeader | .keepAliveWait => 2
    | .receivingContentLength _ | .receivingChunked _ => 1
    | .servingApp | .closed => 0

theorem work_le (d : Decoder) : d.work ≤ d.unread.length + 2 := by
  unfold work
  split <;> omega

theorem Goes.work_le (h : d.Goes d₁) : d₁.work ≤ d.unread.length + 1 := by
  have hlen := h.unread.length_le
  unfold work
  split
  · rename_i hs
    exact absurd hs h.waiting.1
  · rename_i hs
    exact absurd hs h.waiting.2
  all_goals omega

theorem work_header (hs : d.state = .waitingHeader ∨ d.state = .keepAliveWait)
    (h : d.header lim parse = (d₁, evs, .again)) : d₁.work < d.work := by
  have hwork : d.work = d.unread.length + 2 := by
    rcases hs with hs | hs <;> simp only [work, hs]
  unfold header at h
  split at h
  · cases h
  split at h
  · cases h
  split at h
  · rename_i offset req _
    have hg : (d.acceptHead lim offset req).1.work ≤ d.unread.length + 1 := (goes_acceptHead offset req).work_le
    rw [h] at hg
    change d₁.work ≤ _ at hg
    omega
  · cases h
  · cases h

theorem work_takeBody {r : Nat} (hu : d.unread ≠ []) (hs : d.state = .receivingContentLength r) (n : Nat) :
    (d.takeBody n).1.work < d.work := by
  have hpos := List.length_pos_iff.2 hu
  unfold takeBody work
  rw [hs]
  split
  · simp only [List.length_nil]
    omega
  · simp only [List.length_drop]
    omega

theorem work_size (hs : d.state = .receivingChunked .readingSize)
    (h : d.size lim = (d₁, evs, .again)) : d₁.work < d.work := by
  have hwork : d.work = d.unread.length + 1 := by simp only [work, hs]
  unfold size at h
  split at h
  · cases h
  rename_i pos hpos
  have hle : pos + 2 ≤ d.unread.length := position_le hpos
  split at h
  · cases h
  split at h
  · cases h
  unfold acceptSize at h
  dsimp only at h
  split at h
  · cases h
    simp only [work, List.length_drop, hs]
    omega
  split at h
  · cases h
  · cases h
    simp only [work, List.length_drop, hs]
    omega

theorem work_data {n : Nat} (hs : d.state = .receivingChunked (.readingData n))
    (h : d.data n = (d₁, evs, .again)) : d₁.work < d.work := by
  unfold data at h
  split at h
  · cases h
  split at h
  · cases h
  · cases h
    simp only [work, List.length_drop, hs]
    omega

theorem work_trailers (hs : d.state = .receivingChunked .readingTrailers)
    (h : d.trailers = (d₁, evs, .again)) : d₁.work < d.work := by
  unfold trailers finish at h
  split at h
  · cases h
    simp only [work, List.length_drop, hs]
    omega
  split at h
  · cases h
  · cases h
    simp only [work, List.length_drop, hs]
    omega

/-- A round after which the loop goes on leaves less to do. -/
theorem work_step (h : d.step lim parse = (d₁, evs, .again)) : d₁.work < d.work := by
  unfold step at h
  split at h
  · cases h
  · cases h
  · rename_i hs
    exact work_header (.inl hs) h
  · rename_i hs
    exact work_header (.inr hs) h
  · rename_i remaining hs
    unfold contentLength at h
    split at h
    · cases h
    · rename_i hu
      have hw := work_takeBody hu hs remaining
      rwa [h] at hw
  · rename_i hs
    exact work_size hs h
  · rename_i hs
    exact work_data hs h
  · rename_i hs
    exact work_trailers hs h

theorem exists_runs (h : ∀ e, Visits lim parse d e → e.Sound) : ∃ evs d', Runs lim parse d evs d' := by
  induction hw : d.work using Nat.strong_induction_on generalizing d with
  | _ n ih =>
    rcases hst : d.step lim parse with ⟨d₁, evs, _ | _⟩
    · obtain ⟨evs', d', hr⟩ := ih d₁.work (hw ▸ work_step hst) (fun e he => h e (.step hst he)) rfl
      exact ⟨_, _, .again (h d (.refl d)) hst hr⟩
    · exact ⟨_, _, .stop (h d (.refl d)) hst⟩

end Decoder

namespace Decoder

variable {lim : Limits} {parse : Httparse} {d e : Decoder}

instance (d : Decoder) : Decidable d.Sound :=
  match hs : d.state with
  | .receivingChunked (.readingData n) =>
    decidable_of_iff (n + 2 < usizeEnd) ⟨fun h k hk => by rw [hs] at hk; cases hk; exact h, fun h => h n hs⟩
  | .waitingHeader | .receivingContentLength _ | .receivingChunked .readingSize
  | .receivingChunked .readingTrailers | .servingApp | .keepAliveWait | .closed =>
    .isTrue fun k hk => by rw [hs] at hk; cases hk

/-- Whether at most `fuel` rounds go through sound states only, and then stop. -/
def soundFor (lim : Limits) (parse : Httparse) : Nat → Decoder → Bool
  | 0, _ => false
  | fuel + 1, d =>
    decide d.Sound && match d.step lim parse with
      | (d₁, _, .again) => soundFor lim parse fuel d₁
      | (_, _, .stop) => true

theorem sound_of_soundFor (fuel : Nat) (h : soundFor lim parse fuel d = true) (hv : Visits lim parse d e) :
    e.Sound := by
  induction hv generalizing fuel with
  | refl d =>
    cases fuel with
    | zero => cases h
    | succ fuel => exact of_decide_eq_true (Bool.and_eq_true _ _ ▸ h).1
  | step hst _ ih =>
    cases fuel with
    | zero => cases h
    | succ fuel =>
      simp only [soundFor, hst, Bool.and_eq_true] at h
      exact ih fuel h.2

end Decoder

/-! ## Events apart from how bodies are cut -/

/-- Consecutive chunks of one body are one chunk. -/
def joinBody : Event → List Event → List Event
  | .body x true, .body y more :: rest => .body (x ++ y) more :: rest
  | e, rest => e :: rest

def merge (evs : List Event) : List Event := evs.foldr joinBody []

theorem merge_append (evs evs' : List Event) : merge (evs ++ evs') = evs.foldr joinBody (merge evs') :=
  List.foldr_append

theorem merge_congr (evs : List Event) {l l' : List Event} (h : merge l = merge l') :
    merge (evs ++ l) = merge (evs ++ l') := by
  rw [merge_append, merge_append, h]

theorem merge_cons {e : Event} (he : ∀ x, e ≠ .body x true) (evs : List Event) :
    merge (e :: evs) = e :: merge evs := by
  rw [merge, List.foldr_cons]
  unfold joinBody
  split
  · exact absurd rfl (he _)
  · rfl

theorem joinBody_joinBody (x y : Bytes) (more : Bool) (rest : List Event) :
    joinBody (.body x true) (joinBody (.body y more) rest) = joinBody (.body (x ++ y) more) rest := by
  cases more with
  | false => rfl
  | true =>
    cases rest with
    | nil => rfl
    | cons e rest => cases e <;> simp [joinBody, List.append_assoc]

namespace Decoder

variable {lim : Limits} {parse : Httparse} {d d₁ d' : Decoder} {evs e : List Event} {b : Bytes}

/-- httparse reads the same head however many bytes follow it. -/
structure Consistent (parse : Httparse) : Prop where
  inRange : InRange parse
  complete : ∀ u v offset req, parse u = .complete offset req → parse (u ++ v) = .complete offset req
  error : ∀ u v, parse u = .error → parse (u ++ v) = .error

/-! ## Runs, one round at a time -/

theorem runs_of_again (hst : d.step lim parse = (d₁, e, .again)) :
    Runs lim parse d evs d' ↔ d.Sound ∧ ∃ evs', evs = e ++ evs' ∧ Runs lim parse d₁ evs' d' := by
  constructor
  · intro h
    cases h with
    | stop hs h => rw [hst] at h; cases h
    | again hs h hr =>
      rw [hst] at h
      cases h
      exact ⟨hs, _, rfl, hr⟩
  · rintro ⟨hs, evs', rfl, hr⟩
    exact .again hs hst hr

theorem runs_of_stop (hst : d.step lim parse = (d₁, e, .stop)) :
    Runs lim parse d evs d' ↔ d.Sound ∧ evs = e ∧ d' = d₁ := by
  constructor
  · intro h
    cases h with
    | stop hs h =>
      rw [hst] at h
      cases h
      exact ⟨hs, rfl, rfl⟩
    | again hs h hr => rw [hst] at h; cases h
  · rintro ⟨hs, rfl, rfl⟩
    exact .stop hs hst

/-! ## Cutting the bytes -/

/-- What a decoder does with more bytes at once it does as well if they arrive
later. -/
def Splits (lim : Limits) (parse : Httparse) (d : Decoder) (b : Bytes) : Prop :=
  ∀ evs d', Runs lim parse (d.feed b) evs d' → ∃ evs₁ d₁ evs₂, Runs lim parse d evs₁ d₁ ∧
    Runs lim parse (d₁.feed b) evs₂ d' ∧ merge (evs₁ ++ evs₂) = merge evs

theorem Runs.sound (h : Runs lim parse d evs d') : d.Sound := by
  cases h <;> assumption

theorem splits_of_wait (hst : d.step lim parse = (d, [], .stop)) : Splits lim parse d b := fun evs _ h =>
  ⟨[], d, evs, (runs_of_stop hst).2 ⟨h.sound, rfl, rfl⟩, h, rfl⟩

def Idle (d : Decoder) : Prop := d.state = .closed ∨ d.state = .servingApp

theorem step_of_idle (h : d.Idle) : d.step lim parse = (d, [], .stop) := by
  unfold step
  rcases h with h | h <;> rw [h]

/-- The next round does the same with more bytes. -/
structure Stable (lim : Limits) (parse : Httparse) (d : Decoder) (b : Bytes) : Prop where
  step : (d.feed b).step lim parse =
    ((d.step lim parse).1.feed b, (d.step lim parse).2.1, (d.step lim parse).2.2)
  idle : (d.step lim parse).2.2 = .stop → (d.step lim parse).1.Idle

theorem splits_of_stable (h : Stable lim parse d b)
    (ih : ∀ d₁ e, d.step lim parse = (d₁, e, .again) → Splits lim parse d₁ b) : Splits lim parse d b := by
  rintro evs d' hr
  have hstep := h.step
  have hidle := h.idle
  rcases hst : d.step lim parse with ⟨d₁, e, _ | _⟩
  · rw [hst] at hstep
    obtain ⟨hs, evs', rfl, hr'⟩ := (runs_of_again hstep).1 hr
    obtain ⟨evs₁, d₂, evs₂, h₁, h₂, hm⟩ := ih d₁ e hst evs' d' hr'
    refine ⟨e ++ evs₁, d₂, evs₂, .again hs hst h₁, h₂, ?_⟩
    rw [List.append_assoc]
    exact merge_congr e hm
  · rw [hst] at hstep hidle
    obtain ⟨hs, rfl, rfl⟩ := (runs_of_stop hstep).1 hr
    have hi : (d₁.feed b).Idle := hidle rfl
    have hsound : (d₁.feed b).Sound := by
      intro n hn
      rcases hi with hi | hi <;> rw [hi] at hn <;> cases hn
    exact ⟨evs, d₁, [], .stop hs hst, (runs_of_stop (step_of_idle hi)).2 ⟨hsound, rfl, rfl⟩,
      by rw [List.append_nil]⟩

/-! ## Bodies of known length -/

theorem step_contentLength {r : Nat} (hs : d.state = .receivingContentLength r) (hu : d.unread ≠ []) :
    d.step lim parse = d.takeBody r := by
  unfold step
  rw [hs]
  dsimp only
  unfold contentLength
  rw [if_neg hu]

/-- Bytes that end before the body does are taken first, and then the rest. -/
theorem takeBody_cut {r : Nat} (h : d.unread.length < r) : ∃ d₂ x more,
    (d.feed b).takeBody r = (d₂, [.body (d.unread ++ x) more], .again) ∧
    ({ d with state := .receivingContentLength (r - d.unread.length), unread := b } : Decoder).takeBody
      (r - d.unread.length) = (d₂, [.body x more], .again) := by
  unfold takeBody
  by_cases hb : b.length < r - d.unread.length
  · refine ⟨_, b, true, ?_, if_pos hb⟩
    rw [if_pos (by simp only [feed, List.length_append]; omega)]
    simp only [feed, List.length_append, Nat.sub_add_eq]
  · refine ⟨_, b.take (r - d.unread.length), false, ?_, if_neg hb⟩
    rw [if_neg (by simp only [feed, List.length_append]; omega)]
    have htake : (d.unread ++ b).take r = d.unread ++ b.take (r - d.unread.length) := by
      rw [List.take_append, List.take_of_length_le (Nat.le_of_lt h)]
    have hdrop : (d.unread ++ b).drop r = b.drop (r - d.unread.length) := by
      rw [List.drop_append, List.drop_of_length_le (Nat.le_of_lt h), List.nil_append]
    simp only [feed, htake, hdrop]

theorem step_contentLength_nil {r : Nat} (hs : d.state = .receivingContentLength r) (hu : d.unread = []) :
    d.step lim parse = (d, [], .stop) := by
  unfold step
  rw [hs]
  dsimp only
  unfold contentLength
  rw [if_pos hu]

theorem feed_nil : d.feed [] = d := by
  simp only [feed, List.append_nil]

theorem sound_of_contentLength {r : Nat} (hs : d.state = .receivingContentLength r) : d.Sound := by
  intro n hn
  rw [hs] at hn
  cases hn

theorem splits_contentLength {r : Nat} (hs : d.state = .receivingContentLength r) : Splits lim parse d b := by
  by_cases hu : d.unread = []
  · exact splits_of_wait (step_contentLength_nil hs hu)
  have hst : d.step lim parse = d.takeBody r := step_contentLength hs hu
  have hfeed : (d.feed b).step lim parse = (d.feed b).takeBody r :=
    step_contentLength hs (by simp [feed, hu])
  by_cases hlt : d.unread.length < r
  · -- The unread bytes are all taken, as a chunk of their own.
    intro evs d' hr
    have hall : d.takeBody r =
        ({ d with state := .receivingContentLength (r - d.unread.length), unread := [] },
          [.body d.unread true], .again) := if_pos hlt
    rw [hall] at hst
    by_cases hb : b = []
    · subst hb
      rw [feed_nil] at hr
      obtain ⟨-, evs', rfl, hr'⟩ := (runs_of_again hst).1 hr
      obtain ⟨hs', rfl, rfl⟩ := (runs_of_stop (step_contentLength_nil rfl rfl)).1 hr'
      exact ⟨_, _, [], hr, feed_nil.symm ▸ hr', by simp⟩
    · obtain ⟨d₂, x, more, hone, htwo⟩ := takeBody_cut (b := b) hlt
      rw [hone] at hfeed
      obtain ⟨hs', evs', rfl, hr'⟩ := (runs_of_again hfeed).1 hr
      have hlater : (({ d with
          state := .receivingContentLength (r - d.unread.length)
          unread := [] } : Decoder).feed b).step lim parse = (d₂, [.body x more], .again) :=
        (step_contentLength rfl (by simpa [feed] using hb)).trans htwo
      refine ⟨[.body d.unread true] ++ [], _, [.body x more] ++ evs', .again hs' hst
        ((runs_of_stop (step_contentLength_nil rfl rfl)).2 ⟨sound_of_contentLength rfl, rfl, rfl⟩),
        (runs_of_again hlater).2 ⟨sound_of_contentLength rfl, evs', rfl, hr'⟩, ?_⟩
      exact joinBody_joinBody d.unread x more (merge evs')
  · have hle := Nat.not_lt.1 hlt
    have hall : d.takeBody r = ({ d with state := .servingApp, unread := d.unread.drop r },
        [.body (d.unread.take r) false], .again) := if_neg hlt
    refine splits_of_stable ⟨?_, ?_⟩ fun d₁ e he => ?_
    · rw [hfeed, hst, hall]
      unfold takeBody
      rw [if_neg (by simp only [feed, List.length_append]; omega)]
      simp only [feed, List.take_append_of_le_length hle, List.drop_append_of_le_length hle]
    · rw [hst, hall]
      intro hc
      cases hc
    · rw [hst, hall] at he
      cases he
      exact splits_of_wait (step_of_idle (.inr rfl))

/-! ## Heads -/

/-- A body of known length begins with its start event, and then goes on as any
other. -/
theorem runs_beginBody {cl : Nat} {start : Event} {d₀ : Decoder}
    (hst : d.step lim parse = d₀.beginBody cl start) :
    Runs lim parse d evs d' ↔ d.Sound ∧ ∃ evs', evs = start :: evs' ∧
      Runs lim parse { d₀ with state := .receivingContentLength cl } evs' d' := by
  set d₂ : Decoder := { d₀ with state := .receivingContentLength cl } with hd₂
  by_cases hu : d₂.unread = []
  · have hbegin : d₀.beginBody cl start = (d₂, [start], .again) := if_pos hu
    rw [hbegin] at hst
    exact runs_of_again hst
  · have hbegin : d₀.beginBody cl start =
        ((d₂.takeBody cl).1, start :: (d₂.takeBody cl).2.1, (d₂.takeBody cl).2.2) := if_neg hu
    have hnext : d₂.step lim parse = d₂.takeBody cl := step_contentLength rfl hu
    have hagain : (d₂.takeBody cl).2.2 = .again := by
      unfold takeBody
      split <;> rfl
    rw [hbegin, hagain] at hst
    have hnext' : d₂.step lim parse = ((d₂.takeBody cl).1, (d₂.takeBody cl).2.1, .again) := by
      rw [hnext, ← hagain]
    rw [runs_of_again hst]
    simp only [runs_of_again hnext']
    refine and_congr_right fun _ => ⟨?_, ?_⟩
    · rintro ⟨evs', rfl, hr⟩
      exact ⟨_, rfl, sound_of_contentLength rfl, evs', rfl, hr⟩
    · rintro ⟨_, rfl, -, evs', rfl, hr⟩
      exact ⟨evs', rfl, hr⟩

theorem splits_of_beginBody {cl : Nat} {start : Event} {d₀ : Decoder}
    (hst : d.step lim parse = d₀.beginBody cl start)
    (hfeed : (d.feed b).step lim parse = (d₀.feed b).beginBody cl start) : Splits lim parse d b := by
  intro evs d' hr
  obtain ⟨hs, evs', rfl, hr'⟩ := (runs_beginBody hfeed).1 hr
  obtain ⟨evs₁, d₁, evs₂, h₁, h₂, hm⟩ :=
    splits_contentLength (d := { d₀ with state := .receivingContentLength cl }) rfl evs' d' hr'
  exact ⟨start :: evs₁, d₁, evs₂, (runs_beginBody hst).2 ⟨hs, evs₁, rfl, h₁⟩, h₂, merge_congr [start] hm⟩

/-- What is made of a head does not depend on the bytes after it, except where
a body of known length begins. -/
theorem acceptHead_feed {offset : Nat} (hoff : offset ≤ d.unread.length) (req : Request) (b : Bytes) :
    (∃ (d₀ : Decoder) (cl : Nat) (start : Event), d.acceptHead lim offset req = d₀.beginBody cl start ∧
      (d.feed b).acceptHead lim offset req = (d₀.feed b).beginBody cl start) ∨
    ((d.feed b).acceptHead lim offset req = ((d.acceptHead lim offset req).1.feed b,
        (d.acceptHead lim offset req).2.1, (d.acceptHead lim offset req).2.2) ∧
      ((d.acceptHead lim offset req).2.2 = .stop → (d.acceptHead lim offset req).1.Idle)) := by
  have hdrop : (d.unread ++ b).drop offset = d.unread.drop offset ++ b :=
    List.drop_append_of_le_length hoff
  unfold acceptHead
  simp only [feed, hdrop]
  split
  · exact .inr ⟨rfl, fun _ => .inl rfl⟩
  split
  · exact .inr ⟨rfl, fun _ => .inr rfl⟩
  split
  · exact .inr ⟨rfl, fun hc => by cases hc⟩
  split
  · split
    · exact .inr ⟨rfl, fun _ => .inl rfl⟩
    · exact .inl ⟨_, _, _, rfl, rfl⟩
  · exact .inr ⟨rfl, fun _ => .inr rfl⟩

/-- A head that ends within the limit, if `b` does not come with it, and beyond
the limit if it does. -/
def Overrun (lim : Limits) (parse : Httparse) (d : Decoder) (b : Bytes) : Prop :=
  (d.state = .waitingHeader ∨ d.state = .keepAliveWait) ∧ d.unread ≠ [] ∧
    d.unread.length ≤ lim.maxHeaderSize ∧ lim.maxHeaderSize < d.unread.length + b.length ∧
    parse d.unread ≠ .incomplete

theorem step_header (hs : d.state = .waitingHeader ∨ d.state = .keepAliveWait) :
    d.step lim parse = d.header lim parse := by
  unfold step
  rcases hs with hs | hs <;> rw [hs]

theorem splits_header (hc : Consistent parse) (hs : d.state = .waitingHeader ∨ d.state = .keepAliveWait)
    (hover : ¬ Overrun lim parse d b)
    (ih : ∀ d₁ e, d.step lim parse = (d₁, e, .again) → Splits lim parse d₁ b) : Splits lim parse d b := by
  have hfeed : (d.feed b).step lim parse = (d.feed b).header lim parse := step_header hs
  have hst : d.step lim parse = d.header lim parse := step_header hs
  by_cases hu : d.unread = []
  · exact splits_of_wait (hst.trans (if_pos hu))
  have hu' : (d.feed b).unread ≠ [] := by simp [feed, hu]
  have hlen : (d.feed b).unread.length = d.unread.length + b.length := by simp [feed]
  unfold header at hfeed hst
  rw [if_neg hu] at hst
  rw [if_neg hu'] at hfeed
  by_cases hmax : d.unread.length > lim.maxHeaderSize
  · rw [if_pos hmax] at hst
    rw [if_pos (by omega)] at hfeed
    exact splits_of_stable ⟨by rw [hfeed, hst]; rfl, fun _ => by rw [hst]; exact .inl rfl⟩ ih
  rw [if_neg hmax] at hst
  by_cases hinc : parse d.unread = .incomplete
  · rw [hinc] at hst
    exact splits_of_wait hst
  have hmax' : ¬ (d.feed b).unread.length > lim.maxHeaderSize := by
    intro hgt
    exact hover ⟨hs, hu, by omega, by omega, hinc⟩
  rw [if_neg hmax'] at hfeed
  cases hres : parse d.unread with
  | incomplete => exact absurd hres hinc
  | error =>
    have hres' : parse (d.feed b).unread = .error := hc.error _ _ hres
    rw [hres] at hst
    rw [hres'] at hfeed
    exact splits_of_stable ⟨by rw [hfeed, hst]; rfl, fun _ => by rw [hst]; exact .inl rfl⟩ ih
  | complete offset req =>
    have hres' : parse (d.feed b).unread = .complete offset req := hc.complete _ _ _ _ hres
    rw [hres] at hst
    rw [hres'] at hfeed
    dsimp only at hst hfeed
    have hoff : offset ≤ d.unread.length := hc.inRange _ _ _ hres
    rcases acceptHead_feed hoff req b with ⟨d₀, cl, start, h₁, h₂⟩ | ⟨h₁, h₂⟩
    · exact splits_of_beginBody (hst.trans h₁) (hfeed.trans h₂)
    · exact splits_of_stable ⟨by rw [hfeed, hst, h₁], by rw [hst]; exact h₂⟩ ih

/-! ## Chunked bodies -/

theorem splits_size (hs : d.state = .receivingChunked .readingSize)
    (ih : ∀ d₁ e, d.step lim parse = (d₁, e, .again) → Splits lim parse d₁ b) : Splits lim parse d b := by
  have hstep : ∀ d : Decoder, d.state = .receivingChunked .readingSize → d.step lim parse = d.size lim := by
    intro d hs
    unfold step
    rw [hs]
  have hst := hstep d hs
  have hfeed := hstep (d.feed b) hs
  cases hpos : position crlf d.unread with
  | none =>
    refine splits_of_wait (hst.trans ?_)
    unfold size
    rw [hpos]
  | some pos =>
    have hle : pos + 2 ≤ d.unread.length := position_le hpos
    have htake : (d.unread ++ b).take pos = d.unread.take pos := List.take_append_of_le_length (by omega)
    have hdrop : (d.unread ++ b).drop (pos + 2) = d.unread.drop (pos + 2) ++ b :=
      List.drop_append_of_le_length hle
    have hsame : (d.feed b).size lim = ((d.size lim).1.feed b, (d.size lim).2.1, (d.size lim).2.2) ∧
        ((d.size lim).2.2 = .stop → (d.size lim).1.Idle) := by
      unfold size acceptSize
      simp only [feed, position_append hpos, hpos, htake, hdrop]
      split
      · exact ⟨rfl, fun _ => .inl rfl⟩
      split
      · exact ⟨rfl, fun _ => .inl rfl⟩
      split
      · exact ⟨rfl, fun hc => by cases hc⟩
      split
      · exact ⟨rfl, fun _ => .inl rfl⟩
      · exact ⟨rfl, fun hc => by cases hc⟩
    exact splits_of_stable ⟨by rw [hfeed, hst]; exact hsame.1, by rw [hst]; exact hsame.2⟩ ih

theorem splits_data {n : Nat} (hs : d.state = .receivingChunked (.readingData n))
    (ih : ∀ d₁ e, d.step lim parse = (d₁, e, .again) → Splits lim parse d₁ b) : Splits lim parse d b := by
  have hstep : ∀ d : Decoder, d.state = .receivingChunked (.readingData n) → d.step lim parse = d.data n := by
    intro d hs
    unfold step
    rw [hs]
  have hst := hstep d hs
  have hfeed := hstep (d.feed b) hs
  by_cases hlen : d.unread.length < n + 2
  · exact splits_of_wait (hst.trans (if_pos hlen))
  · have hle := Nat.not_lt.1 hlen
    have hsame : (d.feed b).data n = ((d.data n).1.feed b, (d.data n).2.1, (d.data n).2.2) ∧
        ((d.data n).2.2 = .stop → (d.data n).1.Idle) := by
      have hlen' : ¬ (d.unread ++ b).length < n + 2 := by
        rw [List.length_append]
        omega
      have hbound : ((d.unread ++ b).drop n).take 2 = (d.unread.drop n).take 2 := by
        rw [List.drop_append_of_le_length (by omega), List.take_append_of_le_length (by
          rw [List.length_drop]
          omega)]
      unfold data
      simp only [feed, hlen, hlen', if_false, hbound]
      split
      · exact ⟨rfl, fun _ => .inl rfl⟩
      · refine ⟨?_, fun hc => by cases hc⟩
        rw [List.drop_append_of_le_length hle, List.take_append_of_le_length (by omega)]
    exact splits_of_stable ⟨by rw [hfeed, hst]; exact hsame.1, by rw [hst]; exact hsame.2⟩ ih

theorem splits_trailers (hs : d.state = .receivingChunked .readingTrailers)
    (ih : ∀ d₁ e, d.step lim parse = (d₁, e, .again) → Splits lim parse d₁ b) : Splits lim parse d b := by
  have hstep : ∀ d : Decoder, d.state = .receivingChunked .readingTrailers → d.step lim parse = d.trailers := by
    intro d hs
    unfold step
    rw [hs]
  have hst := hstep d hs
  have hfeed := hstep (d.feed b) hs
  have hfinish : ∀ n, n ≤ d.unread.length → d.trailers = d.finish n → (d.feed b).trailers = (d.feed b).finish n →
      Splits lim parse d b := by
    intro n hn h₁ h₂
    refine splits_of_stable ⟨?_, fun hc => ?_⟩ ih
    · rw [hfeed, hst, h₁, h₂]
      simp only [finish, feed, List.drop_append_of_le_length hn]
    · rw [hst, h₁] at hc
      cases hc
  by_cases hp : crlf.isPrefixOf d.unread = true
  · have hp' : crlf.isPrefixOf (d.feed b).unread = true :=
      List.isPrefixOf_iff_prefix.2 ((List.isPrefixOf_iff_prefix.1 hp).trans (List.prefix_append _ _))
    exact hfinish 2 (List.isPrefixOf_iff_prefix.1 hp).length_le (if_pos hp) (if_pos hp')
  · cases hpos : position (crlf ++ crlf) d.unread with
    | none =>
      refine splits_of_wait (hst.trans ?_)
      unfold trailers
      rw [if_neg hp, hpos]
    | some pos =>
      have hle : pos + 4 ≤ d.unread.length := position_le hpos
      have hp' : ¬ crlf.isPrefixOf (d.feed b).unread = true := by
        rw [List.isPrefixOf_iff_prefix] at hp ⊢
        exact fun hpre => hp (List.prefix_of_prefix_length_le hpre (List.prefix_append _ _) (by
          change 2 ≤ d.unread.length
          omega))
      refine hfinish (pos + 4) hle ?_ ?_
      · unfold trailers
        rw [if_neg hp, hpos]
      · have hpos' : position (crlf ++ crlf) (d.feed b).unread = some pos := position_append hpos b
        unfold trailers
        rw [if_neg hp', hpos']

/-- The bytes may be cut anywhere, except in front of `b` where a head is
overrun. -/
theorem splits (hc : Consistent parse) (hover : ¬ Overrun lim parse d b) : Splits lim parse d b := by
  induction hw : d.work using Nat.strong_induction_on generalizing d with
  | _ n ih =>
    have hnext : ∀ d₁ e, d.step lim parse = (d₁, e, .again) → Splits lim parse d₁ b := by
      intro d₁ e hst
      refine ih d₁.work (hw ▸ work_step hst) (fun ⟨hwait, _⟩ => ?_) rfl
      have hgoes : (d.step lim parse).1 = d ∨ d.Goes (d.step lim parse).1 := step_goes
      rcases hgoes with he | hg
      · rw [hst] at he
        have hlt := work_step hst
        rw [show d₁ = d from he] at hlt
        omega
      · rw [hst] at hg
        exact hwait.elim hg.waiting.1 hg.waiting.2
    cases hs : d.state with
    | waitingHeader => exact splits_header hc (.inl hs) hover hnext
    | keepAliveWait => exact splits_header hc (.inr hs) hover hnext
    | receivingContentLength r => exact splits_contentLength hs
    | receivingChunked stage =>
      cases stage with
      | readingSize => exact splits_size hs hnext
      | readingData n => exact splits_data hs hnext
      | readingTrailers => exact splits_trailers hs hnext
    | servingApp => exact splits_of_wait (step_of_idle (.inr hs))
    | closed => exact splits_of_wait (step_of_idle (.inl hs))

end Decoder

/-! ## The calls of the connection -/

namespace FastHttpConnection

variable {c : FastHttpConnection} {parse : Httparse} {d d' : Decoder} {evs : List Event}

theorem view_withView (hs : d.unread <:+ c.unread) : (c.withView d).view = d := by
  have hd : d.unread <:+ c.buffer := hs.trans (List.drop_suffix _ _)
  have hu : (c.withView d).unread = d.unread := (List.suffix_iff_eq_drop.1 hd).symm
  change Decoder.mk d.state (c.withView d).unread d.requestCount d.keepAlive d.totalBodyReceived = d
  rw [hu]

theorem view_step (parse : Httparse) (c : FastHttpConnection) :
    (c.withView (c.view.step c.limits parse).1).view = (c.view.step c.limits parse).1 := by
  apply view_withView
  have hgoes : (c.view.step c.limits parse).1 = c.view ∨ c.view.Goes (c.view.step c.limits parse).1 := Decoder.step_goes
  rcases hgoes with he | hg
  · rw [he]
    exact List.suffix_refl _
  · exact hg.unread

/-- One round, as a step of the decoder. -/
theorem round_eq (hparse : InRange parse) (h : c.Bounded) (hm : c.mode = .http11) (hs : c.view.Sound) :
    c.round .release parse = .ok (c.ofStep (c.view.step c.limits parse)) ∧
      (c.withView (c.view.step c.limits parse).1).Bounded ∧
      (c.withView (c.view.step c.limits parse).1).view = (c.view.step c.limits parse).1 := by
  refine ⟨?_, h.withView Decoder.step_goes, view_step parse c⟩
  unfold round
  rw [hm]
  exact httpRound_eq hparse h.fits ⟨h.count, fun _ _ _ _ => .inl rfl, hs⟩

/-- Rounds that are enough for what is left to do run as the decoder does. -/
theorem rounds_of_runs {lim : Limits} (hparse : InRange parse) (hr : Decoder.Runs lim parse d evs d')
    (h : c.Bounded) (hm : c.mode = .http11) (hl : c.limits = lim) (hd : c.view = d) {fuel : Nat}
    (hf : d.work < fuel) :
    ∃ c', rounds .release parse fuel c = ⟨c', evs, none⟩ ∧ c'.view = d' ∧ c'.Bounded ∧ c'.mode = .http11 ∧
      c'.limits = lim ∧ c'.buffer = c.buffer := by
  induction hr generalizing c fuel with
  | @stop d d' evs hs hst =>
    subst hl hd
    obtain ⟨k, rfl⟩ := Nat.exists_eq_add_one_of_ne_zero (Nat.ne_of_gt (Nat.zero_lt_of_lt hf))
    obtain ⟨hround, hb, hv⟩ := round_eq hparse h hm hs
    rw [hst] at hround hb hv
    refine ⟨c.withView d', ?_, hv, hb, hm, rfl, rfl⟩
    simp only [rounds, hround, ofStep]
  | @again d d₁ d' evs evs' hs hst hr ih =>
    subst hl hd
    obtain ⟨k, rfl⟩ := Nat.exists_eq_add_one_of_ne_zero (Nat.ne_of_gt (Nat.zero_lt_of_lt hf))
    obtain ⟨hround, hb, hv⟩ := round_eq hparse h hm hs
    rw [hst] at hround hb hv
    have hwork := Decoder.work_step hst
    have hf₁ : d₁.work < k := by omega
    obtain ⟨c', hrs, hv', hb', hm', hl', hbuf⟩ := ih (c := c.withView d₁) hb hm rfl hv hf₁
    refine ⟨c', ?_, hv', hb', hm', hl', hbuf⟩
    simp only [rounds, hround, ofStep, hrs]

/-- Compaction moves no unread byte. -/
theorem view_compact : c.compactBuffer.view = c.view ∧ c.compactBuffer.mode = c.mode ∧
    c.compactBuffer.limits = c.limits ∧ c.compactBuffer.buffer.length ≤ c.buffer.length := by
  unfold compactBuffer
  split
  · rename_i hc
    refine ⟨?_, rfl, rfl, by simp⟩
    simp [view, unread, hc]
  split
  · exact ⟨by simp [view, unread], rfl, rfl, by simp⟩
  · exact ⟨rfl, rfl, rfl, Nat.le_refl _⟩

theorem view_append (h : c.Fits) (b : Bytes) :
    ({ c with buffer := c.buffer ++ b } : FastHttpConnection).view = c.view.feed b := by
  simp only [view, unread, Decoder.feed, List.drop_append_of_le_length h.cursor]

/-- A call with the bytes `b` runs as the decoder does. -/
theorem feedData_eq (hparse : InRange parse) (h : c.Bounded) (hm : c.mode = .http11) {b : Bytes}
    (hroom : (c.buffer ++ b).length < 2 ^ 63) (hr : Decoder.Runs c.limits parse (c.view.feed b) evs d') :
    ∃ c', c.feedData .release parse b = ⟨c', evs, none⟩ ∧ c'.view = d' ∧ c'.Bounded ∧ c'.mode = .http11 ∧
      c'.limits = c.limits ∧ c'.buffer.length ≤ (c.buffer ++ b).length := by
  have ha := h.append hroom
  obtain ⟨hv, hmode, hlim, hbuf⟩ := view_compact (c := { c with buffer := c.buffer ++ b })
  have hlen : (c.view.feed b).unread.length ≤ (c.buffer ++ b).length := by
    rw [Decoder.feed, view_unread, List.length_append, List.length_append, unread_length]
    omega
  have hwork : (c.view.feed b).work < (c.buffer ++ b).length + 3 := by
    have := Decoder.work_le (c.view.feed b)
    omega
  obtain ⟨c', hrs, hv', hb', hm', hl', hbuf'⟩ := rounds_of_runs hparse hr ha.compact (hmode.trans hm) hlim
    (hv.trans (view_append h.fits b)) hwork
  exact ⟨c', hrs, hv', hb', hm', hl', hbuf' ▸ hbuf⟩

/-! ## One call or two -/

/-- The calls `feed_data(a)` and `feed_data(b)` return, and what they tell and
leave is what `feed_data(a ++ b)` does. -/
structure Agree (parse : Httparse) (c : FastHttpConnection) (a b : Bytes) : Prop where
  first : (c.feedData .release parse a).fault = none
  second : ((c.feedData .release parse a).conn.feedData .release parse b).fault = none
  once : (c.feedData .release parse (a ++ b)).fault = none
  events : merge ((c.feedData .release parse a).events ++
      ((c.feedData .release parse a).conn.feedData .release parse b).events) =
    merge (c.feedData .release parse (a ++ b)).events
  state : ((c.feedData .release parse a).conn.feedData .release parse b).conn.state =
    (c.feedData .release parse (a ++ b)).conn.state
  unread : ((c.feedData .release parse a).conn.feedData .release parse b).conn.unread =
    (c.feedData .release parse (a ++ b)).conn.unread
  requestCount : ((c.feedData .release parse a).conn.feedData .release parse b).conn.requestCount =
    (c.feedData .release parse (a ++ b)).conn.requestCount
  keepAlive : ((c.feedData .release parse a).conn.feedData .release parse b).conn.keepAlive =
    (c.feedData .release parse (a ++ b)).conn.keepAlive

/-- No chunk that is read has `2 ^ 64 - 2` bytes or more. -/
def NoHugeChunk (parse : Httparse) (c : FastHttpConnection) (data : Bytes) : Prop :=
  ∀ d, Decoder.Visits c.limits parse (c.view.feed data) d → d.Sound

theorem agree_of_splits (hparse : InRange parse) (h : c.Bounded) (hm : c.mode = .http11) {a b : Bytes}
    (hroom : (c.buffer ++ (a ++ b)).length < 2 ^ 63) (hh : c.NoHugeChunk parse (a ++ b))
    (hs : Decoder.Splits c.limits parse (c.view.feed a) b) : Agree parse c a b := by
  obtain ⟨evs, d', hr⟩ := Decoder.exists_runs hh
  have hfeed : c.view.feed (a ++ b) = (c.view.feed a).feed b := by
    simp only [Decoder.feed, List.append_assoc]
  obtain ⟨evs₁, d₁, evs₂, hr₁, hr₂, hmerge⟩ := hs evs d' (hfeed ▸ hr)
  have hrooma : (c.buffer ++ a).length < 2 ^ 63 := by
    simp only [List.length_append] at hroom ⊢
    omega
  obtain ⟨c', hc', hv', -⟩ := feedData_eq hparse h hm hroom hr
  obtain ⟨c₁, hc₁, rfl, hb₁, hm₁, hl₁, hbuf₁⟩ := feedData_eq hparse h hm hrooma hr₁
  have hroomb : (c₁.buffer ++ b).length < 2 ^ 63 := by
    simp only [List.length_append] at hroom hbuf₁ ⊢
    omega
  obtain ⟨c₂, hc₂, hv₂, -⟩ := feedData_eq hparse hb₁ hm₁ hroomb (hl₁ ▸ hr₂)
  have hview : c₂.view = c'.view := hv₂.trans hv'.symm
  have htwo : (c.feedData .release parse a).conn.feedData .release parse b = ⟨c₂, evs₂, none⟩ := by
    rw [hc₁]
    exact hc₂
  refine ⟨by rw [hc₁], by rw [htwo], by rw [hc'], ?_, ?_, ?_, ?_, ?_⟩
  · rw [htwo, hc₁, hc']
    exact hmerge
  · rw [htwo, hc']
    exact congrArg Decoder.state hview
  · rw [htwo, hc']
    exact congrArg Decoder.unread hview
  · rw [htwo, hc']
    exact congrArg Decoder.requestCount hview
  · rw [htwo, hc']
    exact congrArg Decoder.keepAlive hview

theorem events_rounds {m : Arith} {r : Round} (hr : c.round m parse = .ok r) (fuel : Nat) :
    ∃ rest, (rounds m parse (fuel + 1) c).events = r.2.1 ++ rest := by
  obtain ⟨c', evs, _ | _⟩ := r
  · simp only [rounds, hr]
    exact ⟨_, rfl⟩
  · simp only [rounds, hr]
    exact ⟨[], (List.append_nil _).symm⟩

/-- A call tells first what the first step of the decoder does. -/
theorem events_feedData (hparse : InRange parse) (h : c.Bounded) (hm : c.mode = .http11) {b : Bytes}
    (hroom : (c.buffer ++ b).length < 2 ^ 63) (hs : (c.view.feed b).Sound) :
    ∃ rest, (c.feedData .release parse b).events =
      ((c.view.feed b).step c.limits parse).2.1 ++ rest := by
  have ha := h.append hroom
  obtain ⟨hv, hmode, hlim, -⟩ := view_compact (c := { c with buffer := c.buffer ++ b })
  have hview := hv.trans (view_append h.fits b)
  obtain ⟨hround, -⟩ := round_eq hparse ha.compact (hmode.trans hm) (hview ▸ hs)
  rw [hview, hlim] at hround
  exact events_rounds hround _

/-- An event that is told of a head within the limit. -/
def Answers (e : Event) : Prop := (∃ start, e = .requestStart start) ∨ ∃ status resp, e = .error status resp ∧ status ≠ 431

theorem answers_acceptHead (lim : Limits) (d : Decoder) (offset : Nat) (req : Request) :
    ∃ e rest, (d.acceptHead lim offset req).2.1 = e :: rest ∧ Answers e := by
  unfold Decoder.acceptHead
  dsimp only
  split
  · exact ⟨_, _, rfl, .inr ⟨_, _, rfl, by decide⟩⟩
  split
  · exact ⟨_, _, rfl, .inl ⟨_, rfl⟩⟩
  split
  · exact ⟨_, _, rfl, .inl ⟨_, rfl⟩⟩
  split
  · split
    · exact ⟨_, _, rfl, .inr ⟨_, _, rfl, by decide⟩⟩
    · unfold Decoder.beginBody
      dsimp only
      split
      · exact ⟨_, _, rfl, .inl ⟨_, rfl⟩⟩
      · exact ⟨_, _, rfl, .inl ⟨_, rfl⟩⟩
  · exact ⟨_, _, rfl, .inl ⟨_, rfl⟩⟩

theorem sound_of_waiting (hs : d.state = .waitingHeader ∨ d.state = .keepAliveWait) : d.Sound := by
  intro n hn
  rcases hs with hs | hs <;> rw [hs] at hn <;> cases hn

/-- A head that is overrun is answered if its bytes come first, and refused if
all come at once. -/
theorem not_agree_of_overrun (hparse : InRange parse) (h : c.Bounded) (hm : c.mode = .http11) {a b : Bytes}
    (hroom : (c.buffer ++ (a ++ b)).length < 2 ^ 63)
    (hover : Decoder.Overrun c.limits parse (c.view.feed a) b) : ¬ Agree parse c a b := by
  intro hagree
  obtain ⟨hs, hu, hmax, hgt, hinc⟩ := hover
  have hrooma : (c.buffer ++ a).length < 2 ^ 63 := by
    simp only [List.length_append] at hroom ⊢
    omega
  obtain ⟨rest, hfirst⟩ := events_feedData hparse h hm hrooma (sound_of_waiting hs)
  obtain ⟨rest', honce⟩ := events_feedData hparse h hm hroom (sound_of_waiting (d := c.view.feed (a ++ b)) hs)
  obtain ⟨e, more, hstep, hans⟩ : ∃ e more, ((c.view.feed a).step c.limits parse).2.1 = e :: more ∧ Answers e := by
    rw [Decoder.step_header hs]
    unfold Decoder.header
    rw [if_neg hu, if_neg (Nat.not_lt.2 hmax)]
    cases hres : parse (c.view.feed a).unread with
    | incomplete => exact absurd hres hinc
    | error => exact ⟨_, _, rfl, .inr ⟨_, _, rfl, by decide⟩⟩
    | complete offset req => exact answers_acceptHead _ _ _ _
  have hrefuse : ∃ resp, ((c.view.feed (a ++ b)).step c.limits parse).2.1 = [.error 431 resp] := by
    have hlen : (c.view.feed (a ++ b)).unread.length = (c.view.feed a).unread.length + b.length := by
      simp only [Decoder.feed, List.length_append]
      omega
    rw [Decoder.step_header (d := c.view.feed (a ++ b)) hs]
    unfold Decoder.header
    rw [if_neg (List.length_pos_iff.1 (by omega)), if_pos (by omega)]
    exact ⟨_, rfl⟩
  obtain ⟨resp, hrefuse⟩ := hrefuse
  have hevents := hagree.events
  rw [hfirst, honce, hstep, hrefuse, List.cons_append, List.cons_append, List.cons_append,
    merge_cons (by rcases hans with ⟨start, rfl⟩ | ⟨status, r, rfl, -⟩ <;> simp), merge_cons (by simp)] at hevents
  obtain ⟨rfl, -⟩ := List.cons.inj hevents
  rcases hans with ⟨start, hstart⟩ | ⟨status, r, hst, hne⟩
  · cases hstart
  · cases hst
    exact hne rfl

end FastHttpConnection

/-! ## Every run -/

open FastHttpConnection in
/-- From every reachable state in HTTP mode, as long as no chunk of `2 ^ 64 - 2`
bytes or more is read: two calls with the parts of some bytes do what one call
with all of them does, exactly if no head ends within the limit on its size in
the first part while the bytes that follow it exceed the limit. -/
theorem segmentation {parse : Httparse} (hc : Decoder.Consistent parse) {s : Call}
    (h : (engine parse).Reachable s) (hm : s.conn.mode = .http11) {a b : Bytes}
    (hroom : (s.conn.buffer ++ (a ++ b)).length < 2 ^ 63) (hh : s.conn.NoHugeChunk parse (a ++ b)) :
    Agree parse s.conn a b ↔ ¬ Decoder.Overrun s.conn.limits parse (s.conn.view.feed a) b := by
  have hb := bounded_of_reachable hc.inRange h
  refine ⟨fun hagree hover => not_agree_of_overrun hc.inRange hb hm hroom hover hagree, fun hover => ?_⟩
  exact agree_of_splits hc.inRange hb hm hroom hh (Decoder.splits hc hover)

/-- What httparse says of bytes that begin with `head`, or are the beginning of
it, if `head` is the head of `req`. -/
def parseOnly (head : Bytes) (req : Request) (u : Bytes) : ParseResult :=
  if head.isPrefixOf u then .complete head.length req
  else if u.isPrefixOf head then .incomplete
  else .error

theorem parseOnly_consistent (head : Bytes) (req : Request) : Decoder.Consistent (parseOnly head req) where
  inRange := by
    intro u offset req' hu
    unfold parseOnly at hu
    split at hu
    · rename_i hp
      cases hu
      exact (List.isPrefixOf_iff_prefix.1 hp).length_le
    · split at hu <;> cases hu
  complete := by
    intro u v offset req' hu
    unfold parseOnly at hu ⊢
    split at hu
    · rename_i hp
      rw [if_pos (List.isPrefixOf_iff_prefix.2 ((List.isPrefixOf_iff_prefix.1 hp).trans (List.prefix_append _ _)))]
      exact hu
    · split at hu <;> cases hu
  error := by
    intro u v hu
    unfold parseOnly at hu ⊢
    split at hu
    · cases hu
    · split at hu
      · cases hu
      · rename_i hp hq
        rw [List.isPrefixOf_iff_prefix] at hp hq
        rw [if_neg, if_neg]
        · rw [List.isPrefixOf_iff_prefix]
          exact fun hpre => hq ((List.prefix_append u v).trans hpre)
        · rw [List.isPrefixOf_iff_prefix]
          exact fun hpre => (List.prefix_or_prefix_of_prefix hpre (List.prefix_append u v)).elim hp hq

theorem parseChunkedHead_consistent : Decoder.Consistent parseChunkedHead := parseOnly_consistent chunkedHead _

/-- A chunked request that is cut in the middle of a chunk-size line. -/
theorem segmentation_chunked : FastHttpConnection.Agree parseChunkedHead (.new 1000 1000 1000)
    (chunkedHead ++ bytes "2") (bytes "\r\nab\r\n0\r\n\r\n") :=
  (segmentation parseChunkedHead_consistent (s := ⟨.new 1000 1000 1000, false⟩)
    (.init ⟨1000, 1000, 1000, by decide, rfl⟩) rfl (by decide +kernel)
    (fun _ => Decoder.sound_of_soundFor 10 (by decide +kernel))).2
    fun h => absurd h.2.2.2.1 (by decide +kernel)

/-- A limit on the size of a head that the head just meets: it is served if its
body comes later, and refused if the body comes with it. -/
theorem body_overruns_head : ∃ s : Call, (engine parseChunkedHead).Reachable s ∧ s.conn.mode = .http11 ∧
    ¬ FastHttpConnection.Agree parseChunkedHead s.conn chunkedHead (bytes "2\r\nab\r\n0\r\n\r\n") := by
  refine ⟨⟨.new 1000 chunkedHead.length 1000, false⟩, .init ⟨1000, chunkedHead.length, 1000, by decide, rfl⟩, rfl,
    fun h => ?_⟩
  exact absurd h.events (by decide +kernel)

end Multiloop.Http
