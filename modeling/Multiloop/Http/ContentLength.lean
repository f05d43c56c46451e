import Multiloop.Http.Twins

/-!
# Bodies of known length

An engine that waits for a head, and is fed the head of a request with a
`Content-Length`, its body and some more bytes, however they are cut: the events
carry the body, and what follows it stays unread. The exception is the limit on
the size of a head, which is compared with all bytes that are there when the
head is complete. After the reset the engine reads on as a new one does.
-/

namespace Multiloop.Http

/-- A head that announces a body of `n` bytes. -/
structure SizedHead (parse : Httparse) (head : Bytes) (req : Request) (n : Nat) : Prop where
  parses : parse head = .complete head.length req
  nonempty : head ≠ []
  settled : ¬ ((foldHeaders req).clConflict ∨ (foldHeaders req).isChunked ∧ (foldHeaders req).hasCl ∨
    (foldHeaders req).teCount > 1 ∧ ¬ (foldHeaders req).isChunked)
  framed : framing (foldHeaders req) = .sized n

/-- The bytes that are there when the head is complete: those of `u`, and of the
segments up to the one that completes it. -/
def atHead (head u : Bytes) : List Bytes → Bytes
  | [] => u
  | seg :: segs => if head.length ≤ (u ++ seg).length then u ++ seg else atHead head (u ++ seg) segs

theorem length_atHead (head u : Bytes) (segs : List Bytes) : u.length ≤ (atHead head u segs).length := by
  induction segs generalizing u with
  | nil => exact Nat.le_refl _
  | cons seg segs ih =>
    have hle : u.length ≤ (u ++ seg).length := by
      rw [List.length_append]
      omega
    unfold atHead
    split
    · exact hle
    · exact Nat.le_trans hle (ih (u ++ seg))

namespace Decoder

variable {lim : Limits} {parse : Httparse} {head body fed : Bytes} {req : Request} {n size : Nat} {d : Decoder}
  {evs : List Event}

/-- The event with which the request begins. -/
def started (req : Request) : Event := .requestStart (requestStart req (foldHeaders req) true)

/-- Where in the head and the body a decoder is that was fed `fed`, and the
events that it has told. `size` is the number of bytes that are there when the
head is complete. -/
inductive Stage (lim : Limits) (head : Bytes) (req : Request) (n size : Nat) (fed : Bytes) (d : Decoder) :
    List Event → Prop
  | waiting (hs : d.state = .waitingHeader ∨ d.state = .keepAliveWait) (hu : d.unread = fed) :
    Stage lim head req n size fed d []
  | reading (parts : List Bytes) (left : Nat) (hs : d.state = .receivingContentLength left) (hleft : 0 < left)
    (hfed : fed = head ++ (parts.flatten ++ d.unread)) (hn : parts.flatten.length + left = n)
    (hfits : size ≤ lim.maxHeaderSize) : Stage lim head req n size fed d (started req :: parts.map (.body · true))
  | done (parts : List Bytes) (last : Bytes) (hs : d.state = .servingApp)
    (hfed : fed = head ++ (parts.flatten ++ (last ++ d.unread))) (hn : parts.flatten.length + last.length = n)
    (hfits : size ≤ lim.maxHeaderSize) :
    Stage lim head req n size fed d (started req :: (parts.map (.body · true) ++ [.body last false]))
  | refused (response : Bytes) (hs : d.state = .closed) (hover : lim.maxHeaderSize < size) :
    Stage lim head req n size fed d [.error 431 response]

/-- A decoder takes bytes of the body. -/
theorem stage_takeBody {parts : List Bytes} {left : Nat}
    (hfed : fed = head ++ (parts.flatten ++ d.unread)) (hn : parts.flatten.length + left = n)
    (hfits : size ≤ lim.maxHeaderSize) :
    Stage lim head req n size fed (d.takeBody left).1
      (started req :: parts.map (.body · true) ++ (d.takeBody left).2.1) := by
  unfold takeBody
  split
  · rename_i hless
    have htold : started req :: parts.map (.body · true) ++ [.body d.unread true] =
        started req :: (parts ++ [d.unread]).map (.body · true) := by
      rw [List.map_append]
      rfl
    rw [htold]
    refine .reading (parts ++ [d.unread]) (left - d.unread.length) rfl (by omega) ?_ ?_ hfits
    · rw [hfed, List.flatten_append, List.flatten_cons, List.flatten_nil, List.append_nil, List.append_nil]
    · rw [List.flatten_append, List.flatten_cons, List.flatten_nil, List.append_nil, List.length_append]
      omega
  · rename_i henough
    have hlen : (d.unread.take left).length = left := List.length_take_of_le (Nat.not_lt.1 henough)
    refine .done parts (d.unread.take left) rfl ?_ (by rw [hlen]; exact hn) hfits
    rw [hfed]
    show _ = head ++ (parts.flatten ++ (d.unread.take left ++ d.unread.drop left))
    rw [List.take_append_drop]

/-- A head that announces a body is accepted, if the body is not too long. -/
theorem acceptHead_sized (h : SizedHead parse head req n) (hmax : n ≤ lim.maxBodySize) (d : Decoder) (offset : Nat) :
    d.acceptHead lim offset req = ({ d with
      unread := d.unread.drop offset
      requestCount := d.requestCount + 1
      keepAlive := (foldHeaders req).keepAlive } : Decoder).beginBody n (started req) := by
  have hframed := h.framed
  unfold framing at hframed
  split at hframed
  · cases hframed
  rename_i hws
  split at hframed
  · cases hframed
  rename_i hchunked
  split at hframed
  · rename_i hlength
    cases hframed
    unfold acceptHead
    dsimp only
    rw [if_neg h.settled, if_neg hws, if_neg hchunked, if_pos hlength, if_neg (Nat.not_lt.2 hmax)]
    rfl
  · cases hframed

theorem stage_accept (h : SizedHead parse head req n) (hmax : n ≤ lim.maxBodySize) (hpos : 0 < n) {more : Bytes}
    (hu : d.unread = head ++ more) (hfed : fed = d.unread) (hfits : size ≤ lim.maxHeaderSize) :
    Stage lim head req n size fed (d.acceptHead lim head.length req).1 (d.acceptHead lim head.length req).2.1 := by
  have hdrop : d.unread.drop head.length = more := by rw [hu, List.drop_left]
  rw [acceptHead_sized h hmax, hdrop]
  unfold beginBody
  dsimp only
  split
  · rename_i hnil
    exact .reading [] n rfl hpos (by rw [hfed, hu]; rfl) (Nat.zero_add n) hfits
  · have hstart : fed = head ++ (([] : List Bytes).flatten ++ more) := by
      rw [hfed, hu]
      rfl
    have hnone : ([] : List Bytes).flatten.length + n = n := Nat.zero_add n
    exact stage_takeBody hstart hnone hfits

/-- Httparse waits for the rest of a head. -/
theorem parse_short (hc : Consistent parse) (h : SizedHead parse head req n) {u x : Bytes} (hx : x ≠ [])
    (hu : u ++ x = head) : parse u = .incomplete := by
  have hparses := h.parses
  rw [← hu] at hparses
  cases hres : parse u with
  | incomplete => rfl
  | error =>
    rw [hc.error u x hres] at hparses
    cases hparses
  | complete offset r =>
    rw [hc.complete u x offset r hres] at hparses
    cases hparses
    have hle := hc.inRange _ _ _ hres
    have hpos := List.length_pos_iff.2 hx
    rw [List.length_append] at hle
    omega

/-- The bytes fed so far are those of the head and what follows it. -/
def Comes (head fed : Bytes) : Prop := head <+: fed ∨ ∃ x, x ≠ [] ∧ fed ++ x = head

theorem comes_of_append {future tail : Bytes} (h : fed ++ future = head ++ tail) : Comes head fed := by
  rcases List.append_eq_append_iff.1 h with ⟨x, hx, -⟩ | ⟨more, hmore, -⟩
  · by_cases hnil : x = []
    · subst hnil
      rw [List.append_nil] at hx
      exact .inl (hx ▸ List.prefix_refl _)
    · exact .inr ⟨x, hnil, hx.symm⟩
  · exact .inl ⟨more, hmore.symm⟩

theorem stage_header (hc : Consistent parse) (h : SizedHead parse head req n) (hmax : n ≤ lim.maxBodySize)
    (hpos : 0 < n) (hcomes : Comes head fed) (hs : d.state = .waitingHeader ∨ d.state = .keepAliveWait)
    (hu : d.unread = fed)
    (hle : fed.length ≤ size) (hsize : head.length ≤ fed.length → size = fed.length) :
    Stage lim head req n size fed (d.header lim parse).1 (d.header lim parse).2.1 := by
  have hstay : Stage lim head req n size fed d [] := .waiting hs hu
  unfold header
  split
  · exact hstay
  split
  · rename_i hover
    rw [hu] at hover
    exact .refused _ rfl (Nat.lt_of_lt_of_le hover hle)
  rename_i hfits
  rcases hcomes with ⟨more, hmore⟩ | ⟨x, hx, hhead⟩
  · have hwhole : d.unread = head ++ more := hu.trans hmore.symm
    have hres : parse d.unread = .complete head.length req := by
      rw [hwhole]
      exact hc.complete _ _ _ _ h.parses
    rw [hres]
    refine stage_accept h hmax hpos hwhole hu.symm ?_
    rw [hsize (by rw [← hmore, List.length_append]; omega), ← hu]
    exact Nat.not_lt.1 hfits
  · rw [hu, parse_short hc h hx hhead]
    exact hstay

theorem Stage.step (hc : Consistent parse) (h : SizedHead parse head req n) (hmax : n ≤ lim.maxBodySize)
    (hpos : 0 < n) (hcomes : Comes head fed) (hstage : Stage lim head req n size fed d evs)
    (hthere : evs = [] → fed.length ≤ size ∧ (head.length ≤ fed.length → size = fed.length)) :
    Stage lim head req n size fed (d.step lim parse).1 (evs ++ (d.step lim parse).2.1) := by
  have hidle : d.Idle → Stage lim head req n size fed (d.step lim parse).1 (evs ++ (d.step lim parse).2.1) := by
    intro hidle
    rw [step_of_idle hidle]
    show Stage lim head req n size fed d (evs ++ [])
    rw [List.append_nil]
    exact hstage
  cases id hstage with
  | waiting hs hu =>
    rw [step_header hs, List.nil_append]
    exact stage_header hc h hmax hpos hcomes hs hu (hthere rfl).1 (hthere rfl).2
  | reading parts left hs hleft hfed hn hfits =>
    by_cases hnil : d.unread = []
    · rw [step_contentLength_nil hs hnil]
      show Stage lim head req n size fed d (_ ++ [])
      rw [List.append_nil]
      exact hstage
    · rw [step_contentLength hs hnil]
      exact stage_takeBody hfed hn hfits
  | done parts last hs hfed hn hfits => exact hidle (.inr hs)
  | refused response hs hover => exact hidle (.inl hs)

/-- As long as the head is awaited nothing is told. -/
theorem Stage.waits_iff (hstage : Stage lim head req n size fed d evs) :
    (d.state = .waitingHeader ∨ d.state = .keepAliveWait) ↔ evs = [] := by
  cases hstage with
  | waiting hs => exact ⟨fun _ => rfl, fun _ => hs⟩
  | reading parts left hs => exact ⟨fun hw => by rw [hs] at hw; simp at hw, nofun⟩
  | done parts last hs => exact ⟨fun hw => by rw [hs] at hw; simp at hw, nofun⟩
  | refused response hs => exact ⟨fun hw => by rw [hs] at hw; simp at hw, nofun⟩

/-- More bytes arrive. -/
theorem Stage.feed (hstage : Stage lim head req n size fed d evs) (seg : Bytes) :
    Stage lim head req n size (fed ++ seg) (d.feed seg) evs := by
  cases hstage with
  | waiting hs hu => exact .waiting hs (congrArg (· ++ seg) hu)
  | reading parts left hs hleft hfed hn hfits =>
    refine .reading parts left hs hleft ?_ hn hfits
    show fed ++ seg = head ++ (parts.flatten ++ (d.unread ++ seg))
    rw [hfed, List.append_assoc, List.append_assoc]
  | done parts last hs hfed hn hfits =>
    refine .done parts last hs ?_ hn hfits
    show fed ++ seg = head ++ (parts.flatten ++ (last ++ (d.unread ++ seg)))
    rw [hfed, List.append_assoc, List.append_assoc, List.append_assoc]
  | refused response hs hover => exact .refused response hs hover

end Decoder

namespace FastHttpConnection

variable {lim : Limits} {parse : Httparse} {head fed : Bytes} {req : Request} {n size : Nat} {c : FastHttpConnection}
  {evs : List Event}

/-- The events told so far. -/
def telling (told : List Event) (e : Event) : Option (List Event) := some (told ++ [e])

theorem telling_all (told evs : List Event) : evs.foldlM telling told = some (told ++ evs) := by
  induction evs generalizing told with
  | nil =>
    rw [List.append_nil]
    rfl
  | cons e evs ih =>
    have hrest := ih (told ++ [e])
    rw [List.append_assoc] at hrest
    exact hrest

/-- An engine in the head or the body of a request of known length, in a call. -/
structure InRequest (lim : Limits) (head : Bytes) (req : Request) (n size : Nat) (fed : Bytes) (c : FastHttpConnection)
    (evs : List Event) : Prop where
  limits : c.limits = lim
  stage : Decoder.Stage lim head req n size fed c.view evs
  there : evs = [] → fed.length ≤ size ∧ (head.length ≤ fed.length → size = fed.length)

theorem not_wraps (h : Decoder.Stage lim head req n size fed c.view evs) : ¬ c.state.Wraps := by
  rintro ⟨k, hk, -⟩
  have hview : c.view.state = .receivingChunked (.readingData k) := hk
  cases h with
  | waiting hs =>
    rw [hview] at hs
    rcases hs with hs | hs
    · cases hs
    · cases hs
  | reading parts left hs => rw [hview] at hs; cases hs
  | done parts last hs => rw [hview] at hs; cases hs
  | refused response hs => rw [hview] at hs; cases hs

theorem kept_inRequest (hc : Decoder.Consistent parse) (h : SizedHead parse head req n) (hmax : n ≤ lim.maxBodySize)
    (hpos : 0 < n) (hcomes : Decoder.Comes head fed) : Kept telling (InRequest lim head req n size fed) parse := by
  apply kept_of_step hc.inRange
  · intro c v hw hin
    exact absurd hw (not_wraps hin.stage)
  · rintro c v - - ⟨rfl, hstage, hthere⟩
    refine ⟨_, telling_all _ _, rfl, ?_, fun hnil => hthere (List.append_eq_nil_iff.1 hnil).1⟩
    rw [view_step]
    exact hstage.step hc h hmax hpos hcomes hthere

/-- An engine in a request, between two calls. -/
structure UnderWay (lim : Limits) (head : Bytes) (req : Request) (n size : Nat) (fed : Bytes)
    (c : FastHttpConnection) (evs : List Event) : Prop where
  bounded : c.Bounded
  mode : c.mode = .http11
  limits : c.limits = lim
  stage : Decoder.Stage lim head req n size fed c.view evs

section

variable (hc : Decoder.Consistent parse) (h : SizedHead parse head req n) (hmax : n ≤ lim.maxBodySize) (hpos : 0 < n)

include hc h hmax hpos

/-- A call with the bytes `seg`. -/
theorem UnderWay.feed (hway : c.UnderWay lim head req n size fed evs) {seg : Bytes}
    (hroom : (c.buffer ++ seg).length < 2 ^ 63) (hcomes : Decoder.Comes head (fed ++ seg))
    (hthere : evs = [] → (fed ++ seg).length ≤ size ∧
      (head.length ≤ (fed ++ seg).length → size = (fed ++ seg).length)) :
    (c.feedData .release parse seg).fault = none ∧ (c.feedData .release parse seg).conn.Rests parse ∧
      (c.feedData .release parse seg).conn.UnderWay lim head req n size (fed ++ seg)
        (evs ++ (c.feedData .release parse seg).events) := by
  obtain ⟨hv, hmode, hlimits, -⟩ := view_compact (c := { c with buffer := c.buffer ++ seg })
  have hinside :
      InRequest lim head req n size (fed ++ seg) (compactBuffer { c with buffer := c.buffer ++ seg }) evs := by
    refine ⟨hlimits.trans hway.limits, ?_, hthere⟩
    rw [hv.trans (view_append hway.bounded.fits seg)]
    exact hway.stage.feed seg
  have hobs := observed_processEvents (c := { c with buffer := c.buffer ++ seg }) hc.inRange
    (kept_inRequest hc h hmax hpos hcomes) (hway.bounded.append hroom) hway.mode hinside
  have hfault : (c.feedData .release parse seg).fault = none := by
    by_contra hne
    obtain ⟨hw, v', hin⟩ := hobs.panicked hne
    exact not_wraps hin.stage hw
  obtain ⟨hrests, evs', htold, hin⟩ := hobs.told hfault
  rw [telling_all] at htold
  cases htold
  exact ⟨hfault, hrests, hobs.bounded, hobs.mode, hin.limits, hin.stage⟩

omit hpos in
/-- Where an engine that waits for a head rests, the head is not there. -/
theorem UnderWay.short (hway : c.UnderWay lim head req n size fed []) (hrests : c.Rests parse)
    (hcomes : Decoder.Comes head fed) : fed.length < head.length := by
  have hstep := hrests.resolve_left (not_wraps hway.stage)
  have hs := hway.stage.waits_iff.2 rfl
  rcases hcomes with ⟨more, rfl⟩ | ⟨x, hx, rfl⟩
  · have hu : c.view.unread = head ++ more := by
      cases hway.stage with
      | waiting _ hu => exact hu
    rw [Decoder.step_header (d := c.view) hs] at hstep
    have htold := congrArg (fun s : Decoder.Step => s.2.1) hstep
    unfold Decoder.header at htold
    rw [if_neg (by rw [hu]; exact fun hnil => h.nonempty (List.append_eq_nil_iff.1 hnil).1)] at htold
    split at htold
    · cases htold
    · rw [hu, hc.complete _ _ _ _ h.parses] at htold
      change (c.view.acceptHead _ _ _).2.1 = [] at htold
      rw [Decoder.acceptHead_sized h (hway.limits ▸ hmax)] at htold
      unfold Decoder.beginBody at htold
      dsimp only at htold
      split at htold
      · cases htold
      · cases htold
  · have hlen := List.length_pos_iff.2 hx
    rw [List.length_append]
    omega

/-- The calls for some segments. -/
theorem UnderWay.feedAll {segs : List Bytes} (hway : c.UnderWay lim head req n size fed evs)
    (hrests : segs = [] → c.Rests parse) (hroom : c.HasRoom .release parse segs) {tail : Bytes}
    (hin : fed ++ segs.flatten <+: head ++ tail)
    (hsize : evs = [] → size = (atHead head fed segs).length) :
    (c.feedAll .release parse segs).fault = none ∧ (c.feedAll .release parse segs).conn.Rests parse ∧
      (c.feedAll .release parse segs).conn.UnderWay lim head req n size (fed ++ segs.flatten)
        (evs ++ (c.feedAll .release parse segs).events) := by
  induction segs generalizing c fed evs with
  | nil =>
    refine ⟨rfl, hrests rfl, ?_⟩
    show c.UnderWay lim head req n size (fed ++ []) (evs ++ [])
    rw [List.append_nil, List.append_nil]
    exact hway
  | cons seg segs ih =>
    rw [List.flatten_cons, ← List.append_assoc] at hin
    have hcomes : Decoder.Comes head (fed ++ seg) := by
      obtain ⟨future, hfuture⟩ := hin
      rw [List.append_assoc] at hfuture
      exact Decoder.comes_of_append hfuture
    have hthere : evs = [] → (fed ++ seg).length ≤ size ∧
        (head.length ≤ (fed ++ seg).length → size = (fed ++ seg).length) := by
      intro hnil
      have heq := hsize hnil
      unfold atHead at heq
      split at heq
      · exact ⟨Nat.le_of_eq heq.symm, fun _ => heq⟩
      · rename_i hshort
        have hle := length_atHead head (fed ++ seg) segs
        exact ⟨by omega, fun hlong => absurd hlong hshort⟩
    obtain ⟨hfault, hrests', hway'⟩ := hway.feed hc h hmax hpos hroom.1 hcomes hthere
    have hnext := ih hway' (fun _ => hrests') hroom.2 hin fun hnil => by
      have heq := hsize (List.append_eq_nil_iff.1 hnil).1
      rw [hnil] at hway'
      have hshort := hway'.short hc h hmax hrests' hcomes
      unfold atHead at heq
      rwa [if_neg (by omega)] at heq
    rw [FastHttpConnection.feedAll]
    dsimp only
    rw [if_pos hfault]
    obtain ⟨hfault'', hrests'', hway''⟩ := hnext
    refine ⟨hfault'', hrests'', ?_⟩
    rw [List.append_assoc, List.append_assoc] at hway''
    exact hway''

end

/-! ## After the reset -/

/-- The next call reads `rest` as a new engine does, apart from the number of
requests that it has read. -/
def LikeNew (parse : Httparse) (c : FastHttpConnection) (rest : Bytes) : Prop :=
  Agreed (c.pumpEvents .release parse)
    ((new c.maxBodySize c.maxHeaderSize c.maxKeepaliveRequests).feedData .release parse rest)

/-- An engine that serves a request, and may read another one, does so after
the reset. -/
theorem likeNew_reset (hparse : InRange parse) (hb : c.Bounded) (hm : c.mode = .http11) (hs : c.state = .servingApp)
    (hkeep : c.keepAlive = true) (hcount : c.requestCount < c.maxKeepaliveRequests) :
    LikeNew parse c.resetForNextRequest c.unread := by
  have hreset : c.resetForNextRequest = { c with totalBodyReceived := 0, state := .keepAliveWait } := by
    unfold resetForNextRequest
    rw [if_pos hs, if_neg]
    rintro (hno | hfull)
    · exact hno hkeep
    · omega
  have hbr := hb.reset
  rw [hreset] at hbr ⊢
  have hlen : ((new c.maxBodySize c.maxHeaderSize c.maxKeepaliveRequests).buffer ++ c.unread).length < 2 ^ 63 := by
    have hfit := hb.fits.length
    show c.unread.length < 2 ^ 63
    rw [unread_length]
    omega
  have hbn := (bounded_new c.maxBodySize c.maxHeaderSize c.maxKeepaliveRequests hb.keepalive).append
    hlen
  exact agreed_processEvents hparse hbr hbn hm rfl rfl ⟨rfl, hkeep, rfl, .inr ⟨.inr rfl, .inl rfl⟩⟩ (.inr rfl)
    (.inl rfl)

end FastHttpConnection

/-! ## Every cut -/

/-- The calls tell the request, and the body in parts of which the last one, and
no other, has no more behind it; they leave `rest` unread, and the next request
is read from it as by a new engine. -/
structure Exact (parse : Httparse) (req : Request) (body rest : Bytes) (o : Outcome) : Prop where
  returned : o.fault = none
  told : ∃ (parts : List Bytes) (last : Bytes),
    o.events = Decoder.started req :: (parts.map (.body · true) ++ [.body last false]) ∧ parts.flatten ++ last = body
  serving : o.conn.state = .servingApp
  left : o.conn.unread = rest
  next : o.conn.keepAlive = true → o.conn.requestCount < o.conn.maxKeepaliveRequests →
    o.conn.resetForNextRequest.LikeNew parse rest

/-- In every session, an engine that waits for a head is fed the head of a
request that announces `n` bytes, its body and some more bytes, however they
are cut: it delivers the body exactly if the bytes that are there when the head
is complete are within the limit on a head. -/
theorem body_exact_iff {parse : Httparse} (hc : Decoder.Consistent parse)
    {maxBodySize maxHeaderSize maxKeepaliveRequests : Nat} (hk : maxKeepaliveRequests < usizeEnd) {s : Session}
    (h : (session parse maxBodySize maxHeaderSize maxKeepaliveRequests).Reachable s)
    (hs : s.conn.state = .waitingHeader ∨ s.conn.state = .keepAliveWait) {head body rest : Bytes} {req : Request}
    (hhead : SizedHead parse head req body.length) (hmax : body.length ≤ s.conn.maxBodySize) {segs : List Bytes}
    (hne : segs ≠ []) (hin : s.conn.unread ++ segs.flatten = head ++ (body ++ rest))
    (hroom : s.conn.HasRoom .release parse segs) :
    Exact parse req body rest (s.conn.feedAll .release parse segs) ↔
      (atHead head s.conn.unread segs).length ≤ s.conn.maxHeaderSize := by
  have hsound := Session.sound_of_reachable hc.inRange hk h
  have hpos : 0 < body.length := by
    have hframed := hhead.framed
    unfold framing at hframed
    split at hframed
    · cases hframed
    split at hframed
    · cases hframed
    split at hframed
    · rename_i hlength
      rw [← Framing.sized.inj hframed]
      exact Int.pos_iff_toNat_pos.1 hlength
    · cases hframed
  have hway : s.conn.UnderWay s.conn.limits head req body.length (atHead head s.conn.unread segs).length
      s.conn.unread [] :=
    ⟨hsound.bounded, hsound.mode, rfl, .waiting hs rfl⟩
  have hall : s.conn.unread ++ segs.flatten <+: head ++ (body ++ rest) := hin ▸ List.prefix_refl _
  obtain ⟨hfault, hrests, hend⟩ := hway.feedAll hc hhead hmax hpos (fun hnil => absurd hnil hne) hroom hall
    fun _ => rfl
  rw [hin, List.nil_append] at hend
  generalize s.conn.feedAll .release parse segs = o at hfault hrests hend
  generalize hevents : o.events = evs at hend
  have hstage := hend.stage
  cases hstage with
  | waiting _ _ =>
    have hshort := hend.short hc hhead hmax hrests (.inl (List.prefix_append _ _))
    rw [List.length_append] at hshort
    omega
  | reading parts left hstate hleft hfed hn hfits =>
    exfalso
    have hnil : o.conn.view.unread = [] := by
      have hstep := hrests.resolve_left (FastHttpConnection.not_wraps hend.stage)
      by_contra hne'
      rw [Decoder.step_contentLength hstate hne'] at hstep
      have htold := congrArg (fun s : Decoder.Step => s.2.2) hstep
      unfold Decoder.takeBody at htold
      split at htold
      · cases htold
      · cases htold
    rw [hnil, List.append_nil] at hfed
    have hlen := congrArg List.length (List.append_cancel_left hfed)
    rw [List.length_append] at hlen
    omega
  | done parts last hstate hfed hn hfits =>
    refine ⟨fun _ => hfits, fun _ => ?_⟩
    have hsplit : body ++ rest = (parts.flatten ++ last) ++ o.conn.unread := by
      rw [List.append_assoc]
      exact List.append_cancel_left hfed
    obtain ⟨hbody, hrest⟩ := List.append_inj hsplit (by rw [List.length_append]; exact hn.symm)
    refine ⟨hfault, ⟨parts, last, hevents, hbody.symm⟩, hstate, hrest.symm, fun hkeep hcount => ?_⟩
    rw [hrest]
    exact FastHttpConnection.likeNew_reset hc.inRange hend.bounded hend.mode hstate hkeep hcount
  | refused response hstate hover =>
    refine ⟨fun hexact => ?_, fun hfits => absurd hover (Nat.not_lt.2 hfits)⟩
    have hclosed : o.conn.state = .closed := hstate
    rw [hexact.serving] at hclosed
    cases hclosed

/-- The head of a request with a body of three bytes. -/
def threeHead : Bytes := bytes "PUT / HTTP/1.1\r\ncontent-length: 3\r\n\r\n"

def threeRequest : Request where
  method := some (bytes "PUT")
  path := some (bytes "/")
  version := some 1
  headers := [⟨bytes "content-length", bytes "3"⟩]

abbrev parseThree : Httparse := parseOnly threeHead threeRequest

theorem threeHead_sized : SizedHead parseThree threeHead threeRequest 3 :=
  ⟨by decide +kernel, by decide +kernel, by decide +kernel, by decide +kernel⟩

/-- A body that comes in two parts, and the beginning of the next request. -/
theorem body_exact_two : Exact parseThree threeRequest (bytes "abc") (bytes "PUT") (FastHttpConnection.feedAll .release
    parseThree (.new 1000 1000 1000) [bytes "PUT / HTTP", threeHead.drop 10 ++ bytes "a", bytes "bcPUT"]) := by
  have hs : (session parseThree 1000 1000 1000).Reachable ⟨.new 1000 1000 1000, []⟩ := .init rfl
  exact (body_exact_iff (parseOnly_consistent _ _) (by decide) hs (.inl rfl)
    threeHead_sized (by decide) (by decide) (by decide +kernel) (by decide +kernel)).2 (by decide +kernel)

/-- A body in the segment of the head, which just meets the limit on a head:
the request is refused. -/
theorem body_overruns_limit : ¬ Exact parseThree threeRequest (bytes "abc") [] (FastHttpConnection.feedAll .release
    parseThree (.new 1000 threeHead.length 1000) [threeHead ++ bytes "abc"]) := by
  intro hexact
  exact absurd hexact.serving (by decide +kernel)

end Multiloop.Http
