import Multiloop.Server.Steps

/-!
# The connections that `close` waits for

Every connection of the server is found in the set of its event loop until it is
done, or `close` has taken it from there to cancel it. The exception is one that
is added to a set that `close` took before: it is neither waited for nor
cancelled (`watched_or_cancelled`).
-/

namespace Multiloop.ConnectionPinningServer

variable {Caller : Type} {n : Nat}

/-- The task has its set. -/
def Phase.entered : Phase → Bool
  | .looking | .accepting | .waiting | .creating | .adding _ | .failed _ | .sleeping => true
  | _ => false

namespace Sys

variable {s s' : Sys Caller n} {a c w : Nat}

def loopOf (s : Sys Caller n) (c : Nat) : Fin n := (s.acceptor (s.connection c).acceptor).loop

/-- The next `close` finds connection `c` in set `w`, or one has taken it. -/
inductive Kept (s : Sys Caller n) (c w : Nat) : Prop
  | tracked (h : s.workerConnTasks (s.loopOf c) = some w)
  | cancelling (t : Caller) (connections : List Nat) (ht : s.caller t = .posting connections) (hc : c ∈ connections)
  /-- `close` has scheduled `task.cancel`, or its loop was closed then. -/
  | cancelled (h : (s.connection c).cancelled ≠ none)
  | strayed (h : (s.connection c).strayed = true)

structure Books (s : Sys Caller n) : Prop where
  acceptor : ∀ c, c < s.connections → (s.connection c).acceptor < s.acceptors
  entered : ∀ a, a < s.acceptors → (s.acceptor a).phase.entered = true → (s.acceptor a).tasks ≠ none
  adding : ∀ c, c < s.connections → (s.connection c).tasks = none →
    (s.acceptor (s.connection c).acceptor).phase = .adding c
  fresh : ∀ a, a < s.acceptors → ∀ c, (s.acceptor a).phase = .adding c →
    c < s.connections ∧ (s.connection c).acceptor = a ∧ (s.connection c).tasks = none
  watched : ∀ c, c < s.connections → ∀ w, (s.connection c).tasks = some w → (s.connection c).done = false →
    c ∈ s.members w ∧ s.Kept c w

/-! ## The callers -/

section Callers

variable [DecidableEq Caller] {t : Caller} {d : Doing} {flag reuseport : Bool} {acceptorCount : Nat}

omit [DecidableEq Caller] in
/-- What is kept stays so if the sets stay and no list of `close` gets shorter. -/
theorem Kept.mono (h : s.Kept c w) (hloop : s'.loopOf c = s.loopOf c)
    (htasks : s'.workerConnTasks (s.loopOf c) = s.workerConnTasks (s.loopOf c))
    (hposting : ∀ u connections, s.caller u = .posting connections → c ∈ connections → s'.Kept c w)
    (hcancelled : (s.connection c).cancelled ≠ none → (s'.connection c).cancelled ≠ none)
    (hstrayed : (s'.connection c).strayed = (s.connection c).strayed) : s'.Kept c w := by
  cases h with
  | tracked h => exact .tracked (by rw [hloop, htasks]; exact h)
  | cancelling u connections hu hc => exact hposting u connections hu hc
  | cancelled h => exact .cancelled (hcancelled h)
  | strayed h => exact .strayed (hstrayed.trans h)

omit [DecidableEq Caller] in
theorem mem_tracked {l : Fin n} (hw : s.workerConnTasks l = some w) (hc : c ∈ s.members w) : c ∈ s.tracked := by
  refine List.mem_flatMap.2 ⟨l, List.mem_finRange l, ?_⟩
  rw [hw]
  exact hc

omit [DecidableEq Caller] in
theorem Called.loopOf (h : Called t s s') (hc : (s.connection c).acceptor < s.acceptors) : s'.loopOf c = s.loopOf c := by
  obtain ⟨b, hb, -⟩ := h.connection c
  obtain ⟨x, hx⟩ := h.acceptor _ hc
  unfold Sys.loopOf
  rw [hb]
  show (s'.acceptor (s.connection c).acceptor).loop = _
  rw [hx]

/-- `close` takes the sets, or cancels what it has taken. -/
theorem Kept.advance (h : s.Kept c w) (hc : (s.connection c).acceptor < s.acceptors) (hmem : c ∈ s.members w)
    (hst : s.advance reuseport acceptorCount t flag (s.caller t) = some s') : s'.Kept c w := by
  have hcalled := called_of_advance rfl hst
  have hloop := hcalled.loopOf hc
  obtain ⟨b, hb, hcancelled⟩ := hcalled.connection c
  have hother : ∀ u connections, u ≠ t → s.caller u = .posting connections → c ∈ connections → s'.Kept c w :=
    fun u connections hu hcaller hin => .cancelling u connections ((hcalled.others u hu).trans hcaller) hin
  have hrest : s'.workerConnTasks (s.loopOf c) = s.workerConnTasks (s.loopOf c) →
      (∀ connections, s.caller t = .posting connections → c ∈ connections → s'.Kept c w) → s'.Kept c w := by
    intro htasks hposting
    refine h.mono hloop htasks (fun u connections hu hin => ?_) (fun hset => ?_) ?_
    · by_cases hut : u = t
      · subst hut
        exact hposting connections hu hin
      · exact hother u connections hut hu hin
    · rw [hb]
      exact hcancelled hset
    · rw [hb]
  rcases hcalled.tasks with hsnapshot | htasks
  · rw [hsnapshot] at hst
    have hs' : s' = { s with workerConnTasks := fun _ => none }.goto t (.posting s.tracked) := (Option.some.inj hst).symm
    have hposts : s'.caller t = .posting s.tracked := by
      rw [hs']
      exact Function.update_self ..
    cases h with
    | tracked hw => exact .cancelling t _ hposts (mem_tracked hw hmem)
    | cancelling u connections hu hin =>
      refine hother u connections ?_ hu hin
      rintro rfl
      cases hsnapshot.symm.trans hu
    | cancelled hset => exact .cancelled (by rw [hb]; exact hcancelled hset)
    | strayed hset => exact .strayed (by rw [hb]; exact hset)
  · refine hrest (by rw [htasks]) fun connections hd hin => ?_
    rw [hd] at hst
    cases connections with
    | nil => cases hin
    | cons e connections =>
      have hs' : s' = (s.cancelConnection e).goto t (.posting connections) := (Option.some.inj hst).symm
      rcases List.mem_cons.1 hin with rfl | hin
      · refine .cancelled ?_
        rw [hs']
        show (Function.update s.connection c _ c).cancelled ≠ none
        rw [Function.update_self]
        nofun
      · refine .cancelling t connections ?_ hin
        rw [hs']
        exact Function.update_self ..

omit [DecidableEq Caller] in
theorem Books.called (h : s.Books) (hcalled : Called t s s')
    (hkept : ∀ c w, s.Kept c w → (s.connection c).acceptor < s.acceptors → c ∈ s.members w → s'.Kept c w) : s'.Books := by
  have hphase : ∀ a, a < s'.acceptors → (s'.acceptor a).phase ≠ .posted → a < s.acceptors := by
    intro a ha hne
    refine Nat.not_le.1 fun hle => hne ?_
    exact hcalled.posted a hle ha
  refine ⟨fun c hc => ?_, fun a ha hentered => ?_, fun c hc hnone => ?_, fun a ha c hadding => ?_,
    fun c hc w hw hdone => ?_⟩
  · obtain ⟨b, hb, -⟩ := hcalled.connection c
    rw [hcalled.connections] at hc
    rw [hb]
    exact Nat.lt_of_lt_of_le (h.acceptor c hc) hcalled.acceptors
  · have hlt : a < s.acceptors := hphase a ha fun hposted => by
      rw [hposted] at hentered
      cases hentered
    obtain ⟨x, hx⟩ := hcalled.acceptor a hlt
    rw [hx] at hentered ⊢
    exact h.entered a hlt hentered
  · obtain ⟨b, hb, -⟩ := hcalled.connection c
    rw [hcalled.connections] at hc
    rw [hb] at hnone ⊢
    obtain ⟨x, hx⟩ := hcalled.acceptor _ (h.acceptor c hc)
    have hadding := h.adding c hc hnone
    exact (congrArg Acceptor.phase hx).trans hadding
  · have hlt : a < s.acceptors := hphase a ha fun hposted => by
      rw [hposted] at hadding
      cases hadding
    obtain ⟨x, hx⟩ := hcalled.acceptor a hlt
    rw [hx] at hadding
    obtain ⟨hc, hacceptor, hnone⟩ := h.fresh a hlt c hadding
    obtain ⟨b, hb, -⟩ := hcalled.connection c
    rw [hcalled.connections, hb]
    exact ⟨hc, hacceptor, hnone⟩
  · obtain ⟨b, hb, -⟩ := hcalled.connection c
    rw [hcalled.connections] at hc
    rw [hb] at hw hdone
    obtain ⟨hmem, hkept'⟩ := h.watched c hc w hw hdone
    rw [hcalled.members]
    exact ⟨hmem, hkept c w hkept' (h.acceptor c hc) hmem⟩

end Callers

/-! ## The accept loops -/

/-- The connections stay as they are, and so do the sets that they are kept in. -/
theorem Books.ran {q : Phase} (h : s.Books) (ha : a < s.acceptors) (hran : Ran a q s s')
    (hentered : q.entered = true → (s'.acceptor a).tasks ≠ none) (hconnection : s'.connection = s.connection)
    (hconnections : s'.connections = s.connections) (hmembers : s'.members = s.members)
    (htasks : ∀ l w, s.workerConnTasks l = some w → s'.workerConnTasks l = some w)
    (hp : ∀ c, (s.acceptor a).phase ≠ .adding c) (hq : ∀ c, q ≠ .adding c) : s'.Books := by
  have hloop : ∀ c, s'.loopOf c = s.loopOf c := by
    intro c
    unfold loopOf
    rw [hconnection]
    by_cases hca : (s.connection c).acceptor = a
    · rw [hca]
      exact hran.loop
    · rw [hran.others _ hca]
  refine ⟨fun c hc => ?_, fun b hb hbentered => ?_, fun c hc hnone => ?_, fun b hb c hadding => ?_,
    fun c hc w hw hdone => ?_⟩
  · rw [hconnections] at hc
    rw [hconnection, hran.acceptors]
    exact h.acceptor c hc
  · rw [hran.acceptors] at hb
    by_cases hba : b = a
    · subst hba
      rw [hran.phase] at hbentered
      exact hentered hbentered
    · rw [hran.others b hba] at hbentered ⊢
      exact h.entered b hb hbentered
  · rw [hconnections] at hc
    rw [hconnection] at hnone ⊢
    have hadding := h.adding c hc hnone
    have hca : (s.connection c).acceptor ≠ a := by
      rintro rfl
      exact hp c hadding
    rw [hran.others _ hca]
    exact hadding
  · rw [hran.acceptors] at hb
    have hba : b ≠ a := by
      rintro rfl
      rw [hran.phase] at hadding
      exact hq c hadding
    rw [hran.others b hba] at hadding
    rw [hconnections, hconnection]
    exact h.fresh b hb c hadding
  · rw [hconnections] at hc
    rw [hconnection] at hw hdone
    obtain ⟨hmem, hkept⟩ := h.watched c hc w hw hdone
    rw [hmembers]
    refine ⟨hmem, ?_⟩
    cases hkept with
    | tracked hset => exact .tracked (by rw [hloop]; exact htasks _ _ hset)
    | cancelling u connections hu hin => exact .cancelling u connections (by rw [hran.caller]; exact hu) hin
    | cancelled hset => exact .cancelled (by rw [hconnection]; exact hset)
    | strayed hset => exact .strayed (by rw [hconnection]; exact hset)

theorem move_tasks (s : Sys Caller n) (a : Nat) (q : Phase) : ((s.move a q).acceptor a).tasks = (s.acceptor a).tasks := by
  show (Function.update s.acceptor a _ a).tasks = _
  rw [Function.update_self]

theorem Books.move {q : Phase} (h : s.Books) (ha : a < s.acceptors)
    (hentered : q.entered = true → (s.acceptor a).phase.entered = true) (hp : ∀ c, (s.acceptor a).phase ≠ .adding c)
    (hq : ∀ c, q ≠ .adding c) : (s.move a q).Books := by
  refine h.ran ha (ran_move s a q) (fun hset => ?_) rfl rfl rfl (fun _ _ => id) hp hq
  rw [move_tasks]
  exact h.entered a ha (hentered hset)

theorem Books.enter (h : s.Books) (ha : a < s.acceptors) (hp : (s.acceptor a).phase = .entering) :
    ((s.enter a).move a .looking).Books := by
  have hran := ran_enter s a .looking
  have hpadding : ∀ c, (s.acceptor a).phase ≠ .adding c := by
    intro c
    rw [hp]
    exact nofun
  obtain ⟨workerConnTasks, sets, w, henter⟩ := s.enter_same a
  refine h.ran ha hran (fun _ => ?_) ?_ ?_ ?_ (fun _ _ => s.enter_keeps a) hpadding fun _ => nofun
  · rw [move_tasks, henter]
    show (Function.update s.acceptor a _ a).tasks ≠ none
    rw [Function.update_self]
    exact nofun
  · rw [henter]
    rfl
  · rw [henter]
    rfl
  · rw [henter]
    rfl

/-- The task of a new connection is created. -/
theorem Books.create (h : s.Books) (ha : a < s.acceptors) (hp : (s.acceptor a).phase = .creating) :
    ((s.create a).move a (.adding s.connections)).Books := by
  have hran := ran_create s a (.adding s.connections)
  have hself : (s.create a).connection s.connections = ⟨a, none, false, false, none⟩ := Function.update_self ..
  have hother : ∀ c, c < s.connections → (s.create a).connection c = s.connection c := fun c hc =>
    Function.update_of_ne (Nat.ne_of_lt hc) ..
  have hcases : ∀ c, c < s.connections + 1 → c < s.connections ∨ c = s.connections := fun c hc =>
    Nat.lt_or_eq_of_le (Nat.lt_succ_iff.1 hc)
  have hacceptor : ∀ b, b ≠ a → (s.create a).acceptor b = s.acceptor b := fun _ _ => rfl
  refine ⟨fun c hc => ?_, fun b hb hentered => ?_, fun c hc hnone => ?_, fun b hb c hadding => ?_,
    fun c hc w hw hdone => ?_⟩
  · rw [hran.acceptors]
    show ((s.create a).connection c).acceptor < _
    rcases hcases c hc with hc | rfl
    · rw [hother c hc]
      exact h.acceptor c hc
    · rw [hself]
      exact ha
  · rw [hran.acceptors] at hb
    by_cases hba : b = a
    · subst hba
      rw [move_tasks]
      exact h.entered b ha (by rw [hp]; rfl)
    · rw [hran.others b hba] at hentered ⊢
      exact h.entered b hb hentered
  · change ((s.create a).connection c).tasks = none at hnone
    show (((s.create a).move a (.adding s.connections)).acceptor ((s.create a).connection c).acceptor).phase = _
    rcases hcases c hc with hc | rfl
    · rw [hother c hc] at hnone ⊢
      have hadding := h.adding c hc hnone
      have hca : (s.connection c).acceptor ≠ a := by
        rintro rfl
        cases hp.symm.trans hadding
      rw [hran.others _ hca]
      exact hadding
    · rw [hself]
      exact hran.phase
  · rw [hran.acceptors] at hb
    show c < s.connections + 1 ∧ ((s.create a).connection c).acceptor = b ∧ ((s.create a).connection c).tasks = none
    by_cases hba : b = a
    · subst hba
      obtain rfl := Phase.adding.inj (hran.phase.symm.trans hadding)
      rw [hself]
      exact ⟨Nat.lt_succ_self _, rfl, rfl⟩
    · rw [hran.others b hba] at hadding
      obtain ⟨hc, hfresh⟩ := h.fresh b hb c hadding
      rw [hother c hc]
      exact ⟨Nat.lt_succ_of_lt hc, hfresh⟩
  · change ((s.create a).connection c).tasks = some w at hw
    change ((s.create a).connection c).done = false at hdone
    rcases hcases c hc with hc | rfl
    · have hsame := hother c hc
      rw [hsame] at hw hdone
      obtain ⟨hmem, hkept⟩ := h.watched c hc w hw hdone
      refine ⟨hmem, hkept.mono ?_ rfl (fun u connections hu hin => .cancelling u connections hu hin) (fun hset => ?_)
        ?_⟩
      · unfold loopOf
        show (((s.create a).move a (.adding s.connections)).acceptor ((s.create a).connection c).acceptor).loop = _
        rw [hsame]
        by_cases hca : (s.connection c).acceptor = a
        · rw [hca]
          exact hran.loop
        · rw [hran.others _ hca]
      · show ((s.create a).connection c).cancelled ≠ none
        rw [hsame]
        exact hset
      · show ((s.create a).connection c).strayed = _
        rw [hsame]
    · rw [hself] at hw
      cases hw

/-- The task of a connection is added to the set, which may have been taken. -/
theorem Books.add (h : s.Books) (ha : a < s.acceptors) (hp : (s.acceptor a).phase = .adding c) :
    ((s.add a c).move a .looking).Books := by
  obtain ⟨hc, hacceptor, hnone⟩ := h.fresh a ha c hp
  obtain ⟨w, hw⟩ := Option.ne_none_iff_exists'.1 (h.entered a ha (by rw [hp]; rfl))
  have hran := ran_add s a c .looking
  have hadd := s.add_eq a c hw
  have hself := s.add_connection a c hw
  have hother : ∀ e, e ≠ c → (s.add a c).connection e = s.connection e := by
    intro e he
    rw [hadd]
    exact Function.update_of_ne he ..
  have hmembers : ∀ x e, e ∈ s.members x → e ∈ (s.add a c).members x := by
    intro x e he
    rw [hadd]
    show e ∈ Function.update s.members w (s.members w ++ [c]) x
    by_cases hx : x = w
    · subst hx
      rw [Function.update_self]
      exact List.mem_append_left _ he
    · rw [Function.update_of_ne hx]
      exact he
  have hconnections : ((s.add a c).move a .looking).connections = s.connections := by
    rw [hadd]
    rfl
  have htasks : ((s.add a c).move a .looking).workerConnTasks = s.workerConnTasks := by
    rw [hadd]
    rfl
  have hmoved : ((s.add a c).move a .looking).connection = (s.add a c).connection := rfl
  have hloop : ∀ e, ((s.add a c).move a .looking).loopOf e = s.loopOf e := by
    intro e
    unfold loopOf
    rw [hmoved]
    have hsame : ((s.add a c).connection e).acceptor = (s.connection e).acceptor := by
      by_cases hec : e = c
      · subst hec
        rw [hself]
      · rw [hother e hec]
    rw [hsame]
    by_cases hea : (s.connection e).acceptor = a
    · rw [hea]
      exact hran.loop
    · rw [hran.others _ hea]
  refine ⟨fun e he => ?_, fun b hb hentered => ?_, fun e he hempty => ?_, fun b hb e hadding => ?_,
    fun e he x hx hdone => ?_⟩
  · rw [hconnections] at he
    rw [hran.acceptors, hmoved]
    by_cases hec : e = c
    · subst hec
      rw [hself]
      exact h.acceptor e he
    · rw [hother e hec]
      exact h.acceptor e he
  · rw [hran.acceptors] at hb
    by_cases hba : b = a
    · subst hba
      rw [move_tasks, hadd]
      show (s.acceptor b).tasks ≠ none
      rw [hw]
      exact nofun
    · rw [hran.others b hba] at hentered ⊢
      exact h.entered b hb hentered
  · rw [hconnections] at he
    rw [hmoved] at hempty ⊢
    have hec : e ≠ c := by
      rintro rfl
      rw [hself] at hempty
      cases hempty
    rw [hother e hec] at hempty ⊢
    have hadding := h.adding e he hempty
    have hea : (s.connection e).acceptor ≠ a := by
      rintro rfl
      exact hec (Phase.adding.inj (hadding.symm.trans hp))
    rw [hran.others _ hea]
    exact hadding
  · rw [hran.acceptors] at hb
    have hba : b ≠ a := by
      rintro rfl
      cases hran.phase.symm.trans hadding
    rw [hran.others b hba] at hadding
    obtain ⟨he, hfresh⟩ := h.fresh b hb e hadding
    have hec : e ≠ c := by
      rintro rfl
      exact hba (hfresh.1.symm.trans hacceptor)
    rw [hconnections, hmoved, hother e hec]
    exact ⟨he, hfresh⟩
  · rw [hconnections] at he
    rw [hmoved] at hx hdone
    by_cases hec : e = c
    · subst hec
      rw [hself] at hx
      obtain rfl := Option.some.inj hx
      refine ⟨?_, ?_⟩
      · rw [hadd]
        show e ∈ Function.update s.members w (s.members w ++ [e]) w
        rw [Function.update_self]
        exact List.mem_append_right _ (List.mem_singleton_self e)
      · by_cases hset : s.workerConnTasks (s.acceptor a).loop = some w
        · refine .tracked ?_
          rw [hloop, htasks]
          unfold loopOf
          rw [hacceptor]
          exact hset
        · refine .strayed ?_
          rw [hmoved, hself]
          exact decide_eq_true hset
    · have hsame := hother e hec
      rw [hsame] at hx hdone
      obtain ⟨hmem, hkept⟩ := h.watched e he x hx hdone
      refine ⟨hmembers x e hmem, hkept.mono (hloop e) (by rw [htasks]) (fun u connections hu hin => ?_) (fun hset => ?_)
        ?_⟩
      · exact .cancelling u connections (by rw [hran.caller]; exact hu) hin
      · rw [hmoved, hsame]
        exact hset
      · rw [hmoved, hsame]

/-! ## The runs -/

theorem Books.turned {p : Phase} (h : s.Books) (ha : a < s.acceptors) (hp : (s.acceptor a).phase = p)
    (hturned : Turned s a p s') : s'.Books := by
  cases hturned with
  | enters => exact h.enter ha hp
  | creates => exact h.create ha hp
  | adds c => exact h.add ha hp
  | goes hnext =>
    have hmoves : (∀ c, p ≠ .adding c) → p.entered = true → ∀ q : Phase, (∀ c, q ≠ .adding c) → (s.move a q).Books := by
      intro hnot hentered q hq
      refine h.move ha (fun _ => ?_) (fun c => ?_) hq
      · rw [hp]
        exact hentered
      · rw [hp]
        exact hnot c
    generalize s.running = running at hnext
    generalize s.closed (s.acceptor a).socket = closed at hnext
    cases hnext with
    | accepts _ r => exact hmoves (fun _ => nofun) rfl _ (accept_ne_adding r)
    | looks | stops | rejected | retries | sleeps | breaks => exact hmoves (fun _ => nofun) rfl _ fun _ => nofun

/-- Nothing of the accept loops or connections changes but what does not matter here. -/
theorem Books.congr (h : s.Books) (hacceptors : s'.acceptors = s.acceptors) (hconnections : s'.connections = s.connections)
    (hacceptor : ∀ b, (s'.acceptor b).loop = (s.acceptor b).loop ∧ (s'.acceptor b).phase = (s.acceptor b).phase ∧
      (s'.acceptor b).tasks = (s.acceptor b).tasks)
    (hconnection : ∀ e, (s'.connection e).acceptor = (s.connection e).acceptor ∧
      (s'.connection e).tasks = (s.connection e).tasks ∧ (s'.connection e).cancelled = (s.connection e).cancelled ∧
      (s'.connection e).strayed = (s.connection e).strayed ∧
      ((s'.connection e).done = false → (s.connection e).done = false))
    (hmembers : ∀ w e, (s.connection e).done = false → e ∈ s.members w → e ∈ s'.members w)
    (htasks : s'.workerConnTasks = s.workerConnTasks) (hcaller : s'.caller = s.caller) : s'.Books := by
  have hloop : ∀ e, s'.loopOf e = s.loopOf e := by
    intro e
    unfold loopOf
    rw [(hconnection e).1]
    exact (hacceptor _).1
  refine ⟨fun e he => ?_, fun b hb hentered => ?_, fun e he hnone => ?_, fun b hb e hadding => ?_,
    fun e he w hw hdone => ?_⟩
  · rw [hconnections] at he
    rw [(hconnection e).1, hacceptors]
    exact h.acceptor e he
  · rw [hacceptors] at hb
    rw [(hacceptor b).2.1] at hentered
    rw [(hacceptor b).2.2]
    exact h.entered b hb hentered
  · rw [hconnections] at he
    rw [(hconnection e).2.1] at hnone
    rw [(hconnection e).1, (hacceptor _).2.1]
    exact h.adding e he hnone
  · rw [hacceptors] at hb
    rw [(hacceptor b).2.1] at hadding
    rw [hconnections, (hconnection e).1, (hconnection e).2.1]
    exact h.fresh b hb e hadding
  · obtain ⟨-, htasks', hcancelled, hstrayed, hdone'⟩ := hconnection e
    rw [hconnections] at he
    rw [htasks'] at hw
    obtain ⟨hmem, hkept⟩ := h.watched e he w hw (hdone' hdone)
    refine ⟨hmembers w e (hdone' hdone) hmem, hkept.mono (hloop e) (by rw [htasks]) (fun u connections hu hin => ?_)
      (fun hset => by rw [hcancelled]; exact hset) hstrayed⟩
    exact .cancelling u connections (by rw [hcaller]; exact hu) hin

variable [DecidableEq Caller] {reuseport : Bool} {acceptorCount : Nat} {act : Action Caller n}

theorem Books.step (h : s.Books) (hpinned : s.Pinned) (hst : s.step reuseport acceptorCount act = some s') : s'.Books := by
  cases steps_of_step hst with
  | calls t d hidle _ hs' =>
    subst hs'
    refine h.called (.rest d) fun c w hkept _ _ => ?_
    refine hkept.mono rfl rfl (fun u connections hu hin => .cancelling u connections ?_ hin) id rfl
    have hut : u ≠ t := by
      rintro rfl
      cases hidle.symm.trans hu
    exact (Function.update_of_ne hut ..).trans hu
  | advances t flag hadvance =>
    exact h.called (called_of_advance rfl hadvance) fun c w hkept hc hmem => hkept.advance hc hmem hadvance
  | begins a ha hposted _ hs' =>
    subst hs'
    refine h.move ha nofun (fun c => ?_) fun c => nofun
    rw [hposted]
    exact nofun
  | cancels a _ _ _ _ hs' =>
    subst hs'
    refine h.congr rfl rfl (fun b => ?_) (fun e => ⟨rfl, rfl, rfl, rfl, id⟩) (fun w e _ => id) rfl rfl
    show (Function.update s.acceptor a _ b).loop = _ ∧ (Function.update s.acceptor a _ b).phase = _ ∧
      (Function.update s.acceptor a _ b).tasks = _
    by_cases hba : b = a
    · subst hba
      rw [Function.update_self]
      exact ⟨rfl, rfl, rfl⟩
    · rw [Function.update_of_ne hba]
      exact ⟨rfl, rfl, rfl⟩
  | resumes a r ha _ hresume =>
    obtain ⟨hp, q, rfl, hq⟩ := moved_of_resume hresume
    have hentered : (s.acceptor a).phase.entered = true := by
      rcases hp with hp | hp
      · rw [hp]
        rfl
      · rw [hp]
        rfl
    refine h.move ha (fun _ => hentered) (fun c hc => ?_) hq
    rcases hp with hp | hp
    · cases hp.symm.trans hc
    · cases hp.symm.trans hc
  | turns a r hcurrent hturn => exact h.turned (hpinned.current _ _ hcurrent).1 rfl (turned_of_turn hturn)
  | finishes c _ _ _ hs' =>
    subst hs'
    refine h.congr rfl rfl (fun b => ⟨rfl, rfl, rfl⟩) (fun e => ?_) (fun w e _ => id) rfl rfl
    show (Function.update s.connection c _ e).acceptor = _ ∧ (Function.update s.connection c _ e).tasks = _ ∧
      (Function.update s.connection c _ e).cancelled = _ ∧ (Function.update s.connection c _ e).strayed = _ ∧
      ((Function.update s.connection c _ e).done = false → _)
    by_cases hec : e = c
    · subst hec
      rw [Function.update_self]
      exact ⟨rfl, rfl, rfl, rfl, nofun⟩
    · rw [Function.update_of_ne hec]
      exact ⟨rfl, rfl, rfl, rfl, id⟩
  | discards c w _ hdone _ _ hs' =>
    subst hs'
    refine h.congr rfl rfl (fun b => ⟨rfl, rfl, rfl⟩) (fun e => ⟨rfl, rfl, rfl, rfl, id⟩) (fun x e he hmem => ?_) rfl rfl
    show e ∈ Function.update s.members w ((s.members w).filter (· ≠ c)) x
    by_cases hx : x = w
    · subst hx
      rw [Function.update_self]
      have hec : e ≠ c := by
        rintro rfl
        cases he.symm.trans hdone
      exact List.mem_filter.2 ⟨hmem, decide_eq_true hec⟩
    · rw [Function.update_of_ne hx]
      exact hmem
  | closes l _ hs' =>
    subst hs'
    refine h.congr rfl rfl (fun b => ⟨rfl, rfl, rfl⟩) (fun e => ⟨rfl, rfl, rfl, rfl, id⟩) (fun w e _ => id) rfl rfl

end Sys

variable [DecidableEq Caller] {reuseport : Bool} {acceptorCount : Nat} {s : Sys Caller n} {c : Nat}

theorem books_of_reachable (h : (system reuseport acceptorCount).Reachable s) : s.Books := by
  have hboth : s.Pinned ∧ s.Books := by
    refine System.Reachable.inv (I := fun s => s.Pinned ∧ s.Books) ?_ ?_ h
    · rintro s ⟨acceptor, connection, rfl⟩
      exact ⟨⟨nofun, nofun⟩, nofun, nofun, nofun, nofun, nofun⟩
    · exact fun s act s' hs hst => ⟨hs.1.step hst, hs.2.step hs.1 hst⟩
  exact hboth.2

/-- A connection that is not done is about to be added by its accept loop, or it is
in a set, which the next `close` looks at, or from which one has taken it to cancel
it, or which one had taken before. -/
theorem watched_or_cancelled (h : (system reuseport acceptorCount).Reachable s) (hc : c < s.connections)
    (hdone : (s.connection c).done = false) :
    (s.current (s.loopOf c) = some (s.connection c).acceptor ∧
        (s.acceptor (s.connection c).acceptor).phase = .adding c) ∨
      ∃ w, (s.connection c).tasks = some w ∧ c ∈ s.members w ∧ s.Kept c w := by
  have hbooks := books_of_reachable h
  cases htasks : (s.connection c).tasks with
  | none =>
    have hadding := hbooks.adding c hc htasks
    refine .inl ⟨?_, hadding⟩
    refine (pinned_of_reachable h).1.runs _ (hbooks.acceptor c hc) ?_
    rw [hadding]
    rfl
  | some w =>
    obtain ⟨hmem, hkept⟩ := hbooks.watched c hc w htasks hdone
    exact .inr ⟨w, rfl, hmem, hkept⟩

/-- An accept loop has a connection when `close` is called, and adds it when `close`
is done: the connection stays as it is. -/
theorem watched_or_cancelled_stray : ∃ s : Sys Unit 1, (0 < s.connections ∧ (s.connection 0).done = false) ∧
    ((s.connection 0).strayed = true ∧ (s.connection 0).cancelled = none ∧ s.caller () = .idle ∧ s.running = false) ∧
    ((s.current (s.loopOf 0) = some (s.connection 0).acceptor ∧
        (s.acceptor (s.connection 0).acceptor).phase = .adding 0) ∨
      ∃ w, (s.connection 0).tasks = some w ∧ 0 ∈ s.members w ∧ s.Kept 0 w) := by
  obtain ⟨s, hs, hc, hstray⟩ := System.exists_reachable_of_run (M := system false 1)
    (s := (Sys.new (fun _ => ⟨0, 0, .posted, none, false, false⟩) fun _ => ⟨0, none, false, false, none⟩ : Sys Unit 1))
    [.start (), .advance () true, .advance () true, .advance () true, .advance () true, .advance () true,
      .advance () true, .begin 0, .turn 0 .suspends, .turn 0 .suspends, .turn 0 .suspends, .resume 0 .connection,
      .close (), .advance () true, .advance () true, .advance () true, .advance () true, .advance () true,
      .advance () true, .advance () true, .advance () true, .advance () true, .advance () true, .advance () true,
      .advance () true, .turn 0 .suspends, .turn 0 .suspends]
    (p := fun s => (0 < s.connections ∧ (s.connection 0).done = false) ∧ (s.connection 0).strayed = true ∧
      (s.connection 0).cancelled = none ∧ s.caller () = .idle ∧ s.running = false) ⟨_, _, rfl⟩ (by decide +kernel)
  exact ⟨s, hc, hstray, watched_or_cancelled hs hc.1 hc.2⟩

end Multiloop.ConnectionPinningServer
