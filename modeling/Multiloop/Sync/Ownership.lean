import Multiloop.Sync.Lock

/-!
# Who owns a `Lock`

A lock is handed over before its next owner runs: an owner holds it, or is
woken in `acquire` and has not gone on yet (`inFlight`). `Guarded` holds in
every state of every run over a lock.
-/

namespace Multiloop.Sync.Lock

variable {Loop Task : Type}

namespace Sys

variable [DecidableEq Task] {home : Task → Loop} {s s' : Sys Loop Task}

omit [DecidableEq Task] in
theorem waits_of_pc {t : Task} {p : Pc Task} (h : s.pc t = p) : s.waits t = p.event? := by
  rw [← h]
  rfl

theorem waits_goto (t : Task) (p : Pc Task) : (s.goto t p).waits = Function.update s.waits t p.event? :=
  Function.comp_update Pc.event? s.pc t p

theorem waits_outside {t : Task} : (s.goto t .outside).waits t = none := by
  rw [waits_goto, Function.update_self]
  rfl

theorem waits_other {t u : Task} (hu : u ≠ t) (p : Pc Task) : (s.goto t p).waits u = s.waits u := by
  rw [waits_goto, Function.update_of_ne hu]

/-- Task `t` is woken in `acquire` and has not gone on yet. -/
def inFlight (s : Sys Loop Task) (t : Task) : Bool := s.host.inFlight s.waits t

theorem inFlight_iff {t : Task} : s.inFlight t = true ↔ ∃ e, s.waits t = some e ∧ s.host.woken e = true := by
  unfold inFlight Host.inFlight
  rw [Option.any_eq_true]

theorem not_inFlight {t : Task} (h : s.waits t = none) : s.inFlight t = false := by
  unfold inFlight Host.inFlight
  rw [h]
  rfl

/-- How the waiters, the events and the ledger hang together. -/
structure Linked (home : Task → Loop) (s : Sys Loop Task) : Prop where
  wired : s.host.Wired home s.waits (s.lock.waiters.map Prod.fst)
  tasks : ∀ w ∈ s.lock.waiters, w.2 = w.1.owner
  fair : s.ledger.Fair s.lock.waiters
  skipped : ∀ w ∈ s.ledger.skipped, s.live home w.2 = false
  /-- A task in `acquire` is not done and does not hold the lock. -/
  waiting : ∀ t, s.waits t ≠ none → s.done t = false ∧ s.holding t = false

theorem linked_new : (new : Sys Loop Task).Linked home where
  wired := Host.wired_new
  tasks w hw := absurd hw (by simp [new, Lock.new])
  fair := Ledger.fair_new
  skipped w hw := absurd hw (by simp [new])
  waiting t ht := absurd rfl ht

theorem Linked.waits_owner (hl : s.Linked home) {w : Fut Task × Task} (hw : w ∈ s.lock.waiters) :
    s.waits w.2 = some w.1 := by
  rw [hl.tasks w hw]
  exact hl.wired.waited w.1 (List.mem_map.2 ⟨w, hw, rfl⟩)

theorem Linked.waiter_not_done (hl : s.Linked home) {w : Fut Task × Task} (hw : w ∈ s.lock.waiters) :
    s.done w.2 = false := by
  refine (hl.waiting w.2 ?_).1
  rw [hl.waits_owner hw]
  simp

theorem Linked.live_waiter (hl : s.Linked home) {w : Fut Task × Task} (hw : w ∈ s.lock.waiters) :
    s.live home w.2 = ! s.host.closed (home w.1.owner) := by
  unfold live isOpen
  rw [hl.waiter_not_done hw, hl.tasks w hw]
  rfl

/-! ## Handing the lock over -/

omit [DecidableEq Task] in
/-- The lock goes to the first waiter that can run; if there is none, it is
free, and nobody waits. -/
theorem releaseLocked_cases (done isOpen : Task → Bool) (ws : List (Fut Task × Task)) :
    (∃ popped w rest, ws = popped ++ w :: rest ∧ (∀ v ∈ popped, (! done v.2 && isOpen v.2) = false) ∧
      (! done w.2 && isOpen w.2) = true ∧
      Lock.releaseLocked done isOpen ws = ([w.1], { owner := some w.2, waiters := rest })) ∨
    ((∀ v ∈ ws, (! done v.2 && isOpen v.2) = false) ∧
      Lock.releaseLocked done isOpen ws = ([], { owner := none, waiters := [] })) := by
  induction ws with
  | nil => exact .inr ⟨fun v hv => absurd hv (by simp), rfl⟩
  | cons w ws ih =>
    obtain ⟨event, waiterTask⟩ := w
    by_cases hw : (! done waiterTask && isOpen waiterTask) = true
    · obtain ⟨hd, ho⟩ : done waiterTask = false ∧ isOpen waiterTask = true := by simpa using hw
      refine .inl ⟨[], (event, waiterTask), ws, rfl, fun v hv => absurd hv (by simp), hw, ?_⟩
      simp [Lock.releaseLocked, hd, ho]
    · have hskip : Lock.releaseLocked done isOpen ((event, waiterTask) :: ws) = Lock.releaseLocked done isOpen ws := by
        show (if done waiterTask then _ else if isOpen waiterTask then _ else _) = _
        cases hd : done waiterTask with
        | true => exact if_pos rfl
        | false =>
          have ho : isOpen waiterTask = false := by simpa [hd] using hw
          rw [ho, if_neg Bool.false_ne_true, if_neg Bool.false_ne_true]
      have hfalse : (! done waiterTask && isOpen waiterTask) = false := by simpa using hw
      rw [hskip]
      rcases ih with ⟨popped, v, rest, hq, hp, hv, h⟩ | ⟨hall, h⟩
      · refine .inl ⟨(event, waiterTask) :: popped, v, rest, by rw [hq, List.cons_append], ?_, hv, h⟩
        intro u hu
        rcases List.mem_cons.1 hu with hu | hu
        · rw [hu]
          exact hfalse
        · exact hp u hu
      · refine .inr ⟨fun u hu => ?_, h⟩
        rcases List.mem_cons.1 hu with hu | hu
        · rw [hu]
          exact hfalse
        · exact hall u hu

/-- What `_release_locked` leaves: the popped waiters, and the next owner, who
waited. -/
theorem Linked.released (hl : s.Linked home) :
    ∃ popped, (s.releaseLocked home).host =
        s.host.callSoon ((popped.map Prod.fst).filter fun e => ! s.host.closed (home e.owner)) ∧
      s.lock.waiters = popped ++ (s.releaseLocked home).lock.waiters ∧
      (s.releaseLocked home).ledger = s.ledger.handOff (fun w => s.live home w.2) popped ∧
      ((∃ w ∈ s.lock.waiters, (s.releaseLocked home).lock.owner = some w.2 ∧
          (popped.map Prod.fst).filter (fun e => ! s.host.closed (home e.owner)) = [w.1]) ∨
        (s.releaseLocked home).lock = { owner := none, waiters := [] } ∧
          (popped.map Prod.fst).filter (fun e => ! s.host.closed (home e.owner)) = []) := by
  -- The popped events whose loops are open are those of the tasks that can run.
  have hopen : ∀ popped : List (Fut Task × Task), (∀ v ∈ popped, v ∈ s.lock.waiters) →
      (popped.map Prod.fst).filter (fun e => ! s.host.closed (home e.owner)) =
        (popped.filter fun w => s.live home w.2).map Prod.fst := by
    intro popped hsub
    rw [List.filter_map]
    congr 1
    apply List.filter_congr
    intro w hw
    exact (hl.live_waiter (hsub w hw)).symm
  have hnone : ∀ popped : List (Fut Task × Task), (∀ v ∈ popped, s.live home v.2 = false) →
      (popped.filter fun w => s.live home w.2) = [] := by
    intro popped hp
    rw [List.filter_eq_nil_iff]
    intro v hv
    rw [hp v hv]
    exact Bool.false_ne_true
  rcases releaseLocked_cases s.done (s.isOpen home) s.lock.waiters with
    ⟨popped, w, rest, hq, hp, hw, h⟩ | ⟨hall, h⟩
  · have hmem : w ∈ s.lock.waiters := by
      rw [hq]
      simp
    have hsub : ∀ v ∈ popped ++ [w], v ∈ s.lock.waiters := by
      intro v hv
      rw [hq]
      rcases List.mem_append.1 hv with hv | hv
      · exact List.mem_append_left _ hv
      · rw [List.mem_singleton.1 hv]
        simp
    have hwoken : ((popped ++ [w]).map Prod.fst).filter (fun e => ! s.host.closed (home e.owner)) = [w.1] := by
      rw [hopen _ hsub, List.filter_append, hnone popped hp]
      simp [live, hw]
    refine ⟨popped ++ [w], ?_, ?_, ?_, .inl ⟨w, hmem, ?_, hwoken⟩⟩
    · rw [hwoken]
      simp only [Sys.releaseLocked, h]
    · simp only [Sys.releaseLocked, h]
      rw [hq]
      simp
    · have htake : s.lock.waiters.take (s.lock.waiters.length - rest.length) = popped ++ [w] := by
        have happ : s.lock.waiters = (popped ++ [w]) ++ rest := by
          rw [hq]
          simp
        rw [happ, List.length_append, Nat.add_sub_cancel, List.take_left]
      simp only [Sys.releaseLocked, h, htake]
    · simp only [Sys.releaseLocked, h]
  · have hwoken : (s.lock.waiters.map Prod.fst).filter (fun e => ! s.host.closed (home e.owner)) = [] := by
      rw [hopen _ fun v hv => hv, hnone _ hall]
      rfl
    refine ⟨s.lock.waiters, ?_, ?_, ?_, .inr ⟨?_, hwoken⟩⟩
    · rw [hwoken]
      simp only [Sys.releaseLocked, h]
    · simp only [Sys.releaseLocked, h, List.append_nil]
    · simp [Sys.releaseLocked, h]
    · simp only [Sys.releaseLocked, h]

theorem Linked.releaseLocked (hl : s.Linked home) : (s.releaseLocked home).Linked home := by
  obtain ⟨popped, hhost, hq, hledger, -⟩ := hl.released
  have hlive : ∀ t, (s.releaseLocked home).live home t = s.live home t := fun t => rfl
  refine ⟨?_, fun w hw => hl.tasks w ?_, ?_, ?_, hl.waiting⟩
  · have hwired := hl.wired
    rw [hq, List.map_append] at hwired
    show (s.releaseLocked home).host.Wired home s.waits _
    rw [hhost]
    exact hwired.handOff
  · rw [hq]
    exact List.mem_append_right _ hw
  · have hfair := hl.fair
    rw [hq] at hfair
    rw [hledger]
    exact hfair.handOff _
  · rw [hledger]
    intro w hw
    rw [hlive]
    rcases List.mem_append.1 hw with hw | hw
    · exact hl.skipped w hw
    · simpa using (List.mem_filter.1 hw).2

/-- Who is in flight once the lock is handed over. -/
theorem Linked.inFlight_releaseLocked (hl : s.Linked home) (t : Task) :
    (s.releaseLocked home).inFlight t =
      (decide ((s.releaseLocked home).lock.owner = some t) || s.inFlight t) := by
  obtain ⟨popped, hhost, hq, -, hnext⟩ := hl.released
  have hmem : ∀ e ∈ (popped.map Prod.fst).filter fun e => ! s.host.closed (home e.owner),
      e ∈ s.lock.waiters.map Prod.fst := by
    intro e he
    rw [hq, List.map_append]
    exact List.mem_append_left _ (List.mem_filter.1 he).1
  show (s.releaseLocked home).host.inFlight s.waits t = _
  rw [hhost, hl.wired.inFlight_callSoon hmem]
  rcases hnext with ⟨w, hw, howner, hwoken⟩ | ⟨hlock, hwoken⟩
  · rw [hwoken, howner, hl.tasks w hw]
    congr 1
    rw [decide_eq_decide]
    simp [eq_comm]
  · rw [hwoken, hlock]
    rfl

/-! ## Ownership -/

/-- The lock is owned by the one live task that holds it, or by the one that is
in flight to it; and tasks wait only for a lock that is owned. -/
structure Owned (s : Sys Loop Task) : Prop where
  holder : ∀ t, s.holding t = true → s.done t = false → s.lock.owner = some t
  flight : ∀ t, s.inFlight t = true → s.lock.owner = some t
  owner : ∀ t, s.lock.owner = some t → s.holding t = true ∨ s.inFlight t = true
  queue : s.lock.waiters ≠ [] → s.lock.owner ≠ none

/-- The lock is wired up, and has one owner at most. -/
structure Guarded (home : Task → Loop) (s : Sys Loop Task) : Prop where
  linked : s.Linked home
  owned : s.Owned

theorem guarded_new : (new : Sys Loop Task).Guarded home where
  linked := linked_new
  owned := {
    holder := fun t ht => absurd ht (by simp [new])
    flight := fun t ht => absurd ht (by simp [inFlight, Host.inFlight, waits, new, Pc.event?])
    owner := fun t ht => absurd ht (by simp [new, Lock.new])
    queue := fun h => absurd rfl h }

/-- A lock whose last owner is gone is handed over: nobody else that lives
holds it or is in flight to it. -/
theorem Linked.owned_releaseLocked (hl : s.Linked home)
    (hh : ∀ t, s.holding t = true → s.done t = false → False) (hf : ∀ t, s.inFlight t = false) :
    (s.releaseLocked home).Owned := by
  have hfly := hl.inFlight_releaseLocked
  obtain ⟨popped, -, hq, -, hnext⟩ := hl.released
  refine ⟨fun t ht hd => (hh t ht hd).elim, fun t ht => ?_, fun t ht => .inr ?_, fun hne => ?_⟩
  · rw [hfly, hf, Bool.or_false] at ht
    exact of_decide_eq_true ht
  · rw [hfly, ht, decide_eq_true rfl, Bool.true_or]
  · rcases hnext with ⟨w, -, howner, -⟩ | ⟨hlock, -⟩
    · rw [howner]
      exact Option.some_ne_none w.2
    · rw [hlock] at hne
      exact absurd rfl hne

/-- A change that touches neither who waits, nor who is woken, nor the lock. -/
theorem Guarded.congr (hg : s.Guarded home) (hlinked : s'.Linked home) (hlock : s'.lock = s.lock)
    (hhold : ∀ t, s'.holding t = s.holding t) (hdone : ∀ t, s.done t = true → s'.done t = true)
    (hfly : ∀ t, s'.inFlight t = s.inFlight t) : s'.Guarded home := by
  refine ⟨hlinked, ?_, ?_, ?_, ?_⟩
  · intro t ht hd
    rw [hlock]
    apply hg.owned.holder t (hhold t ▸ ht)
    by_contra hc
    rw [hdone t (by simpa using hc)] at hd
    cases hd
  · intro t ht
    rw [hlock]
    exact hg.owned.flight t (hfly t ▸ ht)
  · intro t ht
    rw [hhold, hfly]
    exact hg.owned.owner t (hlock ▸ ht)
  · rw [hlock]
    exact hg.owned.queue

/-- A change of the host alone. -/
theorem Guarded.ofHost (hg : s.Guarded home) {host : Host Loop Task}
    (hw : host.Wired home s.waits (s.lock.waiters.map Prod.fst)) (hk : ∀ t, host.inFlight s.waits t = s.inFlight t)
    (hc : ∀ l, s.host.closed l = true → host.closed l = true) : Guarded home { s with host } := by
  refine hg.congr ⟨hw, hg.linked.tasks, hg.linked.fair, fun w hm => ?_, hg.linked.waiting⟩ rfl (fun _ => rfl)
    (fun _ h => h) hk
  have hdead := hg.linked.skipped w hm
  unfold live isOpen at hdead ⊢
  cases hd : s.done w.2 with
  | true => rfl
  | false =>
    rw [hd] at hdead
    have hclosed : s.host.closed (home w.2) = true := by simpa using hdead
    simp [hc _ hclosed]

/-! ## One step -/

/-- A task outside of `acquire` takes the lock, or waits for it. -/
theorem Guarded.enter (hg : s.Guarded home) {t : Task} (hpc : s.pc t = .outside) (hd : s.done t = false)
    (hne : s.lock.owner ≠ some t) : (s.enter t).Guarded home := by
  have hnone : s.waits t = none := waits_of_pc hpc
  unfold Sys.enter
  split
  · rename_i howner
    have hnil : s.lock.waiters = [] := by
      by_contra h
      exact hg.owned.queue h howner
    refine ⟨⟨hg.linked.wired, hg.linked.tasks, hg.linked.fair, hg.linked.skipped, ?_⟩, ?_, ?_, ?_, ?_⟩
    · intro u hu
      have hut : u ≠ t := by
        intro h
        rw [h] at hu
        exact hu hnone
      obtain ⟨hdone, hhold⟩ := hg.linked.waiting u hu
      refine ⟨hdone, ?_⟩
      show Function.update s.holding t true u = false
      rw [Function.update_of_ne hut]
      exact hhold
    · intro u hu hdone
      show some t = some u
      by_cases hut : u = t
      · rw [hut]
      · have hold : s.holding u = true := by simpa [hold, hut] using hu
        have hcontra := hg.owned.holder u hold hdone
        rw [howner] at hcontra
        cases hcontra
    · intro u hu
      have hcontra := hg.owned.flight u hu
      rw [howner] at hcontra
      cases hcontra
    · intro u hu
      have hut : t = u := Option.some.inj hu
      rw [← hut]
      exact .inl (Function.update_self ..)
    · intro _
      exact Option.some_ne_none t
  · rename_i u howner
    have hfly : ∀ v, ((s.host.wait t).2.inFlight (Function.update s.waits t (some (s.host.wait t).1)) v) =
        s.inFlight v := by
      intro v
      by_cases hv : v = t
      · rw [hv, not_inFlight hnone]
        unfold Host.inFlight
        rw [Function.update_self]
        exact hg.linked.wired.fresh _ (Nat.le_refl _)
      · apply Host.inFlight_congr
        · exact fun _ => rfl
        · rw [Function.update_of_ne hv]
    refine ⟨⟨?_, ?_, hg.linked.fair.register _, hg.linked.skipped, ?_⟩, hg.owned.holder, ?_, ?_, ?_⟩
    · show (s.host.wait t).2.Wired home (Sys.waits (Sys.goto _ t _))
        ((s.lock.waiters ++ [((s.host.wait t).1, t)]).map Prod.fst)
      rw [waits_goto, List.map_append]
      exact hg.linked.wired.enlist hnone
    · intro w hw
      rcases List.mem_append.1 hw with hm | hm
      · exact hg.linked.tasks w hm
      · rw [List.mem_singleton.1 hm]
    · intro v hv
      by_cases hvt : v = t
      · refine ⟨hvt ▸ hd, ?_⟩
        show s.holding v = false
        by_contra hhold
        apply hne
        rw [hvt] at hhold
        exact hg.owned.holder t (by simpa using hhold) hd
      · rw [waits_other hvt] at hv
        exact hg.linked.waiting v hv
    · intro v hv
      apply hg.owned.flight
      rw [← hfly v, ← hv]
      show _ = (s.host.wait t).2.inFlight (Sys.waits (Sys.goto _ t _)) v
      rw [waits_goto]
      rfl
    · intro v hv
      refine (hg.owned.owner v hv).imp_right fun hold => ?_
      show (s.host.wait t).2.inFlight (Sys.waits (Sys.goto _ t _)) v = true
      rw [waits_goto]
      exact (hfly v).trans hold
    · intro _
      show s.lock.owner ≠ none
      rw [howner]
      exact Option.some_ne_none u

theorem Guarded.acquire (hg : s.Guarded home) {t : Task} (hpc : s.pc t = .outside) (hd : s.done t = false) :
    (s.acquire home t).Guarded home := by
  unfold Sys.acquire
  split
  · exact hg
  · rename_i hne
    split
    · rename_i hdied
      obtain ⟨u, howner, hdone⟩ := (Option.any_eq_true _ _).1 hdied
      -- The dead owner is the only one that could hold the lock or be in flight to it.
      have hfly : ∀ v, s.inFlight v = false := by
        intro v
        by_contra hv
        have hvu := hg.owned.flight v (by simpa using hv)
        rw [howner] at hvu
        obtain ⟨e, he, -⟩ := inFlight_iff.1 (show s.inFlight v = true by simpa using hv)
        have hlive := (hg.linked.waiting v (by rw [he]; simp)).1
        rw [← Option.some.inj hvu, hdone] at hlive
        cases hlive
      have hhold : ∀ v, s.holding v = true → s.done v = false → False := by
        intro v hv hvd
        have hvu := hg.owned.holder v hv hvd
        rw [howner] at hvu
        rw [← Option.some.inj hvu, hdone] at hvd
        cases hvd
      have hg' : (s.releaseLocked home).Guarded home :=
        ⟨hg.linked.releaseLocked, hg.linked.owned_releaseLocked hhold hfly⟩
      refine hg'.enter hpc hd fun howner' => ?_
      -- The next owner waited; task `t` did not.
      have hnext := hg'.linked
      have hf : (s.releaseLocked home).inFlight t = true := by
        rw [hg.linked.inFlight_releaseLocked, howner', decide_eq_true rfl, Bool.true_or]
      obtain ⟨e, he, -⟩ := inFlight_iff.1 hf
      have hnone : (s.releaseLocked home).waits t = none := waits_of_pc hpc
      rw [hnone] at he
      cases he
    · exact hg.enter hpc hd hne

theorem Guarded.resume (hg : s.Guarded home) {t : Task} {e : Fut Task} (hpc : s.pc t = .acquiring e)
    (hst : s.resume t e = some s') : s'.Guarded home := by
  have hwaits : s.waits t = some e := waits_of_pc hpc
  unfold Sys.resume at hst
  split at hst
  · rename_i hr
    cases hst
    have hwoken := hg.linked.wired.woken_of_returns hr
    have hfly : s.inFlight t = true := inFlight_iff.2 ⟨e, hwaits, hwoken⟩
    have howner := hg.owned.flight t hfly
    refine ⟨⟨?_, hg.linked.tasks, hg.linked.fair, hg.linked.skipped, ?_⟩, ?_, ?_, ?_, hg.owned.queue⟩
    · show s.host.Wired home (Sys.waits (Sys.goto _ t .outside)) _
      rw [waits_goto]
      exact hg.linked.wired.depart hwaits (hg.linked.wired.not_queued hwoken)
    · intro u hu
      have hut : u ≠ t := by
        intro h
        rw [h, waits_outside] at hu
        exact hu rfl
      rw [waits_other hut] at hu
      obtain ⟨hdone, hhold⟩ := hg.linked.waiting u hu
      refine ⟨hdone, ?_⟩
      show Function.update s.holding t true u = false
      rw [Function.update_of_ne hut]
      exact hhold
    · intro u hu hd
      by_cases hut : u = t
      · rw [hut]
        exact howner
      · exact hg.owned.holder u (by simpa [goto, hold, hut] using hu) hd
    · intro u hu
      by_cases hut : u = t
      · rw [hut]
        exact howner
      · apply hg.owned.flight
        rw [← hu]
        apply Host.inFlight_congr
        · exact fun _ => rfl
        · exact (waits_other hut .outside).symm
    · intro u hu
      have hut : t = u := Option.some.inj (howner.symm.trans hu)
      refine .inl ?_
      rw [← hut]
      exact Function.update_self ..
  · cases hst
    have hg' := hg.ofHost (hg.linked.wired.setMustCancel t false) (fun u => Host.inFlight_congr (fun _ => rfl) rfl)
      fun l hc => hc
    have hsame : (({ s with host := s.host.setMustCancel t false } : Sys Loop Task).goto t (.discarding e)).waits =
        s.waits := by
      rw [waits_goto]
      show Function.update s.waits t (some e) = s.waits
      rw [← hwaits, Function.update_eq_self]
    refine hg'.congr ⟨?_, hg.linked.tasks, hg.linked.fair, hg'.linked.skipped, ?_⟩ rfl (fun _ => rfl)
      (fun _ h => h) ?_
    · show (s.host.setMustCancel t false).Wired home _ _
      rw [hsame]
      exact hg'.linked.wired
    · rw [hsame]
      exact hg.linked.waiting
    · intro u
      apply Host.inFlight_congr
      · exact fun _ => rfl
      · exact congrFun hsame u
  · cases hst

/-- A task leaves `acquire` with its event no longer queued. -/
theorem Linked.leaveAcquire (hl : s.Linked home) {t : Task} {e : Fut Task} (hwaits : s.waits t = some e) :
    ((s.discardWaiter e).goto t .outside).Linked home := by
  refine ⟨?_, fun w hw => hl.tasks w (List.mem_filter.1 hw).1, ?_, hl.skipped, ?_⟩
  · show s.host.Wired home (Sys.waits (Sys.goto _ t .outside)) ((s.lock.waiters.filter fun w => w.1 ≠ e).map Prod.fst)
    rw [waits_goto]
    exact hl.wired.withdrawWaiter hwaits
  · have hneg : (s.lock.waiters.filter fun w => w.1 ≠ e) = s.lock.waiters.filter fun w => ! decide (w.1 = e) := by
      simp
    show (s.ledger.leave _).Fair (s.lock.waiters.filter fun w => w.1 ≠ e)
    rw [hneg]
    exact hl.fair.leave _
  · intro u hu
    have hut : u ≠ t := by
      intro h
      rw [h, waits_outside] at hu
      exact hu rfl
    rw [waits_other hut] at hu
    exact hl.waiting u hu

theorem inFlight_leave {t u : Task} (e : Fut Task) (hu : u ≠ t) :
    ((s.discardWaiter e).goto t .outside).inFlight u = s.inFlight u := by
  apply Host.inFlight_congr
  · exact fun _ => rfl
  · exact waits_other hu .outside

/-- A cancelled task gives the lock on if it was handed to it. -/
theorem Guarded.discard (hg : s.Guarded home) {t : Task} {e : Fut Task} (hpc : s.pc t = .discarding e)
    (ho : s.live home t = true) :
    (s.discard home t e).Guarded home ∧ (s.discard home t e).lock.owner ≠ some t := by
  have hwaits : s.waits t = some e := waits_of_pc hpc
  have hlinked := hg.linked.leaveAcquire hwaits
  have hhold : s.holding t = false := (hg.linked.waiting t (by rw [hwaits]; simp)).2
  have hclosed : s.host.closed (home t) = false := by
    have hopen : s.done t = false ∧ s.host.closed (home t) = false := by simpa [live, isOpen] using ho
    exact hopen.2
  have hnotfly : ((s.discardWaiter e).goto t .outside).inFlight t = false := not_inFlight waits_outside
  unfold Sys.discard
  by_cases hq : e ∈ s.lock.waiters.map Prod.fst
  · -- Still queued: the lock was not handed to the task.
    have hfly : s.inFlight t = false := by
      unfold inFlight Host.inFlight
      rw [hwaits]
      exact hg.linked.wired.asleep e hq
    have hne : s.lock.owner ≠ some t := by
      intro howner
      rcases hg.owned.owner t howner with h | h
      · rw [hhold] at h
        cases h
      · rw [hfly] at h
        cases h
    have hif : ¬ ((s.discardWaiter e).lock.owner = some t ∧
        ¬ decide (e ∈ s.lock.waiters.map Prod.fst) = true) := fun h => hne h.1
    rw [if_neg hif]
    have hsame : ∀ u, ((s.discardWaiter e).goto t .outside).inFlight u = s.inFlight u := by
      intro u
      by_cases hu : u = t
      · rw [hu, hnotfly, hfly]
      · exact inFlight_leave e hu
    refine ⟨⟨hlinked, hg.owned.holder, fun u hu => ?_, fun u hu => ?_, fun hnil => ?_⟩, hne⟩
    · exact hg.owned.flight u (hsame u ▸ hu)
    · rw [hsame]
      exact hg.owned.owner u hu
    · refine hg.owned.queue fun h => hnil ?_
      show s.lock.waiters.filter _ = []
      rw [h]
      rfl
  · -- The lock was handed to the task, and it is the only one in flight.
    have hfly : s.inFlight t = true :=
      inFlight_iff.2 ⟨e, hwaits, (hg.linked.wired.queued_or_woken hwaits hclosed).resolve_left hq⟩
    have howner := hg.owned.flight t hfly
    rw [if_pos ⟨howner, by simpa using hq⟩]
    have hcomm : ((s.discardWaiter e).releaseLocked home).goto t .outside =
        ((s.discardWaiter e).goto t .outside).releaseLocked home := rfl
    rw [hcomm]
    have hnobody : ∀ u, ((s.discardWaiter e).goto t .outside).inFlight u = false := by
      intro u
      by_cases hu : u = t
      · rw [hu]
        exact hnotfly
      · rw [inFlight_leave e hu]
        by_contra h
        have hut := hg.owned.flight u (by simpa using h)
        rw [howner] at hut
        exact hu (Option.some.inj hut).symm
    refine ⟨⟨hlinked.releaseLocked, hlinked.owned_releaseLocked ?_ hnobody⟩, ?_⟩
    · intro u hu hd
      have hut := hg.owned.holder u hu hd
      rw [howner] at hut
      have hholdu : s.holding u = true := hu
      rw [← Option.some.inj hut, hhold] at hholdu
      cases hholdu
    · intro hback
      have hf : (((s.discardWaiter e).goto t .outside).releaseLocked home).inFlight t = true := by
        rw [hlinked.inFlight_releaseLocked, hback, decide_eq_true rfl, Bool.true_or]
      obtain ⟨f, hf, -⟩ := inFlight_iff.1 hf
      have hnone : (((s.discardWaiter e).goto t .outside).releaseLocked home).waits t = none :=
        waits_outside (s := s.discardWaiter e)
      rw [hnone] at hf
      cases hf

theorem Guarded.release (hg : s.Guarded home) {t : Task} (hpc : s.pc t = .outside) :
    (s.release home t).Guarded home := by
  have hnone : s.waits t = none := waits_of_pc hpc
  unfold Sys.release
  split
  · rename_i howner
    have hcomm : (s.releaseLocked home).hold t false = (s.hold t false).releaseLocked home := rfl
    rw [hcomm]
    have hlinked : (s.hold t false).Linked home := by
      refine ⟨hg.linked.wired, hg.linked.tasks, hg.linked.fair, hg.linked.skipped, fun u hu => ?_⟩
      obtain ⟨hdone, hhold⟩ := hg.linked.waiting u hu
      refine ⟨hdone, ?_⟩
      show Function.update s.holding t false u = false
      by_cases hut : u = t
      · rw [hut, Function.update_self]
      · rw [Function.update_of_ne hut]
        exact hhold
    refine ⟨hlinked.releaseLocked, hlinked.owned_releaseLocked ?_ ?_⟩
    · intro u hu hd
      by_cases hut : u = t
      · rw [hut] at hu
        simp [hold] at hu
      · have hholder := hg.owned.holder u (by simpa [hold, hut] using hu) hd
        rw [howner] at hholder
        exact hut (Option.some.inj hholder).symm
    · intro u
      by_cases hut : u = t
      · rw [hut]
        exact not_inFlight hnone
      · by_contra h
        have hfly : s.inFlight u = true := Bool.eq_true_of_not_eq_false h
        have hcontra := hg.owned.flight u hfly
        rw [howner] at hcontra
        exact hut (Option.some.inj hcontra).symm
  · exact hg

theorem Guarded.finish (hg : s.Guarded home) {t : Task} (hpc : s.pc t = .outside) :
    Guarded home { s with done := Function.update s.done t true } := by
  have hnone : s.waits t = none := waits_of_pc hpc
  have hmono : ∀ u, s.done u = true → Function.update s.done t true u = true := by
    intro u hu
    by_cases hut : u = t
    · rw [hut, Function.update_self]
    · rw [Function.update_of_ne hut]
      exact hu
  refine hg.congr ⟨hg.linked.wired, hg.linked.tasks, hg.linked.fair, ?_, ?_⟩ rfl (fun _ => rfl) hmono fun _ => rfl
  · intro w hw
    have hdead := hg.linked.skipped w hw
    show (! Function.update s.done t true w.2 && s.isOpen home w.2) = false
    unfold live at hdead
    cases hd : s.done w.2 with
    | true => simp [hmono _ hd]
    | false =>
      rw [hd] at hdead
      have hopen : s.isOpen home w.2 = false := by simpa using hdead
      rw [hopen, Bool.and_false]
  · intro u hu
    obtain ⟨hdone, hhold⟩ := hg.linked.waiting u hu
    have hut : u ≠ t := by
      intro h
      rw [h] at hu
      exact hu hnone
    refine ⟨?_, hhold⟩
    show Function.update s.done t true u = false
    rw [Function.update_of_ne hut]
    exact hdone

omit [DecidableEq Task] in
theorem live_done {t : Task} (h : s.live home t = true) : s.done t = false := by
  have hlive : s.done t = false ∧ s.isOpen home t = true := by simpa [live] using h
  exact hlive.1

variable [DecidableEq Loop]

/-- Every step keeps the ownership in order. -/
theorem Guarded.step (hg : s.Guarded home) {a : Action Loop Task} (hst : s.step home a = some s') :
    s'.Guarded home := by
  have hwired := hg.linked.wired
  cases a with
  | acquire t =>
    simp only [Sys.step] at hst
    split at hst
    · rename_i h
      cases hst
      exact hg.acquire h.2 (live_done h.1)
    · cases hst
  | resume t =>
    simp only [Sys.step] at hst
    split at hst
    · rename_i e hpc
      split at hst
      · exact hg.resume hpc hst
      · cases hst
    · cases hst
  | discard t =>
    simp only [Sys.step] at hst
    split at hst
    · rename_i e hpc
      split at hst
      · rename_i h
        cases hst
        exact (hg.discard hpc h).1
      · cases hst
    · cases hst
  | release t =>
    simp only [Sys.step] at hst
    split at hst
    · rename_i h
      cases hst
      exact hg.release h.2
    · cases hst
  | finish t =>
    simp only [Sys.step] at hst
    split at hst
    · rename_i h
      cases hst
      exact hg.finish h.2
    · cases hst
  | cancel t other =>
    have hcancel : ∀ e?, Guarded home { s with host := s.host.cancel t e? } := fun e? =>
      hg.ofHost (hwired.cancel t e?) (fun u => Host.inFlight_congr (fun e => by simp) rfl) fun l hc => by simpa using hc
    simp only [Sys.step] at hst
    split at hst
    · cases hst
      exact hcancel _
    · cases hst
      exact hcancel _
    · split at hst
      · cases hst
        exact hcancel _
      · cases hst
  | runCallback i =>
    simp only [Sys.step, Option.map_eq_some_iff] at hst
    obtain ⟨host, hr, rfl⟩ := hst
    exact hg.ofHost (hwired.runCallback hr) (fun u => Host.inFlight_congr (fun e => runCallback_woken _ e hr) rfl)
      fun l hc => by rwa [runCallback_closed _ hr]
  | closeLoop l =>
    simp only [Sys.step, Option.some.injEq] at hst
    rw [← hst]
    exact hg.ofHost (hwired.closeLoop l) (fun u => Host.inFlight_congr (fun _ => rfl) rfl) (closeLoop_closed _ l)
  | waitElsewhere t =>
    simp only [Sys.step] at hst
    split at hst
    · cases hst
      exact hg.ofHost (hwired.waitElsewhere t) (fun u => Host.inFlight_congr (fun _ => rfl) rfl) fun l hc => hc
    · cases hst
  | wakeElsewhere e =>
    simp only [Sys.step] at hst
    split at hst
    · rename_i h
      cases hst
      have hes : ∀ f ∈ [e], s.waits f.owner ≠ some f ∧ f.serial < s.host.created f.owner := by
        intro f hf
        rw [List.mem_singleton.1 hf]
        exact h
      exact hg.ofHost (hwired.wakeElsewhere hes)
        (Host.inFlight_wakeElsewhere (fun f hf => (hes f hf).1) fun u f hf => (hwired.owner u f hf).1) fun l hc => hc
    · cases hst
  | elsewhere t b =>
    simp only [Sys.step] at hst
    split at hst
    · cases hst
      exact hg.ofHost (hwired.setMustCancel t b) (fun u => Host.inFlight_congr (fun _ => rfl) rfl) fun l hc => hc
    · cases hst

theorem guarded_of_reachable (h : (tasks home).Reachable s) : s.Guarded home := by
  apply h.inv
  · intro s hs
    obtain rfl : s = new := hs
    exact guarded_new
  · intro s a s' hg hst
    exact hg.step hst

/-- In the step from `s` to `s'` a task's `acquire` raises: it owns the lock
already, or it discards its waiter after its wait raised. -/
inductive Raises (s : Sys Loop Task) (t : Task) : Action Loop Task → Prop
  | reentrant : s.lock.owner = some t → Raises s t (.acquire t)
  | discarded : Raises s t (.discard t)

end Sys

variable [DecidableEq Task] [DecidableEq Loop] {home : Task → Loop} {s : Sys Loop Task}

/-- In every state of every run of tasks over a lock: at most one task that is
not done holds it; tasks wait only for a lock that is owned; ownership went to
the waiters in the order of registration, and passed over only tasks that are
done or whose loops are closed; a task whose wait raised does not own the lock
once `acquire` is left; and a reentrant `acquire` changes nothing. -/
theorem mutual_exclusion (h : (tasks home).Reachable s) :
    (∀ t u, s.holding t = true → s.done t = false → s.holding u = true → s.done u = false → t = u) ∧
    (s.lock.waiters ≠ [] → s.lock.owner ≠ none) ∧
    s.ledger.Fair s.lock.waiters ∧ (∀ w ∈ s.ledger.skipped, s.live home w.2 = false) ∧
    (∀ t s', s.step home (.discard t) = some s' → s'.lock.owner ≠ some t) ∧
    ∀ t s', s.lock.owner = some t → s.step home (.acquire t) = some s' → s' = s := by
  have hg := Sys.guarded_of_reachable h
  refine ⟨?_, hg.owned.queue, hg.linked.fair, hg.linked.skipped, ?_, ?_⟩
  · intro t u ht htd hu hud
    have htu : some t = some u := by rw [← hg.owned.holder t ht htd, hg.owned.holder u hu hud]
    exact Option.some.inj htu
  · intro t s' hst
    simp only [Sys.step] at hst
    split at hst
    · rename_i e hpc
      split at hst
      · rename_i hlive
        rw [← Option.some.inj hst]
        exact (hg.discard hpc hlive).2
      · cases hst
    · cases hst
  · intro t s' howner hst
    simp only [Sys.step] at hst
    split at hst
    · rw [← Option.some.inj hst]
      exact if_pos howner
    · cases hst

/-- A waiter is cancelled after the lock was handed to it, and gives it on to
the next one. -/
theorem mutual_exclusion_given_on : ∃ s : Sys Unit Nat, s.lock.owner = some 2 ∧
    ∀ t s', s.step (fun _ => ()) (.discard t) = some s' → s'.lock.owner ≠ some t := by
  have hrun : (tasks fun _ => ()).run Sys.new
      [.acquire 0, .acquire 1, .acquire 2, .release 0, .cancel 1 none, .resume 1, .discard 1] = some _ := rfl
  exact ⟨_, rfl, (mutual_exclusion (System.reachable_of_run rfl hrun)).2.2.2.2.1⟩

/-- The owner of a lock acquires it again: `acquire` raises, and it stays the
owner. -/
theorem reentrant_stays_owner : ¬ ∀ (s s' : Sys Unit Unit) (t : Unit) (a : Action Unit Unit),
    (tasks fun _ => ()).Reachable s → s.Raises t a → s.step (fun _ => ()) a = some s' → s'.lock.owner ≠ some t := by
  intro hclaim
  have hrun : (tasks fun _ => ()).run (Sys.new : Sys Unit Unit) [.acquire ()] = some _ := rfl
  exact hclaim _ _ () (.acquire ()) (System.reachable_of_run rfl hrun) (.reentrant rfl) rfl rfl

end Multiloop.Sync.Lock
