import Multiloop.Server.Watched

/-!
# Accept loops that do not suspend

An accept loop whose socket is closed goes on if the server is started again
before it looks: it calls `sock_accept` over and over without suspending, and
nothing else runs on its event loop, in particular not its own cancellation
(`spins_forever_iff`).
-/

namespace Multiloop.ConnectionPinningServer

variable {Caller : Type} {n : Nat}

namespace Sys

variable {s s' : Sys Caller n} {a b : Nat} {l : Fin n}

/-- A `close` is about to reset `_running`. -/
def Stops (s : Sys Caller n) (act : Action Caller n) : Prop := ∃ t flag, act = .advance t flag ∧ s.caller t = .stopping

/-- The accept loop calls `sock_accept` on a closed socket, and is to do so again. -/
structure Spins (s : Sys Caller n) (a : Nat) : Prop where
  current : s.current (s.acceptor a).loop = some a
  running : s.running = true
  closed : s.closed (s.acceptor a).socket = true
  phase : (s.acceptor a).phase ≠ .failed false

/-- On event loop `l`, nothing happens but what accept loop `a` does. -/
structure Still (l : Fin n) (a : Nat) (s s' : Sys Caller n) : Prop where
  acceptors : s.acceptors ≤ s'.acceptors
  connections : s.connections ≤ s'.connections
  loop : ∀ b, b < s.acceptors → (s'.acceptor b).loop = (s.acceptor b).loop
  phase : ∀ b, b < s.acceptors → (s.acceptor b).loop = l → b ≠ a → (s'.acceptor b).phase = (s.acceptor b).phase
  cancel : ∀ b, b < s.acceptors → (s.acceptor b).loop = l → (s'.acceptor b).mustCancel = (s.acceptor b).mustCancel
  acceptor : ∀ c, c < s.connections → (s'.connection c).acceptor = (s.connection c).acceptor
  done : ∀ c, c < s.connections → s.loopOf c = l → (s'.connection c).done = (s.connection c).done

theorem Still.refl (l : Fin n) (a : Nat) (s : Sys Caller n) : Still l a s s :=
  ⟨Nat.le_refl _, Nat.le_refl _, fun _ _ => rfl, fun _ _ _ _ => rfl, fun _ _ _ => rfl, fun _ _ => rfl, fun _ _ _ => rfl⟩

theorem Still.trans {s₁ : Sys Caller n} (h : Still l a s s₁) (hbooks : s.Books) (h' : Still l a s₁ s') :
    Still l a s s' where
  acceptors := Nat.le_trans h.acceptors h'.acceptors
  connections := Nat.le_trans h.connections h'.connections
  loop b hb := (h'.loop b (Nat.lt_of_lt_of_le hb h.acceptors)).trans (h.loop b hb)
  phase b hb hl hba :=
    (h'.phase b (Nat.lt_of_lt_of_le hb h.acceptors) ((h.loop b hb).trans hl) hba).trans (h.phase b hb hl hba)
  cancel b hb hl :=
    (h'.cancel b (Nat.lt_of_lt_of_le hb h.acceptors) ((h.loop b hb).trans hl)).trans (h.cancel b hb hl)
  acceptor c hc := (h'.acceptor c (Nat.lt_of_lt_of_le hc h.connections)).trans (h.acceptor c hc)
  done c hc hl := by
    refine (h'.done c (Nat.lt_of_lt_of_le hc h.connections) ?_).trans (h.done c hc hl)
    unfold loopOf
    rw [h.acceptor c hc, h.loop _ (hbooks.acceptor c hc)]
    exact hl

/-! ## It goes on for ever -/

/-- The connections that an accept loop has do not go on while one runs. -/
structure Serves (a : Nat) (s s' : Sys Caller n) : Prop where
  connections : s.connections ≤ s'.connections
  mustCancel : (s'.acceptor a).mustCancel = (s.acceptor a).mustCancel
  acceptor : ∀ c, c < s.connections → (s'.connection c).acceptor = (s.connection c).acceptor
  done : ∀ c, c < s.connections → (s'.connection c).done = (s.connection c).done

theorem move_mustCancel (s : Sys Caller n) (a : Nat) (q : Phase) :
    ((s.move a q).acceptor a).mustCancel = (s.acceptor a).mustCancel := by
  show (Function.update s.acceptor a _ a).mustCancel = _
  rw [Function.update_self]

theorem serves_move (s : Sys Caller n) (a : Nat) (q : Phase) : Serves a s (s.move a q) :=
  ⟨Nat.le_refl _, move_mustCancel s a q, fun _ _ => rfl, fun _ _ => rfl⟩

theorem Turned.serves {p : Phase} (h : Turned s a p s') : Serves a s s' := by
  cases h with
  | enters =>
    obtain ⟨workerConnTasks, sets, w, henter⟩ := s.enter_same a
    rw [henter]
    refine ⟨Nat.le_refl _, (move_mustCancel _ a _).trans ?_, fun _ _ => rfl, fun _ _ => rfl⟩
    show (Function.update s.acceptor a _ a).mustCancel = _
    rw [Function.update_self]
  | creates =>
    refine ⟨Nat.le_succ _, move_mustCancel _ a _, fun c hc => ?_, fun c hc => ?_⟩
    · show (Function.update s.connection s.connections _ c).acceptor = _
      rw [Function.update_of_ne (Nat.ne_of_lt hc)]
    · show (Function.update s.connection s.connections _ c).done = _
      rw [Function.update_of_ne (Nat.ne_of_lt hc)]
  | adds c =>
    unfold Sys.add
    split
    · refine ⟨Nat.le_refl _, move_mustCancel _ a _, fun e _ => ?_, fun e _ => ?_⟩
      · show (Function.update s.connection c _ e).acceptor = _
        by_cases hec : e = c
        · subst hec
          rw [Function.update_self]
        · rw [Function.update_of_ne hec]
      · show (Function.update s.connection c _ e).done = _
        by_cases hec : e = c
        · subst hec
          rw [Function.update_self]
        · rw [Function.update_of_ne hec]
    · exact serves_move s a _
  | goes => exact serves_move s a _

/-- A step of an accept loop of another event loop, or of `a` itself. -/
theorem Still.ran {q : Phase} (hran : Ran b q s s') (hserves : Serves b s s')
    (hother : b = a ∨ (s.acceptor b).loop ≠ l) : Still l a s s' where
  acceptors := Nat.le_of_eq hran.acceptors.symm
  connections := hserves.connections
  loop e _ := by
    by_cases heb : e = b
    · subst heb
      exact hran.loop
    · rw [hran.others e heb]
  phase e _ hl hea := by
    have heb : e ≠ b := by
      rintro rfl
      exact hother.elim hea fun hne => hne hl
    rw [hran.others e heb]
  cancel e _ _ := by
    by_cases heb : e = b
    · subst heb
      exact hserves.mustCancel
    · rw [hran.others e heb]
  acceptor := hserves.acceptor
  done c hc _ := hserves.done c hc

theorem Spins.ran_other {q : Phase} (h : s.Spins a) (hran : Ran b q s s')
    (hother : (s.acceptor b).loop ≠ (s.acceptor a).loop) : s'.Spins a := by
  have hab : a ≠ b := by
    rintro rfl
    exact hother rfl
  refine ⟨?_, ?_, ?_, ?_⟩
  · rw [hran.others a hab, hran.current, Function.update_of_ne hother.symm]
    exact h.current
  · rw [hran.running]
    exact h.running
  · rw [hran.others a hab, hran.closed]
    exact h.closed
  · rw [hran.others a hab]
    exact h.phase

/-- The accept loop itself goes on. -/
theorem Spins.turned {p : Phase} (h : s.Spins a) (hp : (s.acceptor a).phase = p) (hturned : Turned s a p s') :
    s'.Spins a := by
  have hgoes : ∀ {q : Phase}, Ran a q s s' → q.runs = true → q ≠ .failed false → s'.Spins a := by
    intro q hran hruns hq
    refine ⟨?_, hran.running.trans h.running, ?_, ?_⟩
    · rw [hran.loop, hran.current, Function.update_self, if_pos hruns]
    · rw [hran.closed, hran.socket]
      exact h.closed
    · rw [hran.phase]
      exact hq
  have hphase := h.phase
  rw [hp] at hphase
  cases hturned with
  | enters => exact hgoes (ran_enter s a _) rfl nofun
  | creates => exact hgoes (ran_create s a _) rfl nofun
  | adds c => exact hgoes (ran_add s a c _) rfl nofun
  | goes hnext =>
    rw [h.running, h.closed] at hnext
    cases hnext with
    | looks => exact hgoes (ran_move s a _) rfl nofun
    | rejected => exact hgoes (ran_move s a _) rfl nofun
    | retries => exact hgoes (ran_move s a _) rfl nofun
    | sleeps => exact absurd rfl hphase

section Callers

variable [DecidableEq Caller] {reuseport : Bool} {acceptorCount : Nat} {act : Action Caller n} {t : Caller}

omit [DecidableEq Caller] in
theorem Spins.called (h : s.Spins a) (ha : a < s.acceptors) (hcalled : Called t s s') (hstops : s.caller t ≠ .stopping) :
    s'.Spins a := by
  obtain ⟨x, hx⟩ := hcalled.acceptor a ha
  refine ⟨?_, ?_, ?_, ?_⟩
  · rw [hx, hcalled.current]
    exact h.current
  · rcases hcalled.running with hsame | ⟨hstopping, -⟩ | ⟨-, hset⟩
    · rw [hsame]
      exact h.running
    · exact absurd hstopping hstops
    · exact hset
  · rw [hx]
    exact hcalled.closed _ h.closed
  · rw [hx]
    exact h.phase

omit [DecidableEq Caller] in
theorem Still.called (hcalled : Called t s s') : Still l a s s' where
  acceptors := hcalled.acceptors
  connections := Nat.le_of_eq hcalled.connections.symm
  loop b hb := by
    obtain ⟨x, hx⟩ := hcalled.acceptor b hb
    rw [hx]
  phase b hb _ _ := by
    obtain ⟨x, hx⟩ := hcalled.acceptor b hb
    rw [hx]
  cancel b hb _ := by
    obtain ⟨x, hx⟩ := hcalled.acceptor b hb
    rw [hx]
  acceptor c _ := by
    obtain ⟨x, hx, -⟩ := hcalled.connection c
    rw [hx]
  done c _ _ := by
    obtain ⟨x, hx, -⟩ := hcalled.connection c
    rw [hx]

theorem Spins.step (h : s.Spins a) (hpinned : s.Pinned) (hok : ¬ s.Stops act)
    (hst : s.step reuseport acceptorCount act = some s') :
    s'.Spins a ∧ Still (s.acceptor a).loop a s s' := by
  have ha := (hpinned.current _ _ h.current).1
  have hidle : ∀ b, s.free b = true → (s.acceptor b).loop ≠ (s.acceptor a).loop := by
    intro b hfree hl
    have hnone := free_current hfree
    rw [hl] at hnone
    cases hnone.symm.trans h.current
  cases steps_of_step hst with
  | calls t d hidle _ hs' =>
    rw [hs']
    refine ⟨h.called ha (.rest d) ?_, .called (.rest d)⟩
    rw [hidle]
    exact nofun
  | advances t flag hadvance =>
    have hcalled := called_of_advance rfl hadvance
    exact ⟨h.called ha hcalled fun hstopping => hok ⟨t, flag, rfl, hstopping⟩, .called hcalled⟩
  | begins b _ _ hfree hs' =>
    rw [hs']
    have hother := hidle b hfree
    exact ⟨h.ran_other (ran_move s b _) hother, .ran (ran_move s b _) (serves_move s b _) (.inr hother)⟩
  | cancels b _ _ _ hfree hs' =>
    have hother := hidle b hfree
    have hself : s'.acceptor b = { s.acceptor b with cancelled := false, mustCancel := true } := by
      rw [hs']
      exact Function.update_self ..
    have hothers : ∀ e, e ≠ b → s'.acceptor e = s.acceptor e := by
      intro e he
      rw [hs']
      exact Function.update_of_ne he ..
    have hab : a ≠ b := by
      rintro rfl
      exact hother rfl
    have hacceptors : s'.acceptors = s.acceptors := by rw [hs']
    have hconnections : s'.connections = s.connections := by rw [hs']
    have hconnection : s'.connection = s.connection := by rw [hs']
    refine ⟨⟨?_, ?_, ?_, ?_⟩, Nat.le_of_eq hacceptors.symm, Nat.le_of_eq hconnections.symm, fun e _ => ?_,
      fun e _ hl hea => ?_, fun e _ hl => ?_, fun c _ => by rw [hconnection], fun c _ _ => by rw [hconnection]⟩
    · rw [hothers a hab, hs']
      exact h.current
    · rw [hs']
      exact h.running
    · rw [hothers a hab, hs']
      exact h.closed
    · rw [hothers a hab]
      exact h.phase
    · by_cases heb : e = b
      · subst heb
        rw [hself]
      · rw [hothers e heb]
    · by_cases heb : e = b
      · subst heb
        exact absurd hl hother
      · rw [hothers e heb]
    · by_cases heb : e = b
      · subst heb
        exact absurd hl hother
      · rw [hothers e heb]
  | resumes b r _ hfree hresume =>
    obtain ⟨-, q, rfl, -⟩ := moved_of_resume hresume
    have hother := hidle b hfree
    exact ⟨h.ran_other (ran_move s b q) hother, .ran (ran_move s b q) (serves_move s b q) (.inr hother)⟩
  | turns b r hcurrent hturn =>
    have hturned := turned_of_turn hturn
    obtain ⟨q, hran⟩ := hturned.ran
    by_cases hba : b = a
    · subst hba
      exact ⟨h.turned rfl hturned, .ran hran hturned.serves (.inl rfl)⟩
    · have hother : (s.acceptor b).loop ≠ (s.acceptor a).loop := by
        intro hl
        rw [hl] at hcurrent
        exact hba (Option.some.inj (hcurrent.symm.trans h.current))
      exact ⟨h.ran_other hran hother, .ran hran hturned.serves (.inr hother)⟩
  | finishes c hc _ hfree hs' =>
    have hother := hidle _ hfree
    have hothers : ∀ e, e ≠ c → s'.connection e = s.connection e := by
      intro e he
      rw [hs']
      exact Function.update_of_ne he ..
    have hself : (s'.connection c).acceptor = (s.connection c).acceptor := by
      rw [hs']
      show (Function.update s.connection c _ c).acceptor = _
      rw [Function.update_self]
    have hacceptors : s'.acceptors = s.acceptors := by rw [hs']
    have hconnections : s'.connections = s.connections := by rw [hs']
    have hacceptor : s'.acceptor = s.acceptor := by rw [hs']
    refine ⟨⟨?_, ?_, ?_, ?_⟩, Nat.le_of_eq hacceptors.symm, Nat.le_of_eq hconnections.symm,
      fun e _ => by rw [hacceptor], fun e _ _ _ => by rw [hacceptor], fun e _ _ => by rw [hacceptor], fun e _ => ?_,
      fun e _ hl => ?_⟩
    · rw [hs']
      exact h.current
    · rw [hs']
      exact h.running
    · rw [hs']
      exact h.closed
    · rw [hacceptor]
      exact h.phase
    · by_cases hec : e = c
      · subst hec
        exact hself
      · rw [hothers e hec]
    · have hec : e ≠ c := by
        rintro rfl
        exact hother hl
      rw [hothers e hec]
  | discards c w _ _ _ _ hs' =>
    rw [hs']
    exact ⟨⟨h.current, h.running, h.closed, h.phase⟩, Nat.le_refl _, Nat.le_refl _, fun _ _ => rfl, fun _ _ _ _ => rfl,
      fun _ _ _ => rfl, fun _ _ => rfl, fun _ _ _ => rfl⟩
  | closes k _ hs' =>
    rw [hs']
    exact ⟨⟨h.current, h.running, h.closed, h.phase⟩, Nat.le_refl _, Nat.le_refl _, fun _ _ => rfl, fun _ _ _ _ => rfl,
      fun _ _ _ => rfl, fun _ _ => rfl, fun _ _ _ => rfl⟩

/-- As long as no `close` resets `_running`. -/
theorem Spins.run (h : s.Spins a) (hpinned : s.Pinned) (hbooks : s.Books)
    (hs' : ((system reuseport acceptorCount).starting s).ReachableWhen (fun s act => ¬ s.Stops act) s') :
    s'.Spins a ∧ Still (s.acceptor a).loop a s s' := by
  have ha := (hpinned.current _ _ h.current).1
  have hall : s'.Pinned ∧ s'.Spins a ∧ Still (s.acceptor a).loop a s s' := by
    refine System.ReachableWhen.inv (I := fun s' => s'.Pinned ∧ s'.Spins a ∧ Still (s.acceptor a).loop a s s') ?_ ?_ hs'
    · rintro s' rfl
      exact ⟨hpinned, h, .refl ..⟩
    · rintro s₁ act s₂ ⟨hpinned₁, hspins, hstill⟩ hok hst
      obtain ⟨hspins', hstill'⟩ := hspins.step hpinned₁ hok hst
      rw [hstill.loop a ha] at hstill'
      exact ⟨hpinned₁.step hst, hspins', hstill.trans hbooks hstill'⟩
  exact hall.2

end Callers

/-! ## Every other one suspends or ends -/

/-- Where the task of an accept loop goes on, with no connection to come. -/
def after (running closed : Bool) (connections : Nat) : Phase → Phase
  | .entering => .looking
  | .looking => if running then .accepting else .ended
  | .accepting => if closed then .failed true else .waiting
  | .creating => .adding connections
  | .adding _ => .looking
  | .failed listed => if running then if listed then .looking else .sleeping else .ended
  | p => p

/-- How far it is from there to where it suspends or ends. -/
def distance (running : Bool) : Phase → Nat
  | .creating => 5
  | .entering | .adding _ => 4
  | .accepting => if running then 1 else 3
  | .failed listed => if running && listed then 3 else 1
  | .looking => 2
  | _ => 0

section Callers

variable [DecidableEq Caller] (reuseport : Bool) (acceptorCount : Nat) {t : Caller}

theorem turn_after (hcurrent : s.current (s.acceptor a).loop = some a) (hruns : (s.acceptor a).phase.runs = true)
    (hlock : s.runningLock = none) : ∃ s', s.step reuseport acceptorCount (.turn a .suspends) = some s' ∧
      Ran a (after s.running (s.closed (s.acceptor a).socket) s.connections (s.acceptor a).phase) s s' := by
  have hstep : s.step reuseport acceptorCount (.turn a .suspends) = s.turn a .suspends (s.acceptor a).phase :=
    if_pos hcurrent
  rw [hstep]
  cases hp : (s.acceptor a).phase with
  | entering => exact ⟨_, rfl, ran_enter s a _⟩
  | looking => exact ⟨_, if_pos hlock, ran_move s a _⟩
  | accepting => exact ⟨_, rfl, ran_move s a _⟩
  | creating => exact ⟨_, rfl, ran_create s a _⟩
  | adding c => exact ⟨_, rfl, ran_add s a c _⟩
  | failed listed => exact ⟨_, if_pos hlock, ran_move s a _⟩
  | posted | waiting | sleeping | ended =>
    rw [hp] at hruns
    cases hruns

theorem after_distance {running closed : Bool} {c : Nat} {p : Phase} (hruns : p.runs = true)
    (hno : running = true → closed = true → p = .failed false) :
    (after running closed c p).runs = false ∨
      distance running (after running closed c p) < distance running p ∧ (running = true → closed = false) := by
  cases running with
  | true =>
    cases closed with
    | true =>
      rw [hno rfl rfl]
      exact .inl rfl
    | false =>
      cases p with
      | entering | looking | creating | adding => exact .inr ⟨by simp [distance, after], fun _ => rfl⟩
      | accepting => exact .inl rfl
      | failed listed =>
        cases listed with
        | true => exact .inr ⟨by simp [distance, after], fun _ => rfl⟩
        | false => exact .inl rfl
      | posted | waiting | sleeping | ended => cases hruns
  | false =>
    cases p with
    | entering | creating | adding => exact .inr ⟨by simp [distance, after], nofun⟩
    | looking | failed => exact .inl rfl
    | accepting =>
      cases closed with
      | true => exact .inr ⟨by simp [distance, after], nofun⟩
      | false => exact .inl rfl
    | posted | waiting | sleeping | ended => cases hruns

/-- With `_running_lock` free, by induction on the distance. -/
theorem exists_leave_of_free (k : Nat) : ∀ s : Sys Caller n, s.current (s.acceptor a).loop = some a → s.Pinned →
    s.runningLock = none → ¬ s.Spins a → distance s.running (s.acceptor a).phase ≤ k →
    ∃ s', ((system reuseport acceptorCount).starting s).ReachableWhen (fun s act => ¬ s.Stops act) s' ∧
      s'.current (s.acceptor a).loop ≠ some a := by
  induction k with
  | zero =>
    intro s hcurrent hpinned _ _ hk
    have hruns := (hpinned.current _ _ hcurrent).2.2
    cases hp : (s.acceptor a).phase with
    | failed listed =>
      rw [hp] at hk
      change (if s.running && listed then 3 else 1) ≤ 0 at hk
      split at hk <;> omega
    | accepting =>
      rw [hp] at hk
      change (if s.running then 1 else 3) ≤ 0 at hk
      split at hk <;> omega
    | entering | looking | creating | adding =>
      rw [hp] at hk
      exact absurd hk (Nat.not_succ_le_zero _)
    | posted | waiting | sleeping | ended =>
      rw [hp] at hruns
      cases hruns
  | succ k ih =>
    intro s hcurrent hpinned hlock hspins hk
    have hruns := (hpinned.current _ _ hcurrent).2.2
    obtain ⟨s₁, hst, hran⟩ := turn_after reuseport acceptorCount hcurrent hruns hlock
    have hreach : ((system reuseport acceptorCount).starting s).ReachableWhen (fun s act => ¬ s.Stops act) s₁ := by
      refine .step (a := .turn a .suspends) (.init rfl) ?_ hst
      rintro ⟨_, _, heq, -⟩
      cases heq
    have hno : s.running = true → s.closed (s.acceptor a).socket = true → (s.acceptor a).phase = .failed false := by
      intro hrun hclosed
      by_contra hphase
      exact hspins ⟨hcurrent, hrun, hclosed, hphase⟩
    rcases after_distance (c := s.connections) hruns hno with hleft | ⟨hless, hopen⟩
    · refine ⟨s₁, hreach, ?_⟩
      rw [hran.current, Function.update_self, hleft]
      exact nofun
    · by_cases hruns₁ : (s₁.acceptor a).phase.runs = true
      · have hcurrent₁ : s₁.current (s₁.acceptor a).loop = some a := by
          rw [hran.loop, hran.current, Function.update_self, ← hran.phase, if_pos hruns₁]
        have hspins₁ : ¬ s₁.Spins a := by
          intro hspins₁
          have hrun := hspins₁.running
          have hclosed := hspins₁.closed
          rw [hran.running] at hrun
          rw [hran.closed, hran.socket, hopen hrun] at hclosed
          cases hclosed
        have hk₁ : distance s₁.running (s₁.acceptor a).phase ≤ k := by
          rw [hran.running, hran.phase]
          omega
        obtain ⟨s', hs', hleft⟩ := ih s₁ hcurrent₁ (hpinned.step hst) (hran.runningLock.trans hlock) hspins₁ hk₁
        rw [hran.loop] at hleft
        exact ⟨s', hreach.append hs', hleft⟩
      · refine ⟨s₁, hreach, ?_⟩
        rw [hran.current, Function.update_self, ← hran.phase, if_neg hruns₁]
        exact nofun

/-- A `start` that holds the lock gives it back if it cannot bind. -/
theorem exists_unlock (hlocked : s.Locked) (hheld : s.runningLock = some t) :
    ∃ s', ((system reuseport acceptorCount).starting s).ReachableWhen (fun s act => ¬ s.Stops act) s' ∧
      s'.runningLock = none ∧ s'.running = s.running ∧ s'.current = s.current ∧ s'.acceptor = s.acceptor := by
  obtain ⟨reuse, k, hd⟩ := (hlocked.holder t).1 hheld
  have hstep : ∀ {s₁ s₂ : Sys Caller n} {reuse k}, s₁.caller t = .binding reuse k →
      ((system reuseport acceptorCount).starting s).ReachableWhen (fun s act => ¬ s.Stops act) s₁ →
      s₁.binding t false reuse k = s₂ →
      ((system reuseport acceptorCount).starting s).ReachableWhen (fun s act => ¬ s.Stops act) s₂ := by
    intro s₁ s₂ reuse k hd h₁ heq
    refine h₁.step (a := .advance t false) ?_ ?_
    · rintro ⟨u, flag, heq, hstopping⟩
      obtain rfl := (Action.advance.inj heq).1
      cases hd.symm.trans hstopping
    · show s₁.advance reuseport acceptorCount t false (s₁.caller t) = some s₂
      rw [hd, ← heq]
      rfl
  have hend : ∀ {s₁ : Sys Caller n} {k}, s₁.caller t = .binding false k →
      ((system reuseport acceptorCount).starting s).ReachableWhen (fun s act => ¬ s.Stops act) s₁ →
      s₁.running = s.running → s₁.current = s.current → s₁.acceptor = s.acceptor →
      ∃ s', ((system reuseport acceptorCount).starting s).ReachableWhen (fun s act => ¬ s.Stops act) s' ∧
        s'.runningLock = none ∧ s'.running = s.running ∧ s'.current = s.current ∧ s'.acceptor = s.acceptor :=
    fun hd h₁ hrunning hcurrent hacceptor => ⟨_, hstep hd h₁ rfl, rfl, hrunning, hcurrent, hacceptor⟩
  cases reuse with
  | false => exact hend hd (.init rfl) rfl rfl rfl
  | true => exact hend (Function.update_self ..) (hstep hd (.init rfl) rfl) rfl rfl rfl

theorem exists_leave (hcurrent : s.current (s.acceptor a).loop = some a) (hpinned : s.Pinned) (hlocked : s.Locked)
    (hspins : ¬ s.Spins a) :
    ∃ s', ((system reuseport acceptorCount).starting s).ReachableWhen (fun s act => ¬ s.Stops act) s' ∧
      s'.current (s.acceptor a).loop ≠ some a := by
  cases hlock : s.runningLock with
  | none => exact exists_leave_of_free reuseport acceptorCount _ s hcurrent hpinned hlock hspins (Nat.le_refl _)
  | some t =>
    obtain ⟨s₁, hs₁, hfree, hrunning, hcurrent₁, hacceptor⟩ :=
      exists_unlock reuseport acceptorCount hlocked hlock
    have hoff : s₁.running = false := by
      rw [hrunning]
      refine Bool.eq_false_iff.2 fun hrun => ?_
      cases (hlocked.running hrun).symm.trans hlock
    have hpinned₁ : s₁.Pinned := by
      refine System.ReachableWhen.inv (I := Sys.Pinned) ?_ ?_ hs₁
      · rintro s' rfl
        exact hpinned
      · exact fun s act s' hs _ hst => hs.step hst
    have hcurrent' : s₁.current (s₁.acceptor a).loop = some a := by
      rw [hacceptor, hcurrent₁]
      exact hcurrent
    obtain ⟨s', hs', hleft⟩ := exists_leave_of_free reuseport acceptorCount _ s₁ hcurrent'
      hpinned₁ hfree (fun hspins₁ => by cases hoff.symm.trans hspins₁.running) (Nat.le_refl _)
    rw [hacceptor] at hleft
    exact ⟨s', hs₁.append hs', hleft⟩

end Callers

end Sys

variable [DecidableEq Caller] {reuseport : Bool} {acceptorCount : Nat} {s : Sys Caller n} {a : Nat} {l : Fin n}

/-- As long as no `close` resets `_running`, an accept loop does not give its event
loop back exactly if it runs with a closed socket, and is not about to sleep. Then
no connection of the event loop comes to its end, no other accept loop of it goes
on, and no cancellation is run on it. -/
theorem spins_forever_iff (h : (system reuseport acceptorCount).Reachable s) (ha : s.current l = some a) :
    ((∀ s', ((system reuseport acceptorCount).starting s).ReachableWhen (fun s act => ¬ s.Stops act) s' →
        s'.current l = some a) ↔
      s.running = true ∧ s.closed (s.acceptor a).socket = true ∧ (s.acceptor a).phase ≠ .failed false) ∧
    (s.running = true ∧ s.closed (s.acceptor a).socket = true ∧ (s.acceptor a).phase ≠ .failed false →
      ∀ s', ((system reuseport acceptorCount).starting s).ReachableWhen (fun s act => ¬ s.Stops act) s' →
        (∀ c, c < s.connections → s.loopOf c = l → (s'.connection c).done = (s.connection c).done) ∧
        (∀ b, b < s.acceptors → (s.acceptor b).loop = l → b ≠ a → (s'.acceptor b).phase = (s.acceptor b).phase) ∧
        ∀ b, b < s.acceptors → (s.acceptor b).loop = l → (s'.acceptor b).mustCancel = (s.acceptor b).mustCancel) := by
  obtain ⟨hpinned, hlocked⟩ := pinned_of_reachable h
  have hbooks := books_of_reachable h
  obtain ⟨hlt, rfl, -⟩ := hpinned.current l a ha
  refine ⟨⟨fun hforever => ?_, fun ⟨hrun, hclosed, hphase⟩ s' hs' => ?_⟩, fun ⟨hrun, hclosed, hphase⟩ s' hs' => ?_⟩
  · by_contra hno
    obtain ⟨s', hs', hleft⟩ := Sys.exists_leave reuseport acceptorCount ha hpinned
      hlocked fun hspins => hno ⟨hspins.running, hspins.closed, hspins.phase⟩
    exact hleft (hforever s' hs')
  · have hspins : s.Spins a := ⟨ha, hrun, hclosed, hphase⟩
    obtain ⟨hspins', hstill⟩ := hspins.run hpinned hbooks hs'
    have hcurrent := hspins'.current
    rw [hstill.loop a hlt] at hcurrent
    exact hcurrent
  · have hspins : s.Spins a := ⟨ha, hrun, hclosed, hphase⟩
    obtain ⟨-, hstill⟩ := hspins.run hpinned hbooks hs'
    exact ⟨hstill.done, hstill.phase, hstill.cancel⟩

/-- The server is closed and started again before the first accept loop has begun. -/
theorem spins_forever_iff_restarted : ∃ s : Sys Unit 1, s.current 0 = some 0 ∧
    ((∀ s', ((system false 1).starting s).ReachableWhen (fun s act => ¬ s.Stops act) s' → s'.current 0 = some 0) ↔
      s.running = true ∧ s.closed (s.acceptor 0).socket = true ∧ (s.acceptor 0).phase ≠ .failed false) ∧
    (s.running = true ∧ s.closed (s.acceptor 0).socket = true ∧ (s.acceptor 0).phase ≠ .failed false) := by
  obtain ⟨s, hs, hcurrent, hspins⟩ := System.exists_reachable_of_run (M := system false 1)
    (s := (Sys.new (fun _ => ⟨0, 0, .posted, none, false, false⟩) fun _ => ⟨0, none, false, false, none⟩ : Sys Unit 1))
    [.start (), .advance () true, .advance () true, .advance () true, .advance () true, .advance () true,
      .advance () true, .close (), .advance () true, .advance () true, .advance () true, .advance () true,
      .advance () true, .advance () true, .advance () true, .advance () true, .advance () true, .advance () true,
      .advance () true, .advance () true, .start (), .advance () true, .advance () true, .advance () true,
      .advance () true, .advance () true, .advance () true, .begin 0, .turn 0 .suspends, .turn 0 .suspends]
    (p := fun s => s.current 0 = some 0 ∧
      s.running = true ∧ s.closed (s.acceptor 0).socket = true ∧ (s.acceptor 0).phase ≠ .failed false)
    ⟨_, _, rfl⟩ (by decide +kernel)
  exact ⟨s, hcurrent, (spins_forever_iff hs hcurrent).1, hspins⟩

end Multiloop.ConnectionPinningServer
