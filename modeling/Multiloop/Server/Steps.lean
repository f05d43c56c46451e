import Multiloop.Server.Pinning

/-!
# What a step of the server does

A step of a caller leaves the tasks of the accept loops where they are
(`Called`), and a step of such a task the callers (`Ran`).
-/

namespace Multiloop.ConnectionPinningServer

variable {Caller : Type} {n : Nat}

namespace Sys

/-- What a step of caller `t` leaves alone. -/
structure Called (t : Caller) (s s' : Sys Caller n) : Prop where
  others : ∀ u, u ≠ t → s'.caller u = s.caller u
  /-- The sets are taken out under the last lock of `close`. -/
  tasks : s.caller t = .snapshot ∨ s'.workerConnTasks = s.workerConnTasks
  running : s'.running = s.running ∨ s.caller t = .stopping ∧ s'.running = false ∨
    (∃ reuse k, s.caller t = .binding reuse k) ∧ s'.running = true
  members : s'.members = s.members
  sets : s'.sets = s.sets
  current : s'.current = s.current
  loopClosed : s'.loopClosed = s.loopClosed
  connections : s'.connections = s.connections
  closed : ∀ i, s.closed i = true → s'.closed i = true
  /-- A future may be cancelled. -/
  acceptor : ∀ a, a < s.acceptors → ∃ b, s'.acceptor a = { s.acceptor a with cancelled := b }
  acceptors : s.acceptors ≤ s'.acceptors
  posted : ∀ a, s.acceptors ≤ a → a < s'.acceptors → (s'.acceptor a).phase = .posted
  connection : ∀ c, ∃ b, s'.connection c = { s.connection c with cancelled := b } ∧
    ((s.connection c).cancelled ≠ none → b ≠ none)

/-- A step of the task of accept loop `a`, to phase `p`. -/
structure Ran (a : Nat) (p : Phase) (s s' : Sys Caller n) : Prop where
  caller : s'.caller = s.caller
  running : s'.running = s.running
  runningLock : s'.runningLock = s.runningLock
  serverSockets : s'.serverSockets = s.serverSockets
  closed : s'.closed = s.closed
  sockets : s'.sockets = s.sockets
  acceptors : s'.acceptors = s.acceptors
  loopClosed : s'.loopClosed = s.loopClosed
  others : ∀ b, b ≠ a → s'.acceptor b = s.acceptor b
  loop : (s'.acceptor a).loop = (s.acceptor a).loop
  socket : (s'.acceptor a).socket = (s.acceptor a).socket
  phase : (s'.acceptor a).phase = p
  current : s'.current = Function.update s.current (s.acceptor a).loop (if p.runs then some a else none)

section Callers

variable [DecidableEq Caller] {s s' : Sys Caller n} {t : Caller} {flag reuseport : Bool} {acceptorCount : Nat}

/-- A caller goes on, and changes what the accept loops and connections are not part of. -/
theorem Called.goto (d : Doing) (htasks : s.caller t = .snapshot ∨ s'.workerConnTasks = s.workerConnTasks)
    (hrunning : s'.running = s.running ∨ s.caller t = .stopping ∧ s'.running = false ∨
      (∃ reuse k, s.caller t = .binding reuse k) ∧ s'.running = true)
    (hmembers : s'.members = s.members) (hsets : s'.sets = s.sets) (hcurrent : s'.current = s.current)
    (hloopClosed : s'.loopClosed = s.loopClosed) (hacceptor : s'.acceptor = s.acceptor)
    (hacceptors : s'.acceptors = s.acceptors) (hconnection : s'.connection = s.connection)
    (hconnections : s'.connections = s.connections) (hclosed : ∀ i, s.closed i = true → s'.closed i = true)
    (hcaller : s'.caller = s.caller) : Called t s (s'.goto t d) where
  others u hu := by
    show Function.update s'.caller t d u = s.caller u
    rw [Function.update_of_ne hu, hcaller]
  tasks := htasks
  running := hrunning
  members := hmembers
  sets := hsets
  current := hcurrent
  loopClosed := hloopClosed
  connections := hconnections
  closed := hclosed
  acceptor a _ := ⟨(s.acceptor a).cancelled, congrFun hacceptor a⟩
  acceptors := Nat.le_of_eq hacceptors.symm
  posted a ha ha' := absurd (Nat.lt_of_lt_of_eq ha' hacceptors) (Nat.not_lt.2 ha)
  connection c := ⟨(s.connection c).cancelled, congrFun hconnection c, id⟩

theorem Called.rest (d : Doing) : Called t s (s.goto t d) :=
  .goto d (.inr rfl) (.inl rfl) rfl rfl rfl rfl rfl rfl rfl rfl (fun _ => id) rfl

theorem called_binding {reuse : Bool} {k : Nat} (hd : s.caller t = .binding reuse k) :
    Called t s (s.binding t flag reuse k) := by
  have hmore : ∀ i, s.closed i = true → (s.closed i || decide (i ∈ s.serverSockets)) = true := by
    intro i hi
    rw [hi, Bool.true_or]
  cases reuse with
  | true =>
    unfold binding
    dsimp only
    split
    · split
      · exact .goto _ (.inr rfl) (.inl rfl) rfl rfl rfl rfl rfl rfl rfl rfl (fun _ => id) rfl
      · exact .goto _ (.inr rfl) (.inr (.inr ⟨⟨_, _, hd⟩, rfl⟩)) rfl rfl rfl rfl rfl rfl rfl rfl (fun _ => id) rfl
    · exact .goto _ (.inr rfl) (.inl rfl) rfl rfl rfl rfl rfl rfl rfl rfl hmore rfl
  | false =>
    unfold binding
    dsimp only
    split
    · exact .goto _ (.inr rfl) (.inr (.inr ⟨⟨_, _, hd⟩, rfl⟩)) rfl rfl rfl rfl rfl rfl rfl rfl (fun _ => id) rfl
    · exact .goto _ (.inr rfl) (.inl rfl) rfl rfl rfl rfl rfl rfl rfl rfl (fun _ => id) rfl

theorem called_launch {l : Fin n} {socket : Nat} {jobs : List (Nat × Nat)} :
    Called t s ((s.launch l socket).goto t (.launching jobs)) where
  others u hu := Function.update_of_ne hu ..
  tasks := .inr rfl
  running := .inl rfl
  members := rfl
  sets := rfl
  current := rfl
  loopClosed := rfl
  connections := rfl
  closed _ := id
  acceptor a ha := ⟨(s.acceptor a).cancelled, Function.update_of_ne (Nat.ne_of_lt ha) ..⟩
  acceptors := Nat.le_succ _
  posted a ha ha' := by
    obtain rfl : a = s.acceptors := Nat.le_antisymm (Nat.lt_succ_iff.1 ha') ha
    show (Function.update s.acceptor s.acceptors _ s.acceptors).phase = .posted
    rw [Function.update_self]
  connection c := ⟨(s.connection c).cancelled, rfl, id⟩

theorem called_launching {jobs : List (Nat × Nat)} : Called t s (s.launching t flag jobs) := by
  unfold launching
  split
  · exact .rest _
  · split
    · split
      · exact called_launch
      · exact .rest _
    · exact .rest _

theorem called_cancelFuture {a : Nat} {d : Doing} : Called t s ((s.cancelFuture a).goto t d) where
  others u hu := Function.update_of_ne hu ..
  tasks := .inr rfl
  running := .inl rfl
  members := rfl
  sets := rfl
  current := rfl
  loopClosed := rfl
  connections := rfl
  closed _ := id
  acceptor b _ := by
    by_cases hba : b = a
    · subst hba
      exact ⟨true, Function.update_self ..⟩
    · exact ⟨(s.acceptor b).cancelled, Function.update_of_ne hba ..⟩
  acceptors := Nat.le_refl _
  posted a ha ha' := absurd ha' (Nat.not_lt.2 ha)
  connection c := ⟨(s.connection c).cancelled, rfl, id⟩

theorem called_cancelConnection {c : Nat} {d : Doing} : Called t s ((s.cancelConnection c).goto t d) := by
  refine ⟨fun u hu => Function.update_of_ne hu .., .inr rfl, .inl rfl, rfl, rfl, rfl, rfl, rfl, fun _ => id,
    fun a _ => ⟨(s.acceptor a).cancelled, rfl⟩, Nat.le_refl _, fun a ha ha' => absurd ha' (Nat.not_lt.2 ha), fun b => ?_⟩
  by_cases hbc : b = c
  · subst hbc
    exact ⟨_, Function.update_self .., fun _ => nofun⟩
  · exact ⟨(s.connection b).cancelled, Function.update_of_ne hbc .., id⟩

theorem called_of_advance {d : Doing} (hd : s.caller t = d) (hst : s.advance reuseport acceptorCount t flag d = some s') :
    Called t s s' := by
  cases d with
  | idle => cases hst
  | checking =>
    obtain ⟨-, heq⟩ := Option.ite_none_right_eq_some.1 hst
    cases heq
    exact .rest _
  | opening =>
    obtain ⟨-, heq⟩ := Option.ite_none_right_eq_some.1 hst
    split at heq
    · cases heq
      exact .rest _
    · cases heq
      exact .goto _ (.inr rfl) (.inl rfl) rfl rfl rfl rfl rfl rfl rfl rfl (fun _ => id) rfl
  | binding reuse k =>
    cases hst
    exact called_binding hd
  | planning reuse =>
    cases reuse with
    | true =>
      cases hst
      exact .rest _
    | false =>
      simp only [advance] at hst
      split at hst
      · cases hst
        exact .rest _
      · cases hst
        exact .rest _
  | launching jobs =>
    obtain ⟨-, heq⟩ := Option.ite_none_right_eq_some.1 hst
    cases heq
    exact called_launching
  | stopping =>
    obtain ⟨-, heq⟩ := Option.ite_none_right_eq_some.1 hst
    cases heq
    exact .goto _ (.inr rfl) (.inr (.inl ⟨hd, rfl⟩)) rfl rfl rfl rfl rfl rfl rfl rfl (fun _ => id) rfl
  | taking =>
    obtain ⟨-, heq⟩ := Option.ite_none_right_eq_some.1 hst
    cases heq
    exact .goto _ (.inr rfl) (.inl rfl) rfl rfl rfl rfl rfl rfl rfl rfl (fun _ => id) rfl
  | cancelling futures =>
    cases futures with
    | nil =>
      cases hst
      exact .rest _
    | cons a futures =>
      cases hst
      exact called_cancelFuture
  | listing =>
    cases hst
    exact .rest _
  | closing sockets =>
    cases sockets with
    | nil =>
      cases hst
      exact .rest _
    | cons i sockets =>
      cases hst
      refine .goto _ (.inr rfl) (.inl rfl) rfl rfl rfl rfl rfl rfl rfl rfl (fun j hj => ?_) rfl
      show Function.update s.closed i true j = true
      by_cases hji : j = i
      · subst hji
        rw [Function.update_self]
      · rw [Function.update_of_ne hji]
        exact hj
  | snapshot =>
    cases hst
    exact .goto _ (.inl hd) (.inl rfl) rfl rfl rfl rfl rfl rfl rfl rfl (fun _ => id) rfl
  | forgetting | forgettingLast =>
    cases hst
    exact .goto _ (.inr rfl) (.inl rfl) rfl rfl rfl rfl rfl rfl rfl rfl (fun _ => id) rfl
  | draining =>
    simp only [advance, Option.some.injEq] at hst
    split at hst
    · cases hst
      exact .rest _
    · cases hst
      exact .rest _
  | posting connections =>
    cases connections with
    | nil =>
      cases hst
      exact .rest _
    | cons c connections =>
      cases hst
      exact called_cancelConnection

end Callers

/-! ## The accept loops -/

variable {s s' : Sys Caller n} {a : Nat} {r : Accept} {p : Phase}

theorem ran_move (s : Sys Caller n) (a : Nat) (p : Phase) : Ran a p s (s.move a p) where
  caller := rfl
  running := rfl
  runningLock := rfl
  serverSockets := rfl
  closed := rfl
  sockets := rfl
  acceptors := rfl
  loopClosed := rfl
  others b hb := Function.update_of_ne hb ..
  loop := by
    show (Function.update s.acceptor a _ a).loop = _
    rw [Function.update_self]
  socket := by
    show (Function.update s.acceptor a _ a).socket = _
    rw [Function.update_self]
  phase := by
    show (Function.update s.acceptor a _ a).phase = p
    rw [Function.update_self]
  current := rfl

theorem enter_same (s : Sys Caller n) (a : Nat) : ∃ workerConnTasks sets w, s.enter a =
    { s with workerConnTasks, sets, acceptor := Function.update s.acceptor a { s.acceptor a with tasks := some w } } := by
  unfold enter
  dsimp only
  split
  · exact ⟨s.workerConnTasks, s.sets, _, rfl⟩
  · exact ⟨_, _, _, rfl⟩

/-- A set stays where it is. -/
theorem enter_keeps (s : Sys Caller n) (a : Nat) {l : Fin n} {w : Nat} (hw : s.workerConnTasks l = some w) :
    (s.enter a).workerConnTasks l = some w := by
  unfold enter
  dsimp only
  split
  · exact hw
  · rename_i hnone
    show Function.update s.workerConnTasks (s.acceptor a).loop (some s.sets) l = some w
    have hl : l ≠ (s.acceptor a).loop := by
      rintro rfl
      cases hw.symm.trans hnone
    rw [Function.update_of_ne hl]
    exact hw

theorem ran_enter (s : Sys Caller n) (a : Nat) (p : Phase) : Ran a p s ((s.enter a).move a p) := by
  obtain ⟨workerConnTasks, sets, w, henter⟩ := s.enter_same a
  have hself : (s.enter a).acceptor a = { s.acceptor a with tasks := some w } := by
    rw [henter]
    exact Function.update_self ..
  have hother : ∀ b, b ≠ a → (s.enter a).acceptor b = s.acceptor b := by
    intro b hb
    rw [henter]
    exact Function.update_of_ne hb ..
  have hran := ran_move (s.enter a) a p
  have hloop := hran.loop
  have hsocket := hran.socket
  have hcurrent := hran.current
  rw [hself] at hloop hsocket hcurrent
  refine ⟨?_, ?_, ?_, ?_, ?_, ?_, ?_, ?_, fun b hb => (hran.others b hb).trans (hother b hb), hloop, hsocket, hran.phase,
    hcurrent.trans (by rw [henter])⟩
  all_goals
    rw [henter]
    rfl

theorem ran_create (s : Sys Caller n) (a : Nat) (p : Phase) : Ran a p s ((s.create a).move a p) := by
  have hran := ran_move (s.create a) a p
  exact ⟨rfl, rfl, rfl, rfl, rfl, rfl, rfl, rfl, hran.others, hran.loop, hran.socket, hran.phase, hran.current⟩

theorem add_same (s : Sys Caller n) (a c : Nat) :
    ∃ members connection, s.add a c = { s with members, connection } := by
  unfold add
  split
  · exact ⟨_, _, rfl⟩
  · exact ⟨s.members, s.connection, rfl⟩

theorem add_eq (s : Sys Caller n) (a c : Nat) {w : Nat} (hw : (s.acceptor a).tasks = some w) :
    s.add a c =
      { s with
        members := Function.update s.members w (s.members w ++ [c])
        connection := Function.update s.connection c
          { s.connection c with
            tasks := some w
            strayed := decide (s.workerConnTasks (s.acceptor a).loop ≠ some w) } } := by
  unfold add
  rw [hw]

theorem add_connection (s : Sys Caller n) (a c : Nat) {w : Nat} (hw : (s.acceptor a).tasks = some w) :
    (s.add a c).connection c =
      { s.connection c with
        tasks := some w
        strayed := decide (s.workerConnTasks (s.acceptor a).loop ≠ some w) } := by
  rw [add_eq s a c hw]
  exact Function.update_self ..

theorem ran_add (s : Sys Caller n) (a c : Nat) (p : Phase) : Ran a p s ((s.add a c).move a p) := by
  obtain ⟨members, connection, hadd⟩ := s.add_same a c
  have hran := ran_move (s.add a c) a p
  rw [hadd] at hran ⊢
  exact ⟨rfl, rfl, rfl, rfl, rfl, rfl, rfl, rfl, hran.others, hran.loop, hran.socket, hran.phase, hran.current⟩

/-- Where a task of an accept loop goes on, if it does nothing else. -/
inductive Next : (running closed : Bool) → Phase → Phase → Prop
  | looks (closed : Bool) : Next true closed .looking .accepting
  | stops (closed : Bool) : Next false closed .looking .ended
  | accepts (running : Bool) (r : Accept) : Next running false .accepting (accept r)
  /-- `EBADF`. -/
  | rejected (running : Bool) : Next running true .accepting (.failed true)
  | retries (closed : Bool) : Next true closed (.failed true) .looking
  | sleeps (closed : Bool) : Next true closed (.failed false) .sleeping
  | breaks (closed listed : Bool) : Next false closed (.failed listed) .ended

/-- What the task of accept loop `a` does from a phase on. -/
inductive Turned (s : Sys Caller n) (a : Nat) : Phase → Sys Caller n → Prop
  | enters : Turned s a .entering ((s.enter a).move a .looking)
  | creates : Turned s a .creating ((s.create a).move a (.adding s.connections))
  | adds (c : Nat) : Turned s a (.adding c) ((s.add a c).move a .looking)
  | goes {p q : Phase} (h : Next s.running (s.closed (s.acceptor a).socket) p q) : Turned s a p (s.move a q)

theorem turned_of_turn (hst : s.turn a r p = some s') : Turned s a p s' := by
  cases p with
  | entering =>
    cases hst
    exact .enters
  | looking =>
    obtain ⟨-, heq⟩ := Option.ite_none_right_eq_some.1 hst
    cases heq
    refine .goes ?_
    cases s.running with
    | true => exact .looks _
    | false => exact .stops _
  | accepting =>
    cases hst
    refine .goes ?_
    cases s.closed (s.acceptor a).socket with
    | true => exact .rejected _
    | false => exact .accepts _ r
  | creating =>
    cases hst
    exact .creates
  | adding c =>
    cases hst
    exact .adds c
  | failed listed =>
    obtain ⟨-, heq⟩ := Option.ite_none_right_eq_some.1 hst
    cases heq
    refine .goes ?_
    cases s.running with
    | true =>
      cases listed with
      | true => exact .retries _
      | false => exact .sleeps _
    | false => exact .breaks _ listed
  | posted | waiting | sleeping | ended => cases hst

theorem Turned.ran (h : Turned s a p s') : ∃ q, Ran a q s s' := by
  cases h with
  | enters => exact ⟨_, ran_enter s a _⟩
  | creates => exact ⟨_, ran_create s a _⟩
  | adds c => exact ⟨_, ran_add s a c _⟩
  | goes => exact ⟨_, ran_move s a _⟩

theorem accept_ne_adding (r : Accept) (c : Nat) : accept r ≠ .adding c := by
  cases r with
  | connection => exact nofun
  | suspends => exact nofun
  | fault f => cases f <;> exact nofun

/-- A task that was suspended goes on. -/
theorem moved_of_resume (hst : s.resume a r p = some s') :
    (p = .waiting ∨ p = .sleeping) ∧ ∃ q, s' = s.move a q ∧ ∀ c, q ≠ .adding c := by
  cases p with
  | waiting =>
    simp only [resume] at hst
    split at hst
    · cases hst
      exact ⟨.inl rfl, _, rfl, fun _ => nofun⟩
    · split at hst
      · cases hst
      · cases hst
        exact ⟨.inl rfl, _, rfl, accept_ne_adding r⟩
  | sleeping =>
    cases hst
    refine ⟨.inr rfl, _, rfl, fun c => ?_⟩
    split <;> exact nofun
  | _ => cases hst

/-! ## What holds of the loops and of the lock -/

/-- An event loop runs the task of an accept loop of its own. -/
structure Pinned (s : Sys Caller n) : Prop where
  current : ∀ l a, s.current l = some a → a < s.acceptors ∧ (s.acceptor a).loop = l ∧ (s.acceptor a).phase.runs = true
  runs : ∀ a, a < s.acceptors → (s.acceptor a).phase.runs = true → s.current (s.acceptor a).loop = some a

/-- `_running_lock` is held for more than one step to bind the sockets. -/
structure Locked (s : Sys Caller n) : Prop where
  running : s.running = true → s.runningLock = none
  holder : ∀ t, s.runningLock = some t ↔ ∃ reuse k, s.caller t = .binding reuse k

theorem Pinned.called {t : Caller} (h : s.Pinned) (hcalled : Called t s s') : s'.Pinned := by
  refine ⟨fun l b hb => ?_, fun b hb hruns => ?_⟩
  · rw [hcalled.current] at hb
    obtain ⟨hlt, hloop, hruns⟩ := h.current l b hb
    obtain ⟨x, hx⟩ := hcalled.acceptor b hlt
    rw [hx]
    exact ⟨Nat.lt_of_lt_of_le hlt hcalled.acceptors, hloop, hruns⟩
  · rw [hcalled.current]
    by_cases hlt : b < s.acceptors
    · obtain ⟨x, hx⟩ := hcalled.acceptor b hlt
      rw [hx] at hruns ⊢
      exact h.runs b hlt hruns
    · rw [hcalled.posted b (Nat.not_lt.1 hlt) hb] at hruns
      cases hruns

/-- The task runs, or its event loop runs nothing. -/
theorem Pinned.ran (h : s.Pinned) (ha : a < s.acceptors)
    (hfree : s.current (s.acceptor a).loop = none ∨ s.current (s.acceptor a).loop = some a) (hran : Ran a p s s') :
    s'.Pinned := by
  refine ⟨fun l b hb => ?_, fun b hb hruns => ?_⟩
  · rw [hran.current] at hb
    rw [hran.acceptors]
    by_cases hl : l = (s.acceptor a).loop
    · subst hl
      rw [Function.update_self] at hb
      split at hb
      · rename_i hp
        cases hb
        exact ⟨ha, hran.loop, by rw [hran.phase]; exact hp⟩
      · cases hb
    · rw [Function.update_of_ne hl] at hb
      obtain ⟨hlt, hloop, hruns⟩ := h.current l b hb
      have hba : b ≠ a := by
        rintro rfl
        exact hl hloop.symm
      rw [hran.others b hba]
      exact ⟨hlt, hloop, hruns⟩
  · rw [hran.acceptors] at hb
    rw [hran.current]
    by_cases hba : b = a
    · subst hba
      rw [hran.phase] at hruns
      rw [hran.loop, Function.update_self, if_pos hruns]
    · rw [hran.others b hba] at hruns ⊢
      have hcur := h.runs b hb hruns
      have hloop : (s.acceptor b).loop ≠ (s.acceptor a).loop := by
        intro hl
        rw [hl] at hcur
        rcases hfree with hnone | hsome
        · cases hnone.symm.trans hcur
        · exact hba (Option.some.inj (hcur.symm.trans hsome))
      rw [Function.update_of_ne hloop]
      exact hcur

/-- What else changes of the tasks that run is nothing. -/
theorem Pinned.congr (h : s.Pinned) (hcurrent : s'.current = s.current) (hacceptors : s'.acceptors = s.acceptors)
    (hacceptor : ∀ a, (s'.acceptor a).loop = (s.acceptor a).loop ∧ (s'.acceptor a).phase = (s.acceptor a).phase) :
    s'.Pinned := by
  refine ⟨fun l b hb => ?_, fun b hb hruns => ?_⟩
  · rw [hcurrent] at hb
    rw [hacceptors, (hacceptor b).1, (hacceptor b).2]
    exact h.current l b hb
  · rw [hacceptors] at hb
    rw [(hacceptor b).2] at hruns
    rw [hcurrent, (hacceptor b).1]
    exact h.runs b hb hruns

theorem Locked.congr (h : s.Locked) (hrunning : s'.running = s.running) (hlock : s'.runningLock = s.runningLock)
    (hcaller : s'.caller = s.caller) : s'.Locked := by
  refine ⟨fun hrun => ?_, fun t => ?_⟩
  · rw [hrunning] at hrun
    rw [hlock]
    exact h.running hrun
  · rw [hlock, hcaller]
    exact h.holder t

section Callers

variable [DecidableEq Caller] {t : Caller} {d : Doing} {flag reuseport : Bool} {acceptorCount : Nat}

/-- A caller that does not bind goes on. -/
theorem Locked.goto (h : s.Locked) (hrunning : s'.running = true → s.runningLock = none)
    (hlock : s'.runningLock = s.runningLock) (hcaller : s'.caller = s.caller)
    (hfrom : ∀ reuse k, s.caller t ≠ .binding reuse k) (hto : ∀ reuse k, d ≠ .binding reuse k) : (s'.goto t d).Locked := by
  refine ⟨fun hrun => hlock.trans (hrunning hrun), fun u => ?_⟩
  show s'.runningLock = some u ↔ ∃ reuse k, Function.update s'.caller t d u = .binding reuse k
  rw [hlock, hcaller, h.holder]
  by_cases hut : u = t
  · subst hut
    rw [Function.update_self]
    exact ⟨fun ⟨reuse, k, hd⟩ => absurd hd (hfrom reuse k), fun ⟨reuse, k, hd⟩ => absurd hd (hto reuse k)⟩
  · rw [Function.update_of_ne hut]

/-- A caller that binds holds the lock, and gives it back when it does not go on to bind. -/
theorem Locked.binding (h : s.Locked) {reuse : Bool} {k : Nat} (hd : s.caller t = .binding reuse k)
    (hcaller : s'.caller = s.caller) (hgoes : s'.running = s.running ∧ s'.runningLock = s.runningLock ∧
      (∃ reuse k, d = .binding reuse k) ∨ s'.runningLock = none ∧ ∀ reuse k, d ≠ .binding reuse k) :
    (s'.goto t d).Locked := by
  have hheld : s.runningLock = some t := (h.holder t).2 ⟨reuse, k, hd⟩
  rcases hgoes with ⟨hrunning, hlock, hto⟩ | ⟨hlock, hto⟩
  · refine ⟨fun hrun => ?_, fun u => ?_⟩
    · change s'.running = true at hrun
      rw [hrunning] at hrun
      exact hlock.trans (h.running hrun)
    · show s'.runningLock = some u ↔ ∃ reuse k, Function.update s'.caller t d u = .binding reuse k
      rw [hlock, hcaller, h.holder]
      by_cases hut : u = t
      · subst hut
        rw [Function.update_self]
        exact iff_of_true ⟨reuse, k, hd⟩ hto
      · rw [Function.update_of_ne hut]
  · refine ⟨fun _ => hlock, fun u => ?_⟩
    show s'.runningLock = some u ↔ ∃ reuse k, Function.update s'.caller t d u = .binding reuse k
    rw [hlock, hcaller]
    by_cases hut : u = t
    · subst hut
      rw [Function.update_self]
      exact iff_of_false nofun fun ⟨reuse, k, hd⟩ => hto reuse k hd
    · rw [Function.update_of_ne hut, ← h.holder u, hheld]
      exact iff_of_false nofun fun heq => hut (Option.some.inj heq).symm

theorem Locked.advance (h : s.Locked) (hd : s.caller t = d) (hst : s.advance reuseport acceptorCount t flag d = some s') :
    s'.Locked := by
  -- What a caller does that neither binds nor is about to.
  have hrest : ∀ {s₁ : Sys Caller n} {d' : Doing}, (s₁.running = true → s.runningLock = none) →
      s₁.runningLock = s.runningLock → s₁.caller = s.caller → (∀ reuse k, d ≠ .binding reuse k) →
      (∀ reuse k, d' ≠ .binding reuse k) → (s₁.goto t d').Locked := by
    intro s₁ d' hrunning hlock hcaller hfrom hto
    refine h.goto hrunning hlock hcaller (fun reuse k => ?_) hto
    rw [hd]
    exact hfrom reuse k
  cases d with
  | idle => cases hst
  | checking =>
    obtain ⟨-, heq⟩ := Option.ite_none_right_eq_some.1 hst
    cases heq
    refine hrest h.running rfl rfl (fun _ _ => nofun) fun reuse k => ?_
    split <;> exact nofun
  | opening =>
    obtain ⟨hfree, heq⟩ := Option.ite_none_right_eq_some.1 hst
    split at heq
    · cases heq
      exact hrest h.running rfl rfl (fun _ _ => nofun) fun _ _ => nofun
    · rename_i hoff
      cases heq
      refine ⟨fun hrun => absurd hrun hoff, fun u => ?_⟩
      show some t = some u ↔ ∃ reuse k, Function.update s.caller t _ u = .binding reuse k
      by_cases hut : u = t
      · subst hut
        rw [Function.update_self]
        exact iff_of_true rfl ⟨_, _, rfl⟩
      · rw [Function.update_of_ne hut, ← h.holder u, hfree]
        exact iff_of_false (fun heq => hut (Option.some.inj heq).symm) nofun
  | binding reuse k =>
    cases hst
    cases reuse with
    | true =>
      unfold Sys.binding
      dsimp only
      split
      · split
        · exact h.binding hd rfl (.inl ⟨rfl, rfl, _, _, rfl⟩)
        · exact h.binding hd rfl (.inr ⟨rfl, fun _ _ => nofun⟩)
      · exact h.binding hd rfl (.inl ⟨rfl, rfl, _, _, rfl⟩)
    | false =>
      unfold Sys.binding
      dsimp only
      split
      · exact h.binding hd rfl (.inr ⟨rfl, fun _ _ => nofun⟩)
      · exact h.binding hd rfl (.inr ⟨rfl, fun _ _ => nofun⟩)
  | planning reuse =>
    cases reuse with
    | true =>
      cases hst
      exact hrest h.running rfl rfl (fun _ _ => nofun) fun _ _ => nofun
    | false =>
      simp only [Sys.advance] at hst
      split at hst
      · cases hst
        exact hrest h.running rfl rfl (fun _ _ => nofun) fun _ _ => nofun
      · cases hst
        exact hrest h.running rfl rfl (fun _ _ => nofun) fun _ _ => nofun
  | launching jobs =>
    obtain ⟨-, heq⟩ := Option.ite_none_right_eq_some.1 hst
    cases heq
    unfold launching
    split
    · exact hrest h.running rfl rfl (fun _ _ => nofun) fun _ _ => nofun
    · split
      · split
        · exact hrest h.running rfl rfl (fun _ _ => nofun) fun _ _ => nofun
        · exact hrest h.running rfl rfl (fun _ _ => nofun) fun _ _ => nofun
      · exact hrest h.running rfl rfl (fun _ _ => nofun) fun _ _ => nofun
  | stopping =>
    obtain ⟨-, heq⟩ := Option.ite_none_right_eq_some.1 hst
    cases heq
    exact hrest nofun rfl rfl (fun _ _ => nofun) fun _ _ => nofun
  | taking =>
    obtain ⟨-, heq⟩ := Option.ite_none_right_eq_some.1 hst
    cases heq
    exact hrest h.running rfl rfl (fun _ _ => nofun) fun _ _ => nofun
  | cancelling futures | closing sockets =>
    cases ‹List Nat› with
    | nil =>
      cases hst
      exact hrest h.running rfl rfl (fun _ _ => nofun) fun _ _ => nofun
    | cons =>
      cases hst
      exact hrest h.running rfl rfl (fun _ _ => nofun) fun _ _ => nofun
  | posting connections =>
    cases connections with
    | nil =>
      cases hst
      exact hrest h.running rfl rfl (fun _ _ => nofun) fun _ _ => nofun
    | cons c connections =>
      cases hst
      unfold cancelConnection
      split
      · exact hrest h.running rfl rfl (fun _ _ => nofun) fun _ _ => nofun
      · exact hrest h.running rfl rfl (fun _ _ => nofun) fun _ _ => nofun
  | listing | forgetting | forgettingLast | snapshot =>
    cases hst
    exact hrest h.running rfl rfl (fun _ _ => nofun) fun _ _ => nofun
  | draining =>
    simp only [Sys.advance, Option.some.injEq] at hst
    split at hst
    · cases hst
      exact hrest h.running rfl rfl (fun _ _ => nofun) fun _ _ => nofun
    · cases hst
      exact hrest h.running rfl rfl (fun _ _ => nofun) fun _ _ => nofun

end Callers

/-- What a step of the server is. -/
inductive Steps [DecidableEq Caller] (reuseport : Bool) (acceptorCount : Nat) (s s' : Sys Caller n) :
    Action Caller n → Prop
  | calls (t : Caller) (d : Doing) (hidle : s.caller t = .idle) (hd : d = .checking ∨ d = .stopping)
    (hs' : s' = s.goto t d) {act : Action Caller n} : Steps reuseport acceptorCount s s' act
  | advances (t : Caller) (flag : Bool) (hst : s.advance reuseport acceptorCount t flag (s.caller t) = some s') :
    Steps reuseport acceptorCount s s' (.advance t flag)
  | begins (a : Nat) (ha : a < s.acceptors) (hposted : (s.acceptor a).phase = .posted) (hfree : s.free a = true)
    (hs' : s' = s.move a .entering) : Steps reuseport acceptorCount s s' (.begin a)
  | cancels (a : Nat) (ha : a < s.acceptors) (hcancelled : (s.acceptor a).cancelled = true)
    (hbegun : (s.acceptor a).phase ≠ .posted) (hfree : s.free a = true)
    (hs' : s' =
      { s with acceptor := Function.update s.acceptor a { s.acceptor a with cancelled := false, mustCancel := true } }) :
    Steps reuseport acceptorCount s s' (.cancel a)
  | resumes (a : Nat) (r : Accept) (ha : a < s.acceptors) (hfree : s.free a = true)
    (hst : s.resume a r (s.acceptor a).phase = some s') : Steps reuseport acceptorCount s s' (.resume a r)
  | turns (a : Nat) (r : Accept) (hcurrent : s.current (s.acceptor a).loop = some a)
    (hst : s.turn a r (s.acceptor a).phase = some s') : Steps reuseport acceptorCount s s' (.turn a r)
  | finishes (c : Nat) (hc : c < s.connections) (hdone : (s.connection c).done = false)
    (hfree : s.free (s.connection c).acceptor = true)
    (hs' : s' = { s with connection := Function.update s.connection c { s.connection c with done := true } }) :
    Steps reuseport acceptorCount s s' (.finish c)
  | discards (c w : Nat) (hc : c < s.connections) (hdone : (s.connection c).done = true)
    (hfree : s.free (s.connection c).acceptor = true) (hw : (s.connection c).tasks = some w)
    (hs' : s' = { s with members := Function.update s.members w ((s.members w).filter (· ≠ c)) }) :
    Steps reuseport acceptorCount s s' (.discard c)
  | closes (l : Fin n) (hidle : s.current l = none)
    (hs' : s' = { s with loopClosed := Function.update s.loopClosed l true }) :
    Steps reuseport acceptorCount s s' (.closeLoop l)

variable [DecidableEq Caller] {reuseport : Bool} {acceptorCount : Nat} {act : Action Caller n}

theorem steps_of_step (hst : s.step reuseport acceptorCount act = some s') :
    Steps reuseport acceptorCount s s' act := by
  cases act with
  | start t =>
    obtain ⟨hidle, heq⟩ := Option.ite_none_right_eq_some.1 hst
    exact .calls t .checking hidle (.inl rfl) (Option.some.inj heq).symm
  | close t =>
    obtain ⟨hidle, heq⟩ := Option.ite_none_right_eq_some.1 hst
    exact .calls t .stopping hidle (.inr rfl) (Option.some.inj heq).symm
  | advance t flag => exact .advances t flag hst
  | begin a =>
    obtain ⟨⟨ha, hposted, hfree⟩, heq⟩ := Option.ite_none_right_eq_some.1 hst
    exact .begins a ha hposted hfree (Option.some.inj heq).symm
  | cancel a =>
    obtain ⟨⟨ha, hcancelled, hbegun, hfree⟩, heq⟩ := Option.ite_none_right_eq_some.1 hst
    exact .cancels a ha hcancelled hbegun hfree (Option.some.inj heq).symm
  | resume a r =>
    obtain ⟨⟨ha, hfree⟩, heq⟩ := Option.ite_none_right_eq_some.1 hst
    exact .resumes a r ha hfree heq
  | turn a r =>
    obtain ⟨hcurrent, heq⟩ := Option.ite_none_right_eq_some.1 hst
    exact .turns a r hcurrent heq
  | finish c =>
    obtain ⟨⟨hc, hdone, hfree⟩, heq⟩ := Option.ite_none_right_eq_some.1 hst
    exact .finishes c hc hdone hfree (Option.some.inj heq).symm
  | discard c =>
    obtain ⟨⟨hc, hdone, hfree⟩, heq⟩ := Option.ite_none_right_eq_some.1 hst
    obtain ⟨w, hw, heq⟩ := Option.map_eq_some_iff.1 heq
    exact .discards c w hc hdone hfree hw heq.symm
  | closeLoop l =>
    obtain ⟨⟨hidle, -⟩, heq⟩ := Option.ite_none_right_eq_some.1 hst
    exact .closes l hidle (Option.some.inj heq).symm

omit [DecidableEq Caller] in
theorem free_current (hfree : s.free a = true) : s.current (s.acceptor a).loop = none := (of_decide_eq_true hfree).1

theorem Pinned.step (h : s.Pinned) (hst : s.step reuseport acceptorCount act = some s') : s'.Pinned := by
  cases steps_of_step hst with
  | calls t d _ _ hs' =>
    rw [hs']
    exact h.called (.rest d)
  | advances t flag hadvance => exact h.called (called_of_advance rfl hadvance)
  | begins a ha _ hfree hs' =>
    rw [hs']
    exact h.ran ha (.inl (free_current hfree)) (ran_move s a _)
  | cancels a _ _ _ _ hs' =>
    subst hs'
    refine h.congr rfl rfl fun b => ?_
    show (Function.update s.acceptor a _ b).loop = _ ∧ (Function.update s.acceptor a _ b).phase = _
    by_cases hba : b = a
    · subst hba
      rw [Function.update_self]
      exact ⟨rfl, rfl⟩
    · rw [Function.update_of_ne hba]
      exact ⟨rfl, rfl⟩
  | resumes a r ha hfree hresume =>
    obtain ⟨-, q, rfl, -⟩ := moved_of_resume hresume
    exact h.ran ha (.inl (free_current hfree)) (ran_move s a q)
  | turns a r hcurrent hturn =>
    obtain ⟨q, hran⟩ := (turned_of_turn hturn).ran
    exact h.ran (h.current _ _ hcurrent).1 (.inr hcurrent) hran
  | finishes _ _ _ _ hs' | discards _ _ _ _ _ _ hs' | closes _ _ hs' =>
    subst hs'
    exact h.congr rfl rfl fun b => ⟨rfl, rfl⟩

theorem Locked.step (h : s.Locked) (hst : s.step reuseport acceptorCount act = some s') : s'.Locked := by
  cases steps_of_step hst with
  | calls t d hidle hd hs' =>
    rw [hs']
    refine h.goto h.running rfl rfl (fun reuse k => ?_) fun reuse k => ?_
    · rw [hidle]
      exact nofun
    · rcases hd with rfl | rfl
      · exact nofun
      · exact nofun
  | advances t flag hadvance => exact h.advance rfl hadvance
  | begins a _ _ _ hs' =>
    rw [hs']
    exact h.congr rfl rfl rfl
  | resumes a r _ _ hresume =>
    obtain ⟨-, q, rfl, -⟩ := moved_of_resume hresume
    exact h.congr rfl rfl rfl
  | turns a r _ hturn =>
    obtain ⟨q, hran⟩ := (turned_of_turn hturn).ran
    exact h.congr hran.running hran.runningLock hran.caller
  | cancels _ _ _ _ _ hs' | finishes _ _ _ _ hs' | discards _ _ _ _ _ _ hs' | closes _ _ hs' =>
    subst hs'
    exact h.congr rfl rfl rfl

end Sys

theorem pinned_of_reachable {Caller : Type} {n : Nat} [DecidableEq Caller] {reuseport : Bool} {acceptorCount : Nat}
    {s : Sys Caller n} (h : (system reuseport acceptorCount).Reachable s) : s.Pinned ∧ s.Locked := by
  refine System.Reachable.inv (I := fun s => s.Pinned ∧ s.Locked) ?_ ?_ h
  · rintro s ⟨acceptor, connection, rfl⟩
    exact ⟨⟨nofun, nofun⟩, nofun, fun _ => ⟨nofun, nofun⟩⟩
  · exact fun s act s' hs hst => ⟨hs.1.step hst, hs.2.step hst⟩

end Multiloop.ConnectionPinningServer
