import Mathlib.Data.Fintype.Basic
import Multiloop.Server.Spinning

/-!
# Servers that are started and closed in turn

If no call of `start` or `close` begins before the last one has returned, and no
call of `start` before every accept loop has ended, then no accept loop spins,
and each adds at most one connection to a set that `close` has taken
(`orderly`).
-/

namespace Multiloop.ConnectionPinningServer

variable {Caller : Type} {n : Nat}

namespace Sys

variable {s s' : Sys Caller n} {a c : Nat}

def AllEnded (s : Sys Caller n) : Prop := ∀ a, a < s.acceptors → (s.acceptor a).phase = .ended

/-- The calls of `start` and `close` come one after the other, and those of `start`
when every accept loop has ended. -/
def InTurn (s : Sys Caller n) : Action Caller n → Prop
  | .start _ => (∀ t, s.caller t = .idle) ∧ s.AllEnded
  | .close _ => ∀ t, s.caller t = .idle
  | _ => True

instance (s : Sys Caller n) : Decidable s.AllEnded :=
  inferInstanceAs (Decidable (∀ a, a < s.acceptors → (s.acceptor a).phase = .ended))

instance [Fintype Caller] (s : Sys Caller n) : ∀ act, Decidable (s.InTurn act)
  | .start _ => inferInstanceAs (Decidable ((∀ t, s.caller t = .idle) ∧ s.AllEnded))
  | .close _ => inferInstanceAs (Decidable (∀ t, s.caller t = .idle))
  | .advance .. | .begin _ | .cancel _ | .resume .. | .turn .. | .finish _ | .discard _ | .closeLoop _ => .isTrue trivial

/-- What a caller of `start` or `close` may rely on. -/
def Fits (s : Sys Caller n) : Doing → Prop
  | .idle | .stopping => True
  | .checking | .opening => s.AllEnded
  | .binding _ _ => s.AllEnded ∧ s.running = false ∧ ∀ i ∈ s.serverSockets, s.closed i = false
  | .planning _ => ∀ i ∈ s.serverSockets, s.closed i = false
  | .launching jobs => ∀ j ∈ jobs, s.closed j.2 = false
  | .closing sockets => s.running = false ∧ ∀ i ∈ sockets, i < s.sockets
  | .taking | .cancelling _ | .listing | .forgetting | .forgettingLast | .draining | .snapshot | .posting _ =>
    s.running = false

structure Tidy (s : Sys Caller n) : Prop where
  alone : ∀ t u, s.caller t ≠ .idle → s.caller u ≠ .idle → t = u
  fits : ∀ t, s.Fits (s.caller t)
  fresh : ∀ i, s.sockets ≤ i → s.closed i = false
  listed : (∀ i ∈ s.serverSockets, i < s.sockets) ∧ ∀ i ∈ s.serverSocket, i < s.sockets
  listening : s.running = true → ∀ a, a < s.acceptors → (s.acceptor a).phase ≠ .ended →
    s.closed (s.acceptor a).socket = false
  /-- A set is taken while the server does not run. -/
  tracked : ∀ a, a < s.acceptors → (s.acceptor a).phase.entered = true →
    s.workerConnTasks (s.acceptor a).loop = (s.acceptor a).tasks ∨ s.running = false
  stray : ∀ c, c < s.connections → (s.connection c).strayed = true →
    (s.acceptor (s.connection c).acceptor).phase = .ended ∨
      (s.acceptor (s.connection c).acceptor).phase = .looking ∧ s.running = false
  once : ∀ c e, c < s.connections → e < s.connections → (s.connection c).strayed = true →
    (s.connection e).strayed = true → (s.connection c).acceptor = (s.connection e).acceptor → c = e

/-! ## The callers -/

section Callers

variable [DecidableEq Caller] {t : Caller} {d : Doing} {flag reuseport : Bool} {acceptorCount : Nat}

omit [DecidableEq Caller] in
theorem alone_of_others (hothers : ∀ u, u ≠ t → s.caller u = .idle) {u v : Caller} (hu : s.caller u ≠ .idle)
    (hv : s.caller v ≠ .idle) : u = v := by
  have hut : u = t := by
    by_contra hne
    exact hu (hothers u hne)
  have hvt : v = t := by
    by_contra hne
    exact hv (hothers v hne)
  rw [hut, hvt]

theorem Fits.goto (h : s.Fits d) : (s.goto t d).Fits ((s.goto t d).caller t) := by
  have hself : (s.goto t d).caller t = d := Function.update_self ..
  rw [hself]
  cases d <;> exact h

omit [DecidableEq Caller] in
theorem bind_serverSocket (s : Sys Caller n) (first : Bool) :
    (s.bind first).serverSocket = some s.sockets ∨ (s.bind first).serverSocket = s.serverSocket := by
  unfold Sys.bind
  dsimp only
  split
  · exact .inl rfl
  · exact .inr rfl

/-- What a step of the one caller has to keep. -/
theorem Tidy.called (h : s.Tidy) (hbooks : s.Books) (hcalled : Called t s s') (ht : s.caller t ≠ .idle)
    (hfits : s'.Fits (s'.caller t)) (hfresh : ∀ i, s'.sockets ≤ i → s'.closed i = false)
    (hlisted : (∀ i ∈ s'.serverSockets, i < s'.sockets) ∧ ∀ i ∈ s'.serverSocket, i < s'.sockets)
    (hlistening : s'.running = true → ∀ a, a < s'.acceptors → (s'.acceptor a).phase ≠ .ended →
      s'.closed (s'.acceptor a).socket = false)
    (hrunning : s'.running = true → s.running = true ∨ s.AllEnded)
    (hsnapshot : s.caller t = .snapshot → s'.running = false) : s'.Tidy := by
  have hothers : ∀ u, u ≠ t → s'.caller u = .idle := by
    intro u hut
    rw [hcalled.others u hut]
    by_contra hne
    exact hut (h.alone u t hne ht)
  have hphase : ∀ a, a < s'.acceptors → (s'.acceptor a).phase ≠ .posted → a < s.acceptors := by
    intro a ha hne
    exact Nat.not_le.1 fun hle => hne (hcalled.posted a hle ha)
  have hoff : s.running = false → ¬ s.AllEnded → s'.running = false := by
    intro hoff hnot
    refine Bool.eq_false_iff.2 fun hrun => ?_
    rcases hrunning hrun with hon | hended
    · cases hoff.symm.trans hon
    · exact hnot hended
  refine ⟨fun u v hu hv => ?_, fun u => ?_, hfresh, hlisted, hlistening, fun a ha hentered => ?_, fun c hc hstray => ?_,
    fun c e hc he hstray hstray' hsame => ?_⟩
  · exact alone_of_others hothers hu hv
  · by_cases hut : u = t
    · subst hut
      exact hfits
    · rw [hothers u hut]
      trivial
  · have hlt : a < s.acceptors := hphase a ha fun hposted => by
      rw [hposted] at hentered
      cases hentered
    obtain ⟨x, hx⟩ := hcalled.acceptor a hlt
    rw [hx] at hentered ⊢
    rcases hcalled.tasks with hd | htasks
    · exact .inr (hsnapshot hd)
    · rw [htasks]
      refine (h.tracked a hlt hentered).imp_right fun hset => hoff hset fun hended => ?_
      change (s.acceptor a).phase.entered = true at hentered
      rw [hended a hlt] at hentered
      cases hentered
  · obtain ⟨b, hb, -⟩ := hcalled.connection c
    rw [hcalled.connections] at hc
    rw [hb] at hstray ⊢
    have hlt := hbooks.acceptor c hc
    obtain ⟨x, hx⟩ := hcalled.acceptor _ hlt
    change (s'.acceptor (s.connection c).acceptor).phase = .ended ∨
      (s'.acceptor (s.connection c).acceptor).phase = .looking ∧ s'.running = false
    rw [hx]
    refine (h.stray c hc hstray).imp_right fun ⟨hlooking, hset⟩ => ⟨hlooking, hoff hset fun hended => ?_⟩
    cases hlooking.symm.trans (hended _ hlt)
  · obtain ⟨b, hb, -⟩ := hcalled.connection c
    obtain ⟨x, hx, -⟩ := hcalled.connection e
    rw [hcalled.connections] at hc he
    rw [hb] at hstray hsame
    rw [hx] at hstray' hsame
    exact h.once c e hc he hstray hstray' hsame

/-- A caller goes on, and opens or closes no socket. -/
theorem Tidy.goto (h : s.Tidy) (hbooks : s.Books) (ht : s.caller t ≠ .idle) (hcalled : Called t s (s'.goto t d))
    (hfits : s'.Fits d) (hsockets : s'.sockets = s.sockets) (hclosed : s'.closed = s.closed)
    (hlisted : (∀ i ∈ s'.serverSockets, i ∈ s.serverSockets) ∧ ∀ i ∈ s'.serverSocket, i ∈ s.serverSocket)
    (hacceptors : s'.acceptors = s.acceptors) (hrunning : s'.running = true → s.running = true)
    (hsnapshot : s.caller t = .snapshot → s'.running = false) : (s'.goto t d).Tidy := by
  refine h.called hbooks hcalled ht hfits.goto (fun i hi => ?_) ?_ (fun hrun a ha hphase => ?_)
    (fun hrun => .inl (hrunning hrun)) hsnapshot
  · change s'.sockets ≤ i at hi
    show s'.closed i = false
    rw [hsockets] at hi
    rw [hclosed]
    exact h.fresh i hi
  · show (∀ i ∈ s'.serverSockets, i < s'.sockets) ∧ ∀ i ∈ s'.serverSocket, i < s'.sockets
    rw [hsockets]
    exact ⟨fun i hi => h.listed.1 i (hlisted.1 i hi), fun i hi => h.listed.2 i (hlisted.2 i hi)⟩
  · have hlt : a < s.acceptors := Nat.lt_of_lt_of_eq ha hacceptors
    obtain ⟨x, hx⟩ := hcalled.acceptor a hlt
    rw [hx] at hphase ⊢
    show s'.closed (s.acceptor a).socket = false
    rw [hclosed]
    exact h.listening (hrunning hrun) a hlt hphase

/-- A socket is bound, or none can be. -/
theorem Tidy.binding (h : s.Tidy) (hbooks : s.Books) {reuse : Bool} {k : Nat} (hd : s.caller t = .binding reuse k) :
    (s.binding t flag reuse k).Tidy := by
  have ht : s.caller t ≠ .idle := by
    rw [hd]
    exact nofun
  have hfits := h.fits t
  rw [hd] at hfits
  obtain ⟨hended, hoff, hopen⟩ := hfits
  have hcalled : Called t s (s.binding t flag reuse k) := called_binding hd
  have hbound : ∀ i ∈ s.serverSockets ++ [s.sockets], s.closed i = false := by
    intro i hi
    rcases List.mem_append.1 hi with hi | hi
    · exact hopen i hi
    · rw [List.mem_singleton.1 hi]
      exact h.fresh _ (Nat.le_refl _)
  have hlt : ∀ i ∈ s.serverSockets ++ [s.sockets], i < s.sockets + 1 := by
    intro i hi
    rcases List.mem_append.1 hi with hi | hi
    · exact Nat.lt_succ_of_lt (h.listed.1 i hi)
    · rw [List.mem_singleton.1 hi]
      exact Nat.lt_succ_self _
  have hsnapshot : s.caller t ≠ .snapshot := by
    rw [hd]
    exact nofun
  -- The accept loops of the last start have ended.
  have hnone : ∀ {s' : Sys Caller n}, s'.acceptor = s.acceptor → s'.acceptors = s.acceptors →
      ∀ a, a < s'.acceptors → (s'.acceptor a).phase ≠ .ended → s'.closed (s'.acceptor a).socket = false := by
    intro s' hacceptor hacceptors a ha hphase
    rw [hacceptors] at ha
    rw [hacceptor] at hphase
    exact absurd (hended a ha) hphase
  have hbind : ∀ (d : Doing) (s' : Sys Caller n), Called t s (s'.goto t d) →
      s'.serverSockets = s.serverSockets ++ [s.sockets] →
      (s'.serverSocket = some s.sockets ∨ s'.serverSocket = s.serverSocket) → s'.sockets = s.sockets + 1 →
      s'.closed = s.closed → s'.acceptor = s.acceptor → s'.acceptors = s.acceptors → s'.Fits d → (s'.goto t d).Tidy := by
    intro d s' hcalled hserverSockets hserverSocket hsockets hclosed hacceptor hacceptors hfits
    refine h.called hbooks hcalled ht hfits.goto (fun i hi => ?_) ⟨fun i hi => ?_, fun i hi => ?_⟩
      (fun _ => hnone hacceptor hacceptors) (fun _ => .inr hended) fun hd => absurd hd hsnapshot
    · change s'.sockets ≤ i at hi
      show s'.closed i = false
      rw [hclosed]
      exact h.fresh i (Nat.le_trans (Nat.le_succ _) (Nat.le_trans (Nat.le_of_eq hsockets.symm) hi))
    · change i ∈ s'.serverSockets at hi
      show i < s'.sockets
      rw [hserverSockets] at hi
      rw [hsockets]
      exact hlt i hi
    · change i ∈ s'.serverSocket at hi
      show i < s'.sockets
      rw [hsockets]
      rcases hserverSocket with hset | hset
      · rw [hset] at hi
        rw [Option.mem_some_iff.1 hi]
        exact Nat.lt_succ_self _
      · rw [hset] at hi
        exact Nat.lt_succ_of_lt (h.listed.2 i hi)
  cases reuse with
  | true =>
    unfold Sys.binding at hcalled ⊢
    dsimp only at hcalled ⊢
    split at hcalled
    · rename_i hflag
      rw [if_pos hflag]
      split at hcalled
      · rename_i hk
        rw [if_pos hk]
        exact hbind _ _ hcalled rfl (s.bind_serverSocket (decide (k = 0))) rfl rfl rfl rfl ⟨hended, hoff, hbound⟩
      · rename_i hk
        rw [if_neg hk]
        exact hbind _ _ hcalled rfl (s.bind_serverSocket (decide (k = 0))) rfl rfl rfl rfl hbound
    · rename_i hflag
      rw [if_neg hflag]
      refine h.called hbooks hcalled ht (Fits.goto ⟨hended, hoff, nofun⟩) (fun i hi => ?_) ⟨nofun, h.listed.2⟩
        (fun hrun => ?_) (fun hrun => ?_) fun hd => absurd hd hsnapshot
      · change s.sockets ≤ i at hi
        show (s.closed i || decide (i ∈ s.serverSockets)) = false
        rw [h.fresh i hi, decide_eq_false fun hmem => Nat.lt_irrefl _ (Nat.lt_of_lt_of_le (h.listed.1 i hmem) hi)]
        rfl
      · cases hoff.symm.trans hrun
      · cases hoff.symm.trans hrun
  | false =>
    unfold Sys.binding at hcalled ⊢
    dsimp only at hcalled ⊢
    split at hcalled
    · rename_i hflag
      rw [if_pos hflag]
      exact hbind _ _ hcalled rfl (.inl rfl) rfl rfl rfl rfl hbound
    · rename_i hflag
      rw [if_neg hflag]
      exact h.goto hbooks ht hcalled trivial rfl rfl ⟨fun _ => id, fun _ => id⟩ rfl id fun hd => absurd hd hsnapshot

/-- The next accept loop is launched, on an open socket. -/
theorem Tidy.launch (h : s.Tidy) (hbooks : s.Books) {l : Fin n} {socket i : Nat} {jobs : List (Nat × Nat)}
    (hd : s.caller t = .launching ((i, socket) :: jobs)) : ((s.launch l socket).goto t (.launching jobs)).Tidy := by
  have hfits := h.fits t
  rw [hd] at hfits
  have hcalled : Called t s ((s.launch l socket).goto t (.launching jobs)) := called_launch
  refine h.called hbooks hcalled ?_ (Fits.goto fun j hj => hfits j (List.mem_cons_of_mem _ hj)) h.fresh h.listed
    (fun hrun a ha hphase => ?_) .inl ?_
  · rw [hd]
    exact nofun
  · show s.closed _ = false
    rcases Nat.lt_or_eq_of_le (Nat.lt_succ_iff.1 ha) with hlt | rfl
    · obtain ⟨x, hx⟩ := hcalled.acceptor a hlt
      rw [hx] at hphase ⊢
      exact h.listening hrun a hlt hphase
    · have hself : (s.launch l socket).acceptor s.acceptors = ⟨l, socket, .posted, none, false, false⟩ :=
        Function.update_self ..
      show s.closed ((s.launch l socket).acceptor s.acceptors).socket = false
      rw [hself]
      exact hfits (i, socket) (List.mem_cons_self ..)
  · rw [hd]
    exact nofun

/-- A caller goes on, and changes neither the sockets nor `_running`. -/
theorem Tidy.rest (h : s.Tidy) (hbooks : s.Books) (ht : s.caller t ≠ .idle)
    (hsnapshot : s.caller t = .snapshot → s.running = false) (hfits : s.Fits d) : (s.goto t d).Tidy :=
  h.goto hbooks ht (.rest d) hfits rfl rfl ⟨fun _ => id, fun _ => id⟩ rfl id hsnapshot

/-- `close` goes on, and forgets sockets at most. -/
theorem Tidy.closes (h : s.Tidy) (hbooks : s.Books) (ht : s.caller t ≠ .idle) (hcalled : Called t s (s'.goto t d))
    (hfits : s'.Fits d) (hsockets : s'.sockets = s.sockets) (hclosed : s'.closed = s.closed)
    (hserverSockets : ∀ i ∈ s'.serverSockets, i ∈ s.serverSockets)
    (hserverSocket : ∀ i ∈ s'.serverSocket, i ∈ s.serverSocket) (hacceptors : s'.acceptors = s.acceptors)
    (hoff : s'.running = false) : (s'.goto t d).Tidy := by
  refine h.goto hbooks ht hcalled hfits hsockets hclosed ⟨hserverSockets, hserverSocket⟩ hacceptors (fun hrun => ?_)
    fun _ => hoff
  cases hoff.symm.trans hrun

/-- `start` plans an accept loop for each socket, or several for the first one. -/
theorem Tidy.planning (h : s.Tidy) (hbooks : s.Books) {reuse : Bool} (hd : s.caller t = .planning reuse)
    (hst : s.advance reuseport acceptorCount t flag (.planning reuse) = some s') : s'.Tidy := by
  have hfits := h.fits t
  rw [hd] at hfits
  have hrest : ∀ {d : Doing}, s.Fits d → (s.goto t d).Tidy :=
    h.rest hbooks (by rw [hd]; exact nofun) (by rw [hd]; exact nofun)
  cases reuse with
  | true =>
    cases hst
    refine hrest fun j hj => ?_
    obtain ⟨⟨x, i⟩, hx, rfl⟩ := List.mem_map.1 hj
    exact hfits x (List.fst_mem_of_mem_zipIdx hx)
  | false =>
    simp only [Sys.advance] at hst
    split at hst
    · rename_i socket _ heq
      cases hst
      refine hrest fun j hj => ?_
      obtain ⟨i, -, rfl⟩ := List.mem_map.1 hj
      exact hfits socket (by rw [heq]; exact List.mem_cons_self ..)
    · cases hst
      exact hrest trivial

/-- `close` closes the next socket. -/
theorem Tidy.closing (h : s.Tidy) (hbooks : s.Books) {i : Nat} {sockets : List Nat}
    (hd : s.caller t = .closing (i :: sockets))
    (hcalled : Called t s ({ s with closed := Function.update s.closed i true }.goto t (.closing sockets))) :
    ({ s with closed := Function.update s.closed i true }.goto t (.closing sockets)).Tidy := by
  have hfits := h.fits t
  rw [hd] at hfits
  obtain ⟨hoff, hlt⟩ := hfits
  refine h.called hbooks hcalled (by rw [hd]; exact nofun)
    (Fits.goto ⟨hoff, fun j hj => hlt j (List.mem_cons_of_mem _ hj)⟩) (fun j hj => ?_) h.listed (fun hrun => ?_)
    (fun hrun => ?_) (by rw [hd]; exact nofun)
  · have hji : j ≠ i := by
      rintro rfl
      exact Nat.lt_irrefl _ (Nat.lt_of_lt_of_le (hlt j (List.mem_cons_self ..)) hj)
    show Function.update s.closed i true j = false
    rw [Function.update_of_ne hji]
    exact h.fresh j hj
  · cases hoff.symm.trans hrun
  · cases hoff.symm.trans hrun

/-- The next lines of a caller. -/
theorem Tidy.advance (h : s.Tidy) (hbooks : s.Books) (hd : s.caller t = d)
    (hst : s.advance reuseport acceptorCount t flag d = some s') : s'.Tidy := by
  have hcalled := called_of_advance hd hst
  have hfits := h.fits t
  rw [hd] at hfits
  have hne : s.caller t ≠ .idle := by
    intro hidle
    rw [hidle] at hd
    subst hd
    cases hst
  have hsnapshot : s.caller t = .snapshot → s.running = false := by
    intro hlast
    rw [hlast] at hd
    subst hd
    exact hfits
  have hrest : ∀ {d' : Doing}, s.Fits d' → (s.goto t d').Tidy := h.rest hbooks hne hsnapshot
  cases d with
  | idle => cases hst
  | checking =>
    obtain ⟨-, heq⟩ := Option.ite_none_right_eq_some.1 hst
    cases heq
    refine hrest ?_
    split
    · trivial
    · exact hfits
  | opening =>
    obtain ⟨-, heq⟩ := Option.ite_none_right_eq_some.1 hst
    split at heq
    · cases heq
      exact hrest trivial
    · rename_i hoff
      cases heq
      exact h.goto hbooks hne hcalled ⟨hfits, Bool.eq_false_iff.2 hoff, fun i hi => absurd hi List.not_mem_nil⟩ rfl rfl
        ⟨fun i hi => absurd hi List.not_mem_nil, fun _ => id⟩ rfl id hsnapshot
  | binding reuse k =>
    cases hst
    exact h.binding hbooks hd
  | planning reuse => exact h.planning hbooks hd hst
  | launching jobs =>
    obtain ⟨-, heq⟩ := Option.ite_none_right_eq_some.1 hst
    cases heq
    unfold Sys.launching
    split
    · exact hrest trivial
    · split
      · split
        · exact h.launch hbooks hd
        · exact hrest trivial
      · exact hrest trivial
  | stopping =>
    obtain ⟨-, heq⟩ := Option.ite_none_right_eq_some.1 hst
    cases heq
    exact h.closes hbooks hne hcalled rfl rfl rfl (fun _ => id) (fun _ => id) rfl rfl
  | taking =>
    obtain ⟨-, heq⟩ := Option.ite_none_right_eq_some.1 hst
    cases heq
    exact h.closes hbooks hne hcalled hfits rfl rfl (fun _ => id) (fun _ => id) rfl hfits
  | cancelling futures =>
    cases futures with
    | nil =>
      cases hst
      exact hrest hfits
    | cons =>
      cases hst
      exact h.closes hbooks hne hcalled hfits rfl rfl (fun _ => id) (fun _ => id) rfl hfits
  | listing =>
    cases hst
    refine hrest ⟨hfits, fun i hi => ?_⟩
    split at hi
    · exact h.listed.2 i (Option.mem_toList.1 hi)
    · exact h.listed.1 i hi
  | closing sockets =>
    cases sockets with
    | nil =>
      cases hst
      exact hrest hfits.1
    | cons i sockets =>
      cases hst
      exact h.closing hbooks hd hcalled
  | forgetting =>
    cases hst
    exact h.closes hbooks hne hcalled hfits rfl rfl (fun i hi => absurd hi List.not_mem_nil) (fun _ => id) rfl hfits
  | forgettingLast =>
    cases hst
    exact h.closes hbooks hne hcalled hfits rfl rfl (fun _ => id) (fun i hi => absurd hi (Option.not_mem_none i)) rfl
      hfits
  | draining =>
    simp only [Sys.advance, Option.some.injEq] at hst
    split at hst
    · cases hst
      exact hrest hfits
    · cases hst
      exact hrest hfits
  | snapshot =>
    cases hst
    exact h.closes hbooks hne hcalled hfits rfl rfl (fun _ => id) (fun _ => id) rfl hfits
  | posting connections =>
    cases connections with
    | nil =>
      cases hst
      exact hrest trivial
    | cons c connections =>
      cases hst
      exact h.closes hbooks hne hcalled hfits rfl rfl (fun _ => id) (fun _ => id) rfl hfits

end Callers

/-! ## The accept loops -/

/-- Nothing that a caller relies on changes while an accept loop goes on. -/
theorem Fits.mono {d : Doing} (h : s.Fits d) (hended : s.AllEnded → s'.AllEnded) (hrunning : s'.running = s.running)
    (hserverSockets : s'.serverSockets = s.serverSockets) (hclosed : s'.closed = s.closed)
    (hsockets : s'.sockets = s.sockets) : s'.Fits d := by
  cases d with
  | idle | stopping => trivial
  | checking | opening => exact hended h
  | binding reuse k =>
    refine ⟨hended h.1, hrunning.trans h.2.1, ?_⟩
    rw [hserverSockets, hclosed]
    exact h.2.2
  | planning reuse =>
    show ∀ i ∈ s'.serverSockets, s'.closed i = false
    rw [hserverSockets, hclosed]
    exact h
  | launching jobs =>
    show ∀ j ∈ jobs, s'.closed j.2 = false
    rw [hclosed]
    exact h
  | closing sockets =>
    refine ⟨hrunning.trans h.1, ?_⟩
    rw [hsockets]
    exact h.2
  | taking | cancelling | listing | forgetting | forgettingLast | draining | snapshot | posting => exact hrunning.trans h

/-- Accept loop `a` goes on, and may add the connection of `o` to a set that was
taken. -/
theorem Tidy.ran (h : s.Tidy) (hbooks : s.Books) (ha : a < s.acceptors) {q : Phase} (hran : Ran a q s s')
    (hserverSocket : s'.serverSocket = s.serverSocket) (hp : (s.acceptor a).phase ≠ .ended)
    (htasks : ∀ l w, s.workerConnTasks l = some w → s'.workerConnTasks l = some w)
    (htracked : q.entered = true →
      s'.workerConnTasks (s.acceptor a).loop = (s'.acceptor a).tasks ∨ s.running = false)
    (hlooking : (s.acceptor a).phase = .looking → s.running = false → q = .ended) (o : Option Nat)
    (ho : ∀ c ∈ o, q = .looking ∧ s.running = false ∧ (s.acceptor a).phase ≠ .looking)
    (hstray : ∀ c, c < s'.connections → (s'.connection c).strayed = true →
      c < s.connections ∧ (s.connection c).strayed = true ∧ (s'.connection c).acceptor = (s.connection c).acceptor ∨
        c ∈ o ∧ (s'.connection c).acceptor = a) : s'.Tidy := by
  refine ⟨?_, fun t => ?_, ?_, ?_, fun hrun b hb hphase => ?_, fun b hb hentered => ?_, fun c hc hset => ?_,
    fun c e hc he hset hset' hsame => ?_⟩
  · rw [hran.caller]
    exact h.alone
  · rw [hran.caller]
    exact (h.fits t).mono (fun hended => absurd (hended a ha) hp) hran.running hran.serverSockets hran.closed hran.sockets
  · rw [hran.sockets, hran.closed]
    exact h.fresh
  · rw [hran.serverSockets, hserverSocket, hran.sockets]
    exact h.listed
  · rw [hran.running] at hrun
    rw [hran.acceptors] at hb
    rw [hran.closed]
    by_cases hba : b = a
    · subst hba
      rw [hran.socket]
      exact h.listening hrun b hb hp
    · rw [hran.others b hba] at hphase ⊢
      exact h.listening hrun b hb hphase
  · rw [hran.acceptors] at hb
    rw [hran.running]
    by_cases hba : b = a
    · subst hba
      rw [hran.phase] at hentered
      rw [hran.loop]
      exact htracked hentered
    · rw [hran.others b hba] at hentered ⊢
      refine (h.tracked b hb hentered).imp_left fun hset => ?_
      obtain ⟨w, hw⟩ := Option.ne_none_iff_exists'.1 (hbooks.entered b hb hentered)
      rw [hw] at hset ⊢
      exact htasks _ w hset
  · rw [hran.running]
    rcases hstray c hc hset with ⟨hc, hset, hacceptor⟩ | ⟨hco, hacceptor⟩
    · rw [hacceptor]
      have hold := h.stray c hc hset
      by_cases hca : (s.connection c).acceptor = a
      · rw [hca] at hold ⊢
        rw [hran.phase]
        obtain ⟨hlook, hoff⟩ := hold.resolve_left hp
        exact .inl (hlooking hlook hoff)
      · rw [hran.others _ hca]
        exact hold
    · obtain ⟨hq, hoff, -⟩ := ho c hco
      rw [hacceptor, hran.phase]
      exact .inr ⟨hq, hoff⟩
  · -- An accept loop that has added one such connection is at `while self.is_running`.
    have hfirst : ∀ c, c < s.connections → (s.connection c).strayed = true → (s.connection c).acceptor = a →
        ∀ e, e ∉ o := by
      intro c hc hset hca e heo
      have hold := h.stray c hc hset
      rw [hca] at hold
      exact (ho e heo).2.2 (hold.resolve_left hp).1
    rcases hstray c hc hset with ⟨hc, hset, hca⟩ | ⟨hco, hca⟩
    · rcases hstray e he hset' with ⟨he, hset', hea⟩ | ⟨heo, hea⟩
      · exact h.once c e hc he hset hset' (hca.symm.trans (hsame.trans hea))
      · exact absurd heo (hfirst c hc hset (hca.symm.trans (hsame.trans hea)) e)
    · rcases hstray e he hset' with ⟨he, hset', hea⟩ | ⟨heo, hea⟩
      · exact absurd hco (hfirst e he hset' (hea.symm.trans (hsame.symm.trans hca)) c)
      · exact Option.some.inj ((Option.mem_def.1 hco).symm.trans (Option.mem_def.1 heo))

theorem Tidy.move (h : s.Tidy) (hbooks : s.Books) (ha : a < s.acceptors) {q : Phase} (hp : (s.acceptor a).phase ≠ .ended)
    (hentered : q.entered = true → (s.acceptor a).phase.entered = true)
    (hlooking : (s.acceptor a).phase = .looking → s.running = false → q = .ended) : (s.move a q).Tidy := by
  refine h.ran hbooks ha (ran_move s a q) rfl hp (fun _ _ => id) (fun hq => ?_) hlooking none nofun
    fun c hc hset => .inl ⟨hc, hset, rfl⟩
  rw [move_tasks]
  exact h.tracked a ha (hentered hq)

theorem Tidy.enter (h : s.Tidy) (hbooks : s.Books) (ha : a < s.acceptors) (hp : (s.acceptor a).phase = .entering) :
    ((s.enter a).move a .looking).Tidy := by
  have hsame : (s.enter a).connection = s.connection ∧ (s.enter a).connections = s.connections ∧
      (s.enter a).serverSocket = s.serverSocket := by
    obtain ⟨workerConnTasks, sets, w, henter⟩ := s.enter_same a
    rw [henter]
    exact ⟨rfl, rfl, rfl⟩
  have htracked : (s.enter a).workerConnTasks (s.acceptor a).loop = ((s.enter a).acceptor a).tasks := by
    unfold Sys.enter
    dsimp only
    split
    · rename_i w hw
      show s.workerConnTasks _ = (Function.update s.acceptor a _ a).tasks
      rw [hw, Function.update_self]
    · show Function.update s.workerConnTasks _ _ _ = (Function.update s.acceptor a _ a).tasks
      rw [Function.update_self, Function.update_self]
  refine h.ran hbooks ha (ran_enter s a .looking) hsame.2.2 (by rw [hp]; exact nofun) (fun _ _ => s.enter_keeps a)
    (fun _ => .inl ?_) (fun hlook => ?_) none nofun fun c hc hset => .inl ?_
  · rw [move_tasks]
    exact htracked
  · cases hp.symm.trans hlook
  · change c < (s.enter a).connections at hc
    change ((s.enter a).connection c).strayed = true at hset
    show c < s.connections ∧ (s.connection c).strayed = true ∧ ((s.enter a).connection c).acceptor = _
    rw [hsame.1] at hset ⊢
    rw [hsame.2.1] at hc
    exact ⟨hc, hset, rfl⟩

theorem Tidy.create (h : s.Tidy) (hbooks : s.Books) (ha : a < s.acceptors) (hp : (s.acceptor a).phase = .creating) :
    ((s.create a).move a (.adding s.connections)).Tidy := by
  refine h.ran hbooks ha (ran_create s a _) rfl (by rw [hp]; exact nofun) (fun _ _ => id) (fun _ => ?_) (fun hlook => ?_)
    none nofun fun c hc hset => .inl ?_
  · rw [move_tasks]
    exact h.tracked a ha (by rw [hp]; rfl)
  · cases hp.symm.trans hlook
  · change (Function.update s.connection s.connections ⟨a, none, false, false, none⟩ c).strayed = true at hset
    show c < s.connections ∧ (s.connection c).strayed = true ∧ (Function.update s.connection s.connections _ c).acceptor = _
    rcases Nat.lt_or_eq_of_le (Nat.lt_succ_iff.1 hc) with hc | rfl
    · rw [Function.update_of_ne (Nat.ne_of_lt hc)] at hset ⊢
      exact ⟨hc, hset, rfl⟩
    · rw [Function.update_self] at hset
      cases hset

theorem Tidy.add (h : s.Tidy) (hbooks : s.Books) (ha : a < s.acceptors) (hp : (s.acceptor a).phase = .adding c) :
    ((s.add a c).move a .looking).Tidy := by
  obtain ⟨hc, hacceptor, -⟩ := hbooks.fresh a ha c hp
  have hentered : (s.acceptor a).phase.entered = true := by
    rw [hp]
    rfl
  obtain ⟨w, hw⟩ := Option.ne_none_iff_exists'.1 (hbooks.entered a ha hentered)
  have hadd := s.add_eq a c hw
  have hself := s.add_connection a c hw
  have htracked := h.tracked a ha hentered
  refine h.ran hbooks ha (ran_add s a c _) (by rw [hadd]; rfl) (by rw [hp]; exact nofun) (fun l x hx => by rw [hadd]; exact hx)
    (fun _ => ?_) (fun hlook => ?_) (if s.running then none else some c) (fun e he => ?_) fun e he hset => ?_
  · rw [move_tasks, hadd]
    exact htracked
  · cases hp.symm.trans hlook
  · split at he
    · cases he
    · rename_i hoff
      refine ⟨rfl, Bool.eq_false_iff.2 hoff, ?_⟩
      rw [hp]
      exact nofun
  · have hconnections : ((s.add a c).move a .looking).connections = s.connections := by
      rw [hadd]
      rfl
    rw [hconnections] at he
    change ((s.add a c).connection e).strayed = true at hset
    show e < s.connections ∧ (s.connection e).strayed = true ∧ ((s.add a c).connection e).acceptor = _ ∨
      e ∈ (if s.running then none else some c) ∧ ((s.add a c).connection e).acceptor = a
    by_cases hec : e = c
    · subst hec
      rw [hself] at hset ⊢
      have hne := of_decide_eq_true hset
      have hoff : s.running = false := htracked.resolve_left fun heq => hne (heq.trans hw)
      refine .inr ⟨?_, hacceptor⟩
      rw [hoff]
      exact Option.mem_some_self e
    · have hother : (s.add a c).connection e = s.connection e := by
        rw [hadd]
        exact Function.update_of_ne hec ..
      rw [hother] at hset ⊢
      exact .inl ⟨he, hset, rfl⟩

theorem Tidy.turned {p : Phase} (h : s.Tidy) (hbooks : s.Books) (ha : a < s.acceptors) (hp : (s.acceptor a).phase = p)
    (hturned : Turned s a p s') : s'.Tidy := by
  cases hturned with
  | enters => exact h.enter hbooks ha hp
  | creates => exact h.create hbooks ha hp
  | adds c => exact h.add hbooks ha hp
  | goes hnext =>
    rename_i q
    have hmove : p ≠ .ended → p.entered = true → (p = .looking → s.running = false → q = .ended) → (s.move a q).Tidy := by
      intro hne hentered hlooking
      refine h.move hbooks ha (by rw [hp]; exact hne) (fun _ => ?_) ?_
      · rw [hp]
        exact hentered
      · rw [hp]
        exact hlooking
    generalize hrunning : s.running = running at hnext hmove
    generalize s.closed (s.acceptor a).socket = closed at hnext
    cases hnext with
    | looks => exact hmove nofun rfl nofun
    | stops => exact hmove nofun rfl fun _ _ => rfl
    | accepts | rejected | retries | sleeps | breaks => exact hmove nofun rfl nofun

/-- Nothing that matters here changes. -/
theorem Tidy.congr (h : s.Tidy) (hcaller : s'.caller = s.caller) (hrunning : s'.running = s.running)
    (hserverSockets : s'.serverSockets = s.serverSockets) (hserverSocket : s'.serverSocket = s.serverSocket)
    (hclosed : s'.closed = s.closed) (hsockets : s'.sockets = s.sockets) (hacceptors : s'.acceptors = s.acceptors)
    (hacceptor : ∀ b, (s'.acceptor b).loop = (s.acceptor b).loop ∧ (s'.acceptor b).phase = (s.acceptor b).phase ∧
      (s'.acceptor b).tasks = (s.acceptor b).tasks ∧ (s'.acceptor b).socket = (s.acceptor b).socket)
    (htasks : s'.workerConnTasks = s.workerConnTasks) (hconnections : s'.connections = s.connections)
    (hconnection : ∀ e, (s'.connection e).acceptor = (s.connection e).acceptor ∧
      (s'.connection e).strayed = (s.connection e).strayed) : s'.Tidy := by
  have hended : s.AllEnded → s'.AllEnded := by
    intro hended b hb
    rw [hacceptors] at hb
    rw [(hacceptor b).2.1]
    exact hended b hb
  refine ⟨?_, fun t => ?_, ?_, ?_, fun hrun b hb hphase => ?_, fun b hb hentered => ?_, fun c hc hset => ?_,
    fun c e hc he hset hset' hsame => ?_⟩
  · rw [hcaller]
    exact h.alone
  · rw [hcaller]
    exact (h.fits t).mono hended hrunning hserverSockets hclosed hsockets
  · rw [hsockets, hclosed]
    exact h.fresh
  · rw [hserverSockets, hserverSocket, hsockets]
    exact h.listed
  · obtain ⟨-, hsame, -, hsocket⟩ := hacceptor b
    rw [hrunning] at hrun
    rw [hacceptors] at hb
    rw [hsame] at hphase
    rw [hclosed, hsocket]
    exact h.listening hrun b hb hphase
  · obtain ⟨hloop, hsame, htasks', -⟩ := hacceptor b
    rw [hacceptors] at hb
    rw [hsame] at hentered
    rw [htasks, hloop, htasks', hrunning]
    exact h.tracked b hb hentered
  · obtain ⟨hsame, hstrayed⟩ := hconnection c
    rw [hconnections] at hc
    rw [hstrayed] at hset
    rw [hsame, (hacceptor _).2.1, hrunning]
    exact h.stray c hc hset
  · rw [hconnections] at hc he
    rw [(hconnection c).2] at hset
    rw [(hconnection e).2] at hset'
    rw [(hconnection c).1, (hconnection e).1] at hsame
    exact h.once c e hc he hset hset' hsame

variable [DecidableEq Caller] {reuseport : Bool} {acceptorCount : Nat} {act : Action Caller n}

/-- A call begins, when all others have returned. -/
theorem Tidy.calls (h : s.Tidy) {t : Caller} {d : Doing} (hidle : ∀ u, s.caller u = .idle)
    (hfits : s.Fits d) : (s.goto t d).Tidy := by
  have hothers : ∀ u, u ≠ t → (s.goto t d).caller u = .idle := fun u hu =>
    (Function.update_of_ne hu ..).trans (hidle u)
  refine ⟨fun u v hu hv => ?_, fun u => ?_, h.fresh, h.listed, h.listening, h.tracked, h.stray, h.once⟩
  · exact alone_of_others hothers hu hv
  · by_cases hut : u = t
    · subst hut
      exact hfits.goto
    · rw [hothers u hut]
      trivial

theorem Tidy.step (h : s.Tidy) (hpinned : s.Pinned) (hbooks : s.Books) (hok : s.InTurn act)
    (hst : s.step reuseport acceptorCount act = some s') : s'.Tidy := by
  cases act with
  | start t =>
    obtain ⟨-, heq⟩ := Option.ite_none_right_eq_some.1 hst
    cases heq
    exact h.calls hok.1 hok.2
  | close t =>
    obtain ⟨-, heq⟩ := Option.ite_none_right_eq_some.1 hst
    cases heq
    exact h.calls hok trivial
  | advance t flag => exact h.advance hbooks rfl hst
  | begin a =>
    obtain ⟨⟨ha, hposted, -⟩, heq⟩ := Option.ite_none_right_eq_some.1 hst
    cases heq
    refine h.move hbooks ha ?_ nofun fun hlook => ?_
    · rw [hposted]
      exact nofun
    · cases hposted.symm.trans hlook
  | cancel a =>
    obtain ⟨-, heq⟩ := Option.ite_none_right_eq_some.1 hst
    cases heq
    refine h.congr rfl rfl rfl rfl rfl rfl rfl (fun b => ?_) rfl rfl fun e => ⟨rfl, rfl⟩
    show (Function.update s.acceptor a _ b).loop = _ ∧ (Function.update s.acceptor a _ b).phase = _ ∧
      (Function.update s.acceptor a _ b).tasks = _ ∧ (Function.update s.acceptor a _ b).socket = _
    by_cases hba : b = a
    · subst hba
      rw [Function.update_self]
      exact ⟨rfl, rfl, rfl, rfl⟩
    · rw [Function.update_of_ne hba]
      exact ⟨rfl, rfl, rfl, rfl⟩
  | resume a r =>
    obtain ⟨⟨ha, -⟩, hresume⟩ := Option.ite_none_right_eq_some.1 hst
    obtain ⟨hp, q, rfl, -⟩ := moved_of_resume hresume
    have hentered : (s.acceptor a).phase.entered = true := by
      rcases hp with hp | hp
      · rw [hp]
        rfl
      · rw [hp]
        rfl
    refine h.move hbooks ha (fun hended => ?_) (fun _ => hentered) fun hlook => ?_
    · rw [hended] at hentered
      cases hentered
    · rcases hp with hp | hp
      · cases hp.symm.trans hlook
      · cases hp.symm.trans hlook
  | turn a r =>
    obtain ⟨hcurrent, hturn⟩ := Option.ite_none_right_eq_some.1 hst
    exact h.turned hbooks (hpinned.current _ _ hcurrent).1 rfl (turned_of_turn hturn)
  | finish c =>
    obtain ⟨-, heq⟩ := Option.ite_none_right_eq_some.1 hst
    cases heq
    refine h.congr rfl rfl rfl rfl rfl rfl rfl (fun b => ⟨rfl, rfl, rfl, rfl⟩) rfl rfl fun e => ?_
    show (Function.update s.connection c _ e).acceptor = _ ∧ (Function.update s.connection c _ e).strayed = _
    by_cases hec : e = c
    · subst hec
      rw [Function.update_self]
      exact ⟨rfl, rfl⟩
    · rw [Function.update_of_ne hec]
      exact ⟨rfl, rfl⟩
  | discard c =>
    obtain ⟨-, heq⟩ := Option.ite_none_right_eq_some.1 hst
    obtain ⟨w, -, rfl⟩ := Option.map_eq_some_iff.1 heq
    exact h.congr rfl rfl rfl rfl rfl rfl rfl (fun b => ⟨rfl, rfl, rfl, rfl⟩) rfl rfl fun e => ⟨rfl, rfl⟩
  | closeLoop l =>
    obtain ⟨-, heq⟩ := Option.ite_none_right_eq_some.1 hst
    cases heq
    exact h.congr rfl rfl rfl rfl rfl rfl rfl (fun b => ⟨rfl, rfl, rfl, rfl⟩) rfl rfl fun e => ⟨rfl, rfl⟩

end Sys

variable [DecidableEq Caller] {reuseport : Bool} {acceptorCount : Nat} {s : Sys Caller n}

theorem tidy_of_reachable (h : (system reuseport acceptorCount).ReachableWhen Sys.InTurn s) : s.Tidy := by
  have hall : s.Pinned ∧ s.Books ∧ s.Tidy := by
    refine System.ReachableWhen.inv (I := fun s => s.Pinned ∧ s.Books ∧ s.Tidy) ?_ ?_ h
    · rintro s ⟨acceptor, connection, rfl⟩
      exact ⟨⟨nofun, nofun⟩, ⟨nofun, nofun, nofun, nofun, nofun⟩, fun t u ht => absurd rfl ht, fun t => trivial,
        fun i _ => rfl, ⟨nofun, nofun⟩, nofun, nofun, nofun, nofun⟩
    · exact fun s act s' hs hok hst =>
        ⟨hs.1.step hst, hs.2.1.step hs.1 hst, hs.2.2.step hs.1 hs.2.1 hok hst⟩
  exact hall.2.2

/-- The socket of an accept loop that has not ended is open while the server runs,
so that none spins; and of the connections that an accept loop adds, at most one
comes into a set that `close` has taken. -/
theorem orderly (h : (system reuseport acceptorCount).ReachableWhen Sys.InTurn s) :
    (s.running = true → ∀ a, a < s.acceptors → (s.acceptor a).phase ≠ .ended →
        s.closed (s.acceptor a).socket = false) ∧
      ∀ c e, c < s.connections → e < s.connections → (s.connection c).strayed = true →
        (s.connection e).strayed = true → (s.connection c).acceptor = (s.connection e).acceptor → c = e := by
  have htidy := tidy_of_reachable h
  exact ⟨htidy.listening, htidy.once⟩

/-- A connection is accepted as `close` is called, and comes into such a set; then
the server is started again. -/
theorem orderly_restarted : ∃ s : Sys Unit 1,
    (s.running = true ∧ (s.acceptor 1).phase = .waiting ∧ (s.connection 0).strayed = true) ∧
    (s.running = true → ∀ a, a < s.acceptors → (s.acceptor a).phase ≠ .ended →
        s.closed (s.acceptor a).socket = false) ∧
      ∀ c e, c < s.connections → e < s.connections → (s.connection c).strayed = true →
        (s.connection e).strayed = true → (s.connection c).acceptor = (s.connection e).acceptor → c = e := by
  obtain ⟨s, hs, hstarted⟩ := System.exists_reachable_of_run (M := (system false 1).restrict Sys.InTurn)
    (s := (Sys.new (fun _ => ⟨0, 0, .posted, none, false, false⟩) fun _ => ⟨0, none, false, false, none⟩ : Sys Unit 1))
    [.start (), .advance () true, .advance () true, .advance () true, .advance () true, .advance () true,
      .advance () true, .begin 0, .turn 0 .suspends, .turn 0 .suspends, .turn 0 .suspends, .resume 0 .connection,
      .close (), .advance () true, .advance () true, .advance () true, .advance () true, .advance () true,
      .advance () true, .advance () true, .advance () true, .advance () true, .advance () true, .advance () true,
      .advance () true, .turn 0 .suspends, .turn 0 .suspends, .turn 0 .suspends, .start (), .advance () true,
      .advance () true, .advance () true, .advance () true, .advance () true, .advance () true, .begin 1,
      .turn 1 .suspends, .turn 1 .suspends, .turn 1 .suspends]
    (p := fun s => s.running = true ∧ (s.acceptor 1).phase = .waiting ∧ (s.connection 0).strayed = true)
    ⟨_, _, rfl⟩ (by decide +kernel)
  exact ⟨s, hstarted, orderly hs.of_restrict⟩

end Multiloop.ConnectionPinningServer
