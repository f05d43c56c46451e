import Mathlib.Data.Fintype.Basic
import Multiloop.Framework.Counting
import Multiloop.Framework.Transition

/-!
# The connections that a WSGI worker admits

`_handle_connection` of `multiloop/wsgi.py` counts the connections that it
serves, under a `threading.Lock`: the thread of an event loop waits for it
without running the loop. A connection over the limit is answered under this
lock, in the middle of which the loop runs other connections. If one of them
comes to the lock, the answer is never finished, and the lock is held for ever
(`held_forever_iff`).
-/

namespace Multiloop.Admission

/-- Where a connection is in `_handle_connection`. -/
inductive Pc
  /-- It has not begun. -/
  | accepted
  /-- At the lock, or under it, before it is counted. -/
  | entering
  /-- It is being answered that the server is busy, with the lock held. -/
  | refusing
  | serving
  /-- At the lock of the `finally`, or under it. -/
  | leaving
  | ended
deriving DecidableEq

/-- The connection is counted. -/
def Pc.counted : Pc → Bool
  | .serving | .leaving => true
  | _ => false

/-- The thread of the loop is at the lock, or under it. -/
def Pc.inLock : Pc → Bool
  | .entering | .leaving => true
  | _ => false

structure Sys (Conn Loop : Type) where
  /-- The connection that holds `_sync_task_lock`. -/
  syncTaskLock : Option Conn
  syncTaskCount : Nat
  pc : Conn → Pc
  /-- The connection with which the thread of a loop is at the lock, or under it. -/
  thread : Loop → Option Conn

inductive Action (Conn : Type)
  | begin (c : Conn)
  /-- The lock is taken. -/
  | acquire (c : Conn)
  /-- The lines under the lock. -/
  | locked (c : Conn)
  /-- The answer is finished. -/
  | refused (c : Conn)
  | finish (c : Conn)

namespace Sys

variable {Conn Loop : Type} [DecidableEq Conn] [DecidableEq Loop]

def new : Sys Conn Loop where
  syncTaskLock := none
  syncTaskCount := 0
  pc _ := .accepted
  thread _ := none

variable (s : Sys Conn Loop)

def goto (c : Conn) (pc : Pc) : Sys Conn Loop := { s with pc := Function.update s.pc c pc }

/-- The thread of a loop comes to the lock, or goes on from it. -/
def turn (l : Loop) (c : Option Conn) : Sys Conn Loop := { s with thread := Function.update s.thread l c }

/-- The lines under the lock: of the beginning, up to the first `await` if the
limit is reached, or of the `finally`. -/
def locked (maxSyncWorkers : Nat) (l : Loop) (c : Conn) : Sys Conn Loop :=
  if s.pc c = .entering then
    if s.syncTaskCount ≥ maxSyncWorkers * 3 then (s.goto c .refusing).turn l none
    else ({ s with syncTaskCount := s.syncTaskCount + 1, syncTaskLock := none }.goto c .serving).turn l none
  else ({ s with syncTaskCount := max 0 (s.syncTaskCount - 1), syncTaskLock := none }.goto c .ended).turn l none

/-- `home` is the loop that a connection is pinned to. -/
def step (maxSyncWorkers : Nat) (home : Conn → Loop) : Action Conn → Option (Sys Conn Loop)
  | .begin c =>
    if s.pc c = .accepted ∧ s.thread (home c) = none then some ((s.goto c .entering).turn (home c) (some c)) else none
  | .acquire c =>
    if (s.pc c).inLock ∧ s.syncTaskLock = none then some { s with syncTaskLock := some c } else none
  | .locked c =>
    if (s.pc c).inLock ∧ s.syncTaskLock = some c then some (s.locked maxSyncWorkers (home c) c) else none
  | .refused c =>
    if s.pc c = .refusing ∧ s.thread (home c) = none then some ({ s with syncTaskLock := none }.goto c .ended) else none
  | .finish c =>
    if s.pc c = .serving ∧ s.thread (home c) = none then some ((s.goto c .leaving).turn (home c) (some c)) else none

end Sys

variable {Conn Loop : Type} [DecidableEq Conn] [DecidableEq Loop]

def system (maxSyncWorkers : Nat) (home : Conn → Loop) : System (Sys Conn Loop) (Action Conn) where
  init s := s = .new
  step s := s.step maxSyncWorkers home

/-! ## What a step does -/

/-- A step with connection `c` leaves the others, and the threads of other loops,
where they are. -/
structure Apart (home : Conn → Loop) (s s' : Sys Conn Loop) (c : Conn) : Prop where
  pc : ∀ d, d ≠ c → s'.pc d = s.pc d
  thread : ∀ l, l ≠ home c → s'.thread l = s.thread l

/-- What a step does with connection `c`. -/
inductive Does (maxSyncWorkers : Nat) (home : Conn → Loop) (s s' : Sys Conn Loop) (c : Conn) : Prop
  | comes (hpc : s.pc c = .accepted ∧ s'.pc c = .entering ∨ s.pc c = .serving ∧ s'.pc c = .leaving)
    (hfree : s.thread (home c) = none) (hthread : s'.thread (home c) = some c)
    (hlock : s'.syncTaskLock = s.syncTaskLock) (hcount : s'.syncTaskCount = s.syncTaskCount)
  | takes (hin : (s.pc c).inLock = true) (hfree : s.syncTaskLock = none) (hpc : s'.pc c = s.pc c)
    (hthread : s'.thread (home c) = s.thread (home c)) (hlock : s'.syncTaskLock = some c)
    (hcount : s'.syncTaskCount = s.syncTaskCount)
  | refuses (hin : s.pc c = .entering) (hheld : s.syncTaskLock = some c) (hfull : maxSyncWorkers * 3 ≤ s.syncTaskCount)
    (hpc : s'.pc c = .refusing) (hthread : s'.thread (home c) = none) (hlock : s'.syncTaskLock = some c)
    (hcount : s'.syncTaskCount = s.syncTaskCount)
  | admits (hin : s.pc c = .entering) (hheld : s.syncTaskLock = some c) (hroom : s.syncTaskCount < maxSyncWorkers * 3)
    (hpc : s'.pc c = .serving) (hthread : s'.thread (home c) = none) (hlock : s'.syncTaskLock = none)
    (hcount : s'.syncTaskCount = s.syncTaskCount + 1)
  | leaves (hin : s.pc c = .leaving) (hheld : s.syncTaskLock = some c) (hpc : s'.pc c = .ended)
    (hthread : s'.thread (home c) = none) (hlock : s'.syncTaskLock = none)
    (hcount : s'.syncTaskCount = s.syncTaskCount - 1)
  | refused (hin : s.pc c = .refusing) (hfree : s.thread (home c) = none) (hpc : s'.pc c = .ended)
    (hthread : s'.thread (home c) = none) (hlock : s'.syncTaskLock = none)
    (hcount : s'.syncTaskCount = s.syncTaskCount)

variable {maxSyncWorkers : Nat} {home : Conn → Loop} {s s' : Sys Conn Loop} {a : Action Conn} {c g : Conn}

theorem step_does (hst : s.step maxSyncWorkers home a = some s') :
    ∃ c, Apart home s s' c ∧ Does maxSyncWorkers home s s' c := by
  have hpcs : ∀ (c : Conn) (q : Pc) (d : Conn), d ≠ c → Function.update s.pc c q d = s.pc d :=
    fun c q d hd => Function.update_of_ne hd ..
  have hthreads : ∀ (c : Conn) (o : Option Conn) (l : Loop), l ≠ home c →
      Function.update s.thread (home c) o l = s.thread l :=
    fun c o l hl => Function.update_of_ne hl ..
  cases a with
  | begin c =>
    obtain ⟨hcond, heq⟩ := Option.ite_none_right_eq_some.1 hst
    cases heq
    exact ⟨c, ⟨hpcs c _, hthreads c _⟩,
      .comes (.inl ⟨hcond.1, Function.update_self ..⟩) hcond.2 (Function.update_self ..) rfl rfl⟩
  | acquire c =>
    obtain ⟨hcond, heq⟩ := Option.ite_none_right_eq_some.1 hst
    cases heq
    exact ⟨c, ⟨fun _ _ => rfl, fun _ _ => rfl⟩, .takes hcond.1 hcond.2 rfl rfl rfl rfl⟩
  | locked c =>
    obtain ⟨⟨hin, hheld⟩, heq⟩ := Option.ite_none_right_eq_some.1 hst
    obtain rfl := Option.some.inj heq
    unfold Sys.locked
    by_cases hentering : s.pc c = .entering
    · rw [if_pos hentering]
      split
      · rename_i hfull
        exact ⟨c, ⟨hpcs c _, hthreads c _⟩,
          .refuses hentering hheld hfull (Function.update_self ..) (Function.update_self ..) hheld rfl⟩
      · rename_i hroom
        exact ⟨c, ⟨hpcs c _, hthreads c _⟩,
          .admits hentering hheld (Nat.not_le.1 hroom) (Function.update_self ..) (Function.update_self ..) rfl rfl⟩
    · rw [if_neg hentering]
      have hleaving : s.pc c = .leaving := by
        cases hpc : s.pc c with
        | leaving => rfl
        | entering => exact absurd hpc hentering
        | accepted | refusing | serving | ended =>
          rw [hpc] at hin
          cases hin
      exact ⟨c, ⟨hpcs c _, hthreads c _⟩, .leaves hleaving hheld (Function.update_self ..) (Function.update_self ..) rfl
        (Nat.max_eq_right (Nat.zero_le _))⟩
  | refused c =>
    obtain ⟨hcond, heq⟩ := Option.ite_none_right_eq_some.1 hst
    cases heq
    exact ⟨c, ⟨hpcs c _, fun _ _ => rfl⟩, .refused hcond.1 hcond.2 (Function.update_self ..) hcond.2 rfl rfl⟩
  | finish c =>
    obtain ⟨hcond, heq⟩ := Option.ite_none_right_eq_some.1 hst
    cases heq
    exact ⟨c, ⟨hpcs c _, hthreads c _⟩,
      .comes (.inr ⟨hcond.1, Function.update_self ..⟩) hcond.2 (Function.update_self ..) rfl rfl⟩

/-! ## Who holds the lock -/

structure Sound (home : Conn → Loop) (s : Sys Conn Loop) : Prop where
  /-- The lock is held by a thread that runs, or by an answer that does not. -/
  held : ∀ c, s.syncTaskLock = some c → (s.pc c).inLock = true ∨ s.pc c = .refusing
  refusing : ∀ c, s.pc c = .refusing → s.syncTaskLock = some c
  thread : ∀ c, (s.pc c).inLock = true ↔ s.thread (home c) = some c

/-- What the three conditions of a connection are after its step is enough. -/
theorem Sound.of_step (h : Sound home s) (hapart : Apart home s s' c) (hheld : s'.syncTaskLock = some c →
      (s'.pc c).inLock = true ∨ s'.pc c = .refusing)
    (hothers : ∀ d, d ≠ c → (s'.syncTaskLock = some d ↔ s.syncTaskLock = some d))
    (hrefusing : s'.pc c = .refusing → s'.syncTaskLock = some c)
    (hthread : (s'.pc c).inLock = true ↔ s'.thread (home c) = some c)
    (hloop : ∀ d, d ≠ c → (s'.thread (home c) = some d ↔ s.thread (home c) = some d)) : Sound home s' := by
  refine ⟨fun d hd => ?_, fun d hd => ?_, fun d => ?_⟩
  · by_cases hdc : d = c
    · subst hdc
      exact hheld hd
    · rw [hapart.pc d hdc]
      exact h.held d ((hothers d hdc).1 hd)
  · by_cases hdc : d = c
    · subst hdc
      exact hrefusing hd
    · rw [hapart.pc d hdc] at hd
      exact (hothers d hdc).2 (h.refusing d hd)
  · by_cases hdc : d = c
    · subst hdc
      exact hthread
    · rw [hapart.pc d hdc, h.thread d]
      by_cases hl : home d = home c
      · rw [hl]
        exact (hloop d hdc).symm
      · rw [hapart.thread _ hl]

omit [DecidableEq Conn] in
/-- What one connection had or has is nobody else's. -/
theorem mine_iff {x y : Option Conn} {d : Conn} (hd : d ≠ c) (hx : x = none ∨ x = some c) (hy : y = none ∨ y = some c) :
    y = some d ↔ x = some d := by
  have hnot : ∀ {z : Option Conn}, z = none ∨ z = some c → z ≠ some d := by
    rintro z (rfl | rfl) hz
    · cases hz
    · exact hd (Option.some.inj hz).symm
  exact ⟨fun h => absurd h (hnot hy), fun h => absurd h (hnot hx)⟩

theorem Sound.step (h : Sound home s) (hst : s.step maxSyncWorkers home a = some s') : Sound home s' := by
  obtain ⟨c, hapart, hdoes⟩ := step_does hst
  cases hdoes with
  | comes hpc hfree hthread hlock _ =>
    have hin : (s'.pc c).inLock = true := by
      rcases hpc with ⟨-, hpc⟩ | ⟨-, hpc⟩
      · rw [hpc]
        rfl
      · rw [hpc]
        rfl
    refine h.of_step hapart (fun _ => .inl hin) (fun d _ => by rw [hlock]) (fun hq => ?_)
      ⟨fun _ => hthread, fun _ => hin⟩ fun d hd => mine_iff hd (.inl hfree) (.inr hthread)
    rw [hq] at hin
    cases hin
  | takes hin hfree hpc hthread hlock _ =>
    rw [← hpc] at hin
    refine h.of_step hapart (fun _ => .inl hin) (fun d hd => mine_iff hd (.inl hfree) (.inr hlock)) (fun _ => hlock) ?_
      fun d _ => by rw [hthread]
    rw [hpc, hthread]
    exact h.thread c
  | refuses hin hheld _ hpc hthread hlock _ =>
    have hthread₀ : s.thread (home c) = some c := (h.thread c).1 (by rw [hin]; rfl)
    refine h.of_step hapart (fun _ => .inr hpc) (fun d _ => by rw [hlock, hheld]) (fun _ => hlock) ?_
      fun d hd => mine_iff hd (.inr hthread₀) (.inl hthread)
    rw [hpc, hthread]
    exact ⟨nofun, nofun⟩
  | admits hin hheld _ hpc hthread hlock _ =>
    have hthread₀ : s.thread (home c) = some c := (h.thread c).1 (by rw [hin]; rfl)
    refine h.of_step hapart (fun hq => ?_) (fun d hd => mine_iff hd (.inr hheld) (.inl hlock)) (fun hq => ?_) ?_
      fun d hd => mine_iff hd (.inr hthread₀) (.inl hthread)
    · cases hlock.symm.trans hq
    · cases hpc.symm.trans hq
    · rw [hpc, hthread]
      exact ⟨nofun, nofun⟩
  | leaves hin hheld hpc hthread hlock _ =>
    have hthread₀ : s.thread (home c) = some c := (h.thread c).1 (by rw [hin]; rfl)
    refine h.of_step hapart (fun hq => ?_) (fun d hd => mine_iff hd (.inr hheld) (.inl hlock)) (fun hq => ?_) ?_
      fun d hd => mine_iff hd (.inr hthread₀) (.inl hthread)
    · cases hlock.symm.trans hq
    · cases hpc.symm.trans hq
    · rw [hpc, hthread]
      exact ⟨nofun, nofun⟩
  | refused hin hfree hpc hthread hlock _ =>
    have hheld := h.refusing c hin
    refine h.of_step hapart (fun hq => ?_) (fun d hd => mine_iff hd (.inr hheld) (.inl hlock)) (fun hq => ?_) ?_
      fun d hd => mine_iff hd (.inl hfree) (.inl hthread)
    · cases hlock.symm.trans hq
    · cases hpc.symm.trans hq
    · rw [hpc, hthread]
      exact ⟨nofun, nofun⟩

theorem sound_of_reachable (h : (system maxSyncWorkers home).Reachable s) : Sound home s := by
  refine System.Reachable.inv ?_ ?_ h
  · rintro s rfl
    exact ⟨nofun, nofun, fun _ => ⟨nofun, nofun⟩⟩
  · exact fun s a s' hs hst => hs.step hst

/-! ## The count -/

theorem count_of_step [Fintype Conn] (hsum : ∑ c, (s.pc c).counted.toNat = s.syncTaskCount)
    (hlimit : s.syncTaskCount ≤ maxSyncWorkers * 3) (hst : s.step maxSyncWorkers home a = some s') :
    ∑ c, (s'.pc c).counted.toNat = s'.syncTaskCount ∧ s'.syncTaskCount ≤ maxSyncWorkers * 3 := by
  obtain ⟨c, hapart, hdoes⟩ := step_does hst
  have hstep := sum_step (f := fun c => (s.pc c).counted.toNat) (g := fun c => (s'.pc c).counted.toNat) c
    fun d hd => by rw [hapart.pc d hd]
  rw [hsum] at hstep
  cases hdoes with
  | comes hpc _ _ _ hcount =>
    have hsame : (s'.pc c).counted = (s.pc c).counted := by
      rcases hpc with ⟨hpc, hpc'⟩ | ⟨hpc, hpc'⟩
      · rw [hpc, hpc']
        rfl
      · rw [hpc, hpc']
        rfl
    rw [hsame] at hstep
    omega
  | takes _ _ hpc _ _ hcount =>
    rw [hpc] at hstep
    omega
  | refuses hin _ _ hpc _ _ hcount =>
    rw [hin, hpc] at hstep
    change _ + 0 = _ + 0 at hstep
    omega
  | admits hin _ hroom hpc _ _ hcount =>
    rw [hin, hpc] at hstep
    change _ + 0 = _ + 1 at hstep
    omega
  | leaves hin _ hpc _ _ hcount =>
    rw [hin, hpc] at hstep
    change _ + 1 = _ + 0 at hstep
    omega
  | refused hin _ hpc _ _ hcount =>
    rw [hin, hpc] at hstep
    change _ + 0 = _ + 0 at hstep
    omega

/-- The count is that of the connections that are served, and of those that have
not yet been counted out; it does not go over the limit. -/
theorem count_eq_served [Fintype Conn] (h : (system maxSyncWorkers home).Reachable s) :
    ∑ c, (s.pc c).counted.toNat = s.syncTaskCount ∧ s.syncTaskCount ≤ maxSyncWorkers * 3 := by
  refine System.Reachable.inv
    (I := fun s => ∑ c, (s.pc c).counted.toNat = s.syncTaskCount ∧ s.syncTaskCount ≤ maxSyncWorkers * 3) ?_ ?_ h
  · rintro s rfl
    exact ⟨Finset.sum_const_zero, Nat.zero_le _⟩
  · exact fun s a s' hs hst => count_of_step hs.1 hs.2 hst

/-! ## A lock that is not given back -/

/-- The answer to `g` waits for its loop, whose thread waits for the lock. -/
def Wedged (home : Conn → Loop) (s : Sys Conn Loop) (g : Conn) : Prop :=
  s.pc g = .refusing ∧ s.thread (home g) ≠ none

theorem Wedged.step (hsound : Sound home s) (h : Wedged home s g) (hst : s.step maxSyncWorkers home a = some s') :
    Wedged home s' g ∧ ∀ c, (s'.pc c).counted = (s.pc c).counted ∧ (s'.pc c = .ended ↔ s.pc c = .ended) := by
  have hheld := hsound.refusing g h.1
  obtain ⟨c, hapart, hdoes⟩ := step_does hst
  have hnone : s.syncTaskLock ≠ none := by
    rw [hheld]
    exact nofun
  have hmine : s.syncTaskLock = some c → s.pc c = .refusing := by
    intro hlock
    obtain rfl := Option.some.inj (hheld.symm.trans hlock)
    exact h.1
  cases hdoes with
  | comes hpc hfree hthread _ _ =>
    have hcg : g ≠ c := by
      rintro rfl
      rcases hpc with ⟨hpc, -⟩ | ⟨hpc, -⟩
      · cases hpc.symm.trans h.1
      · cases hpc.symm.trans h.1
    have hloop : home g ≠ home c := fun hl => h.2 (by rw [hl]; exact hfree)
    refine ⟨⟨(hapart.pc g hcg).trans h.1, by rw [hapart.thread _ hloop]; exact h.2⟩, fun d => ?_⟩
    by_cases hdc : d = c
    · subst hdc
      rcases hpc with ⟨hpc, hpc'⟩ | ⟨hpc, hpc'⟩
      · rw [hpc, hpc']
        exact ⟨rfl, nofun, nofun⟩
      · rw [hpc, hpc']
        exact ⟨rfl, nofun, nofun⟩
    · rw [hapart.pc d hdc]
      exact ⟨rfl, .rfl⟩
  | takes _ hfree _ _ _ _ => exact absurd hfree hnone
  | refuses hin hlock _ _ _ _ _ => cases hin.symm.trans (hmine hlock)
  | admits hin hlock _ _ _ _ _ => cases hin.symm.trans (hmine hlock)
  | leaves hin hlock _ _ _ _ => cases hin.symm.trans (hmine hlock)
  | refused hin hfree _ _ _ _ =>
    obtain rfl := Option.some.inj (hheld.symm.trans (hsound.refusing c hin))
    exact absurd hfree h.2

theorem Wedged.run (hsound : Sound home s) (h : Wedged home s g)
    (hs' : ((system maxSyncWorkers home).starting s).Reachable s') :
    Wedged home s' g ∧ ∀ c, (s'.pc c).counted = (s.pc c).counted ∧ (s'.pc c = .ended ↔ s.pc c = .ended) := by
  have hall : Sound home s' ∧ Wedged home s' g ∧
      ∀ c, (s'.pc c).counted = (s.pc c).counted ∧ (s'.pc c = .ended ↔ s.pc c = .ended) := by
    refine System.Reachable.inv (I := fun s' => Sound home s' ∧ Wedged home s' g ∧
      ∀ c, (s'.pc c).counted = (s.pc c).counted ∧ (s'.pc c = .ended ↔ s.pc c = .ended)) ?_ ?_ hs'
    · rintro s' rfl
      exact ⟨hsound, h, fun c => ⟨rfl, .rfl⟩⟩
    · rintro s₁ a s₂ ⟨hsound₁, hwedged, hsame⟩ hst
      obtain ⟨hwedged', hsame'⟩ := hwedged.step hsound₁ hst
      exact ⟨hsound₁.step hst, hwedged', fun c => ⟨(hsame' c).1.trans (hsame c).1, (hsame' c).2.trans (hsame c).2⟩⟩
  exact hall.2

/-- An answer whose loop runs is finished. -/
theorem refused_releases (hpc : s.pc g = .refusing) (hfree : s.thread (home g) = none) :
    ∃ s', s.step maxSyncWorkers home (.refused g) = some s' ∧ s'.syncTaskLock = none :=
  ⟨_, if_pos ⟨hpc, hfree⟩, rfl⟩

/-- The lock is given back, unless it is held by such an answer. -/
theorem exists_release (hsound : Sound home s) (hheld : s.syncTaskLock = some g) (h : ¬ Wedged home s g) :
    ∃ s', ((system maxSyncWorkers home).starting s).Reachable s' ∧ s'.syncTaskLock = none := by
  have hstep : ∀ {s₁ s₂ : Sys Conn Loop} {a}, ((system maxSyncWorkers home).starting s).Reachable s₁ →
      s₁.step maxSyncWorkers home a = some s₂ → ((system maxSyncWorkers home).starting s).Reachable s₂ :=
    fun h₁ hst => h₁.step trivial hst
  have hstart : ((system maxSyncWorkers home).starting s).Reachable s := .init rfl
  rcases hsound.held g hheld with hin | hpc
  · have hst : s.step maxSyncWorkers home (.locked g) = some (s.locked maxSyncWorkers (home g) g) := if_pos ⟨hin, hheld⟩
    unfold Sys.locked at hst
    by_cases hentering : s.pc g = .entering
    · rw [if_pos hentering] at hst
      split at hst
      · obtain ⟨s', hst', hnone⟩ := @refused_releases _ _ _ _ maxSyncWorkers home
          ((s.goto g .refusing).turn (home g) none) g (Function.update_self ..) (Function.update_self ..)
        exact ⟨s', hstep (hstep hstart hst) hst', hnone⟩
      · exact ⟨_, hstep hstart hst, rfl⟩
    · rw [if_neg hentering] at hst
      exact ⟨_, hstep hstart hst, rfl⟩
  · have hfree : s.thread (home g) = none := Classical.byContradiction fun hbusy => h ⟨hpc, hbusy⟩
    obtain ⟨s', hst, hnone⟩ := @refused_releases _ _ _ _ maxSyncWorkers home s g hpc hfree
    exact ⟨s', hstep hstart hst, hnone⟩

/-- The lock is held for ever exactly if it is held by the answer to a connection
whose loop waits for it. From then on no connection is admitted, and none of
those that are served comes to its end. -/
theorem held_forever_iff (h : (system maxSyncWorkers home).Reachable s) (hheld : s.syncTaskLock = some g) :
    ((∀ s', ((system maxSyncWorkers home).starting s).Reachable s' → s'.syncTaskLock = some g) ↔ Wedged home s g) ∧
    (Wedged home s g → ∀ s', ((system maxSyncWorkers home).starting s).Reachable s' →
      ∀ c, (s'.pc c).counted = (s.pc c).counted ∧ (s'.pc c = .ended ↔ s.pc c = .ended)) := by
  have hsound := sound_of_reachable h
  refine ⟨⟨fun hforever => ?_, fun hwedged s' hs' => ?_⟩, fun hwedged s' hs' => (hwedged.run hsound hs').2⟩
  · refine Classical.byContradiction fun hnot => ?_
    obtain ⟨s', hs', hnone⟩ := exists_release hsound hheld hnot
    cases hnone.symm.trans (hforever s' hs')
  · exact (sound_of_reachable (h.append hs')).refusing g (hwedged.run hsound hs').1.1

/-- Four workers admit twelve connections. -/
def wedgingRun : List (Action (Fin 14)) :=
  ((List.finRange 14).flatMap fun c => [.begin c, .acquire c, .locked c]).take 40

/-- The thirteenth connection is being refused when another one comes to its
loop. -/
theorem held_forever_refusing : ∃ s : Sys (Fin 14) Unit, s.syncTaskCount = 12 ∧
    ∀ s', ((system 4 fun _ => ()).starting s).Reachable s' → s'.syncTaskLock = some 12 := by
  obtain ⟨s, hs, hcount, hheld, hpc, hthread⟩ := System.exists_reachable_of_run (M := system 4 fun _ : Fin 14 => ())
    (s := .new) wedgingRun (p := fun s => s.syncTaskCount = 12 ∧ s.syncTaskLock = some 12 ∧ s.pc 12 = .refusing ∧
      s.thread () = some 13) rfl (by decide +kernel)
  exact ⟨s, hcount, (held_forever_iff hs hheld).1.2 ⟨hpc, by rw [hthread]; exact nofun⟩⟩

/-- Two of four connections have been let in, and one of them has left. -/
theorem count_eq_served_two : ∃ s : Sys (Fin 4) Unit, s.pc 0 = .ended ∧ ∑ c, (s.pc c).counted.toNat = 1 := by
  obtain ⟨s, hs, hpc, hcount⟩ := System.exists_reachable_of_run (M := system 4 fun _ : Fin 4 => ()) (s := .new)
    [.begin 0, .acquire 0, .locked 0, .begin 1, .acquire 1, .locked 1, .finish 0, .acquire 0, .locked 0]
    (p := fun s => s.pc 0 = .ended ∧ s.syncTaskCount = 1) rfl (by decide +kernel)
  exact ⟨s, hpc, (count_eq_served hs).1.trans hcount⟩

end Multiloop.Admission
