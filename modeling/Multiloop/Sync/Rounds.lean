import Mathlib.Data.List.Nodup
import Mathlib.Data.List.Perm.Basic
import Multiloop.Sync.Barrier

/-!
# The rounds of a `Barrier`

The calls of `wait` that were let in form rounds (`group`), by the generation
they arrived in. A round is complete when it has as many members as the
barrier has parties; then each member's index is its place in the round, the
last one's 0. `Sound` holds in every state of every run over a barrier.
-/

namespace Multiloop.Sync.Barrier

variable {Loop Task : Type} [DecidableEq Task]

/-! ## Boxes -/

theorem fill_other {box : Fut Task → Option Int} {ws : List (Waiter Loop Task)} {e : Fut Task}
    (he : e ∉ ws.map Prod.fst) (idx : Int) : fill box idx ws e = box e := by
  induction ws generalizing box idx with
  | nil => rfl
  | cons w ws ih =>
    rw [List.map_cons, List.mem_cons, not_or] at he
    show fill (Function.update box w.1 (some idx)) (idx + 1) ws e = box e
    rw [ih he.2, Function.update_of_ne he.1]

theorem fill_at {box : Fut Task → Option Int} {ws : List (Waiter Loop Task)} (hnd : (ws.map Prod.fst).Nodup)
    {i : Nat} {e : Fut Task} (hi : (ws.map Prod.fst)[i]? = some e) (idx : Int) :
    fill box idx ws e = some (idx + i) := by
  induction ws generalizing box idx i with
  | nil => simp at hi
  | cons w ws ih =>
    rw [List.map_cons, List.nodup_cons] at hnd
    show fill (Function.update box w.1 (some idx)) (idx + 1) ws e = _
    cases i with
    | zero =>
      have hwe : w.1 = e := by simpa using hi
      rw [← hwe, fill_other hnd.1, Function.update_self]
      simp
    | succ i =>
      rw [ih hnd.2 (by simpa using hi)]
      congr 1
      push_cast
      omega

theorem mark_other {box : Fut Task → Option Int} {ws : List (Waiter Loop Task)} {e : Fut Task}
    (he : e ∉ ws.map Prod.fst) : mark box ws e = box e := by
  induction ws generalizing box with
  | nil => rfl
  | cons w ws ih =>
    rw [List.map_cons, List.mem_cons, not_or] at he
    show mark (Function.update box w.1 (some (-1))) ws e = box e
    rw [ih he.2, Function.update_of_ne he.1]

/-- The boxes of the waiters get the mark, the others stay. -/
theorem mark_cases (box : Fut Task → Option Int) (ws : List (Waiter Loop Task)) (e : Fut Task) :
    mark box ws e = box e ∨ mark box ws e = some (-1) := by
  induction ws generalizing box with
  | nil => exact .inl rfl
  | cons w ws ih =>
    rcases ih (Function.update box w.1 (some (-1))) with h | h
    · by_cases hwe : e = w.1
      · refine .inr (h.trans ?_)
        rw [hwe, Function.update_self]
      · exact .inl (h.trans (Function.update_of_ne hwe ..))
    · exact .inr h

namespace Sys

variable {home : Task → Loop} {parties : Nat} {s s' : Sys Loop Task} {t u : Task} {e : Fut Task}

/-! ## Rounds -/

omit [DecidableEq Task] in
/-- The members of round `g`, in the order of arrival. -/
def group (s : Sys Loop Task) (g : Nat) : List (Fut Task) := (s.arrivals.filter fun a => a.2 = g).map Prod.fst

omit [DecidableEq Task] in
theorem mem_group {g : Nat} {e : Fut Task} : e ∈ s.group g ↔ (e, g) ∈ s.arrivals := by
  unfold group
  rw [List.mem_map]
  constructor
  · rintro ⟨⟨f, k⟩, hm, rfl⟩
    obtain ⟨hm, hk⟩ := List.mem_filter.1 hm
    have hkg : k = g := of_decide_eq_true hk
    rw [← hkg]
    exact hm
  · intro hm
    exact ⟨(e, g), List.mem_filter.2 ⟨hm, decide_eq_true rfl⟩, rfl⟩

omit [DecidableEq Task] in
/-- One more arrival. -/
theorem group_append {e : Fut Task} {g : Nat} (hs : s'.arrivals = s.arrivals ++ [(e, g)]) (k : Nat) :
    s'.group k = s.group k ++ if g = k then [e] else [] := by
  unfold group
  rw [hs, List.filter_append, List.map_append]
  congr 1
  by_cases hgk : g = k
  · simp [hgk]
  · simp [hgk]

omit [DecidableEq Task] in
/-- Nobody arrives in round `g` any more. -/
def Over (s : Sys Loop Task) (g : Nat) : Prop := g < s.barrier.generation ∨ s.barrier.aborted = true

/-- Task `t` is in a call that was registered in round `g`. -/
structure Seated (parties : Nat) (s : Sys Loop Task) (t : Task) (e : Fut Task) (g : Nat) : Prop where
  owner : e.owner = t
  running : s.outcome e = none
  place : ∃ i, (s.group g)[i]? = some e ∧ i + 1 < parties

/-- A task is in order in its place. -/
def Seat (parties : Nat) (s : Sys Loop Task) (t : Task) : Pc Task → Prop
  | .outside => True
  | .waiting e g => s.Seated parties t e g
  | .breaking e g => s.Seated parties t e g ∧ s.asked t = true
  | .reading e g => s.Seated parties t e g ∧ s.Over g

omit [DecidableEq Task] in
theorem Seat.mono {p : Pc Task} (h : s.Seat parties u p)
    (hs : ∀ f g, s.Seated parties u f g → s'.Seated parties u f g) (ha : s.asked u = true → s'.asked u = true)
    (ho : ∀ f g, s.Seated parties u f g → s.Over g → s'.Over g) : s'.Seat parties u p := by
  cases p with
  | outside => trivial
  | waiting f g => exact hs f g h
  | breaking f g => exact ⟨hs f g h.1, ha h.2⟩
  | reading f g => exact ⟨hs f g h.1, ho f g h.1 h.2⟩

/-- What the outcome of a member of round `g` says of the round. -/
def Ended (parties : Nat) (s : Sys Loop Task) (g : Nat) (e : Fut Task) : Outcome → Prop
  | .returned k => (s.group g).length = parties ∧ ∃ i, (s.group g)[i]? = some e ∧ k = ((i + 1) % parties : Nat)
  | .error _ => (s.group g).length < parties ∧ s.Over g
  | .cancelled => s.asked e.owner = true

/-- The rounds so far. -/
structure Rounds (parties : Nat) (s : Sys Loop Task) : Prop where
  nodup : (s.arrivals.map Prod.fst).Nodup
  most : ∀ g, (s.group g).length ≤ parties
  filled : ∀ g, (s.group g).length = parties → ∀ i e, (s.group g)[i]? = some e → i + 1 < parties →
    s.barrier.box e = some ((i : Int) + 1)
  unfilled : ∀ g, (s.group g).length < parties → ∀ e ∈ s.group g,
    s.barrier.box e = none ∨ s.barrier.box e = some (-1)
  ended : ∀ g e, e ∈ s.group g → ∀ o, s.outcome e = some o → s.Ended parties g e o
  past : ∀ g e, e ∈ s.group g → g ≤ s.barrier.generation ∧ e.serial < s.host.created e.owner

/-- What the barrier, its rounds and the host have to do with each other. -/
structure Sound (home : Task → Loop) (parties : Nat) (s : Sys Loop Task) : Prop where
  rounds : s.Rounds parties
  size : s.barrier.parties = parties
  wired : s.host.Wired home s.waits (s.barrier.waiters.map Prod.fst)
  blamed : s.host.CancelledBy s.asked
  loops : ∀ w ∈ s.barrier.waiters, w.2 = home w.1.owner
  fresh : ∀ e, s.host.created e.owner ≤ e.serial → s.outcome e = none ∧ s.barrier.box e = none
  queue : s.barrier.aborted = false → s.barrier.waiters.map Prod.fst = s.group s.barrier.generation
  cleared : s.barrier.aborted = true → s.barrier.waiters = []
  current : (s.group s.barrier.generation).length < parties
  seats : ∀ t, s.Seat parties t (s.pc t)

omit [DecidableEq Task] in
/-- A call is in one round. -/
theorem Rounds.group_inj (h : s.Rounds parties) {g k : Nat} {e : Fut Task} (hg : e ∈ s.group g)
    (hk : e ∈ s.group k) :
    g = k := by
  have heq := List.inj_on_of_nodup_map h.nodup (mem_group.1 hg) (mem_group.1 hk) rfl
  exact congrArg Prod.snd heq

omit [DecidableEq Task] in
theorem Rounds.group_nodup (h : s.Rounds parties) (g : Nat) : (s.group g).Nodup :=
  h.nodup.sublist (List.filter_sublist.map Prod.fst)

theorem sound_new (hp : 0 < parties) : (new parties : Sys Loop Task).Sound home parties where
  rounds := {
    nodup := List.nodup_nil
    most := fun g => Nat.zero_le _
    filled := fun g _ i e hi => by cases hi
    unfilled := fun g _ e he => absurd he List.not_mem_nil
    ended := fun g e he => absurd he List.not_mem_nil
    past := fun g e he => absurd he List.not_mem_nil }
  size := rfl
  wired := Host.wired_new
  blamed := Host.cancelledBy_new
  loops _ hw := absurd hw List.not_mem_nil
  fresh _ _ := ⟨rfl, rfl⟩
  queue _ := rfl
  cleared _ := rfl
  current := hp
  seats _ := trivial

/-! ## One step -/

omit [DecidableEq Task] in
theorem waits_of_pc {p : Pc Task} (h : s.pc t = p) : s.waits t = p.event? := by
  rw [← h]
  rfl

theorem waits_goto (p : Pc Task) : (s.goto t p).waits = Function.update s.waits t p.event? :=
  Function.comp_update Pc.event? s.pc t p

/-- A change of the host, and of who was asked to cancel. -/
theorem Sound.ofHost (h : s.Sound home parties) {host : Host Loop Task} {asked : Task → Bool}
    (hw : host.Wired home s.waits (s.barrier.waiters.map Prod.fst)) (hb : host.CancelledBy asked)
    (hc : ∀ t, s.host.created t ≤ host.created t) (ha : ∀ t, s.asked t = true → asked t = true) :
    Sound home parties { s with host, asked } := by
  have hr := h.rounds
  refine ⟨⟨hr.nodup, hr.most, hr.filled, hr.unfilled, ?_, ?_⟩, h.size, hw, hb, h.loops, ?_, h.queue, h.cleared,
    h.current, fun u => (h.seats u).mono (fun f g hf => ⟨hf.owner, hf.running, hf.place⟩) (ha u) fun f g _ hov => hov⟩
  · intro g e he o ho
    have hend := hr.ended g e he o ho
    cases o with
    | returned k => exact hend
    | error r => exact hend
    | cancelled => exact ha _ hend
  · intro g e he
    obtain ⟨hg, hlt⟩ := hr.past g e he
    exact ⟨hg, Nat.lt_of_lt_of_le hlt (hc _)⟩
  · intro e he
    exact h.fresh e (Nat.le_trans (hc _) he)

/-- A task goes on within its call. -/
theorem Sound.goto (h : s.Sound home parties) {p : Pc Task}
    (hw : s.host.Wired home (Function.update s.waits t p.event?) (s.barrier.waiters.map Prod.fst))
    (hp : s.Seat parties t p) :
    (s.goto t p).Sound home parties := by
  have hr := h.rounds
  refine ⟨⟨hr.nodup, hr.most, hr.filled, hr.unfilled, hr.ended, hr.past⟩, h.size, ?_, h.blamed, h.loops, h.fresh,
    h.queue, h.cleared, h.current, fun u => ?_⟩
  · rw [waits_goto]
    exact hw
  · have hkeep : ∀ {q}, s.Seat parties u q → (s.goto t p).Seat parties u q := fun hq =>
      hq.mono (fun f g hf => ⟨hf.owner, hf.running, hf.place⟩) id fun f g _ hov => hov
    show Seat parties _ u (Function.update s.pc t p u)
    by_cases hu : u = t
    · subst hu
      rw [Function.update_self]
      exact hkeep hp
    · rw [Function.update_of_ne hu]
      exact hkeep (h.seats u)

/-- A call ends. -/
theorem Sound.leave (h : s.Sound home parties) {e : Fut Task} {o : Outcome} (ho : e.owner = t)
    (hwait : s.waits t = none ∨ s.waits t = some e) (hq : e ∉ s.barrier.waiters.map Prod.fst)
    (hlt : e.serial < s.host.created t) (hend : ∀ g, e ∈ s.group g → s.Ended parties g e o) :
    (s.leave t e o).Sound home parties := by
  have hr := h.rounds
  refine ⟨⟨hr.nodup, hr.most, hr.filled, hr.unfilled, ?_, hr.past⟩, h.size, ?_, h.blamed, h.loops, ?_, h.queue,
    h.cleared, h.current, fun u => ?_⟩
  · intro g f hf r hout
    have houtcome : Function.update s.outcome e (some o) f = some r := hout
    by_cases hfe : f = e
    · rw [hfe, Function.update_self] at houtcome
      rw [hfe, ← Option.some.inj houtcome]
      exact hend g (hfe ▸ hf)
    · rw [Function.update_of_ne hfe] at houtcome
      exact hr.ended g f hf r houtcome
  · show s.host.Wired home (Sys.goto _ t .outside).waits _
    rw [waits_goto]
    show s.host.Wired home (Function.update s.waits t none) _
    rcases hwait with hnone | hsome
    · rw [← hnone, Function.update_eq_self]
      exact h.wired
    · exact h.wired.depart hsome hq
  · intro f hf
    obtain ⟨hout, hbox⟩ := h.fresh f hf
    refine ⟨?_, hbox⟩
    have hfe : f ≠ e := by
      intro hfe
      have hle : s.host.created f.owner ≤ f.serial := hf
      rw [hfe, ho] at hle
      omega
    show Function.update s.outcome e (some o) f = none
    rw [Function.update_of_ne hfe]
    exact hout
  · show Seat parties _ u (Function.update s.pc t .outside u)
    by_cases hu : u = t
    · rw [hu, Function.update_self]
      trivial
    · rw [Function.update_of_ne hu]
      refine (h.seats u).mono (fun f g hf => ⟨hf.owner, ?_, hf.place⟩) id fun f g _ hov => hov
      have hfe : f ≠ e := by
        intro hfe
        exact hu (hf.owner.symm.trans (hfe ▸ ho))
      show Function.update s.outcome e (some o) f = none
      rw [Function.update_of_ne hfe]
      exact hf.running

omit [DecidableEq Task] in
/-- Nobody has arrived in a later round. -/
theorem Rounds.later (h : s.Rounds parties) {g : Nat} (hg : s.barrier.generation < g) : s.group g = [] := by
  rw [List.eq_nil_iff_forall_not_mem]
  intro e he
  have hle := (h.past g e he).1
  omega

/-- The current round ends without another arrival. -/
theorem Sound.clear (h : s.Sound home parties) {b : Barrier Loop Task} (hw : b.waiters = s.barrier.waiters)
    (hp : b.parties = s.barrier.parties)
    (hover : b.generation = s.barrier.generation + 1 ∨ b.generation = s.barrier.generation ∧ b.aborted = true)
    (hbox : ∀ e, b.box e = s.barrier.box e ∨ b.box e = some (-1) ∧ e ∈ s.group s.barrier.generation) :
    (wakeAll { s with barrier := b }).Sound home parties := by
  have hr := h.rounds
  have hmono : ∀ g, g ≤ s.barrier.generation → s.Over g → (wakeAll { s with barrier := b }).Over g := by
    intro g hg hov
    rcases hover with hnext | ⟨-, habort⟩
    · refine .inl ?_
      show g < b.generation
      omega
    · exact .inr habort
  refine ⟨⟨hr.nodup, hr.most, ?_, ?_, ?_, ?_⟩, hp.trans h.size, ?_, ?_, fun w hm => absurd hm List.not_mem_nil, ?_, ?_,
    fun _ => rfl, ?_, ?_⟩
  · intro g hg i e hi hlt
    rcases hbox e with hsame | ⟨-, hcur⟩
    · exact hsame.trans (hr.filled g hg i e hi hlt)
    · have hgg := hr.group_inj (List.mem_of_getElem? hi) hcur
      have hcurrent := h.current
      rw [← hgg] at hcurrent
      have hfull : (s.group g).length = parties := hg
      omega
  · intro g hg e he
    rcases hbox e with hsame | ⟨hmark, -⟩
    · show b.box e = none ∨ b.box e = some (-1)
      rw [hsame]
      exact hr.unfilled g hg e he
    · exact .inr hmark
  · intro g e he o ho
    have hend := hr.ended g e he o ho
    cases o with
    | returned k => exact hend
    | error r => exact ⟨hend.1, hmono g (hr.past g e he).1 hend.2⟩
    | cancelled => exact hend
  · intro g e he
    obtain ⟨hg, hlt⟩ := hr.past g e he
    refine ⟨?_, hlt⟩
    show g ≤ b.generation
    omega
  · show (Host.callSoon _ _).Wired home s.waits []
    rw [hw]
    exact h.wired.handOffAll h.loops
  · exact ⟨h.blamed.flag, h.blamed.fut, h.blamed.noException⟩
  · intro e he
    obtain ⟨hout, hnone⟩ := h.fresh e he
    refine ⟨hout, ?_⟩
    rcases hbox e with hsame | ⟨-, hcur⟩
    · exact hsame.trans hnone
    · have hlt := (hr.past _ e hcur).2
      have hle : s.host.created e.owner ≤ e.serial := he
      omega
  · intro habort
    have hfalse : b.aborted = false := habort
    rcases hover with hnext | ⟨-, htrue⟩
    · show [] = s.group b.generation
      rw [hr.later (by omega)]
    · rw [htrue] at hfalse
      cases hfalse
  · show (s.group b.generation).length < parties
    rcases hover with hnext | ⟨hsame, -⟩
    · rw [hr.later (by omega)]
      exact Nat.lt_of_le_of_lt (Nat.zero_le _) h.current
    · rw [hsame]
      exact h.current
  · intro u
    refine (h.seats u).mono (fun f g hf => ⟨hf.owner, hf.running, hf.place⟩) id fun f g hf hov => ?_
    obtain ⟨i, hi, -⟩ := hf.place
    exact hmono g (hr.past g f (List.mem_of_getElem? hi)).1 hov

/-- From `s` to `s'` the call with event `e` arrives in the current round. -/
structure Arrival (s s' : Sys Loop Task) (e : Fut Task) : Prop where
  arrivals : s'.arrivals = s.arrivals ++ [(e, s.barrier.generation)]
  outcome : s'.outcome = s.outcome
  asked : s'.asked = s.asked
  generation : s.barrier.generation ≤ s'.barrier.generation
  ended : ∀ g, s.Over g → s'.Over g
  created : ∀ u, s.host.created u ≤ s'.host.created u
  serial : e.serial < s'.host.created e.owner
  box : ∀ g f, g ≠ s.barrier.generation → f ∈ s.group g → s'.barrier.box f = s.barrier.box f

omit [DecidableEq Task] in
theorem Arrival.group (ha : Arrival s s' e) : s'.group s.barrier.generation = s.group s.barrier.generation ++ [e] := by
  rw [group_append ha.arrivals, if_pos rfl]

omit [DecidableEq Task] in
theorem Arrival.group_other (ha : Arrival s s' e) {g : Nat} (hg : g ≠ s.barrier.generation) :
    s'.group g = s.group g := by
  rw [group_append ha.arrivals, if_neg (Ne.symm hg), List.append_nil]

omit [DecidableEq Task] in
theorem Arrival.place (ha : Arrival s s' e) {g i : Nat} {f : Fut Task} (hi : (s.group g)[i]? = some f) :
    (s'.group g)[i]? = some f := by
  rw [group_append ha.arrivals, List.getElem?_append_left (List.getElem?_eq_some_iff.1 hi).1]
  exact hi

omit [DecidableEq Task] in
theorem Arrival.seat (ha : Arrival s s' e) {p : Pc Task} (h : s.Seat parties u p) : s'.Seat parties u p := by
  refine h.mono (fun f g hf => ⟨hf.owner, ha.outcome ▸ hf.running, ?_⟩) (fun hb => ha.asked ▸ hb)
    fun f g _ hov => ha.ended g hov
  obtain ⟨i, hi, hlt⟩ := hf.place
  exact ⟨i, ha.place hi, hlt⟩

omit [DecidableEq Task] in
/-- What is to be shown of the current round when a call arrives in it. -/
theorem Sound.rounds_arrival [DecidableEq Task] (h : s.Sound home parties) (ha : Arrival s s' e)
    (habort : s.barrier.aborted = false) (hfresh : s.host.created e.owner ≤ e.serial)
    (hfilled : (s'.group s.barrier.generation).length = parties → ∀ i f, (s'.group s.barrier.generation)[i]? = some f →
      i + 1 < parties → s'.barrier.box f = some ((i : Int) + 1))
    (hunfilled : (s'.group s.barrier.generation).length < parties → ∀ f ∈ s'.group s.barrier.generation,
      s'.barrier.box f = none ∨ s'.barrier.box f = some (-1)) : s'.Rounds parties := by
  have hr := h.rounds
  have hcurrent := h.current
  have hnotin : ∀ g, e ∉ s.group g := by
    intro g hm
    have hlt := (hr.past g _ hm).2
    omega
  have hover : ∀ g, s.Over g → g ≠ s.barrier.generation := by
    rintro g (hlt | htrue) hg
    · omega
    · rw [habort] at htrue
      cases htrue
  refine ⟨?_, ?_, ?_, ?_, ?_, ?_⟩
  · rw [ha.arrivals, List.map_append, List.nodup_append]
    refine ⟨hr.nodup, List.nodup_singleton _, ?_⟩
    intro a hm b hb hab
    obtain ⟨⟨f, g⟩, harrived, rfl⟩ := List.mem_map.1 hm
    have hfe : f = e := hab.trans (List.mem_singleton.1 hb)
    exact hnotin g (hfe ▸ mem_group.2 harrived)
  · intro g
    by_cases hg : g = s.barrier.generation
    · rw [hg, ha.group, List.length_append]
      exact hcurrent
    · rw [ha.group_other hg]
      exact hr.most g
  · intro g hfull i f hi hlt
    by_cases hg : g = s.barrier.generation
    · subst hg
      exact hfilled hfull i f hi hlt
    · rw [ha.group_other hg] at hfull hi
      rw [ha.box g f hg (List.mem_of_getElem? hi)]
      exact hr.filled g hfull i f hi hlt
  · intro g hlt f hf
    by_cases hg : g = s.barrier.generation
    · subst hg
      exact hunfilled hlt f hf
    · rw [ha.group_other hg] at hlt hf
      rw [ha.box g f hg hf]
      exact hr.unfilled g hlt f hf
  · intro g f hf o ho
    rw [ha.outcome] at ho
    have hold : f ∈ s.group g := by
      rw [group_append ha.arrivals] at hf
      rcases List.mem_append.1 hf with hold | hlast
      · exact hold
      · split at hlast
        · rw [List.mem_singleton.1 hlast, (h.fresh e hfresh).1] at ho
          cases ho
        · cases hlast
    have hend := hr.ended g f hold o ho
    cases o with
    | returned k =>
      have hg : g ≠ s.barrier.generation := by
        intro hg
        have hfull := hend.1
        rw [hg] at hfull
        omega
      obtain ⟨hfull, hat⟩ := hend
      refine ⟨?_, ?_⟩
      · rw [ha.group_other hg]
        exact hfull
      · rw [ha.group_other hg]
        exact hat
    | error r =>
      refine ⟨?_, ha.ended g hend.2⟩
      rw [ha.group_other (hover g hend.2)]
      exact hend.1
    | cancelled =>
      show s'.asked f.owner = true
      rw [ha.asked]
      exact hend
  · intro g f hf
    rw [group_append ha.arrivals] at hf
    rcases List.mem_append.1 hf with hold | hlast
    · obtain ⟨hle, hlt⟩ := hr.past g f hold
      exact ⟨Nat.le_trans hle ha.generation, Nat.lt_of_lt_of_le hlt (ha.created _)⟩
    · split at hlast
      · rename_i hg
        rw [List.mem_singleton.1 hlast]
        exact ⟨hg ▸ ha.generation, ha.serial⟩
      · cases hlast

theorem created_le (c : Task → Nat) (t u : Task) : c u ≤ Function.update c t (c t + 1) u := by
  by_cases hu : u = t
  · rw [hu, Function.update_self]
    omega
  · rw [Function.update_of_ne hu]

/-- A call is registered in the current round. -/
theorem Sound.register (h : s.Sound home parties) (hpc : s.pc t = .outside) (ha : s.barrier.aborted = false)
    (hn : s.barrier.waiters.length + 1 ≠ s.barrier.parties) :
    (Sys.goto { s with
      host := (s.host.wait t).2
      arrivals := s.arrivals ++ [((s.host.wait t).1, s.barrier.generation)]
      barrier := { s.barrier with waiters := s.barrier.waiters ++ [((s.host.wait t).1, home t)] } } t
        (.waiting (s.host.wait t).1 s.barrier.generation)).Sound home parties := by
  have hnew := h.fresh (s.host.wait t).1 (Nat.le_refl _)
  have hcurrent := h.current
  have hsize := h.size
  have hlen : (s.group s.barrier.generation).length = s.barrier.waiters.length := by
    rw [← h.queue ha, List.length_map]
  generalize hs' : (Sys.goto { s with
      host := (s.host.wait t).2
      arrivals := s.arrivals ++ [((s.host.wait t).1, s.barrier.generation)]
      barrier := { s.barrier with waiters := s.barrier.waiters ++ [((s.host.wait t).1, home t)] } } t
        (.waiting (s.host.wait t).1 s.barrier.generation)) = s'
  have harr : Arrival s s' (s.host.wait t).1 := by
    rw [← hs']
    refine ⟨rfl, rfl, rfl, Nat.le_refl _, fun g hov => hov, fun u => created_le _ t u, ?_, fun _ _ _ _ => rfl⟩
    show s.host.created t < Function.update s.host.created t (s.host.created t + 1) t
    rw [Function.update_self]
    exact Nat.lt_succ_self _
  have hbox : s'.barrier.box = s.barrier.box := by rw [← hs']; rfl
  have hgen : s'.barrier.generation = s.barrier.generation := by rw [← hs']; rfl
  have hcurlen : (s'.group s.barrier.generation).length = s.barrier.waiters.length + 1 := by
    rw [harr.group, List.length_append, hlen]
    rfl
  refine ⟨h.rounds_arrival harr ha (Nat.le_refl _) ?_ ?_, ?_, ?_, ?_, ?_, ?_, ?_, ?_, ?_, ?_⟩
  · intro hfull
    omega
  · intro hlt f hf
    rw [hbox]
    rw [harr.group] at hf
    rcases List.mem_append.1 hf with hold | hlast
    · exact h.rounds.unfilled _ hcurrent f hold
    · rw [List.mem_singleton.1 hlast]
      exact .inl hnew.2
  · rw [← hs']
    exact hsize
  · rw [← hs']
    show (s.host.wait t).2.Wired home (Sys.goto _ t _).waits
      ((s.barrier.waiters ++ [((s.host.wait t).1, home t)]).map Prod.fst)
    rw [waits_goto, List.map_append]
    exact h.wired.enlist (waits_of_pc hpc)
  · rw [← hs']
    exact h.blamed.wait t
  · rw [← hs']
    intro w hw
    rcases List.mem_append.1 hw with hw | hw
    · exact h.loops w hw
    · rw [List.mem_singleton.1 hw]
      rfl
  · intro e he
    rw [harr.outcome, hbox]
    exact h.fresh e (Nat.le_trans (harr.created _) he)
  · intro _
    rw [hgen, harr.group, ← h.queue ha, ← hs']
    exact List.map_append
  · intro htrue
    rw [← hs'] at htrue
    rw [show s.barrier.aborted = true from htrue] at ha
    cases ha
  · rw [hgen, hcurlen]
    omega
  · intro u
    by_cases hu : u = t
    · subst hu
      have hpcu : s'.pc u = .waiting (s.host.wait u).1 s.barrier.generation := by
        rw [← hs']
        exact Function.update_self ..
      rw [hpcu]
      refine ⟨rfl, harr.outcome ▸ hnew.1, s.barrier.waiters.length, ?_, ?_⟩
      · rw [harr.group, ← hlen, List.getElem?_append_right (Nat.le_refl _), Nat.sub_self]
        rfl
      · omega
    · have hpcu : s'.pc u = s.pc u := by
        rw [← hs']
        exact Function.update_of_ne hu ..
      rw [hpcu]
      exact harr.seat (h.seats u)

/-- The last call of a round arrives: everybody gets an index, and is woken. -/
theorem Sound.graduate (h : s.Sound home parties) (hpc : s.pc t = .outside) (ha : s.barrier.aborted = false)
    (hn : s.barrier.waiters.length + 1 = s.barrier.parties) :
    (Sys.graduate { s with host := s.host.create t } t { owner := t, serial := s.host.created t }).Sound home
      parties := by
  have hcurrent := h.current
  have hsize := h.size
  have hlen : (s.group s.barrier.generation).length = s.barrier.waiters.length := by
    rw [← h.queue ha, List.length_map]
  have hnone : s.waits t = none := waits_of_pc hpc
  let e : Fut Task := { owner := t, serial := s.host.created t }
  let b := s.barrier
  have hcreate : Sound home parties { s with host := s.host.create t } :=
    h.ofHost (h.wired.create t) ⟨h.blamed.flag, h.blamed.fut, h.blamed.noException⟩ (fun u => created_le _ t u)
      fun _ hb => hb
  generalize hs' : (({ wakeAll { s with
      host := s.host.create t
      arrivals := s.arrivals ++ [(e, b.generation)]
      barrier := { b with box := fill b.box 1 b.waiters } } with
    barrier := { b with box := fill b.box 1 b.waiters, waiters := [], generation := b.generation + 1 } }) :
      Sys Loop Task) = s'
  have hgoal : Sys.graduate { s with host := s.host.create t } t e = s'.leave t e (.returned 0) := by
    rw [← hs']
    rfl
  have hserial : e.serial < s'.host.created t := by
    rw [← hs']
    show s.host.created t < Function.update s.host.created t (s.host.created t + 1) t
    rw [Function.update_self]
    exact Nat.lt_succ_self _
  have hgen : s'.barrier.generation = s.barrier.generation + 1 := by rw [← hs']
  have hbox : s'.barrier.box = fill s.barrier.box 1 s.barrier.waiters := by rw [← hs']
  have hwaiters : s'.barrier.waiters = [] := by rw [← hs']
  have harr : Arrival s s' e := by
    refine ⟨by rw [← hs']; rfl, by rw [← hs']; rfl, by rw [← hs']; rfl, by omega, ?_, ?_, hserial, ?_⟩
    · rintro g (hlt | htrue)
      · exact .inl (by omega)
      · rw [ha] at htrue
        cases htrue
    · intro u
      rw [← hs']
      exact created_le _ t u
    · intro g f hg hf
      rw [hbox]
      apply fill_other
      rw [h.queue ha]
      exact fun hm => hg (h.rounds.group_inj hf hm)
  have hfull : (s'.group s.barrier.generation).length = parties := by
    rw [harr.group, List.length_append, hlen, ← hsize, ← hn]
    rfl
  have hrounds : s'.Rounds parties := by
    refine h.rounds_arrival harr ha (Nat.le_refl _) ?_ fun hlt => by omega
    intro _ i f hi hlt
    rw [harr.group, List.getElem?_append_left (by omega), ← h.queue ha] at hi
    have hnd : (s.barrier.waiters.map Prod.fst).Nodup := by
      rw [h.queue ha]
      exact h.rounds.group_nodup _
    rw [hbox, fill_at hnd hi, Int.add_comm]
  have hsound : s'.Sound home parties := by
    refine ⟨hrounds, ?_, ?_, ?_, ?_, ?_, ?_, ?_, ?_, ?_⟩
    · rw [← hs']
      exact hsize
    · rw [hwaiters, ← hs']
      exact hcreate.wired.handOffAll hcreate.loops
    · rw [← hs']
      exact ⟨h.blamed.flag, h.blamed.fut, h.blamed.noException⟩
    · rw [hwaiters]
      exact fun w hw => absurd hw List.not_mem_nil
    · intro f hf
      obtain ⟨hout, hnobox⟩ := h.fresh f (Nat.le_trans (harr.created _) hf)
      refine ⟨harr.outcome ▸ hout, ?_⟩
      rw [hbox, fill_other ?_, hnobox]
      rw [h.queue ha]
      intro hm
      have hlt := (h.rounds.past _ f hm).2
      have hle := Nat.le_trans (harr.created _) hf
      omega
    · intro _
      rw [hwaiters, hgen, harr.group_other (by omega), h.rounds.later (by omega)]
      rfl
    · intro _
      exact hwaiters
    · rw [hgen, harr.group_other (by omega), h.rounds.later (by omega)]
      exact Nat.lt_of_le_of_lt (Nat.zero_le _) hcurrent
    · intro u
      have hpcu : s'.pc u = s.pc u := by
        rw [← hs']
        rfl
      rw [hpcu]
      exact harr.seat (h.seats u)
  show (Sys.graduate { s with host := s.host.create t } t e).Sound home parties
  rw [hgoal]
  have hwaits : s'.waits t = none := by
    rw [← hs']
    exact hnone
  refine hsound.leave rfl (.inl hwaits) (by rw [hwaiters]; exact List.not_mem_nil) hserial ?_
  intro g hg
  have hcur : e ∈ s'.group s.barrier.generation := by
    rw [harr.group]
    exact List.mem_append_right _ (List.mem_singleton_self _)
  rw [hrounds.group_inj hg hcur]
  refine ⟨hfull, s.barrier.waiters.length, ?_, ?_⟩
  · rw [harr.group, ← hlen, List.getElem?_append_right (Nat.le_refl _), Nat.sub_self]
    rfl
  · rw [hn, hsize, Nat.mod_self]
    rfl

theorem Sound.wait (h : s.Sound home parties) (hpc : s.pc t = .outside) : (s.wait home t).Sound home parties := by
  have hnone : s.waits t = none := waits_of_pc hpc
  have hcreate : Sound home parties { s with host := s.host.create t } :=
    h.ofHost (h.wired.create t) ⟨h.blamed.flag, h.blamed.fut, h.blamed.noException⟩ (fun u => created_le _ t u)
      fun _ hb => hb
  -- A call that is not let in.
  have hrefused : ∀ r : Error, (Sys.leave { s with host := s.host.create t } t
      { owner := t, serial := s.host.created t } (.error r)).Sound home parties := by
    intro r
    refine hcreate.leave rfl (.inl hnone) ?_ ?_ ?_
    · intro hm
      have hwaits := h.wired.waited _ hm
      rw [show s.waits t = none from hnone] at hwaits
      cases hwaits
    · show s.host.created t < Function.update s.host.created t (s.host.created t + 1) t
      rw [Function.update_self]
      exact Nat.lt_succ_self _
    · intro g hg
      exact absurd (h.rounds.past g _ hg).2 (Nat.lt_irrefl _)
  unfold Sys.wait
  dsimp only
  split
  · exact hrefused .aborted
  · rename_i habort
    have ha : s.barrier.aborted = false := by simpa using habort
    split
    · exact hrefused .broken
    · split
      · rename_i hn
        exact h.graduate hpc ha hn
      · rename_i hn
        exact h.register hpc ha hn

/-- A registered call whose round is over is not queued. -/
theorem Sound.not_queued (h : s.Sound home parties) {g : Nat} {e : Fut Task} (he : e ∈ s.group g)
    (hov : s.barrier.aborted = false → g ≠ s.barrier.generation) : e ∉ s.barrier.waiters.map Prod.fst := by
  intro hm
  cases habort : s.barrier.aborted with
  | true =>
    rw [h.cleared habort] at hm
    cases hm
  | false =>
    rw [h.queue habort] at hm
    exact hov habort (h.rounds.group_inj he hm)

theorem Sound.resume (h : s.Sound home parties) {e : Fut Task} {g : Nat} (hpc : s.pc t = .waiting e g)
    (hr : s.resume t e g = some s') : s'.Sound home parties := by
  have hseat := h.seats t
  rw [hpc] at hseat
  have hwaits : s.waits t = some e := waits_of_pc hpc
  unfold Sys.resume at hr
  split at hr
  · rename_i hreturns
    cases hr
    have hnot : e ∉ s.barrier.waiters.map Prod.fst := h.wired.not_queued (h.wired.woken_of_returns (t := t) hreturns)
    refine h.goto (h.wired.depart hwaits hnot) ⟨hseat, ?_⟩
    -- A waiter is woken only when its round is over.
    obtain ⟨i, hi, -⟩ := hseat.place
    have hm := List.mem_of_getElem? hi
    cases habort : s.barrier.aborted with
    | true => exact .inr habort
    | false =>
      have hle := (h.rounds.past g e hm).1
      have hne : g ≠ s.barrier.generation := by
        intro hg
        rw [h.queue habort, ← hg] at hnot
        exact hnot hm
      exact .inl (by omega)
  · rename_i hraises
    cases hr
    have hasked := h.blamed.raises hseat.owner hraises
    have hhost : Sound home parties { s with host := s.host.setMustCancel t false } :=
      h.ofHost (h.wired.setMustCancel t false) (h.blamed.setMustCancel (fun _ hb => hb) nofun) (fun _ => Nat.le_refl _)
        fun _ hb => hb
    refine hhost.goto ?_ ⟨⟨hseat.owner, hseat.running, hseat.place⟩, hasked⟩
    show (s.host.setMustCancel t false).Wired home (Function.update s.waits t (some e)) _
    rw [← hwaits, Function.update_eq_self]
    exact hhost.wired
  · cases hr

theorem Sound.breakRound (h : s.Sound home parties) {e : Fut Task} {g : Nat} (hpc : s.pc t = .breaking e g) :
    (s.breakRound t e g).Sound home parties := by
  have hseat := h.seats t
  rw [hpc] at hseat
  obtain ⟨hseated, hasked⟩ := hseat
  obtain ⟨i, hi, -⟩ := hseated.place
  have hm := List.mem_of_getElem? hi
  have hlt := (h.rounds.past g e hm).2
  rw [hseated.owner] at hlt
  have hwaits : s.waits t = some e := waits_of_pc hpc
  have hblame : s.asked e.owner = true := by
    rw [hseated.owner]
    exact hasked
  unfold Sys.breakRound
  split
  · have hclear := h.clear (b := { s.barrier with
        broken := true
        box := mark s.barrier.box s.barrier.waiters
        generation := s.barrier.generation + 1 }) rfl rfl (.inl rfl) ?_
    · exact hclear.leave hseated.owner (.inr hwaits) List.not_mem_nil hlt fun _ _ => hblame
    · intro f
      by_cases hf : f ∈ s.barrier.waiters.map Prod.fst
      · rcases mark_cases s.barrier.box s.barrier.waiters f with hsame | hmark
        · exact .inl hsame
        · refine .inr ⟨hmark, ?_⟩
          cases habort : s.barrier.aborted with
          | true =>
            rw [h.cleared habort] at hf
            cases hf
          | false =>
            rw [← h.queue habort]
            exact hf
      · exact .inl (mark_other hf)
  · rename_i hg
    exact h.leave hseated.owner (.inr hwaits) (h.not_queued hm fun _ => hg) hlt fun _ _ => hblame

theorem Sound.read (h : s.Sound home parties) {e : Fut Task} {g : Nat} (hpc : s.pc t = .reading e g) :
    (s.read t e g).Sound home parties := by
  have hseat := h.seats t
  rw [hpc] at hseat
  obtain ⟨hseated, hov⟩ := hseat
  obtain ⟨i, hi, hplace⟩ := hseated.place
  have hm := List.mem_of_getElem? hi
  obtain ⟨-, hlt⟩ := h.rounds.past g e hm
  rw [hseated.owner] at hlt
  have hnot : e ∉ s.barrier.waiters.map Prod.fst := by
    refine h.not_queued hm fun habort hg => ?_
    rcases hov with hless | htrue
    · omega
    · rw [habort] at htrue
      cases htrue
  have hleave : ∀ o, s.Ended parties g e o → (s.leave t e o).Sound home parties := by
    intro o hend
    refine h.leave hseated.owner (.inl (waits_of_pc hpc)) hnot hlt fun k hk => ?_
    rw [h.rounds.group_inj hk hm]
    exact hend
  -- The box of a member of a complete round has its index.
  have hindex : (s.group g).length = parties → s.barrier.box e = some ((i : Int) + 1) := fun hfull =>
    h.rounds.filled g hfull i e hi hplace
  have hless : (s.group g).length ≠ parties → (s.group g).length < parties := by
    intro hne
    have hmost := h.rounds.most g
    omega
  unfold Sys.read
  dsimp only
  split
  · rename_i hcur
    refine hleave _ ⟨?_, hov⟩
    rw [hcur.2]
    exact h.current
  · split
    · rename_i hbroken
      refine hleave _ ⟨hless fun hfull => ?_, hov⟩
      have hbox := hindex hfull
      rw [hbroken] at hbox
      have hint := Option.some.inj hbox
      omega
    · rename_i hbroken
      split
      · rename_i hbox
        refine hleave _ ⟨hless fun hfull => ?_, hov⟩
        rw [hindex hfull] at hbox
        cases hbox
      · rename_i index hbox
        have hfull : (s.group g).length = parties := by
          by_contra hne
          rcases h.rounds.unfilled g (hless hne) e hm with hnone | hmark
          · rw [hbox] at hnone
            cases hnone
          · exact hbroken hmark
        refine hleave _ ⟨hfull, i, hi, ?_⟩
        rw [hindex hfull] at hbox
        rw [← Option.some.inj hbox, Nat.mod_eq_of_lt hplace]
        rfl

variable [DecidableEq Loop]

theorem Sound.step (h : s.Sound home parties) {a : Action Loop Task} (hst : s.step home a = some s') :
    s'.Sound home parties := by
  cases a with
  | wait t =>
    simp only [Sys.step] at hst
    split at hst
    · rename_i ht
      cases hst
      exact h.wait ht.2
    · cases hst
  | resume t =>
    simp only [Sys.step] at hst
    split at hst
    · rename_i e g hpc
      split at hst
      · exact h.resume hpc hst
      · cases hst
    · cases hst
  | breakRound t =>
    simp only [Sys.step] at hst
    split at hst
    · rename_i e g hpc
      split at hst
      · cases hst
        exact h.breakRound hpc
      · cases hst
    · cases hst
  | read t =>
    simp only [Sys.step] at hst
    split at hst
    · rename_i e g hpc
      split at hst
      · cases hst
        exact h.read hpc
      · cases hst
    · cases hst
  | abort =>
    cases hst
    exact h.clear (b := { s.barrier with aborted := true, broken := true }) rfl rfl (.inr ⟨rfl, rfl⟩) fun _ => .inl rfl
  | reset =>
    cases hst
    exact h.clear (b := { s.barrier with
      generation := s.barrier.generation + 1
      aborted := false
      broken := false }) rfl rfl (.inl rfl) fun _ => .inl rfl
  | cancel t other =>
    have hself : Function.update s.asked t true t = true := Function.update_self ..
    have hmono : ∀ u, s.asked u = true → Function.update s.asked t true u = true := by
      intro u hu
      by_cases hut : u = t
      · rw [hut]
        exact hself
      · rw [Function.update_of_ne hut]
        exact hu
    have hcancel : ∀ e? : Option (Fut Task), (∀ e, e? = some e → e.owner = t) →
        Sound home parties { s with host := s.host.cancel t e?, asked := Function.update s.asked t true } := by
      intro e? he
      refine h.ofHost (h.wired.cancel t e?) (h.blamed.cancel hmono hself he) (fun u => ?_) hmono
      rw [cancel_created]
    simp only [Sys.step] at hst
    split at hst
    · rename_i e g hpc
      cases hst
      refine hcancel (some e) fun f hf => ?_
      rw [← Option.some.inj hf]
      exact (h.wired.owner t e (waits_of_pc hpc)).1
    · cases hst
      exact hcancel none nofun
    · cases hst
      exact hcancel none nofun
    · split at hst
      · rename_i hall
        cases hst
        refine hcancel other fun f hf => ?_
        rw [hf] at hall
        simpa using hall
      · cases hst
  | runCallback i =>
    simp only [Sys.step, Option.map_eq_some_iff] at hst
    obtain ⟨host, hr, rfl⟩ := hst
    refine h.ofHost (h.wired.runCallback hr) (h.blamed.runCallback hr) (fun u => ?_) fun _ hb => hb
    rw [runCallback_created _ hr]
  | closeLoop l =>
    cases hst
    exact h.ofHost (h.wired.closeLoop l) ⟨h.blamed.flag, h.blamed.fut, h.blamed.noException⟩
      (fun _ => Nat.le_refl _)
      fun _ hb => hb
  | waitElsewhere t =>
    simp only [Sys.step] at hst
    split at hst
    · cases hst
      exact h.ofHost (h.wired.waitElsewhere t) (h.blamed.wait t) (fun u => created_le _ t u) fun _ hb => hb
    · cases hst
  | wakeElsewhere e =>
    simp only [Sys.step] at hst
    split at hst
    · rename_i he
      cases hst
      have hes : ∀ f ∈ [e], s.waits f.owner ≠ some f ∧ f.serial < s.host.created f.owner := by
        intro f hf
        rw [List.mem_singleton.1 hf]
        exact he
      exact h.ofHost (h.wired.wakeElsewhere hes) ⟨h.blamed.flag, h.blamed.fut, h.blamed.noException⟩
        (fun _ => Nat.le_refl _) fun _ hb => hb
    · cases hst
  | elsewhere t b =>
    simp only [Sys.step] at hst
    split at hst
    · cases hst
      have hmono : ∀ u, s.asked u = true → Function.update s.asked t (s.asked t || b) u = true := by
        intro u hu
        by_cases hut : u = t
        · rw [hut, Function.update_self, ← hut, hu, Bool.true_or]
        · rw [Function.update_of_ne hut]
          exact hu
      refine h.ofHost (h.wired.setMustCancel t b) (h.blamed.setMustCancel hmono fun hb => ?_)
        (fun _ => Nat.le_refl _) hmono
      rw [Function.update_self, hb, Bool.or_true]
    · cases hst

theorem sound_of_reachable (hp : 0 < parties) (h : (tasks home parties).Reachable s) : s.Sound home parties := by
  apply h.inv
  · intro s hs
    obtain rfl : s = new parties := hs
    exact sound_new hp
  · intro s a s' hs hst
    exact hs.step hst

/-! ## The outcomes of a round -/

section Outcomes

omit [DecidableEq Loop]

/-- The index of a member of round `g`: the last one's is 0. -/
def index (s : Sys Loop Task) (g : Nat) (e : Fut Task) : Nat := ((s.group g).idxOf e + 1) % s.barrier.parties

/-- The indices 1 to `n`, taken modulo `n`. -/
theorem perm_range_succ_mod (n : Nat) (hn : 0 < n) :
    ((List.range n).map fun i => (i + 1) % n).Perm (List.range n) := by
  obtain ⟨k, rfl⟩ : ∃ k, n = k + 1 := ⟨n - 1, by omega⟩
  have hinit : ((List.range k).map fun i => (i + 1) % (k + 1)) = (List.range k).map Nat.succ := by
    apply List.map_congr_left
    intro i hi
    exact Nat.mod_eq_of_lt (Nat.succ_lt_succ (List.mem_range.1 hi))
  rw [List.range_succ, List.map_append, hinit, ← List.range_succ, List.range_succ_eq_map]
  simp only [List.map_cons, List.map_nil, Nat.mod_self]
  exact List.perm_append_singleton _ _

/-- A complete round has each index once. -/
theorem Sound.indices (h : s.Sound home parties) (hp : 0 < parties) {g : Nat} (hfull : (s.group g).length = parties) :
    ((s.group g).map (s.index g)).Perm (List.range parties) := by
  have hplaces : (s.group g).map (s.index g) = (List.range parties).map fun i => (i + 1) % parties := by
    apply List.ext_getElem
    · simp [hfull]
    · intro i hi hi'
      rw [List.getElem_map, List.getElem_map, List.getElem_range]
      unfold index
      rw [List.Nodup.idxOf_getElem (h.rounds.group_nodup g), h.size]
  rw [hplaces]
  exact perm_range_succ_mod parties hp

/-- What a member of a round gets. -/
theorem Sound.all_or_nothing (h : s.Sound home parties) (hp : 0 < parties) (g : Nat) :
    ((s.group g).length = parties ∧ ((s.group g).map (s.index g)).Perm (List.range parties) ∧
      ∀ e ∈ s.group g, ∀ o, s.outcome e = some o →
        o = .returned (s.index g e) ∨ o = .cancelled ∧ s.asked e.owner = true) ∨
    ((s.group g).length < parties ∧ ∀ e ∈ s.group g, ∀ k, s.outcome e ≠ some (.returned k)) := by
  rcases Nat.lt_or_eq_of_le (h.rounds.most g) with hless | hfull
  · refine .inr ⟨hless, fun e he k hout => ?_⟩
    have hend := h.rounds.ended g e he _ hout
    have hlen := hend.1
    omega
  · refine .inl ⟨hfull, h.indices hp hfull, fun e he o hout => ?_⟩
    have hend := h.rounds.ended g e he o hout
    cases o with
    | returned k =>
      obtain ⟨-, i, hi, rfl⟩ := hend
      refine .inl ?_
      obtain ⟨hlt, hat⟩ := List.getElem?_eq_some_iff.1 hi
      have hidx : (s.group g).idxOf e = i := by
        rw [← hat]
        exact List.Nodup.idxOf_getElem (h.rounds.group_nodup g) i hlt
      unfold index
      rw [hidx, h.size]
    | error r =>
      have hlen := hend.1
      omega
    | cancelled => exact .inr ⟨rfl, hend⟩

/-- What has happened stays so: calls that arrived, in this order, and outcomes. -/
structure Grown (s s' : Sys Loop Task) : Prop where
  arrivals : ∃ l, s'.arrivals = s.arrivals ++ l
  outcome : ∀ e o, s.outcome e = some o → s'.outcome e = some o

omit [DecidableEq Task] in
theorem grown_of (ha : s'.arrivals = s.arrivals) (ho : s'.outcome = s.outcome) : Grown s s' :=
  ⟨⟨[], by rw [ha, List.append_nil]⟩, fun e o h => by rw [ho]; exact h⟩

/-- A running call ends. -/
theorem grown_leave {r : Sys Loop Task} {o : Outcome} (hg : Grown s r) (he : s.outcome e = none) :
    Grown s (r.leave t e o) := by
  refine ⟨hg.arrivals, fun f q hf => ?_⟩
  have hfe : f ≠ e := by
    intro h
    rw [h, he] at hf
    cases hf
  show Function.update r.outcome e (some o) f = some q
  rw [Function.update_of_ne hfe]
  exact hg.outcome f q hf

theorem Sound.grown_wait (h : s.Sound home parties) : Grown s (s.wait home t) := by
  have hnew := (h.fresh { owner := t, serial := s.host.created t } (Nat.le_refl _)).1
  have hcreate : Grown s { s with host := s.host.create t } := grown_of rfl rfl
  unfold Sys.wait
  dsimp only
  split
  · exact grown_leave hcreate hnew
  · split
    · exact grown_leave hcreate hnew
    · split
      · refine grown_leave ⟨⟨[_], rfl⟩, fun f q hf => hf⟩ hnew
      · exact ⟨⟨[_], rfl⟩, fun f q hf => hf⟩

end Outcomes

theorem Sound.grown (h : s.Sound home parties) {a : Action Loop Task} (hst : s.step home a = some s') : Grown s s' := by
  cases a with
  | wait t =>
    simp only [Sys.step] at hst
    split at hst
    · cases hst
      exact h.grown_wait
    · cases hst
  | resume t =>
    simp only [Sys.step] at hst
    split at hst
    · split at hst
      · unfold Sys.resume at hst
        split at hst
        · cases hst
          exact grown_of rfl rfl
        · cases hst
          exact grown_of rfl rfl
        · cases hst
      · cases hst
    · cases hst
  | breakRound t =>
    simp only [Sys.step] at hst
    split at hst
    · rename_i e g hpc
      have hseat := h.seats t
      rw [hpc] at hseat
      split at hst
      · cases hst
        unfold Sys.breakRound
        split
        · exact grown_leave (grown_of rfl rfl) hseat.1.running
        · exact grown_leave (grown_of rfl rfl) hseat.1.running
      · cases hst
    · cases hst
  | read t =>
    simp only [Sys.step] at hst
    split at hst
    · rename_i e g hpc
      have hseat := h.seats t
      rw [hpc] at hseat
      have hleave : ∀ o, Grown s (s.leave t e o) := fun o => grown_leave (grown_of rfl rfl) hseat.1.running
      split at hst
      · cases hst
        unfold Sys.read
        dsimp only
        split
        · exact hleave _
        · split
          · exact hleave _
          · split
            · exact hleave _
            · exact hleave _
      · cases hst
    · cases hst
  | abort =>
    cases hst
    exact grown_of rfl rfl
  | reset =>
    cases hst
    exact grown_of rfl rfl
  | cancel t other =>
    simp only [Sys.step] at hst
    split at hst
    · cases hst
      exact grown_of rfl rfl
    · cases hst
      exact grown_of rfl rfl
    · cases hst
      exact grown_of rfl rfl
    · split at hst
      · cases hst
        exact grown_of rfl rfl
      · cases hst
  | runCallback i =>
    simp only [Sys.step, Option.map_eq_some_iff] at hst
    obtain ⟨host, -, rfl⟩ := hst
    exact grown_of rfl rfl
  | closeLoop l =>
    cases hst
    exact grown_of rfl rfl
  | waitElsewhere t =>
    simp only [Sys.step] at hst
    split at hst
    · cases hst
      exact grown_of rfl rfl
    · cases hst
  | wakeElsewhere e =>
    simp only [Sys.step] at hst
    split at hst
    · cases hst
      exact grown_of rfl rfl
    · cases hst
  | elsewhere t b =>
    simp only [Sys.step] at hst
    split at hst
    · cases hst
      exact grown_of rfl rfl
    · cases hst

omit [DecidableEq Loop] in
/-- A member of a complete round that still waits is woken. -/
theorem Sound.complete_woken (h : s.Sound home parties) {g : Nat} (hfull : (s.group g).length = parties)
    (he : e ∈ s.group g) (hw : s.waits t = some e) : s.host.woken e = true ∨ s.host.closed (home t) = true := by
  have hnot : e ∉ s.barrier.waiters.map Prod.fst := by
    refine h.not_queued he fun _ hg => ?_
    have hcurrent := h.current
    rw [← hg] at hcurrent
    omega
  exact (h.wired.placed t e hw).resolve_left hnot

omit [DecidableEq Loop] in
/-- Nobody joins a complete round. -/
theorem Sound.complete_stays (h' : s'.Sound home parties) (hg : Grown s s') {g : Nat}
    (hfull : (s.group g).length = parties) : s'.group g = s.group g := by
  obtain ⟨l, hl⟩ := hg.arrivals
  have happ : s'.group g = s.group g ++ (l.filter fun a => a.2 = g).map Prod.fst := by
    unfold group
    rw [hl, List.filter_append, List.map_append]
  have hmost := h'.rounds.most g
  rw [happ, List.length_append] at hmost
  have hnil : (l.filter fun a => a.2 = g).map Prod.fst = [] := List.eq_nil_of_length_eq_zero (by omega)
  rw [happ, hnil, List.append_nil]

end Sys

variable [DecidableEq Loop] {home : Task → Loop} {parties : Nat} {s : Sys Loop Task}

/-- In every run of tasks over a barrier: fewer tasks than `parties` are
registered; the members of a round that is complete have each index once, and
return it unless they are cancelled, and in a round that is not complete no
member returns; a complete round and the outcomes of its members stay as they
are; and a member of one that still waits on an open loop is woken. -/
theorem rounds_all_or_nothing (hp : 0 < parties) (h : (tasks home parties).Reachable s) :
    s.barrier.waiters.length < parties ∧
    (∀ g, ((s.group g).length = parties ∧ ((s.group g).map (s.index g)).Perm (List.range parties) ∧
        ∀ e ∈ s.group g, ∀ o, s.outcome e = some o →
          o = .returned (s.index g e) ∨ o = .cancelled ∧ s.asked e.owner = true) ∨
      ((s.group g).length < parties ∧ ∀ e ∈ s.group g, ∀ k, s.outcome e ≠ some (.returned k))) ∧
    (∀ a s' g, s.step home a = some s' → (s.group g).length = parties → s'.group g = s.group g ∧
      ∀ e ∈ s.group g, ∀ o, s.outcome e = some o → s'.outcome e = some o) ∧
    ∀ g e t, (s.group g).length = parties → e ∈ s.group g → s.waits t = some e →
      s.host.woken e = true ∨ s.host.closed (home t) = true := by
  have hs := Sys.sound_of_reachable hp h
  refine ⟨?_, hs.all_or_nothing hp, ?_, fun g e t hfull he hw => hs.complete_woken hfull he hw⟩
  · cases habort : s.barrier.aborted with
    | true =>
      rw [hs.cleared habort]
      exact hp
    | false =>
      rw [← List.length_map Prod.fst, hs.queue habort]
      exact hs.current
  · intro a s' g hst hfull
    have hgrown := hs.grown hst
    exact ⟨(hs.step hst).complete_stays hgrown hfull, fun e _ o ho => hgrown.outcome e o ho⟩

/-- A task of a complete round reads its index after the next round was broken
and the barrier was reset. -/
theorem rounds_all_or_nothing_overtaken : ∃ s : Sys Unit Nat, s.group 0 = [⟨0, 0, false⟩, ⟨1, 0, false⟩] ∧
    s.outcome ⟨0, 0, false⟩ = some (.returned 1) ∧ s.barrier.waiters.length < 2 := by
  have hrun : (tasks (fun _ => ()) 2).run (Sys.new 2)
      [.wait 0, .wait 1, .wait 2, .cancel 2 none, .runCallback 0, .resume 2, .breakRound 2, .reset, .resume 0,
        .read 0] = some _ := rfl
  exact ⟨_, rfl, rfl, (rounds_all_or_nothing (by decide) (System.reachable_of_run rfl hrun)).1⟩

end Multiloop.Sync.Barrier
