import Mathlib.Algebra.Order.BigOperators.Group.Finset
import Multiloop.Channel.Consistent
import Multiloop.Channel.Select
import Multiloop.Framework.Counting

/-!
# No lost wakeup of selectors

An item sent to a channel is announced to one selector: by a scheduled
`_select_wake`, then by the arbiter it sets, until the selector tries the
channel. `Covered` counts: a channel with a registered watcher has no more
items than announcements on their way. Every step keeps it, unless it absorbs
an announcement that the channel still needs (`Heard`).
-/

namespace Multiloop.Channel

open ChannelState

variable {Loop C Task α : Type} [DecidableEq C]

/-- The arbiter of a task's iteration. -/
def SelectPc.arbiter? : SelectPc C Task → Option (Fut Task)
  | .register _ f _ _ | .tryNow _ f _ _ _ | .await _ f _ | .take _ f _ _ | .cleanup f _ _ => some f
  | _ => none

namespace Selectors

variable {s s' : Selectors Loop C Task α} {home : Task → Loop}

/-- Whether task `t` was told that `ch` is ready, and has not tried it since. -/
def announced (s : Selectors Loop C Task α) (t : Task) (ch : C) : Nat :=
  match s.pc t with
  | .await _ f _ => if s.futs f = .result ch then 1 else 0
  | .take _ _ _ ch' => if ch' = ch then 1 else 0
  | _ => 0


theorem announced_le_one (t : Task) (ch : C) : s.announced t ch ≤ 1 := by
  unfold announced
  split
  · split <;> omega
  · split <;> omega
  · omega

/-- `announced` reads a task's program counter and the set arbiters. -/
theorem announced_mono {t : Task} {ch : C} (hp : s'.pc t = s.pc t)
    (hf : ∀ f, (s.pc t).arbiter? = some f → s.futs f = .result ch → s'.futs f = .result ch) :
    s.announced t ch ≤ s'.announced t ch := by
  unfold announced
  rw [hp]
  split
  · rename_i f _ hpc
    by_cases h : s.futs f = .result ch
    · simp [h, hf f (by rw [hpc]; rfl) h]
    · simp [h]
  · exact Nat.le_refl _
  · exact Nat.le_refl _

/-- A task that neither awaits nor takes was told of no channel. -/
theorem announced_of_pc {t : Task} {ch : C} {p : SelectPc C Task} (hp : s.pc t = p)
    (hn : ∀ cs f r, p ≠ .await cs f r := by simp) (hn' : ∀ cs f r c, p ≠ .take cs f r c := by simp) :
    s.announced t ch = 0 := by
  unfold announced
  rw [hp]
  split
  · exact absurd rfl (hn _ _ _)
  · exact absurd rfl (hn' _ _ _ _)
  · rfl

theorem announced_congr {t : Task} {ch : C} (hp : s'.pc t = s.pc t) (hf : s'.futs = s.futs) :
    s'.announced t ch = s.announced t ch := by
  unfold announced
  rw [hp, hf]

section Announcements

variable [Fintype Task]

/-- The announcements of `ch` on their way: scheduled callbacks and set arbiters. -/
def announcements (s : Selectors Loop C Task α) (ch : C) : Nat :=
  s.scheduled.countP (·.2 = ch) + ∑ t, s.announced t ch

/-- Every item of a watched channel is announced. -/
def Covered (s : Selectors Loop C Task α) (ch : C) : Prop :=
  (s.chan ch).selectWatchers = [] ∨ (s.chan ch).buffer.length ≤ s.announcements ch

/-- One announcement of `ch` may be dropped. -/
def Spare (s : Selectors Loop C Task α) (ch : C) : Prop :=
  (s.chan ch).selectWatchers = [] ∨ (s.chan ch).buffer.length < s.announcements ch

/-- The condition on a step: an announcement that is absorbed can be spared. It
is absorbed when a selector whose arbiter is set resumes with a cancellation or
a timeout, or when the callback sets an arbiter that its selector has left. -/
def Heard (s : Selectors Loop C Task α) : SelectAction C Task α → Prop
  | .resume t => ∀ channels f registered ch, s.pc t = .await channels f registered →
    s.futs f = .result ch → s.mustCancel t = true → s.Spare ch
  | .wake i => ∀ f ch, s.scheduled[i]? = some (f, ch) → s.futs f = .pending →
    (∃ channels registered, s.pc f.owner = .await channels f registered) ∨ s.Spare ch
  | _ => True

structure Sound (s : Selectors Loop C Task α) : Prop where
  consistent : ∀ ch, (s.chan ch).Consistent
  getters : ∀ ch, (s.chan ch).getters = []
  token : ∀ ch, ∀ w ∈ (s.chan ch).selectWatchers, w.channelToken = some ch
  owner : ∀ t f, (s.pc t).arbiter? = some f → f.owner = t
  covered : ∀ ch, s.Covered ch

theorem sound_new (maxsize : C → Nat) : (Selectors.new maxsize : Selectors Loop C Task α).Sound where
  consistent ch := consistent_new (maxsize ch)
  getters _ := rfl
  token _ := by simp [Selectors.new, Channel.new]
  owner := by simp [Selectors.new, SelectPc.arbiter?]
  covered _ := .inl rfl

theorem Sound.mustCancel (h : s.Sound) (m : Task → Bool) :
    Sound { s with mustCancel := m } := ⟨h.1, h.2, h.3, h.4, h.5⟩

variable [DecidableEq Task]

omit [DecidableEq Task] in
/-- A Rust call on `ch` adds the announcements it schedules. -/
theorem announcements_dispatch {β : Type} (ch : C) (o : Outcome Loop (Fut Task) C α β) (c : C) :
    (s.dispatch ch o).announcements c =
      s.announcements c + (o.toWake.filterMap WakeTarget.selectCall?).countP (·.2 = c) := by
  have hsum : ∑ t, (s.dispatch ch o).announced t c = ∑ t, s.announced t c := sum_same fun _ => rfl
  rw [announcements, announcements, hsum]
  simp only [Selectors.dispatch, List.countP_append]
  omega

omit [DecidableEq Task] in
/-- A Rust call on `ch`, in a state that announces the other channels as often
as a sound one. -/
theorem sound_dispatch (h : s.Sound) {r : Selectors Loop C Task α} (hr : r.chan = s.chan) (hp : r.pc = s.pc)
    {β : Type} {ch : C} {o : Outcome Loop (Fut Task) C α β}
    (ha : ∀ c, c ≠ ch → s.announcements c ≤ r.announcements c) (hc : o.state.Consistent)
    (hg : o.state.getters = []) (ht : ∀ w ∈ o.state.selectWatchers, w.channelToken = some ch)
    (hcov : o.state.selectWatchers = [] ∨ o.state.buffer.length ≤
      r.announcements ch + (o.toWake.filterMap WakeTarget.selectCall?).countP (·.2 = ch)) :
    (r.dispatch ch o).Sound := by
  have hchan : ∀ c, (r.dispatch ch o).chan c = if c = ch then o.state else s.chan c := fun c => by
    simp [Selectors.dispatch, Function.update_apply, hr]
  refine ⟨fun c => ?_, fun c => ?_, fun c => ?_, fun t f hf => h.owner t f (hp ▸ hf), fun c => ?_⟩
  · rw [hchan]
    split
    · exact hc
    · exact h.consistent c
  · rw [hchan]
    split
    · exact hg
    · exact h.getters c
  · rw [hchan]
    split
    · rename_i e
      exact e ▸ ht
    · exact h.token c
  · rw [Covered, hchan, announcements_dispatch]
    split
    · rename_i e
      exact e ▸ hcov
    · rename_i e
      have := ha c e
      exact (h.covered c).imp_right fun h => by omega

omit [DecidableEq Task] in
theorem Sound.dispatch (h : s.Sound) {β : Type} {ch : C} {o : Outcome Loop (Fut Task) C α β}
    (hc : o.state.Consistent) (hg : o.state.getters = [])
    (ht : ∀ w ∈ o.state.selectWatchers, w.channelToken = some ch)
    (hcov : o.state.selectWatchers = [] ∨ o.state.buffer.length ≤
      s.announcements ch + (o.toWake.filterMap WakeTarget.selectCall?).countP (·.2 = ch)) :
    (s.dispatch ch o).Sound :=
  sound_dispatch h rfl rfl (fun _ _ => Nat.le_refl _) hc hg ht hcov

/-- Task `t` goes on; an announcement it drops can be spared. -/
theorem Sound.goto (h : s.Sound) {t : Task} {p : SelectPc C Task}
    (hn : ∀ ch, s.announced t ch ≤ (s.goto t p).announced t ch ∨ s.Spare ch)
    (ho : ∀ f, p.arbiter? = some f → f.owner = t ∨ (s.pc t).arbiter? = some f) : (s.goto t p).Sound := by
  refine ⟨h.consistent, h.getters, h.token, fun u f hf => ?_, fun ch => ?_⟩
  · by_cases hu : u = t
    · subst hu
      exact (ho f (by simpa [Selectors.goto] using hf)).elim id (h.owner u f)
    · exact h.owner u f (by simpa [Selectors.goto, hu] using hf)
  have hother : ∀ u, u ≠ t → (s.goto t p).announced u ch = s.announced u ch := fun u hu =>
    announced_congr (by simp [Selectors.goto, hu]) rfl
  have hsum := sum_step (f := fun u => s.announced u ch) (g := fun u => (s.goto t p).announced u ch) t hother
  have hone := announced_le_one (s := s) t ch
  have hcov := h.covered ch
  simp only [Covered, announcements, Selectors.goto] at hcov ⊢ hsum
  rcases hn ch with hle | hw | hlt
  · simp only [Selectors.goto] at hle
    exact hcov.imp_right fun h => by omega
  · exact .inl hw
  · simp only [announcements] at hlt
    exact .inr (by omega)

/-- Task `t`, which was told of no other channel than `ch`, tries `ch`. -/
theorem Sound.tryRecv (h : s.Sound) {t : Task} {ch : C} {p q : SelectPc C Task}
    (hn : ∀ c, c ≠ ch → s.announced t c = 0)
    (hp : ∀ f, p.arbiter? = some f → (s.pc t).arbiter? = some f)
    (hq : ∀ f, q.arbiter? = some f → (s.pc t).arbiter? = some f) : (s.tryRecv t ch p q).Sound := by
  have hcov := h.covered ch
  have hd : (s.dispatch ch (s.chan ch).tryRecv).Sound := by
    refine h.dispatch (tryRecv_consistent (h.consistent ch)) (tryRecv_getters.trans (h.getters ch)) ?_ ?_
    · rw [tryRecv_watchers]
      exact h.token ch
    · rw [tryRecv_watchers]
      refine hcov.imp_right fun hle => ?_
      have hlen := congrArg List.length (tryRecv_items (s := s.chan ch)).1
      rw [List.length_append] at hlen
      omega
  have hlose : ∀ (r : SelectPc C Task) c, (s.dispatch ch (s.chan ch).tryRecv).announced t c ≤
      ((s.dispatch ch (s.chan ch).tryRecv).goto t r).announced t c ∨
        (s.dispatch ch (s.chan ch).tryRecv).Spare c := by
    intro r c
    by_cases hc : c = ch
    · subst hc
      rcases hcov with hw | hle
      · refine .inr (.inl ?_)
        simp [Selectors.dispatch, tryRecv_watchers, hw]
      · rcases tryRecv_cases (s := s.chan c) with ⟨x, xs, hb, e⟩ | ⟨hb, -, e⟩ | ⟨hb, -, e⟩
        · refine .inr (.inr ?_)
          rw [announcements_dispatch]
          simp only [hb, List.length_cons] at hle
          simp only [Selectors.dispatch, Function.update_self, e]
          omega
        all_goals
          by_cases h0 : s.announced t c = 0
          · exact .inl (by rw [show (s.dispatch c _).announced t c = s.announced t c from rfl, h0]; omega)
          · refine .inr (.inr ?_)
            have hpos : s.announced t c ≤ s.announcements c :=
              Nat.le_add_left_of_le (Finset.single_le_sum (f := fun u => s.announced u c)
                (fun _ _ => Nat.zero_le _) (Finset.mem_univ t))
            rw [announcements_dispatch]
            simp only [Selectors.dispatch, Function.update_self, e, hb, List.length_nil]
            omega
    · exact .inl (by rw [show (s.dispatch ch _).announced t c = s.announced t c from rfl, hn c hc]; omega)
  unfold Selectors.tryRecv
  dsimp only
  split
  · exact hd.goto (hlose p) fun f hf => .inr (hp f hf)
  · exact hd.goto (hlose q) fun f hf => .inr (hq f hf)

/-! ## Every step -/

omit [DecidableEq Task] in
theorem Sound.trySend (h : s.Sound) (ch : C) (item : α) :
    (s.dispatch ch ((s.chan ch).trySend item)).Sound := by
  have hc := trySend_consistent (h.consistent ch) item
  have hcov := h.covered ch
  rcases trySend_cases (h.consistent ch) item with ⟨-, e⟩ | ⟨-, g, gs, hg, -⟩ | ⟨-, hg, w, ws, hw, e⟩ |
    ⟨-, -, -, -, -, e⟩ | ⟨-, hg, hw, -, e⟩
  · rw [e] at hc ⊢
    exact h.dispatch hc (h.getters ch) (h.token ch) hcov
  · simp [h.getters ch] at hg
  · rw [e] at hc ⊢
    refine h.dispatch hc hg (fun w' hm => h.token ch w' (by simp [hw, hm])) (.inr ?_)
    have ht := h.token ch w (by simp [hw])
    have hle := hcov.resolve_left (by simp [hw])
    simpa [ChannelWaiter.selectWake, WakeTarget.selectCall?, ht] using hle
  · rw [e] at hc ⊢
    exact h.dispatch hc (h.getters ch) (h.token ch) hcov
  · rw [e] at hc ⊢
    exact h.dispatch hc hg (h.token ch) (.inl hw)

/-- A task that was told of no channel goes on. -/
theorem Sound.goto_of_zero (h : s.Sound) {t : Task} {p : SelectPc C Task}
    (hn : ∀ ch, s.announced t ch = 0)
    (ho : ∀ f, p.arbiter? = some f → f.owner = t ∨ (s.pc t).arbiter? = some f) : (s.goto t p).Sound :=
  h.goto (fun ch => .inl (by rw [hn ch]; exact Nat.zero_le _)) ho

omit [DecidableEq Task] in
theorem Sound.register (h : s.Sound) (l : Loop) (f : Fut Task) (ch : C) :
    (s.dispatch ch ((s.chan ch).registerSelectWatcher l f ch)).Sound := by
  have hc := registerSelectWatcher_consistent (h.consistent ch) l f ch
  rcases registerSelectWatcher_cases (s := s.chan ch) l f ch with ⟨-, e⟩ | ⟨-, hb, e⟩ <;> rw [e] at hc ⊢
  · exact h.dispatch hc (h.getters ch) (h.token ch) (h.covered ch)
  · refine h.dispatch hc (h.getters ch) (fun w hw => ?_) (.inr (by simp [hb]))
    rcases List.mem_append.1 hw with hw | hw
    · exact h.token ch w hw
    · obtain rfl := List.mem_singleton.1 hw
      rfl

theorem Sound.unregister (h : s.Sound) (f : Fut Task) (ch : C) :
    (s.dispatch ch ((s.chan ch).unregisterSelectWatcher f)).Sound := by
  refine h.dispatch (unregisterSelectWatcher_consistent (h.consistent ch) f) (h.getters ch)
    (fun w hw => h.token ch w (mem_retain.1 hw).1) ((h.covered ch).imp (fun hw => ?_) fun hle => ?_)
  · simp [unregisterSelectWatcher, hw, retain_nil]
  · simpa [unregisterSelectWatcher] using hle

/-- Task `t` starts to await its own arbiter. -/
theorem Sound.await (h : s.Sound) {t : Task} {f : Fut Task} {p : SelectPc C Task} (ho : f.owner = t)
    (hn : ∀ ch, s.announced t ch = 0) (hp : p.arbiter? = some f) : (s.await t f p).Sound := by
  refine ⟨h.consistent, h.getters, h.token, fun u g hg => ?_, fun ch => ?_⟩
  · by_cases hu : u = t
    · subst hu
      rw [← ho]
      exact congrArg Fut.owner (Option.some.inj (hp.symm.trans (by simpa [Selectors.await] using hg))).symm
    · exact h.owner u g (by simpa [Selectors.await, hu] using hg)
  · refine (h.covered ch).imp_right fun hle => Nat.le_trans hle ?_
    refine Nat.add_le_add_left (Finset.sum_le_sum fun u _ => ?_) _
    by_cases hu : u = t
    · rw [hu, hn ch]
      exact Nat.zero_le _
    · refine announced_mono (by simp [Selectors.await, hu]) fun g hg hr => ?_
      have hne : g ≠ f := by
        rintro rfl
        exact hu ((h.owner u g hg).symm.trans ho)
      simp only [Selectors.await]
      split
      · rwa [Function.update_of_ne hne]
      · exact hr

theorem Sound.advance (h : s.Sound) {t : Task} {start : Nat} (hs : s.advance home t start = some s') :
    s'.Sound := by
  unfold Selectors.advance at hs
  split at hs
  · rename_i channels ch rest hpc
    cases hs
    exact h.tryRecv (fun _ _ => announced_of_pc hpc) (by simp [SelectPc.arbiter?]) (by simp [SelectPc.arbiter?])
  · rename_i channels hpc
    split at hs <;> cases hs
    · exact h.goto_of_zero (fun _ => announced_of_pc hpc) (by simp [SelectPc.arbiter?])
    · have h' : (s.createFuture t).2.Sound := ⟨h.1, h.2, h.3, h.4, h.5⟩
      refine h'.goto_of_zero (fun _ => announced_of_pc (s := s) hpc) fun f hf => .inl ?_
      cases hf
      rfl
  · rename_i channels f registered ch rest hpc
    dsimp only at hs
    have hd := h.register (home t) f ch
    have hz : ∀ c, (s.dispatch ch ((s.chan ch).registerSelectWatcher (home t) f ch)).announced t c = 0 :=
      fun c => announced_of_pc (s := s) hpc
    split at hs
    · cases hs
      exact hd.goto_of_zero hz fun g hg => .inr (by simpa [Selectors.dispatch, hpc, SelectPc.arbiter?] using hg)
    · split at hs <;> cases hs <;>
        exact hd.goto_of_zero hz fun g hg => .inr (by simpa [Selectors.dispatch, hpc, SelectPc.arbiter?] using hg)
  · rename_i channels f registered ch rest hpc
    cases hs
    exact h.tryRecv (fun _ _ => announced_of_pc hpc) (by simp [hpc, SelectPc.arbiter?])
      (by simp [hpc, SelectPc.arbiter?])
  · rename_i channels f registered hpc
    split at hs <;> cases hs
    · exact h.goto_of_zero (fun _ => announced_of_pc hpc) (by simp [hpc, SelectPc.arbiter?])
    · exact h.await (h.owner t f (by rw [hpc]; rfl)) (fun _ => announced_of_pc hpc) rfl
  · rename_i channels f registered ch hpc
    cases hs
    refine h.tryRecv (fun c hc => ?_) (by simp [hpc, SelectPc.arbiter?]) (by simp [hpc, SelectPc.arbiter?])
    simp [announced, hpc, hc.symm]
  · rename_i f ch registered next hpc
    cases hs
    exact (h.unregister f ch).goto_of_zero (fun c => announced_of_pc (s := s) hpc)
      fun g hg => .inr (by simpa [Selectors.dispatch, hpc, SelectPc.arbiter?] using hg)
  · rename_i hpc
    cases hs
    exact h.goto_of_zero (fun _ => announced_of_pc hpc) (by simp [SelectPc.arbiter?])
  · rename_i hpc
    cases hs
    exact h.goto_of_zero (fun _ => announced_of_pc hpc) (by simp [SelectPc.arbiter?])
  all_goals cases hs

theorem Sound.resume (h : s.Sound) {t : Task} (hok : s.Heard (.resume t : SelectAction C Task α))
    (hs : s.resume t = some s') : s'.Sound := by
  unfold Selectors.resume at hs
  split at hs
  · rename_i channels f registered hpc
    have hcancelled : ∀ ch, s.futs f ≠ .result ch → s.announced t ch = 0 := by
      intro ch hf
      simp [announced, hpc, hf]
    split at hs
    · cases hs
    · rename_i ch hf
      split at hs <;> cases hs
      · rename_i hm
        refine (h.mustCancel _).goto (fun c => ?_) fun g hg => .inr (by simpa [hpc, SelectPc.arbiter?] using hg)
        by_cases hc : c = ch
        · subst hc
          exact .inr (hok channels f registered c hpc hf hm)
        · refine .inl (Nat.le_trans (Nat.le_of_eq (hcancelled c ?_)) (Nat.zero_le _))
          simp [hf, Ne.symm hc]
      · refine h.goto (fun c => .inl ?_) fun g hg => .inr (by simpa [hpc, SelectPc.arbiter?] using hg)
        simp [announced, Selectors.goto, hpc, hf]
    all_goals
      rename_i hf
      cases hs
      exact (h.mustCancel _).goto_of_zero (fun c => hcancelled c (by simp [hf]))
        fun g hg => .inr (by simpa [hpc, SelectPc.arbiter?] using hg)
  · cases hs

abbrev withFut (s : Selectors Loop C Task α) (f : Fut Task) (st : FutState C) : Selectors Loop C Task α :=
  { s with futs := Function.update s.futs f st }

abbrev unscheduled (s : Selectors Loop C Task α) (i : Nat) : Selectors Loop C Task α :=
  { s with scheduled := s.scheduled.eraseIdx i }

omit [Fintype Task] in
theorem announced_withFut {f : Fut Task} {st : FutState C} (hp : s.futs f = .pending) (t : Task) (ch : C) :
    s.announced t ch ≤ (s.withFut f st).announced t ch := by
  refine announced_mono rfl fun g _ hr => ?_
  have hne : g ≠ f := by
    rintro rfl
    simp [hp] at hr
  simpa [hne] using hr

/-- A pending future is set or cancelled: no announcement is lost. -/
theorem announcements_withFut {f : Fut Task} {st : FutState C} (hp : s.futs f = .pending) (ch : C) :
    s.announcements ch ≤ (s.withFut f st).announcements ch :=
  Nat.add_le_add_left (Finset.sum_le_sum fun t _ => announced_withFut hp t ch) _

/-- The arbiter its selector awaits is set: one more task was told. -/
theorem announcements_set {f : Fut Task} {ch : C} {channels registered : List C}
    (hpc : s.pc f.owner = .await channels f registered) (hp : s.futs f = .pending) :
    s.announcements ch + 1 ≤ (s.withFut f (.result ch)).announcements ch := by
  refine Nat.add_le_add_left (Finset.sum_lt_sum (fun t _ => announced_withFut hp t ch)
    ⟨f.owner, Finset.mem_univ _, ?_⟩) _
  simp [announced, hpc, hp]

theorem Sound.cancel (h : s.Sound) (t : Task) : (s.cancel t).Sound := by
  unfold Selectors.cancel
  split
  · rename_i f _ hpc
    split
    · rename_i hp
      exact ⟨h.consistent, h.getters, h.token, h.owner, fun ch => (h.covered ch).imp_right fun hle =>
        Nat.le_trans hle (announcements_withFut hp ch)⟩
    · exact h.mustCancel _
  · exact h.mustCancel _

omit [DecidableEq Task] in
/-- A scheduled callback is one announcement of its channel. -/
theorem announcements_unscheduled {i : Nat} {f : Fut Task} {ch : C} (hi : s.scheduled[i]? = some (f, ch))
    (c : C) : s.announcements c = (s.unscheduled i).announcements c + if ch = c then 1 else 0 := by
  obtain ⟨hlt, he⟩ := List.getElem?_eq_some_iff.1 hi
  have hp := (List.getElem_cons_eraseIdx_perm hlt).countP_eq (fun e => decide (e.2 = c))
  rw [he, List.countP_cons] at hp
  have hsum : ∑ t, (s.unscheduled i).announced t c = ∑ t, s.announced t c := sum_same fun _ => rfl
  rw [announcements, announcements, hsum, ← hp]
  simp only [decide_eq_true_eq]
  omega

theorem Sound.wake (h : s.Sound) {i : Nat} {f : Fut Task} {ch : C} (hi : s.scheduled[i]? = some (f, ch))
    (hok : s.Heard (.wake i : SelectAction C Task α)) : ((s.unscheduled i).selectWake f ch).Sound := by
  have hun := announcements_unscheduled hi
  unfold Selectors.selectWake
  split
  · rename_i hp
    refine ⟨h.consistent, h.getters, h.token, h.owner, fun c => ?_⟩
    change (s.chan c).selectWatchers = [] ∨ (s.chan c).buffer.length ≤
      ((s.unscheduled i).withFut f (.result ch)).announcements c
    have hup : (s.unscheduled i).announcements c ≤ ((s.unscheduled i).withFut f (.result ch)).announcements c :=
      announcements_withFut hp c
    have hc := hun c
    by_cases he : ch = c
    · subst he
      rcases hok f ch hi hp with ⟨channels, registered, hpc⟩ | hw | hlt
      · rw [if_pos rfl] at hc
        have hset : (s.unscheduled i).announcements ch + 1 ≤
            ((s.unscheduled i).withFut f (.result ch)).announcements ch := announcements_set hpc hp
        exact (h.covered ch).imp_right fun hle => by omega
      · exact .inl hw
      · rw [if_pos rfl] at hc
        exact .inr (by omega)
    · rw [if_neg he] at hc
      exact (h.covered c).imp_right fun hle => by omega
  · -- The arbiter is done already: the announcement is forwarded, if there is a need for it.
    rcases forwardSelectWakeup_cases (s := s.chan ch) with ⟨hno, e⟩ | ⟨-, -, w, ws, hw, e⟩
    · have hs : (s.unscheduled i).dispatch ch (s.chan ch).forwardSelectWakeup = s.unscheduled i := by
        rw [e]
        simp [Selectors.dispatch]
      rw [hs]
      refine ⟨h.consistent, h.getters, h.token, h.owner, fun c => ?_⟩
      change (s.chan c).selectWatchers = [] ∨ (s.chan c).buffer.length ≤ (s.unscheduled i).announcements c
      have hc := hun c
      by_cases he : ch = c
      · subst he
        rcases hno with hb | hg | hw
        · exact .inr (by simp [hb])
        · exact absurd (h.getters ch) hg
        · exact .inl hw
      · rw [if_neg he] at hc
        exact (h.covered c).imp_right fun hle => by omega
    · have hk := forwardSelectWakeup_consistent (h.consistent ch)
      have htok := h.token ch w (by simp [hw])
      have hle := (h.covered ch).resolve_left (by simp [hw])
      rw [hun ch, if_pos rfl] at hle
      rw [e] at hk ⊢
      refine sound_dispatch h (r := s.unscheduled i) rfl rfl (fun c hc => ?_) hk (h.getters ch)
        (fun w' hm => h.token ch w' (by simp [hw, hm])) (.inr ?_)
      · rw [hun c, if_neg (Ne.symm hc), Nat.add_zero]
      · simpa [ChannelWaiter.selectWake, WakeTarget.selectCall?, htok] using hle

theorem Sound.step (h : s.Sound) {a : SelectAction C Task α} (hok : s.Heard a)
    (hs : s.step home a = some s') : s'.Sound := by
  cases a with
  | trySend ch item =>
    cases hs
    exact h.trySend ch item
  | select t channels start =>
    simp only [Selectors.step] at hs
    split at hs
    · rename_i hpc
      split at hs <;> cases hs
      · exact h
      · exact h.goto_of_zero (fun _ => announced_of_pc hpc) (by simp [SelectPc.arbiter?])
    · cases hs
  | advance t start => exact h.advance hs
  | leave t =>
    simp only [Selectors.step] at hs
    split at hs <;> cases hs
    rename_i hpc
    exact h.goto_of_zero (fun _ => announced_of_pc hpc) (by simp [SelectPc.arbiter?])
  | resume t => exact h.resume hok hs
  | cancel t =>
    cases hs
    exact h.cancel t
  | wake i =>
    simp only [Selectors.step] at hs
    split at hs
    · rename_i f ch hi
      split at hs <;> cases hs
      exact h.wake hi hok
    · cases hs

end Announcements

/-- No callback is scheduled, and every task has returned or is suspended on a
pending arbiter. -/
def Quiescent (s : Selectors Loop C Task α) : Prop :=
  s.scheduled = [] ∧ ∀ t, s.pc t = .idle ∨
    ∃ channels f registered, s.pc t = .await channels f registered ∧ s.futs f = .pending

theorem Quiescent.announcements_eq_zero [Fintype Task] (h : s.Quiescent) (ch : C) :
    s.announcements ch = 0 := by
  rw [announcements, h.1, List.countP_nil, Nat.zero_add]
  refine Finset.sum_eq_zero fun t _ => ?_
  rcases h.2 t with hpc | ⟨channels, f, registered, hpc, hf⟩
  · exact announced_of_pc hpc
  · simp [announced, hpc, hf]

end Selectors

/-! ## Every run -/

section Runs

variable [DecidableEq Task] [Fintype Task] {home : Task → Loop} {maxsize : C → Nat}
  {s : Selectors Loop C Task α}

/-- In every run that absorbs no announcement a channel still needs: once no
callback is scheduled and no selector can run, no channel with items has a
watcher whose arbiter is pending. -/
theorem no_lost_select_wakeup (h : (selectors home maxsize).ReachableWhen Selectors.Heard s)
    (hq : s.Quiescent) (ch : C) (hb : (s.chan ch).buffer ≠ []) :
    ∀ w ∈ (s.chan ch).selectWatchers, s.futs w.future ≠ .pending := by
  have hs : s.Sound := h.inv (I := Selectors.Sound)
    (fun s hs => (show s = Selectors.new maxsize from hs) ▸ Selectors.sound_new maxsize)
    fun s a s' hi hok hst => hi.step hok hst
  rcases hs.covered ch with hw | hle
  · simp [hw]
  · rw [hq.announcements_eq_zero ch] at hle
    exact absurd (List.length_eq_zero_iff.1 (Nat.le_zero.1 hle)) hb

end Runs

/-- A selector is told of the first of two items, takes it and returns. -/
theorem no_lost_select_wakeup_taken : ∃ s : Selectors Unit Unit Bool Nat,
    (s.chan ()).buffer = [8] ∧ s.Quiescent ∧
      ∀ w ∈ (s.chan ()).selectWatchers, s.futs w.future ≠ .pending := by
  have h : (selectors (fun _ => ()) fun _ => 0).ReachableWhen Selectors.Heard
      (Selectors.new fun _ => 0 : Selectors Unit Unit Bool Nat) := .init rfl
  have h := h.next (.select false [()] 0) trivial rfl
  have h := h.next (.advance false 0) trivial rfl
  have h := h.next (.advance false 0) trivial rfl
  have h := h.next (.advance false 0) trivial rfl
  have h := h.next (.advance false 0) trivial rfl
  have h := h.next (.trySend () 7) trivial rfl
  have h := h.next (.trySend () 8) trivial rfl
  have h := h.next (.wake 0) (by
    rintro f ch he -
    cases he
    exact .inl ⟨_, _, rfl⟩) rfl
  have h := h.next (.resume false) (by
    rintro channels f registered ch - - hm
    cases hm) rfl
  have h := h.next (.advance false 0) trivial rfl
  have h := h.next (.advance false 0) trivial rfl
  have h := h.next (.advance false 0) trivial rfl
  refine ⟨_, rfl, ⟨rfl, fun t => ?_⟩,
    no_lost_select_wakeup h ⟨rfl, fun t => ?_⟩ () (List.cons_ne_nil 8 [])⟩ <;>
    cases t <;> exact .inl rfl

/-- Two selectors on one channel: an item is sent, the callback sets the first
one's arbiter, and that selector is cancelled before it resumes. The item is
there, and the second selector sleeps. -/
theorem cancelled_selector_loses_wakeup : ∃ s : Selectors Unit Unit Bool Nat,
    (selectors (fun _ => ()) fun _ => 0).Reachable s ∧
      (s.scheduled = [] ∧ s.pc false = .idle ∧
        s.pc true = .await [()] ⟨true, 0, false⟩ [()] ∧ s.futs ⟨true, 0, false⟩ = .pending) ∧
      (s.chan ()).buffer = [7] ∧ (s.chan ()).selectWatchers = [⟨(), ⟨true, 0, false⟩, some ()⟩] :=
  System.exists_reachable_of_run [.select false [()] 0, .advance false 0, .advance false 0,
    .advance false 0, .advance false 0, .select true [()] 0, .advance true 0, .advance true 0,
    .advance true 0, .advance true 0, .trySend () 7, .wake 0, .cancel false, .resume false,
    .advance false 0, .advance false 0] (s := Selectors.new fun _ => 0) rfl (by decide +kernel)

end Multiloop.Channel
