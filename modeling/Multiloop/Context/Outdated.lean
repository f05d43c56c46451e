import Mathlib.Data.Nat.Basic
import Multiloop.Context.OneTimer

/-!
# No outdated deadline cancels a scope

A timer that is armed, a call of `_schedule` that has checked its value, an
`__aenter__` that has read the deadline: each will cancel the scope, or arm a
timer, for the deadline that it knows. The scope `Covers` a time if its deadline
in force comes no later, or if it is cancelled anyway. All of these times are
covered as long as none of them is left behind when a later deadline is
assigned; the timer that the setter takes out is not, and must not fire before
the setter has cancelled it.
-/

namespace Multiloop.DeadlineTimer

variable {Thread Task Time : Type} [LinearOrder Time]

namespace Doing

/-- The time for which the thread will cancel the scope, or arm a timer, without
a look at the deadline. -/
def bound (now : Time) : Doing Task Time → Option Time
  | .checked value _ => some value
  | .early value _ => value
  | .firing _ | .cancelling | .late _ => some now
  | _ => none

/-- The thread is about to cancel the scope because of its deadline. -/
def Due : Doing Task Time → Prop
  | .firing _ | .cancelling | .late _ => True
  | _ => False

omit [LinearOrder Time] in
theorem bound_of_due {d : Doing Task Time} (h : d.Due) (now : Time) : d.bound now = some now := by
  cases d with
  | firing timer => rfl
  | cancelling => rfl
  | late host => rfl
  | _ => exact h.elim

/-- As time goes on, a bound stays what it is, or is the time itself. -/
theorem bound_tick {d : Doing Task Time} {now time v : Time} (hle : now ≤ time) (h : d.bound time = some v) :
    ∃ v', d.bound now = some v' ∧ v' ≤ v := by
  cases d with
  | firing timer => exact ⟨now, rfl, Option.some.inj h ▸ hle⟩
  | cancelling => exact ⟨now, rfl, Option.some.inj h ▸ hle⟩
  | late host => exact ⟨now, rfl, Option.some.inj h ▸ hle⟩
  | checked value task => exact ⟨v, h, le_refl v⟩
  | early value host => exact ⟨v, h, le_refl v⟩
  | _ => cases h

end Doing

namespace Sys

/-- The scope is cancelled, or has a deadline that is no later than `v`. -/
def Covers (s : Sys Thread Task Time) (v : Time) : Prop := s.cancelCalled = true ∨ ∃ d, s.deadline = some d ∧ d ≤ v

/-- The timer is armed, and no setter is about to cancel it. -/
def Loose (s : Sys Thread Task Time) (t : Timer Thread Time) : Prop :=
  t ∈ s.armed ∧ ∀ th, (s.threads th).holds ≠ some t.id

/-- All that is to come is for the deadline in force, or for a later time. -/
structure Timely (s : Sys Thread Task Time) : Prop where
  timers : ∀ t, s.Loose t → ∀ v, t.time = some v → s.Covers v
  threads : ∀ th v, (s.threads th).bound s.now = some v → s.Covers v

/-- No later deadline is assigned than what is to come, but for the timer that
the setter takes out; and that one does not fire before it is cancelled. -/
def LeavesNone (s : Sys Thread Task Time) : Action Thread Task Time → Prop
  | .assign _ value => s.cancelCalled = true ∨
      (∀ t, s.Loose t → s.handle ≠ some t.id → ∀ v, t.time = some v → ∃ d, value = some d ∧ d ≤ v) ∧
      ∀ th v, (s.threads th).bound s.now = some v → ∃ d, value = some d ∧ d ≤ v
  | .fire _ timer => ∀ th, (s.threads th).holds ≠ some timer
  | _ => True

variable {home : Task → Thread} {s s' : Sys Thread Task Time} {th : Thread} {d : Doing Task Time}

theorem Covers.mono {v v' : Time} (h : s.Covers v) (hle : v ≤ v') : s.Covers v' :=
  h.imp_right fun ⟨d, hd, hdv⟩ => ⟨d, hd, le_trans hdv hle⟩

theorem timely_fresh (h : s.Fresh) : s.Timely := by
  obtain ⟨-, -, -, harmed, -, -, hidle⟩ := h
  refine ⟨fun t ht => ?_, fun th v hv => ?_⟩
  · have hmem := ht.1
    rw [harmed] at hmem
    cases hmem
  · rw [hidle] at hv
    cases hv

/-- A scope that is cancelled has nothing to fear. -/
theorem timely_of_cancelled (h : s.cancelCalled = true) : s.Timely := ⟨fun _ _ _ _ => .inl h, fun _ _ _ => .inl h⟩

theorem Timely.tick (h : s.Timely) {time : Time} (hle : s.now ≤ time) : ({ s with now := time }).Timely := by
  refine ⟨h.timers, fun th v hv => ?_⟩
  obtain ⟨v', hv', hle'⟩ := Doing.bound_tick hle hv
  exact (h.threads th v' hv').mono hle'

variable [DecidableEq Thread]

/-- A thread turns to `d`, while the deadline stays as it is. A timer that is
loose afterwards was so before, or is covered. -/
theorem Timely.turn (h : s.Timely) {u : Sys Thread Task Time} (hthreads : u.threads = s.threads)
    (hcancel : s.cancelCalled = true → u.cancelCalled = true) (hdeadline : u.deadline = s.deadline) (hnow : u.now = s.now)
    (harmed : ∀ t ∈ u.armed, (s.threads th).holds ≠ some t.id → t ∈ s.armed ∨ ∀ v, t.time = some v → s.Covers v)
    (hheld : ∀ t ∈ u.armed, (s.threads th).holds = some t.id → d.holds = some t.id)
    (hbound : ∀ v, d.bound s.now = some v → s.Covers v) : (u.goto th d).Timely := by
  have hcovers : ∀ {v : Time}, s.Covers v → (u.goto th d).Covers v := fun hv =>
    hv.imp hcancel fun ⟨d, hd, hle⟩ => ⟨d, hdeadline.trans hd, hle⟩
  refine ⟨fun t ht v hv => ?_, fun th' v hv => ?_⟩
  · have hfree : ∀ th', (s.threads th').holds ≠ some t.id := by
      intro th' hholds
      by_cases hth : th' = th
      · subst hth
        refine ht.2 th' ?_
        rw [goto_self]
        exact hheld t ht.1 hholds
      · refine ht.2 th' ?_
        rw [goto_of_ne u hth, hthreads]
        exact hholds
    rcases harmed t ht.1 (hfree th) with hold | hnew
    · exact hcovers (h.timers t ⟨hold, hfree⟩ v hv)
    · exact hcovers (hnew v hv)
  · by_cases hth : th' = th
    · subst hth
      rw [goto_self] at hv
      exact hcovers (hbound v (hnow ▸ hv))
    · rw [goto_of_ne u hth, hthreads] at hv
      exact hcovers (h.threads th' v (hnow ▸ hv))

omit [LinearOrder Time] in
theorem drop_cancelCalled (s : Sys Thread Task Time) (th : Thread) (again : Stage → Doing Task Time)
    (after : Doing Task Time) (stage : Stage) : (s.drop th again after stage).cancelCalled = s.cancelCalled := by
  unfold drop
  cases stage with
  | look =>
    dsimp only
    split
    · rfl
    · rfl
  | cancel =>
    dsimp only
    split
    · rfl
    · rfl
  | clear => rfl

omit [LinearOrder Time] in
theorem refuse_cancelCalled (s : Sys Thread Task Time) (th : Thread) (host : Task) :
    (s.refuse th host).cancelCalled = s.cancelCalled := by
  unfold refuse
  split
  · rfl
  · split
    · rfl
    · rfl

/-- A thread that holds no timer turns to something that has no bound. -/
theorem Timely.aside (h : s.Timely) {u : Sys Thread Task Time} (hthreads : u.threads = s.threads)
    (hcancel : u.cancelCalled = s.cancelCalled) (hdeadline : u.deadline = s.deadline) (hnow : u.now = s.now)
    (harmed : ∀ t ∈ u.armed, t ∈ s.armed) (hholds : (s.threads th).holds = none) (hbound : d.bound s.now = none) :
    (u.goto th d).Timely := by
  refine h.turn hthreads (fun hc => hcancel.trans hc) hdeadline hnow (fun t ht _ => .inl (harmed t ht))
    (fun t _ ht => ?_) fun v hv => ?_
  · cases hholds.symm.trans ht
  · cases hbound.symm.trans hv

/-- It arms a timer for a time that is covered. -/
theorem Timely.arm (h : s.Timely) {time : Option Time} (htime : ∀ v, time = some v → s.Covers v)
    (hholds : (s.threads th).holds = none) (hbound : d.bound s.now = none) : ((s.arm th time).goto th d).Timely := by
  refine h.turn (u := s.arm th time) rfl id rfl rfl (fun t ht _ => ?_) (fun t _ ht => ?_) fun v hv => ?_
  · refine (List.mem_append.1 ht).imp_right fun hnew v hv => ?_
    rw [List.mem_singleton.1 hnew] at hv
    exact htime v hv
  · cases hholds.symm.trans ht
  · cases hbound.symm.trans hv

/-- It turns to something whose bound is covered. -/
theorem Timely.heeds (h : s.Timely) (hholds : (s.threads th).holds = none)
    (hbound : ∀ v, d.bound s.now = some v → s.Covers v) : (s.goto th d).Timely := by
  refine h.turn rfl id rfl rfl (fun t ht _ => .inl ht) (fun t _ ht => ?_) hbound
  cases hholds.symm.trans ht

omit [LinearOrder Time] [DecidableEq Thread] in
theorem mem_of_cancelTimer {timer : Nat} {t : Timer Thread Time} (h : t ∈ (s.cancelTimer timer).armed) :
    t ∈ s.armed ∧ t.id ≠ timer := by
  obtain ⟨hmem, hne⟩ := List.mem_filter.1 h
  exact ⟨hmem, of_decide_eq_true hne⟩

/-- The lines about the handle. -/
theorem Timely.drop (h : s.Timely) {again : Stage → Doing Task Time} {after : Doing Task Time} (stage : Stage)
    (hholds : (s.threads th).holds = none) (hagain : ∀ stage, (again stage).bound s.now = none)
    (hafter : after.bound s.now = none) : (s.drop th again after stage).Timely := by
  unfold Sys.drop
  cases stage with
  | look =>
    dsimp only
    split
    · exact h.aside rfl rfl rfl rfl (fun _ ht => ht) hholds (hagain .cancel)
    · exact h.aside rfl rfl rfl rfl (fun _ ht => ht) hholds hafter
  | cancel =>
    dsimp only
    split
    · exact h.aside rfl rfl rfl rfl (fun _ ht => (mem_of_cancelTimer ht).1) hholds (hagain .clear)
    · exact h.aside rfl rfl rfl rfl (fun _ ht => ht) hholds rfl
  | clear => exact h.aside rfl rfl rfl rfl (fun _ ht => ht) hholds hafter

/-- The setter cancels the timer that it has taken out. -/
theorem Timely.dismiss (h : s.Timely) {value : Option Time} {task : Option Task} {old : Option Nat}
    (hdoing : s.threads th = .assigned value task old) (hbound : d.bound s.now = none) :
    ((match old with
      | some timer => s.cancelTimer timer
      | none => s).goto th d).Timely := by
  have hnone : ∀ v, d.bound s.now = some v → s.Covers v := fun v hv => by cases hbound.symm.trans hv
  cases old with
  | none => exact h.heeds (by rw [hdoing]; rfl) hnone
  | some timer =>
    refine h.turn (u := s.cancelTimer timer) rfl id rfl rfl (fun t ht _ => .inl (mem_of_cancelTimer ht).1)
      (fun t ht hholds => ?_) hnone
    rw [hdoing] at hholds
    exact absurd (Option.some.inj hholds).symm (mem_of_cancelTimer ht).2

variable [DecidableEq Task]

/-- A thread goes on. -/
theorem Timely.advance (h : s.Timely) (flag : Bool) : (s.advance home th flag (s.threads th)).Timely := by
  have hown := h.threads th
  cases hdoing : s.threads th with
  | idle => exact h
  | assigned value task old =>
    unfold Sys.advance
    dsimp only
    split
    · exact h.dismiss hdoing rfl
    · exact h.dismiss hdoing rfl
  | posting value task =>
    unfold Sys.advance
    dsimp only
    split
    · exact h.aside rfl rfl rfl rfl (fun _ ht => ht) (by rw [hdoing]; rfl) rfl
    · split
      · exact h.aside rfl rfl rfl rfl (fun _ ht => ht) (by rw [hdoing]; rfl) rfl
      · exact h.aside rfl rfl rfl rfl (fun _ ht => ht) (by rw [hdoing]; rfl) rfl
  | schedule value task =>
    unfold Sys.advance
    dsimp only
    split
    · rename_i hwanted
      refine h.heeds (by rw [hdoing]; rfl) fun v hv => .inr ⟨value, hwanted.2.1, ?_⟩
      exact le_of_eq (Option.some.inj hv)
    · exact h.aside rfl rfl rfl rfl (fun _ ht => ht) (by rw [hdoing]; rfl) rfl
  | checked value task =>
    rw [hdoing] at hown
    unfold Sys.advance
    dsimp only
    split
    · rename_i hle
      exact h.heeds (by rw [hdoing]; rfl) fun v hv => (hown value rfl).mono (Option.some.inj hv ▸ hle)
    · exact h.aside rfl rfl rfl rfl (fun _ ht => ht) (by rw [hdoing]; rfl) rfl
  | arming value task =>
    unfold Sys.advance
    dsimp only
    split
    · rename_i hwanted
      refine h.arm (fun v hv => .inr ⟨value, hwanted.2.1, ?_⟩) (by rw [hdoing]; rfl) rfl
      exact le_of_eq (Option.some.inj hv)
    · exact h.aside rfl rfl rfl rfl (fun _ ht => ht) (by rw [hdoing]; rfl) rfl
  | firing timer =>
    rw [hdoing] at hown
    refine h.turn (u := { s with handle := none }) rfl id rfl rfl (fun t ht _ => .inl ht) (fun t _ ht => ?_) hown
    rw [hdoing] at ht
    cases ht
  | cancelling => exact timely_of_cancelled rfl
  | entering host =>
    unfold Sys.advance
    dsimp only
    split
    · exact h.aside rfl rfl rfl rfl (fun _ ht => ht) (by rw [hdoing]; rfl) rfl
    · exact h.aside rfl rfl rfl rfl (fun _ ht => ht) (by rw [hdoing]; rfl) rfl
  | reading host =>
    unfold Sys.advance
    dsimp only
    split
    · rename_i hdue
      obtain ⟨d, hd, hle⟩ := (Option.any_eq_true _ _).1 hdue
      refine h.heeds (by rw [hdoing]; rfl) fun v hv => .inr ⟨d, hd, ?_⟩
      exact Option.some.inj hv ▸ of_decide_eq_true hle
    · exact h.heeds (by rw [hdoing]; rfl) fun v hv => .inr ⟨v, hv, le_refl v⟩
  | early value host =>
    rw [hdoing] at hown
    exact h.arm hown (by rw [hdoing]; rfl) rfl
  | late host =>
    unfold Sys.advance
    exact timely_of_cancelled (refuse_cancelCalled _ th host)
  | checking host =>
    have hentered : (s.entered th host).Timely :=
      h.aside rfl rfl rfl rfl (fun _ ht => ht) (by rw [hdoing]; rfl) rfl
    have hrollback : (s.goto th (.rollback .look host)).Timely :=
      h.aside rfl rfl rfl rfl (fun _ ht => ht) (by rw [hdoing]; rfl) rfl
    unfold Sys.advance Sys.refuse
    dsimp only
    split
    · split
      · exact hrollback
      · split
        · exact hentered
        · exact hrollback
    · exact hentered
  | rollback stage host =>
    show (s.drop th (.rollback · host) (.unset host) stage).Timely
    exact h.drop stage (by rw [hdoing]; rfl) (fun _ => rfl) rfl
  | unset host => exact h.aside rfl rfl rfl rfl (fun _ ht => ht) (by rw [hdoing]; rfl) rfl
  | leaving stage =>
    show (s.drop th .leaving .idle stage).Timely
    exact h.drop stage (by rw [hdoing]; rfl) (fun _ => rfl) rfl

omit [DecidableEq Task] in
/-- The lock of the setter. -/
theorem timely_assign (hidle : s.threads th = .idle) {value : Option Time}
    (hkeeps : s.LeavesNone (.assign th value)) :
    ({ s with deadline := value, handle := none }.goto th (.assigned value s.task s.handle)).Timely := by
  rcases hkeeps with hcancelled | ⟨htimers, hthreads⟩
  · exact timely_of_cancelled hcancelled
  · refine ⟨fun t ht v hv => .inr ?_, fun th' v hv => .inr ?_⟩
    · have hother : ∀ th' ≠ th, (s.threads th').holds ≠ some t.id := by
        intro th' hth
        have hfree := ht.2 th'
        rw [goto_of_ne _ hth] at hfree
        exact hfree
      have hnot : s.handle ≠ some t.id := by
        have hfree := ht.2 th
        rw [goto_self] at hfree
        exact hfree
      refine htimers t ⟨ht.1, fun th' => ?_⟩ hnot v hv
      by_cases hth : th' = th
      · rw [hth, hidle]
        exact (Option.some_ne_none _).symm
      · exact hother th' hth
    · by_cases hth : th' = th
      · rw [hth, goto_self] at hv
        cases hv
      · rw [goto_of_ne _ hth] at hv
        exact hthreads th' v hv

omit [DecidableEq Task] in
/-- A timer fires that no setter is about to cancel. -/
theorem Timely.fire (h : s.Timely) (hidle : s.threads th = .idle) {timer : Nat}
    (hfree : ∀ th, (s.threads th).holds ≠ some timer) {t : Timer Thread Time} (ht : t ∈ s.armed) (hid : t.id = timer)
    {v : Time} (hv : t.time = some v) (hle : v ≤ s.now) : ((s.cancelTimer timer).goto th (.firing timer)).Timely := by
  have hcovers : s.Covers v := h.timers t ⟨ht, fun th' => hid ▸ hfree th'⟩ v hv
  refine h.turn (u := s.cancelTimer timer) rfl id rfl rfl (fun u hu _ => .inl (mem_of_cancelTimer hu).1)
    (fun u _ hu => ?_) fun v' hv' => hcovers.mono (Option.some.inj hv' ▸ hle)
  rw [hidle] at hu
  cases hu

/-- A step that leaves no bound behind keeps all that is to come covered. -/
theorem Timely.step (h : s.Timely) {a : Action Thread Task Time} (hkeeps : s.LeavesNone a)
    (hst : s.step home a = some s') : s'.Timely := by
  cases a with
  | tick time =>
    simp only [Sys.step] at hst
    split at hst
    · rename_i hle
      cases hst
      exact h.tick hle
    · cases hst
  | cancel =>
    cases hst
    exact timely_of_cancelled rfl
  | assign th value =>
    simp only [Sys.step] at hst
    split at hst
    · rename_i hidle
      cases hst
      exact timely_assign hidle hkeeps
    · cases hst
  | run th value task =>
    simp only [Sys.step] at hst
    split at hst
    · rename_i hrun
      cases hst
      exact h.aside rfl rfl rfl rfl (fun _ ht => ht) (by rw [hrun.1]; rfl) rfl
    · cases hst
  | fire th timer =>
    simp only [Sys.step] at hst
    split at hst
    · rename_i hfire
      cases hst
      obtain ⟨t, ht, hdue⟩ := List.any_eq_true.1 hfire.2
      obtain ⟨hid, -, hcome⟩ := of_decide_eq_true hdue
      obtain ⟨v, hv, hle⟩ := (Option.any_eq_true _ _).1 hcome
      exact h.fire hfire.1 hkeeps ht hid hv (of_decide_eq_true hle)
    · cases hst
  | enter th host =>
    simp only [Sys.step] at hst
    split at hst
    · rename_i henter
      split at hst
      · cases hst
        exact h.aside rfl rfl rfl rfl (fun _ ht => ht) (by rw [henter.1]; rfl) rfl
      · cases hst
        exact h
    · cases hst
  | exit th host =>
    simp only [Sys.step] at hst
    split at hst
    · rename_i hexit
      cases hst
      exact h.aside rfl rfl rfl rfl (fun _ ht => ht) (by rw [hexit.1]; rfl) rfl
    · cases hst
  | advance th flag =>
    simp only [Sys.step] at hst
    split at hst
    · cases hst
    · cases hst
      exact h.advance flag

/-- A timer that fired, or a deadline that has passed, cancels the scope. -/
def Cancels (s : Sys Thread Task Time) (a : Action Thread Task Time) (s' : Sys Thread Task Time) : Prop :=
  s.cancelCalled = false ∧ s'.cancelCalled = true ∧ a ≠ .cancel

/-- Only a thread that is about to cancel the scope does. -/
theorem advance_cancelCalled (s : Sys Thread Task Time) (home : Task → Thread) (th : Thread) (flag : Bool)
    (d : Doing Task Time) : d.Due ∨ (s.advance home th flag d).cancelCalled = s.cancelCalled := by
  unfold advance
  cases d with
  | firing timer => exact .inl trivial
  | cancelling => exact .inl trivial
  | late host => exact .inl trivial
  | idle => exact .inr rfl
  | early value host => exact .inr rfl
  | unset host => exact .inr rfl
  | rollback stage host => exact .inr (drop_cancelCalled s th _ _ stage)
  | leaving stage => exact .inr (drop_cancelCalled s th _ _ stage)
  | assigned value task old =>
    refine .inr ?_
    cases old with
    | none =>
      dsimp only
      split
      · rfl
      · rfl
    | some timer =>
      dsimp only
      split
      · rfl
      · rfl
  | posting value task =>
    refine .inr ?_
    dsimp only
    split
    · rfl
    · split
      · rfl
      · rfl
  | checking host =>
    refine .inr ?_
    dsimp only
    split
    · exact refuse_cancelCalled s th host
    · rfl
  | schedule value task =>
    refine .inr ?_
    dsimp only
    split
    · rfl
    · rfl
  | checked value task =>
    refine .inr ?_
    dsimp only
    split
    · rfl
    · rfl
  | arming value task =>
    refine .inr ?_
    dsimp only
    split
    · rfl
    · rfl
  | entering host =>
    refine .inr ?_
    dsimp only
    split
    · rfl
    · rfl
  | reading host =>
    refine .inr ?_
    dsimp only
    split
    · rfl
    · rfl

theorem due_of_cancels (hst : s.step home a = some s') (hc : s.Cancels a s') : ∃ th, (s.threads th).Due := by
  obtain ⟨hno, hyes, hne⟩ := hc
  have hsame {p : Prop} (heq : s'.cancelCalled = s.cancelCalled) : p := by
    rw [heq, hno] at hyes
    cases hyes
  cases a with
  | cancel => exact absurd rfl hne
  | advance th flag =>
    simp only [Sys.step] at hst
    split at hst
    · cases hst
    · cases hst
      exact (advance_cancelCalled s home th flag (s.threads th)).elim (fun hdue => ⟨th, hdue⟩) fun heq => hsame heq
  | tick time =>
    simp only [Sys.step] at hst
    split at hst
    · cases hst
      exact hsame rfl
    · cases hst
  | assign th value =>
    simp only [Sys.step] at hst
    split at hst
    · cases hst
      exact hsame rfl
    · cases hst
  | run th value task =>
    simp only [Sys.step] at hst
    split at hst
    · cases hst
      exact hsame rfl
    · cases hst
  | fire th timer =>
    simp only [Sys.step] at hst
    split at hst
    · cases hst
      exact hsame rfl
    · cases hst
  | enter th host =>
    simp only [Sys.step] at hst
    split at hst
    · split at hst
      · cases hst
        exact hsame rfl
      · cases hst
        exact hsame rfl
    · cases hst
  | exit th host =>
    simp only [Sys.step] at hst
    split at hst
    · cases hst
      exact hsame rfl
    · cases hst

/-- A scope that is cancelled because of its deadline. -/
theorem Timely.reached (h : s.Timely) {a : Action Thread Task Time} (hst : s.step home a = some s')
    (hc : s.Cancels a s') : ∃ d, s.deadline = some d ∧ d ≤ s.now := by
  obtain ⟨th, hdue⟩ := due_of_cancels hst hc
  refine (h.threads th s.now (Doing.bound_of_due hdue s.now)).resolve_left fun hcancelled => ?_
  exact Bool.false_ne_true (hc.1.symm.trans hcancelled)

end Sys

variable [DecidableEq Thread] [DecidableEq Task] {home : Task → Thread} {s s' : Sys Thread Task Time}
  {a : Action Thread Task Time}

theorem timely (h : (system home).ReachableWhen Sys.LeavesNone s) : s.Timely :=
  h.inv (fun _ h0 => Sys.timely_fresh h0) fun _ _ _ hs hok hst => hs.step hok hst

/-- In every run that leaves nothing behind when a later deadline is assigned, a
scope that is cancelled because of its deadline is cancelled for the deadline in
force, which has come. -/
theorem cancelled_by_deadline_in_force (h : (system home).ReachableWhen Sys.LeavesNone s)
    (hst : s.step home a = some s') (hc : s.Cancels a s') : ∃ d, s.deadline = some d ∧ d ≤ s.now :=
  (timely h).reached hst hc

/-- Another thread assigns a deadline twice before the loop schedules it, so two
timers are armed and one is forgotten; that one cancels the scope. -/
theorem cancelled_by_deadline_in_force_fired : ∃ s : Sys Bool Unit Nat,
    (∃ s', s.step (fun _ => true) (.advance true false) = some s' ∧ s.Cancels (.advance true false) s') ∧
      ∃ d, s.deadline = some d ∧ d ≤ s.now := by
  have h := (reachable_newScope Sys.LeavesNone).next (.enter true ()) trivial rfl
  have h := (h.next (.advance true false) trivial rfl).next (.advance true false) trivial rfl
  have h := (h.next (.advance true false) trivial rfl).next (.advance true false) trivial rfl
  have h := h.next (.assign false (some 10)) (.inr ⟨fun t ht hne => absurd (List.mem_singleton.1 ht.1 ▸ rfl) hne,
    fun th v hv => by cases th <;> cases hv⟩) rfl
  have h := (h.next (.advance false false) trivial rfl).next (.advance false false) trivial rfl
  have h := h.next (.assign false (some 10)) (.inr ⟨fun t ht => absurd ht.1 List.not_mem_nil,
    fun th v hv => by cases th <;> cases hv⟩) rfl
  have h := (h.next (.advance false false) trivial rfl).next (.advance false false) trivial rfl
  have h := (h.next (.run true 10 ()) trivial rfl).next (.advance true false) trivial rfl
  have h := (h.next (.advance true false) trivial rfl).next (.advance true false) trivial rfl
  have h := (h.next (.run true 10 ()) trivial rfl).next (.advance true false) trivial rfl
  have h := (h.next (.advance true false) trivial rfl).next (.advance true false) trivial rfl
  have h := (h.next (.tick 10) trivial rfl).next (.fire true 1) (fun th => by cases th <;> nofun) rfl
  have h := h.next (.advance true false) trivial rfl
  have hdue := cancelled_by_deadline_in_force h (a := .advance true false) rfl ⟨rfl, rfl, nofun⟩
  exact ⟨_, ⟨_, rfl, rfl, rfl, nofun⟩, hdue⟩

/-- No thread gets between two steps that belong together, and nothing is left
behind when a later deadline is assigned. -/
def Sys.Ordered (home : Task → Thread) (s : Sys Thread Task Time) (a : Action Thread Task Time) : Prop :=
  s.Meets home a ∧ s.LeavesNone a

/-- In every such run the timers follow the deadline: a scope that is cancelled
because of its deadline is cancelled for the deadline in force, which has come;
and once all calls are through, an entered scope that is not cancelled has one
timer for a deadline to come, and a scope that was left, or has no deadline, has
none. -/
theorem timers_follow_deadline (h : (system home).ReachableWhen (Sys.Ordered home) s) :
    (∀ a s', s.step home a = some s' → s.Cancels a s' → ∃ d, s.deadline = some d ∧ d ≤ s.now) ∧
      (s.Quiet → (s.blocks = [] ∨ s.deadline = none → s.armed = []) ∧
        ∀ d, s.blocks ≠ [] → s.cancelCalled = false → s.deadline = some d → s.now < d →
          ∃ t, s.armed = [t] ∧ t.time = some d ∧ s.handle = some t.id) := by
  have hsound := sound (h.mono fun _ _ => And.left)
  have htimely := timely (h.mono fun _ _ => And.right)
  exact ⟨fun a s' hst hc => htimely.reached hst hc, fun hquiet =>
    ⟨hsound.none_armed hquiet, fun d hin hcancel hd hnow => hsound.one_armed hquiet hin hcancel hd hnow⟩⟩

/-- Another thread puts the deadline off, and the new one comes. -/
theorem timers_follow_deadline_postponed : ∃ s : Sys Bool Unit Nat,
    (∃ s', s.step (fun _ => true) (.advance true false) = some s' ∧ s.Cancels (.advance true false) s') ∧
      ∃ d, s.deadline = some d ∧ d ≤ s.now := by
  have h := (reachable_newScope (Sys.Ordered fun _ => true)).next (.enter true ()) ⟨⟨nofun, fun _ => rfl⟩, trivial⟩ rfl
  have h := (h.next (.advance true false) ⟨trivial, trivial⟩ rfl).next (.advance true false) ⟨trivial, trivial⟩ rfl
  have h := (h.next (.advance true false) ⟨⟨nofun, rfl⟩, trivial⟩ rfl).next (.advance true false) ⟨trivial, trivial⟩ rfl
  have h := h.next (.assign false (some 10)) ⟨fun th => by cases th <;> nofun, .inr
    ⟨fun t ht hne => absurd (List.mem_singleton.1 ht.1 ▸ rfl) hne, fun th v hv => by cases th <;> cases hv⟩⟩ rfl
  have h := (h.next (.advance false false) ⟨trivial, trivial⟩ rfl).next (.advance false false)
    ⟨.inr (.inl rfl), trivial⟩ rfl
  have h := (h.next (.run true 10 ()) ⟨trivial, trivial⟩ rfl).next (.advance true false) ⟨trivial, trivial⟩ rfl
  have h := (h.next (.advance true false) ⟨trivial, trivial⟩ rfl).next (.advance true false)
    ⟨fun _ => rfl, trivial⟩ rfl
  have h := (h.next (.tick 10) ⟨trivial, trivial⟩ rfl).next (.fire true 1)
    ⟨fun th => by cases th <;> nofun, fun th => by cases th <;> nofun⟩ rfl
  have h := h.next (.advance true false) ⟨trivial, trivial⟩ rfl
  have hdue := (timers_follow_deadline h).1 (.advance true false) _ rfl ⟨rfl, rfl, nofun⟩
  exact ⟨_, ⟨_, rfl, rfl, rfl, nofun⟩, hdue⟩

/-- Another thread assigns a deadline twice before the loop schedules it, so two
timers are armed and one is forgotten; it cancels the scope after the deadline
was put off. -/
theorem forgotten_timer_cancels : ∃ s s' : Sys Bool Unit Nat, (system fun _ => true).Reachable s ∧
    s.step (fun _ => true) (.advance true false) = some s' ∧ s.Cancels (.advance true false) s' ∧
      s.deadline = some 20 ∧ s.now = 10 := by
  have hrun : (system fun _ => true).run newScope
      [.enter true (), .advance true false, .advance true false, .advance true false, .advance true false,
        .assign false (some 10), .advance false false, .advance false false,
        .assign false (some 10), .advance false false, .advance false false,
        .run true 10 (), .advance true false, .advance true false, .advance true false,
        .run true 10 (), .advance true false, .advance true false, .advance true false,
        .assign true (some 20), .advance true false, .advance true false, .advance true false, .advance true false,
        .advance true false, .tick 10, .fire true 1, .advance true false] = some _ := rfl
  exact ⟨_, _, (reachable_newScope _).run (fun _ _ => trivial) hrun, rfl, ⟨rfl, rfl, nofun⟩, rfl, rfl⟩

end Multiloop.DeadlineTimer
