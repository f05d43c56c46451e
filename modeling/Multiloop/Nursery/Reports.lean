import Multiloop.Nursery.Collecting

/-!
# What `__aexit__` reports

The runs of a task group, with a ledger of the tasks that were cancelled and of
the children whose exception `start` raised to its caller. `owed` is the
exception that the group has to report of a child. While the host waits, the
exceptions it has collected are those owed of the children it looked at, as long
as `cancelling()` tells which of them were cancelled, and no call of `start`
raises an exception that the host has collected before: the host may come back
for another child, and find this one done before the call of `start` does.
-/

namespace Multiloop.Nursery

variable {Loop E : Type}

/-- What `__aexit__` raises, after a body that ended with `exc`. -/
def Result.entries (exc : Option (Exc E)) : Result E → List (Exc E)
  | .returns => exc.toList
  | .raises e => [e]
  | .raisesGroup _ es => es

/-- What `_wait_children` begins with, but for the tasks that were cancelled
before. -/
def Wait.empty : Wait E :=
  { exceptions := [], cancelledByScope := [], scopeCancelled := false, processed := [], pending := [] }

/-- The exception that the body ended with, at a step out of the group. -/
def Sys.bodyException (s : Sys Loop E) : Action Loop E → Option (Exc E)
  | .exit exc _ => exc
  | _ =>
    match s.host with
    | .waiting exc _ => exc
    | _ => none

/-- The child whose exception a call of `start` raises. -/
def Sys.raisedTo (s : Sys Loop E) : Action Loop E → List Nat
  | .startEnds t called =>
    match (s.group.startEnds t called).1 with
    | .ok (some _) => [t]
    | _ => []
  | _ => []

/-- A group, and what was done to its tasks. -/
structure Reports (Loop E : Type) where
  sys : Sys Loop E
  /-- Ledger: the tasks that were cancelled before they were done. -/
  cancelled : Nat → Bool
  /-- Ledger: the children whose exception was raised to a caller of `start`. -/
  reraised : List Nat

namespace Reports

/-- The group comes to `sys`. -/
def note (s : Reports Loop E) (a : Action Loop E) (sys : Sys Loop E) : Reports Loop E :=
  { sys
    cancelled := fun t => s.cancelled t || decide (s.sys.group.tasks.cancelling t < sys.group.tasks.cancelling t)
    reraised := s.reraised ++ s.sys.raisedTo a }

def step [DecidableEq Loop] [DecidableEq E] (s : Reports Loop E) (a : Action Loop E) : Option (Reports Loop E) :=
  (s.sys.step a).map (s.note a)

def system (Loop E : Type) [DecidableEq Loop] [DecidableEq E] : System (Reports Loop E) (Action Loop E) where
  init s := s = { sys := .new, cancelled := fun _ => false, reraised := [] }
  step s := s.step

variable (s : Reports Loop E)

/-- The exception that the group has to report of child `t`. -/
def owed (t : Nat) : Option (Exc E) :=
  if t ∈ s.reraised then none
  else match s.sys.group.tasks.outcome t with
    | some (.raised .cancelled) => if s.cancelled t then none else some .cancelled
    | some (.raised e) => some e
    | _ => none

/-- All that `__aexit__` has to raise. -/
def due (exc : Option (Exc E)) : List (Exc E) := exc.toList ++ s.sys.group.children.filterMap s.owed

/-- A step out of the group raises what is due, each exception once, and
nothing if nothing is due. -/
def EachOnce (a : Action Loop E) (s' : Reports Loop E) : Prop :=
  s.sys.host ≠ .outside → s'.sys.host = .outside →
    ∃ r, s'.sys.result = some r ∧
      (r.entries (s.sys.bodyException a)).Perm (s'.due (s.sys.bodyException a)) ∧
      (s'.due (s.sys.bodyException a) = [] → r = .returns)

/-- The host is not cancelled, and its body does not end with a
`CancelledError`. -/
def Undisturbed : Action Loop E → Prop
  | .interrupt => False
  | .exit exc _ => exc ≠ some .cancelled
  | _ => True

/-- Of the children that the host has not looked at, `cancelling()` tells those
that were cancelled. -/
def Told (w : Wait E) : Prop :=
  ∀ t ∈ s.sys.group.children, t ∉ w.processed → t ∉ s.sys.group.consumed →
    s.sys.group.tasks.outcome t = some (.raised .cancelled) → s.cancelled t = true →
      t ∈ w.cancelledByScope ∨ 0 < s.sys.group.tasks.cancelling t

end Reports

/-- `start` raises the exception of child `t`. -/
def TaskGroup.reraises (g : TaskGroup Loop E) (t : Nat) (called : Bool) : Bool :=
  match g.tasks.outcome t with
  | some (.raised .cancelled) => !called
  | some (.raised _) => true
  | _ => false

/-- The host can tell which children were cancelled, and `start` raises no
exception that the host has collected. -/
def Reports.Meets (s : Reports Loop E) : Action Loop E → Prop
  | .exit _ _ => s.Told .empty
  | .wake _ _ => ∀ exc w, s.sys.host = .waiting exc w → s.Told w
  | .startEnds t called => ∀ exc w, s.sys.host = .waiting exc w → t ∈ w.processed →
      s.owed t = none ∨ s.sys.group.reraises t called = false
  | _ => True

/-! ## What the steps do -/

namespace Tasks

/-- What is done stays as it is, and is not cancelled any more. -/
def Settles (ts ts' : Tasks E) : Prop :=
  ∀ t, ts.done t = true → ts'.outcome t = ts.outcome t ∧ ts'.cancelling t ≤ ts.cancelling t

end Tasks

namespace TaskGroup

variable {g g' : TaskGroup Loop E} {w w' : Wait E} {t : Nat} {called : Bool}

theorem settles_cancelEach (ts : List Nat) (g : TaskGroup Loop E) : g.tasks.Settles (g.cancelEach ts).tasks :=
  fun t ht => ⟨congrFun (keeps_cancelEach ts g).outcome t, Nat.le_of_eq ((cancelling_cancelEach ts g t).1 ht)⟩

theorem settles_cancel (g : TaskGroup Loop E) (t : Nat) : g.tasks.Settles (g.cancel t).tasks :=
  settles_cancelEach [t] g

theorem Advance.settles {new : List Nat} (h : Advance g w new g' w') : g.tasks.Settles g'.tasks :=
  fun t ht => ⟨congrFun h.keeps.outcome t, Nat.le_of_eq (h.settled t ht)⟩

theorem settles_create (h : g.Fresh) : g.tasks.Settles g.tasks.create := by
  intro t ht
  have hne : t ≠ g.tasks.created := Nat.ne_of_lt (h t ht)
  exact ⟨Function.update_of_ne hne _ _, Nat.le_of_eq (Function.update_of_ne hne _ _)⟩

theorem settles_spawn [DecidableEq Loop] (h : g.Fresh) (message : String) (l : Loop) :
    g.tasks.Settles (g.spawn message l).2.tasks := by
  have hcreate := settles_create h
  unfold spawn
  split
  · exact fun _ _ => ⟨rfl, Nat.le_refl _⟩
  · dsimp only
    split
    · intro t ht
      obtain ⟨houtcome, hle⟩ := hcreate t ht
      obtain ⟨houtcome', hle'⟩ := settles_cancel { g with tasks := g.tasks.create } g.tasks.created t
        ((h.create t).1 ht)
      exact ⟨houtcome'.trans houtcome, Nat.le_trans hle' hle⟩
    · exact hcreate

/-- The end of a call of `start` that raises the exception of its child. -/
theorem startEnds_reraises (h : g.reraises t called = true) : g.tasks.done t = true ∧
    (∃ e, (g.startEnds t called).1 = .ok (some e)) ∧
    (g.startEnds t called).2 =
      { g with consumed := g.consumed ++ [t] }.cancelEach (g.remaining.filter fun u => u ≠ t) := by
  unfold reraises at h
  unfold startEnds Tasks.done
  split at h
  · rename_i heq
    have hcalled : called = false := by simpa using h
    rw [heq, hcalled]
    exact ⟨rfl, ⟨_, rfl⟩, rfl⟩
  · rename_i e hne heq
    rw [heq]
    cases e with
    | cancelled => exact absurd rfl hne
    | error e => exact ⟨rfl, ⟨_, rfl⟩, rfl⟩
  · cases h

theorem startEnds_silent (h : g.reraises t called = false) :
    (∀ e, (g.startEnds t called).1 ≠ .ok (some e)) ∧ (g.startEnds t called).2 = g := by
  unfold reraises at h
  unfold startEnds
  split at h
  · rename_i heq
    have hcalled : called = true := by simpa using h
    rw [heq, hcalled]
    exact ⟨nofun, rfl⟩
  · cases h
  · rename_i hne hne'
    cases houtcome : g.tasks.outcome t with
    | none => exact ⟨nofun, rfl⟩
    | some o =>
      cases o with
      | raised e => exact absurd houtcome (hne' e)
      | result =>
        cases called with
        | true => exact ⟨nofun, rfl⟩
        | false => exact ⟨nofun, rfl⟩

theorem settles_startEnds (g : TaskGroup Loop E) (t : Nat) (called : Bool) :
    g.tasks.Settles (g.startEnds t called).2.tasks := by
  cases h : g.reraises t called with
  | true =>
    rw [(startEnds_reraises h).2.2]
    exact settles_cancelEach _ { g with consumed := g.consumed ++ [t] }
  | false =>
    rw [(startEnds_silent h).2]
    exact fun _ _ => ⟨rfl, Nat.le_refl _⟩

/-- The group and the ledger agree on what was raised to a caller of `start`. -/
structure Books (g : TaskGroup Loop E) (reraised : List Nat) : Prop where
  nodup : g.children.Nodup
  created : ∀ t ∈ g.children, t < g.tasks.created
  agree : ∀ t ∈ g.children, t ∈ g.consumed ↔ t ∈ reraised
  below : ∀ t, t ∈ g.consumed ∨ t ∈ reraised → t < g.tasks.created

variable {reraised : List Nat}

theorem Books.same (h : g.Books reraised) (hcreated : g'.tasks.created = g.tasks.created)
    (hchildren : g'.children = g.children) (hconsumed : g'.consumed = g.consumed) : g'.Books reraised := by
  constructor
  · rw [hchildren]
    exact h.nodup
  · rw [hchildren, hcreated]
    exact h.created
  · rw [hchildren, hconsumed]
    exact h.agree
  · rw [hconsumed, hcreated]
    exact h.below

theorem Books.keeps (h : g.Books reraised) (hk : Keeps g g') (hconsumed : g'.consumed = g.consumed) :
    g'.Books reraised :=
  h.same hk.created hk.children hconsumed

theorem Books.spawn [DecidableEq Loop] (h : g.Books reraised) (message : String) (l : Loop) :
    (g.spawn message l).2.Books reraised := by
  have hcreate : Books { g with tasks := g.tasks.create } reraised :=
    ⟨h.nodup, fun t ht => Nat.lt_succ_of_lt (h.created t ht), h.agree, fun t ht => Nat.lt_succ_of_lt (h.below t ht)⟩
  unfold TaskGroup.spawn
  split
  · exact h
  · dsimp only
    split
    · exact hcreate.keeps (keeps_cancel _ _) rfl
    · have hnew : g.tasks.created ∉ g.children := fun ht => Nat.lt_irrefl _ (h.created _ ht)
      refine ⟨List.nodup_append.2 ⟨h.nodup, List.pairwise_singleton _ _, fun t ht u hu htu => ?_⟩, fun t ht => ?_,
        fun t ht => ?_, hcreate.below⟩
      · rw [List.mem_singleton.1 hu] at htu
        exact hnew (htu ▸ ht)
      · rcases List.mem_append.1 ht with ht | ht
        · exact hcreate.created t ht
        · rw [List.mem_singleton.1 ht]
          exact Nat.lt_succ_self _
      · rcases List.mem_append.1 ht with ht | ht
        · exact h.agree t ht
        · have hfresh : ∀ {p : Prop}, t ∈ g.consumed ∨ t ∈ reraised → p := fun hmem =>
            absurd (h.below t hmem) (List.mem_singleton.1 ht ▸ Nat.lt_irrefl _)
          exact ⟨fun hmem => hfresh (.inl hmem), fun hmem => hfresh (.inr hmem)⟩

theorem Books.enter {l : Loop} (h : g.Books reraised) (henter : g.Entered l g') : g'.Books reraised := by
  rw [henter.group]
  cases hexited : g.exited with
  | true => exact ⟨List.nodup_nil, nofun, nofun, fun t ht => h.below t (.inr (ht.resolve_left nofun))⟩
  | false => exact ⟨h.nodup, h.created, h.agree, h.below⟩

/-- A call of `start` ends, and the ledger takes note of what it raises. -/
theorem Books.startEnds {s : Sys Loop E} (h : s.group.Books reraised) (hfresh : s.group.Fresh) (t : Nat)
    (called : Bool) : (s.group.startEnds t called).2.Books (reraised ++ s.raisedTo (.startEnds t called)) := by
  unfold Sys.raisedTo
  cases hr : s.group.reraises t called with
  | true =>
    obtain ⟨hdone, ⟨e, he⟩, hg⟩ := startEnds_reraises hr
    have hmem : ∀ u (xs : List Nat), u ∈ xs ++ [t] ↔ u ∈ xs ∨ u = t := fun u xs => by
      rw [List.mem_append, List.mem_singleton]
    have hbooks : Books { s.group with consumed := s.group.consumed ++ [t] } (reraised ++ [t]) := by
      refine ⟨h.nodup, h.created, fun u hu => ?_, fun u hu => ?_⟩
      · show u ∈ s.group.consumed ++ [t] ↔ _
        rw [hmem, hmem, h.agree u hu]
      · change u ∈ s.group.consumed ++ [t] ∨ _ at hu
        rw [hmem, hmem] at hu
        rcases hu with (hu | rfl) | (hu | rfl)
        · exact h.below u (.inl hu)
        · exact hfresh u hdone
        · exact h.below u (.inr hu)
        · exact hfresh u hdone
    rw [hg]
    dsimp only
    rw [he]
    exact hbooks.keeps (keeps_cancelEach _ _) (consumed_cancelEach _ _)
  | false =>
    obtain ⟨hnone, hg⟩ := startEnds_silent hr
    rw [hg]
    dsimp only
    split
    · rename_i e he
      exact absurd he (hnone e)
    · rw [List.append_nil]
      exact h

theorem mem_raisedTo {s : Sys Loop E} {u : Nat} (h : u ∈ s.raisedTo (.startEnds t called)) :
    u = t ∧ s.group.reraises t called = true := by
  cases hr : s.group.reraises t called with
  | true =>
    obtain ⟨-, ⟨e, he⟩, -⟩ := startEnds_reraises hr
    simp only [Sys.raisedTo, he, List.mem_singleton] at h
    exact ⟨h, rfl⟩
  | false =>
    simp only [Sys.raisedTo] at h
    split at h
    · rename_i e he
      exact absurd he ((startEnds_silent hr).1 e)
    · cases h

theorem finish_rest [DecidableEq E] (g : TaskGroup Loop E) (exc : Option (Exc E)) (es : List (Exc E)) :
    (g.finish exc es).2.tasks = g.tasks ∧ (g.finish exc es).2.consumed = g.consumed := by
  unfold finish
  dsimp only
  split
  · exact ⟨rfl, rfl⟩
  · split
    · exact ⟨rfl, rfl⟩
    · split
      · split
        · exact ⟨rfl, rfl⟩
        · exact ⟨rfl, rfl⟩
      · split
        · exact ⟨rfl, rfl⟩
        · exact ⟨rfl, rfl⟩

/-- `__aexit__` raises the exception of the body and those collected. -/
theorem entries_finish [DecidableEq E] (g : TaskGroup Loop E) {exc : Option (Exc E)} (hexc : exc ≠ some .cancelled)
    (es : List (Exc E)) : (g.finish exc es).1.entries exc = exc.toList ++ es ∧
      (exc.toList ++ es = [] → (g.finish exc es).1 = .returns) := by
  unfold finish
  dsimp only
  rw [if_neg hexc]
  split
  · exact ⟨(List.append_nil _).symm, fun _ => rfl⟩
  · rename_i hes
    have hsome : exc.toList ++ es ≠ [] := fun h => hes (List.append_eq_nil_iff.1 h).2
    refine ⟨?_, fun h => absurd h hsome⟩
    split
    · rename_i hsoft
      rw [hsoft.1]
      split
      · rfl
      · rfl
    · split
      · rename_i e he
        exact he.symm
      · rfl

end TaskGroup

/-! ## What the host has collected -/

namespace Reports

open TaskGroup

variable {s s' : Reports Loop E} {exc : Option (Exc E)} {w : Wait E}

/-- What the host knows of the children it looked at, and of those it waits
for. -/
structure Looked (s : Reports Loop E) (w : Wait E) : Prop where
  exceptions : w.exceptions = w.processed.filterMap s.owed
  nodup : (w.processed ++ w.pending).Nodup
  children : ∀ t ∈ w.processed ++ w.pending, t ∈ s.sys.group.children
  byScope : ∀ t ∈ w.cancelledByScope, s.cancelled t = true

structure Accounted (s : Reports Loop E) : Prop where
  tracked : s.sys.Tracked
  books : s.sys.group.Books s.reraised
  counted : ∀ t, 0 < s.sys.group.tasks.cancelling t → s.cancelled t = true
  alone : ∀ pending, s.sys.host ≠ .draining pending
  waiting : ∀ exc w, s.sys.host = .waiting exc w → exc ≠ some .cancelled ∧ s.Looked w

/-- What `collect_one` reports of a child is what is owed of it. -/
theorem Accounted.failure (h : s.Accounted) (hbyScope : ∀ t ∈ w.cancelledByScope, s.cancelled t = true)
    (htold : s.Told w) {t : Nat} (ht : t ∈ s.sys.group.children) (hnew : t ∉ w.processed) :
    s.sys.group.failure w t = s.owed t := by
  unfold TaskGroup.failure owed
  by_cases hconsumed : t ∈ s.sys.group.consumed
  · rw [if_pos hconsumed, if_pos ((h.books.agree t ht).1 hconsumed)]
  · rw [if_neg hconsumed, if_neg fun hr => hconsumed ((h.books.agree t ht).2 hr)]
    cases houtcome : s.sys.group.tasks.outcome t with
    | none => rfl
    | some o =>
      cases o with
      | result => rfl
      | raised e =>
        cases e with
        | error e => rfl
        | cancelled =>
          have hcancelled : (t ∈ w.cancelledByScope ∨ s.sys.group.tasks.cancelling t > 0) ↔ s.cancelled t = true :=
            ⟨fun hc => hc.elim (hbyScope t) (h.counted t), htold t ht hnew hconsumed houtcome⟩
          simp only [hcancelled]

theorem note_cancelled (a : Action Loop E) (sys : Sys Loop E) {t : Nat} (ht : s.cancelled t = true) :
    (s.note a sys).cancelled t = true := by
  show (s.cancelled t || _) = true
  rw [ht, Bool.true_or]

theorem note_cancelling {a : Action Loop E} {sys : Sys Loop E} {t : Nat}
    (ht : s.sys.group.tasks.cancelling t < sys.group.tasks.cancelling t) : (s.note a sys).cancelled t = true := by
  show (s.cancelled t || decide _) = true
  rw [decide_eq_true ht, Bool.or_true]

theorem note_counted (h : ∀ t, 0 < s.sys.group.tasks.cancelling t → s.cancelled t = true) (a : Action Loop E)
    (sys : Sys Loop E) {t : Nat} (ht : 0 < sys.group.tasks.cancelling t) : (s.note a sys).cancelled t = true := by
  rcases Nat.eq_zero_or_pos (s.sys.group.tasks.cancelling t) with hzero | hpos
  · exact note_cancelling (hzero ▸ ht)
  · exact note_cancelled a sys (h t hpos)

/-- What is owed of a child that is done stays the same, unless `start` raises
it. -/
theorem note_owed {a : Action Loop E} {sys : Sys Loop E} {t : Nat}
    (hsettles : s.sys.group.tasks.Settles sys.group.tasks) (ht : s.sys.group.tasks.done t = true)
    (hraised : t ∈ s.sys.raisedTo a → s.owed t = none) : (s.note a sys).owed t = s.owed t := by
  by_cases hr : t ∈ s.sys.raisedTo a
  · rw [hraised hr]
    exact if_pos (List.mem_append_right _ hr)
  · obtain ⟨houtcome, hle⟩ := hsettles t ht
    have hcancelled : (s.note a sys).cancelled t = s.cancelled t := by
      show (s.cancelled t || decide _) = s.cancelled t
      rw [decide_eq_false (Nat.not_lt.2 hle), Bool.or_false]
    have hreraised : t ∈ (s.note a sys).reraised ↔ t ∈ s.reraised :=
      List.mem_append.trans (or_iff_left hr)
    unfold owed
    rw [hcancelled, show (s.note a sys).sys.group.tasks.outcome t = _ from houtcome]
    simp only [hreraised]

variable [DecidableEq Loop] [DecidableEq E] {a : Action Loop E} {sys : Sys Loop E} {g : TaskGroup Loop E}
  {order : List Nat}

omit [DecidableEq Loop] [DecidableEq E] in
/-- A step next to the host. -/
theorem Accounted.aside (h : s.Accounted) (htracked : sys.Tracked) (hhost : sys.host = s.sys.host)
    (hbooks : sys.group.Books (s.note a sys).reraised)
    (hchildren : s.sys.host ≠ .outside → ∀ t ∈ s.sys.group.children, t ∈ sys.group.children)
    (hsettles : s.sys.group.tasks.Settles sys.group.tasks)
    (hraised : ∀ exc w, s.sys.host = .waiting exc w → ∀ t ∈ w.processed, t ∈ s.sys.raisedTo a → s.owed t = none) :
    (s.note a sys).Accounted where
  tracked := htracked
  books := hbooks
  counted t ht := note_counted h.counted a sys ht
  alone pending hp := h.alone pending (hhost.symm.trans hp)
  waiting exc w hw := by
    have hw : s.sys.host = .waiting exc w := hhost.symm.trans hw
    obtain ⟨hexc, hlooked⟩ := h.waiting exc w hw
    have howed : w.processed.filterMap (s.note a sys).owed = w.processed.filterMap s.owed :=
      List.filterMap_congr fun t ht => note_owed hsettles (h.tracked.waiting exc w hw t ht) (hraised exc w hw t ht)
    exact ⟨hexc, hlooked.exceptions.trans howed.symm, hlooked.nodup,
      fun t ht => hchildren (by rw [hw]; simp) t (hlooked.children t ht), fun t ht => note_cancelled a sys (hlooked.byScope t ht)⟩

/-- The host knows all children, and comes to `g` and `w`. -/
structure Known (s : Reports Loop E) (g : TaskGroup Loop E) (w : Wait E) : Prop where
  keeps : Keeps s.sys.group g
  consumed : g.consumed = s.sys.group.consumed
  settles : s.sys.group.tasks.Settles g.tasks
  byScope : ∀ t ∈ w.cancelledByScope,
    s.cancelled t = true ∨ s.sys.group.tasks.cancelling t < g.tasks.cancelling t
  exceptions : w.exceptions = w.processed.filterMap s.owed
  nodup : (w.processed ++ w.pending).Nodup
  children : ∀ t, t ∈ w.processed ++ w.pending ↔ t ∈ s.sys.group.children
  done : ∀ t ∈ w.processed, s.sys.group.tasks.done t = true

omit [DecidableEq Loop] [DecidableEq E] in
/-- The host has looked at the tasks `new`, and absorbs the children. -/
theorem Accounted.absorb (h : s.Accounted) (hlooked : s.Looked w) (htold : s.Told w) (hseen : s.sys.group.Seen w)
    (hundone : ∀ t ∈ w.pending, s.sys.group.tasks.done t = false) {new : List Nat} {w' : Wait E}
    (hadv : Advance s.sys.group w new g w') (hprocessed : w'.processed = w.processed ++ new)
    (hpending : w'.pending = w.pending) (hnodup : (w.processed ++ new ++ w.pending).Nodup)
    (hnew : ∀ t ∈ new, t ∈ s.sys.group.children ∧ s.sys.group.tasks.done t = true)
    (horder : order.Perm g.children) : s.Known (g.absorb w' order).2 (g.absorb w' order).1 := by
  rw [hadv.keeps.children] at horder
  have hopen : ∀ t ∈ w'.pending, g.tasks.done t = false := fun t ht =>
    (hadv.keeps.done t).trans (hadv.undone hundone t ht)
  obtain ⟨hmore, hprocessed', hpending'⟩ := absorb_advance (horder.nodup_iff.2 h.books.nodup) hopen
  have hfound : ∀ b, ∀ t ∈ g.unseen w' b order, t ∈ s.sys.group.children ∧ s.sys.group.tasks.done t = b ∧
      t ∉ w.processed ++ new ++ w.pending := by
    intro b t ht
    obtain ⟨hmem, htest⟩ := List.mem_filter.1 ht
    simp only [Bool.and_eq_true, decide_eq_true_eq, beq_iff_eq] at htest
    obtain ⟨⟨hnot, hnot'⟩, hb⟩ := htest
    rw [hprocessed] at hnot
    rw [hpending] at hnot'
    exact ⟨horder.mem_iff.1 hmem, (hadv.keeps.done t).symm.trans hb,
      fun hin => (List.mem_append.1 hin).elim hnot hnot'⟩
  rw [hprocessed] at hprocessed'
  rw [hpending] at hpending'
  have hall := hadv.trans hmore fun t ht => (hfound true t ht).2.1
  have hlookedAt : ∀ t ∈ new ++ g.unseen w' true order,
      t ∈ s.sys.group.children ∧ s.sys.group.tasks.done t = true ∧ t ∉ w.processed := by
    intro t ht
    rcases List.mem_append.1 ht with ht | ht
    · refine ⟨(hnew t ht).1, (hnew t ht).2, fun hin => ?_⟩
      exact (List.nodup_append.1 (List.nodup_append.1 hnodup).1).2.2 t hin t ht rfl
    · obtain ⟨hmem, hd, hnot⟩ := hfound true t ht
      exact ⟨hmem, hd, fun hin => hnot (List.mem_append_left _ (List.mem_append_left _ hin))⟩
  have hfailure : (new ++ g.unseen w' true order).filterMap (s.sys.group.failure w) =
      (new ++ g.unseen w' true order).filterMap s.owed :=
    List.filterMap_congr fun t ht => h.failure hlooked.byScope htold (hlookedAt t ht).1 (hlookedAt t ht).2.2
  have hbefore : ∀ t ∈ w.processed ++ new ++ w.pending, t ∈ s.sys.group.children := by
    intro t ht
    rcases List.mem_append.1 ht with ht | ht
    · rcases List.mem_append.1 ht with ht | ht
      · exact hlooked.children t (List.mem_append_left _ ht)
      · exact (hnew t ht).1
    · exact hlooked.children t (List.mem_append_right _ ht)
  have hperm : ((g.absorb w' order).1.processed ++ (g.absorb w' order).1.pending).Perm
      (w.processed ++ new ++ w.pending ++ (g.unseen w' true order ++ g.unseen w' false order)) := by
    rw [hprocessed', hpending', List.append_assoc (w.processed ++ new), List.append_assoc (w.processed ++ new)]
    exact (List.perm_append_comm_assoc _ _ _).append_left _
  refine ⟨hall.keeps, hall.consumed, hall.settles, fun t ht => ?_, ?_, ?_, fun t => ?_, fun t ht => ?_⟩
  · rcases hall.byScope t ht with hbefore | ⟨-, hlt⟩
    · exact .inl (hlooked.byScope t hbefore)
    · exact .inr hlt
  · rw [hall.exceptions, hfailure, hlooked.exceptions, hprocessed', List.append_assoc w.processed,
      List.filterMap_append (l := w.processed)]
  · refine hperm.nodup_iff.2 (List.nodup_append.2 ⟨hnodup, List.nodup_append.2 ⟨?_, ?_, fun t ht u hu htu => ?_⟩,
      fun t ht u hu htu => ?_⟩)
    · exact (horder.nodup_iff.2 h.books.nodup).filter _
    · exact (horder.nodup_iff.2 h.books.nodup).filter _
    · have hd := (hfound false u hu).2.1
      rw [← htu, (hfound true t ht).2.1] at hd
      cases hd
    · rcases List.mem_append.1 hu with hu | hu
      · exact (hfound true u hu).2.2 (htu ▸ ht)
      · exact (hfound false u hu).2.2 (htu ▸ ht)
  · rw [hperm.mem_iff]
    refine ⟨fun ht => ?_, fun ht => ?_⟩
    · rcases List.mem_append.1 ht with ht | ht
      · exact hbefore t ht
      · rcases List.mem_append.1 ht with ht | ht
        · exact (hfound true t ht).1
        · exact (hfound false t ht).1
    · by_cases hin : t ∈ w.processed ++ new ++ w.pending
      · exact List.mem_append_left _ hin
      · have hnot : t ∉ w'.processed ∧ t ∉ w'.pending := by
          rw [hprocessed, hpending]
          exact ⟨fun h => hin (List.mem_append_left _ h), fun h => hin (List.mem_append_right _ h)⟩
        have hunseen : t ∈ g.unseen w' (g.tasks.done t) order :=
          List.mem_filter.2 ⟨horder.mem_iff.2 ht, by simp [hnot]⟩
        cases hd : g.tasks.done t with
        | true => exact List.mem_append_right _ (List.mem_append_left _ (hd ▸ hunseen))
        | false => exact List.mem_append_right _ (List.mem_append_right _ (hd ▸ hunseen))
  · rw [hprocessed', List.append_assoc] at ht
    rcases List.mem_append.1 ht with ht | ht
    · exact hseen t ht
    · exact (hlookedAt t ht).2.1

omit [DecidableEq Loop] in
/-- The host waits again, or leaves the group. -/
theorem Accounted.round (h : s.Accounted) (hexc : exc ≠ some .cancelled) (hbody : s.sys.bodyException a = exc)
    (hraised : s.sys.raisedTo a = []) (hknown : order.Perm g.children →
      s.Known (g.absorb w order).2 (g.absorb w order).1)
    (htracked : sys.Tracked) (hround : s.sys.round exc w g order = some sys) :
    (s.note a sys).Accounted ∧ s.EachOnce a (s.note a sys) := by
  have hreraised : (s.note a sys).reraised = s.reraised := by
    show s.reraised ++ s.sys.raisedTo a = _
    rw [hraised, List.append_nil]
  have howed (hsettles : s.sys.group.tasks.Settles sys.group.tasks) :
      ∀ t, s.sys.group.tasks.done t = true → (s.note a sys).owed t = s.owed t :=
    fun t ht => note_owed hsettles ht (by rw [hraised]; exact nofun)
  unfold Sys.round at hround
  split at hround
  · rename_i horder
    obtain ⟨hkeeps, hconsumed, hsettles, hbyScope, hexceptions, hnodup, hchildren, hdone⟩ := hknown horder
    dsimp only at hround
    split at hround
    · rename_i hnone
      have hnone : (g.absorb w order).1.pending = [] := hnone
      rw [hnone, List.append_nil] at hnodup hchildren
      have hleft := (Option.some.inj hround).symm
      obtain ⟨htasks, hconsumed'⟩ := finish_rest (g.absorb w order).2 exc (g.absorb w order).1.exceptions
      obtain ⟨hentries, hnothing⟩ := entries_finish (g.absorb w order).2 hexc (g.absorb w order).1.exceptions
      have htasks : sys.group.tasks = (g.absorb w order).2.tasks := by
        rw [hleft]
        exact htasks
      have hsame : sys.group.children = s.sys.group.children := by
        rw [hleft]
        exact (Sys.keeps_finish (g.absorb w order).2 exc (g.absorb w order).1.exceptions).children.trans hkeeps.children
      have hconsumed : sys.group.consumed = s.sys.group.consumed := by
        rw [hleft]
        exact hconsumed'.trans hconsumed
      have hhost : sys.host = .outside := by rw [hleft]; rfl
      have hdue : ((s.note a sys).due exc).Perm (exc.toList ++ (g.absorb w order).1.exceptions) := by
        refine List.Perm.append_left _ ?_
        show (sys.group.children.filterMap _).Perm _
        rw [hsame, List.filterMap_congr fun t ht => howed (htasks ▸ hsettles) t (hdone t ((hchildren t).2 ht)),
          hexceptions]
        exact ((List.perm_ext_iff_of_nodup hnodup h.books.nodup).2 hchildren).symm.filterMap _
      refine ⟨⟨htracked, ?_, fun t ht => note_counted h.counted a sys ht, fun pending hp => ?_, fun exc w hw => ?_⟩,
        fun _ _ => ⟨((g.absorb w order).2.finish exc (g.absorb w order).1.exceptions).1, ?_, ?_, ?_⟩⟩
      · rw [hreraised]
        exact h.books.same ((congrArg _ htasks).trans hkeeps.created) hsame hconsumed
      · cases hhost.symm.trans hp
      · cases hhost.symm.trans hw
      · show sys.result = _
        rw [hleft]
        rfl
      · rw [hbody, hentries]
        exact hdue.symm
      · rw [hbody]
        exact fun hnil => hnothing (hnil ▸ hdue).symm.eq_nil
    · cases hround
      refine ⟨⟨htracked, ?_, fun t ht => note_counted h.counted a _ ht, nofun, fun exc' w' hw => ?_⟩, fun _ => nofun⟩
      · rw [hreraised]
        exact h.books.keeps hkeeps hconsumed
      · cases hw
        have hsame : (g.absorb w order).1.processed.filterMap (s.note a _).owed =
            (g.absorb w order).1.processed.filterMap s.owed :=
          List.filterMap_congr fun t ht => howed hsettles t (hdone t ht)
        refine ⟨hexc, hexceptions.trans hsame.symm, hnodup, fun t ht => ?_, fun t ht => ?_⟩
        · show t ∈ (g.absorb w order).2.children
          rw [hkeeps.children]
          exact (hchildren t).1 ht
        · rcases hbyScope t ht with hbefore | hlt
          · exact note_cancelled a _ hbefore
          · exact note_cancelling hlt
  · cases hround

omit [DecidableEq Loop] [DecidableEq E] in
/-- A step that leaves the host where it is. -/
theorem eachOnce_of_host {s' : Reports Loop E} (hhost : s'.sys.host = s.sys.host) : s.EachOnce a s' :=
  fun hin hout => absurd (hhost.symm.trans hout) hin

omit [DecidableEq E] in
/-- A child is added, or none. -/
theorem Accounted.spawn (h : s.Accounted) (htracked : sys.Tracked) (hraised : s.sys.raisedTo a = [])
    {message : String} {l : Loop} {starting : List Nat}
    (hsys : sys = { s.sys.spawned (s.sys.group.spawn message l) with starting }) :
    (s.note a sys).Accounted ∧ s.EachOnce a (s.note a sys) := by
  subst hsys
  have hchildren : ∀ t ∈ s.sys.group.children, t ∈ (s.sys.group.spawn message l).2.children := by
    intro t ht
    unfold TaskGroup.spawn
    split
    · exact ht
    · dsimp only
      split
      · exact ht
      · exact List.mem_append_left _ ht
  refine ⟨h.aside htracked rfl ?_ (fun _ => hchildren) (settles_spawn h.tracked.fresh message l) fun _ _ _ t _ ht => ?_,
    eachOnce_of_host rfl⟩
  · show (s.sys.group.spawn message l).2.Books (s.reraised ++ s.sys.raisedTo a)
    rw [hraised, List.append_nil]
    exact h.books.spawn message l
  · rw [hraised] at ht
    cases ht

omit [DecidableEq Loop] [DecidableEq E] in
/-- A step that changes tasks, and no more. -/
theorem Accounted.plain (h : s.Accounted) (htracked : sys.Tracked) (hraised : s.sys.raisedTo a = [])
    (hhost : sys.host = s.sys.host) (hcreated : sys.group.tasks.created = s.sys.group.tasks.created)
    (hchildren : sys.group.children = s.sys.group.children) (hconsumed : sys.group.consumed = s.sys.group.consumed)
    (hsettles : s.sys.group.tasks.Settles sys.group.tasks) :
    (s.note a sys).Accounted ∧ s.EachOnce a (s.note a sys) := by
  refine ⟨h.aside htracked hhost ?_ (fun _ t ht => ?_) hsettles fun _ _ _ t _ ht => ?_, eachOnce_of_host hhost⟩
  · show sys.group.Books (s.reraised ++ s.sys.raisedTo a)
    rw [hraised, List.append_nil]
    exact h.books.same hcreated hchildren hconsumed
  · rw [hchildren]
    exact ht
  · rw [hraised] at ht
    cases ht

theorem Accounted.step (h : s.Accounted) (hquiet : Undisturbed a) (hmeets : s.Meets a)
    (hsys : s.sys.step a = some sys) : (s.note a sys).Accounted ∧ s.EachOnce a (s.note a sys) := by
  have htracked := (h.tracked.step (fun pending hp => absurd hp (h.alone pending)) hsys).1
  cases a with
  | interrupt => exact hquiet.elim
  | startSoon l => exact h.spawn htracked rfl (Option.some.inj hsys).symm
  | start l => exact h.spawn htracked rfl (Option.some.inj hsys).symm
  | enter l ok =>
    simp only [Sys.step] at hsys
    split at hsys
    · rename_i g henter
      have henter := entered_of_enter henter
      cases ok with
      | true =>
        rw [if_pos rfl] at hsys
        split at hsys
        · rename_i hhost
          cases hsys
          refine ⟨⟨htracked, ?_, fun t ht => note_counted h.counted _ _ ht, fun pending hp => ?_, fun exc w hw => ?_⟩,
            fun hin => absurd hhost hin⟩
          · show g.Books (s.reraised ++ [])
            rw [List.append_nil]
            exact h.books.enter henter
          · cases hp
          · cases hw
        · cases hsys
      | false =>
        cases hsys
        refine ⟨h.aside htracked rfl ?_ (fun hin t ht => ?_) ?_
          fun _ _ _ t _ ht => absurd ht List.not_mem_nil, eachOnce_of_host rfl⟩
        · show g.Books (s.reraised ++ [])
          rw [List.append_nil]
          exact h.books.enter henter
        · rw [henter.children_open (h.tracked.inside hin h.alone)]
          exact ht
        · rw [henter.tasks]
          exact fun _ _ => ⟨rfl, Nat.le_refl _⟩
    · cases hsys
      exact h.plain htracked rfl rfl rfl rfl rfl fun _ _ => ⟨rfl, Nat.le_refl _⟩
  | exit exc order =>
    simp only [Sys.step] at hsys
    split at hsys
    · refine h.round hquiet rfl rfl (fun horder => h.absorb (w := .empty) ?_ hmeets ?_ ?_
        (preCancel_advance s.sys.group exc .empty) rfl rfl ?_ ?_ horder) htracked hsys
      · exact ⟨rfl, List.nodup_nil, fun _ ht => absurd ht List.not_mem_nil, fun _ ht => absurd ht List.not_mem_nil⟩
      · exact fun _ ht => absurd ht List.not_mem_nil
      · exact fun _ ht => absurd ht List.not_mem_nil
      · exact List.nodup_nil
      · exact fun _ ht => absurd ht List.not_mem_nil
    · cases hsys
  | wake finished order =>
    simp only [Sys.step] at hsys
    split at hsys
    · rename_i exc w hhost
      split at hsys
      · rename_i hfinished
        obtain ⟨hexc, hlooked⟩ := h.waiting exc w hhost
        have hbody : s.sys.bodyException (.wake finished order) = exc := by
          simp only [Sys.bodyException, hhost]
        have hdone : ∀ t ∈ finished, t ∈ w.pending ∧ s.sys.group.tasks.done t = true := fun t ht =>
          List.mem_filter.1 (hfinished.1.mem_iff.1 ht)
        have hopen : ∀ t ∈ w.pending.filter fun t => !s.sys.group.tasks.done t, s.sys.group.tasks.done t = false :=
          fun t ht => by simpa using (List.mem_filter.1 ht).2
        have hsplit : (finished ++ w.pending.filter fun t => !s.sys.group.tasks.done t).Perm w.pending :=
          (hfinished.1.append_right _).trans (List.filter_append_perm _ _)
        obtain ⟨hadv, hprocessed, hpending⟩ := collect_advance
          (w := { w with pending := w.pending.filter fun t => !s.sys.group.tasks.done t }) finished
          (fun t ht => (hdone t ht).2) hopen
        have hsub := List.Sublist.append_left (List.filter_sublist (p := fun t => !s.sys.group.tasks.done t)
          (l := w.pending)) w.processed
        have hlooked' : s.Looked { w with pending := w.pending.filter fun t => !s.sys.group.tasks.done t } :=
          ⟨hlooked.exceptions, hlooked.nodup.sublist hsub, fun t ht => hlooked.children t (hsub.subset ht),
            hlooked.byScope⟩
        refine h.round hexc hbody rfl (fun horder => h.absorb hlooked' (hmeets exc w hhost)
          (h.tracked.waiting exc w hhost) hopen hadv hprocessed hpending ?_
          (fun t ht => ⟨?_, (hdone t ht).2⟩) horder) htracked hsys
        · rw [List.append_assoc]
          exact (hsplit.append_left _).nodup_iff.2 hlooked.nodup
        · exact hlooked.children t (List.mem_append_right _ (hdone t ht).1)
      · cases hsys
    · cases hsys
  | drained =>
    simp only [Sys.step] at hsys
    split at hsys
    · rename_i pending hhost
      exact absurd hhost (h.alone pending)
    · cases hsys
  | startEnds t called =>
    simp only [Sys.step] at hsys
    split at hsys
    · cases hsys
      refine ⟨h.aside htracked rfl (h.books.startEnds h.tracked.fresh t called) (fun _ u hu => ?_)
        (settles_startEnds s.sys.group t called) fun exc w hw u hu hraised => ?_, eachOnce_of_host rfl⟩
      · show u ∈ (s.sys.group.startEnds t called).2.children
        rw [(keeps_startEnds s.sys.group t called).children]
        exact hu
      · obtain ⟨rfl, hr⟩ := mem_raisedTo hraised
        exact (hmeets exc w hw hu).resolve_right (by simp [hr])
    · cases hsys
  | finish t outcome =>
    simp only [Sys.step] at hsys
    split at hsys
    · rename_i ht
      cases hsys
      refine h.plain htracked rfl rfl rfl rfl rfl fun u hu => ⟨Function.update_of_ne ?_ _ _, Nat.le_refl _⟩
      intro hut
      rw [hut, ht.2] at hu
      cases hu
    · cases hsys
  | cancel t =>
    simp only [Sys.step] at hsys
    split at hsys
    · cases hsys
      have hkeeps := keeps_cancel s.sys.group t
      exact h.plain htracked rfl rfl hkeeps.created hkeeps.children rfl (settles_cancel s.sys.group t)
    · cases hsys
  | uncancel t =>
    cases hsys
    refine h.plain htracked rfl rfl rfl rfl rfl fun u hu => ⟨rfl, ?_⟩
    show Function.update s.sys.group.tasks.cancelling t _ u ≤ _
    by_cases hut : u = t
    · rw [hut, Function.update_self]
      exact Nat.sub_le _ _
    · exact Nat.le_of_eq (Function.update_of_ne hut _ _)

/-- `start` raises to its caller only exceptions that the host has not
collected, and the host can tell which children were cancelled. -/
def Careful (s : Reports Loop E) (a : Action Loop E) : Prop := Undisturbed a ∧ s.Meets a

theorem accounted (h : (system Loop E).ReachableWhen Careful s) : s.Accounted := by
  refine h.inv (I := Accounted) (fun _ h0 => ?_) fun s a s' hs hok hst => ?_
  · rw [show _ = _ from h0]
    exact ⟨Sys.tracked_new, ⟨List.nodup_nil, nofun, nofun, fun _ ht => by cases ht <;> contradiction⟩,
      fun _ ht => absurd ht (Nat.lt_irrefl 0), nofun, nofun⟩
  · obtain ⟨sys, hsys, rfl⟩ := Option.map_eq_some_iff.1 hst
    exact (hs.step hok.1 hok.2 hsys).1

/-- In every run of a task group whose host is not cancelled: if `start` raises
to its caller only exceptions that the host has not collected, and the host can
tell which children were cancelled, then `__aexit__` raises the exception of the
body and one for each child that owes one, and nothing if there is none. -/
theorem failures_reported_once (h : (system Loop E).ReachableWhen Careful s) (hok : s.Careful a)
    (hst : s.step a = some s') : s.EachOnce a s' := by
  obtain ⟨sys, hsys, rfl⟩ := Option.map_eq_some_iff.1 hst
  exact ((accounted h).step hok.1 hok.2 hsys).2

/-- The exception of child 1 is raised to a caller of `start`, which cancels
child 0; child 2 fails by itself. -/
theorem failures_reported_once_start : ∃ s s' : Reports Unit Nat,
    s.EachOnce (.wake [0, 2] [2, 1, 0]) s' ∧ s'.sys.result = some (.raises (.error 9)) := by
  have h : (system Unit Nat).ReachableWhen Careful { sys := .new, cancelled := fun _ => false, reraised := [] } :=
    .init rfl
  have h := h.next (.enter () true) ⟨trivial, trivial⟩ rfl
  have h := (h.next (.startSoon ()) ⟨trivial, trivial⟩ rfl).next (.start ()) ⟨trivial, trivial⟩ rfl
  have h := (h.next (.startSoon ()) ⟨trivial, trivial⟩ rfl).next (.finish 1 (.raised (.error 7)))
    ⟨trivial, trivial⟩ rfl
  have h := h.next (.startEnds 1 false) ⟨trivial, nofun⟩ rfl
  have h := h.next (.exit none [0, 1, 2]) ⟨nofun, by unfold Meets Told; decide⟩ rfl
  have h := h.next (.finish 0 (.raised .cancelled)) ⟨trivial, trivial⟩ rfl
  have h := h.next (.finish 2 (.raised (.error 9))) ⟨trivial, trivial⟩ rfl
  refine ⟨_, _, failures_reported_once h (a := .wake [0, 2] [2, 1, 0]) ⟨trivial, fun exc w hw => ?_⟩ rfl, rfl⟩
  cases hw
  unfold Told
  decide

/-- The host comes back for child 1 and collects the exception of child 2; then
`start` raises it in child 0, which handles it. -/
theorem failure_reported_twice : ¬ ∀ (s : Reports Unit Nat) (a : Action Unit Nat) (s' : Reports Unit Nat),
    (system Unit Nat).ReachableWhen (fun _ a => Undisturbed a) s → Undisturbed a → s.step a = some s' →
    s.EachOnce a s' := by
  intro hall
  have h : (system Unit Nat).ReachableWhen (fun _ a => Undisturbed a)
      { sys := .new, cancelled := fun _ => false, reraised := [] } := .init rfl
  have h := (h.next (.enter () true) trivial rfl).next (.startSoon ()) trivial rfl
  have h := (h.next (.startSoon ()) trivial rfl).next (.start ()) trivial rfl
  have h := (h.next (.exit none [0, 1, 2]) nofun rfl).next (.finish 1 .result) trivial rfl
  have h := (h.next (.finish 2 (.raised (.error 7))) trivial rfl).next (.wake [1, 2] [0, 1, 2]) trivial rfl
  have h := (h.next (.startEnds 2 false) trivial rfl).next (.finish 0 .result) trivial rfl
  obtain ⟨r, hr, -, hnothing⟩ := hall _ (.wake [0] [0, 1, 2]) _ h trivial rfl nofun rfl
  have hreturns := hnothing rfl
  rw [hreturns] at hr
  cases hr

end Reports

end Multiloop.Nursery
