import Mathlib.Logic.Relation
import Multiloop.Pool.Places

/-!
# Closing and draining the pool

With one thread for each index calling `pop_work`. A worker that decides to
exit looks at its buffer, its local queue and the global queue one after the
other, after it saw the pool closed. From then on no queue gains a task, only
the worker itself fills its buffer, and it fills it from the global queue: so
what it saw empty is empty when it raises, and stays so.
-/

namespace Multiloop.NativeWorkerPool

variable {Thread τ : Type} {n : Nat}

/-- The index of the `pop_work` call a thread is in. -/
def Stage.popIndex : Stage Thread n τ → Option Nat
  | .bufferLock i | .bufferPop i | .drainFlag i | .pollerGate i | .globalLen i _ | .pull i _ _ | .bufferTake i _
  | .bufferLeave i _ | .localRecv i => some i
  | .exitFlag i | .exitBuffer i | .exitLocal i _ | .exitGlobal i _ _ => some i
  | _ => none

/-- `pop_work(i)` is called by the thread of worker `i` only. -/
def OwnPops (worker : Fin n → Thread) (_ : Sys Thread n τ) : Action Thread τ → Prop
  | .popWork t index => ∀ h : index < n, t = worker ⟨index, h⟩
  | _ => True

variable (worker : Fin n → Thread) (s : Sys Thread n τ)

def Owns (t : Thread) (p : Stage Thread n τ) : Prop :=
  ∀ i, p.popIndex = some i → ∀ h : i < n, t = worker ⟨i, h⟩

variable (p : Pool Thread n τ)

/-- What `pop_work` has seen on its way out still holds. -/
def Checked : Stage Thread n τ → Prop
  | .exitBuffer _ => p.isClosed = true
  | .exitLocal i be => p.isClosed = true ∧ (be = true → ∀ h : i < n, p.buffer ⟨i, h⟩ = [])
  | .exitGlobal i be le =>
    p.isClosed = true ∧ (be = true → ∀ h : i < n, p.buffer ⟨i, h⟩ = []) ∧
      (le = true → ∀ h : i < n, p.localQueue ⟨i, h⟩ = [])
  | _ => True

/-- The pool is closed and worker `i` can get nothing any more. -/
structure Emptied (i : Nat) : Prop where
  closed : p.isClosed = true
  globalQueue : p.globalQueue = []
  buffer : ∀ h : i < n, p.buffer ⟨i, h⟩ = []
  localQueue : ∀ h : i < n, p.localQueue ⟨i, h⟩ = []

structure Exits : Prop where
  owns : ∀ t, Owns worker t (s.stage t)
  checked : ∀ t, Checked s.pool (s.stage t)
  raised : ∀ i ∈ s.raised, Emptied s.pool i

/-- What a step of thread `t` does to the queues of a closed pool. -/
structure Shrinks (t : Thread) (p p' : Pool Thread n τ) : Prop where
  closed : p.isClosed = true → p'.isClosed = true
  globalQueue : p.isClosed = true → p.globalQueue = [] → p'.globalQueue = []
  localQueue : p.isClosed = true → ∀ i, p.localQueue i = [] → p'.localQueue i = []
  /-- A buffer gains tasks from its own worker only, out of the global queue. -/
  buffer : p.isClosed = true → ∀ i, p.buffer i = [] → p'.buffer i = [] ∨ (t = worker i ∧ p.globalQueue ≠ [])

variable {worker s p} {s' : Sys Thread n τ} {p' : Pool Thread n τ} {t u : Thread} {j : Job Thread τ}

theorem Shrinks.refl (t : Thread) (p : Pool Thread n τ) : Shrinks worker t p p :=
  ⟨id, fun _ => id, fun _ _ => id, fun _ _ => .inl⟩

theorem Shrinks.emptied (k : Shrinks worker t p p') {i : Nat} (h : Emptied p i) : Emptied p' i where
  closed := k.closed h.closed
  globalQueue := k.globalQueue h.closed h.globalQueue
  buffer hi := (k.buffer h.closed _ (h.buffer hi)).resolve_right fun hg => hg.2 h.globalQueue
  localQueue hi := k.localQueue h.closed _ (h.localQueue hi)

/-- A worker's checks survive the steps of the other threads. -/
theorem Shrinks.checked (k : Shrinks worker t p p') (hu : u ≠ t) {q : Stage Thread n τ} (ho : Owns worker u q)
    (h : Checked p q) : Checked p' q := by
  have hbuffer : ∀ i, q.popIndex = some i → p.isClosed = true → ∀ hi : i < n,
      p.buffer ⟨i, hi⟩ = [] → p'.buffer ⟨i, hi⟩ = [] := fun i hq hc hi hb =>
    (k.buffer hc _ hb).resolve_right fun hg => hu ((ho i hq hi).trans hg.1.symm)
  cases q with
  | exitBuffer i => exact k.closed h
  | exitLocal i be => exact ⟨k.closed h.1, fun hb hi => hbuffer i rfl h.1 hi (h.2 hb hi)⟩
  | exitGlobal i be le =>
    exact ⟨k.closed h.1, fun hb hi => hbuffer i rfl h.1 hi (h.2.1 hb hi),
      fun hl hi => k.localQueue h.1 _ (h.2.2 hl hi)⟩
  | _ => trivial

theorem owns_of_none {p : Stage Thread n τ} (hp : p.popIndex = none) : Owns worker t p := by
  intro i hi
  rw [hp] at hi
  cases hi

theorem emptyAt_eq {q : Fin n → List (Job Thread τ)} {i : Nat} (h : Sys.emptyAt q i = true) (hi : i < n) :
    q ⟨i, hi⟩ = [] := by
  rw [Sys.emptyAt, dif_pos hi] at h
  exact List.isEmpty_iff.1 h

/-- Taking the front of one queue empties no other and fills none. -/
theorem update_nil {q : Fin n → List (Job Thread τ)} {i : Fin n} {rest : List (Job Thread τ)}
    (hq : q i = j :: rest) (k : Fin n) (hk : q k = []) : Function.update q i rest k = [] := by
  have hne : k ≠ i := fun he => by
    rw [he, hq] at hk
    cases hk
  rw [Function.update_of_ne hne]
  exact hk

theorem shrinks_popBuffer (worker : Fin n → Thread) (t : Thread) {i : Fin n} {rest : List (Job Thread τ)}
    (hq : s.pool.buffer i = j :: rest)
    (polling : Bool) : Shrinks worker t s.pool ((s.popBuffer i j rest).leaveBuffer i polling).pool :=
  { (Shrinks.refl t s.pool : Shrinks worker t s.pool s.pool) with buffer := fun _ k hk => .inl (update_nil hq k hk) }

theorem exits_new : Exits worker (Sys.new : Sys Thread n τ) where
  owns _ := owns_of_none rfl
  checked _ := trivial
  raised _ hi := absurd hi List.not_mem_nil

theorem Exits.drained (h : Exits worker s) (hn : 0 < n) (hr : ∀ i : Fin n, ↑i ∈ s.raised) :
    s.pool.isDrained = true := by
  have hempty : ∀ i : Fin n, Emptied s.pool i := fun i => h.raised i (hr i)
  rw [Pool.isDrained, Bool.and_eq_true, Bool.and_eq_true, List.all_eq_true, List.all_eq_true]
  refine ⟨⟨?_, fun i _ => ?_⟩, fun i _ => ?_⟩
  · rw [(hempty ⟨0, hn⟩).globalQueue]
    rfl
  · rw [(hempty i).buffer i.isLt]
    rfl
  · rw [(hempty i).localQueue i.isLt]
    rfl

variable [DecidableEq Thread]

/-- Thread `t` changes the queues and enters stage `q`. -/
theorem Exits.goto (h : Exits worker s) (s' : Sys Thread n τ) (k : Shrinks worker t s.pool s'.pool)
    (hst : s'.stage = s.stage) (hr : s'.raised = s.raised) {q : Stage Thread n τ} (ho : Owns worker t q)
    (hc : Checked s'.pool q) : Exits worker (s'.goto t q) := by
  have hstage : ∀ u, u ≠ t → (s'.goto t q).stage u = s.stage u := fun u hu => by
    rw [← hst]
    exact Function.update_of_ne hu _ _
  have hself : (s'.goto t q).stage t = q := Function.update_self ..
  refine ⟨fun u => ?_, fun u => ?_, fun i hi => k.emptied (h.raised i (hr ▸ hi))⟩
  · by_cases hu : u = t
    · subst hu
      rw [hself]
      exact ho
    · rw [hstage u hu]
      exact h.owns u
  · by_cases hu : u = t
    · subst hu
      rw [hself]
      exact hc
    · rw [hstage u hu]
      exact k.checked hu (h.owns u) (h.checked u)

/-- A step that leaves the queues alone. -/
theorem Exits.move (h : Exits worker s) {q : Stage Thread n τ} (ho : Owns worker t q) (hc : Checked s.pool q) :
    Exits worker (s.goto t q) :=
  h.goto s (.refl t s.pool) rfl rfl ho hc

/-- A step that leaves the queues alone, out of `pop_work`. -/
theorem Exits.rest (h : Exits worker s) {q : Stage Thread n τ} (ho : q.popIndex = none)
    (hc : Checked s.pool q) : Exits worker (s.goto t q) :=
  h.move (owns_of_none ho) hc

/-- A push that returns. -/
theorem Exits.answer (h : Exits worker s) (r : Except PushError Unit) :
    Exits worker ((s.answer j r).goto t .idle) := by
  cases r with
  | error e =>
    have hm : Exits worker { s with refused := s.refused ++ [(j, e)] } := { h with }
    exact hm.rest rfl trivial
  | ok _ =>
    have hm : Exits worker { s with accepted := s.accepted ++ [j] } := { h with }
    exact hm.rest rfl trivial

/-- Nothing is sent to the global queue of a closed pool. -/
theorem Exits.sendStep (h : Exits worker s) (hs : Sound s) : Exits worker (s.sendStep t j) := by
  rw [Sys.sendStep]
  split
  · rename_i hopen
    have hnot : s.pool.isClosed ≠ true := fun hc => by
      rw [(hs.gates.closed hc).1] at hopen
      cases hopen
    have k : Shrinks worker t s.pool (s.sendGlobal j).pool :=
      { Shrinks.refl t s.pool with globalQueue := fun hc => absurd hc hnot }
    exact h.goto _ k rfl rfl (owns_of_none rfl) trivial
  · exact h.rest rfl trivial

theorem Exits.trySendStep (h : Exits worker s) (hs : Sound s) (i : Nat) :
    Exits worker (s.trySendStep t i j) := by
  rw [Sys.trySendStep]
  split
  · exact h.rest rfl trivial
  · rename_i hopen
    split
    · exact h.rest rfl trivial
    · rename_i l _
      split
      · have hnot : s.pool.isClosed ≠ true := fun hc => by
          rw [(hs.gates.closed hc).2] at hopen
          exact hopen rfl
        have k : Shrinks worker t s.pool (s.sendLocal l j).pool :=
          { Shrinks.refl t s.pool with localQueue := fun hc => absurd hc hnot }
        exact h.goto _ k rfl rfl (owns_of_none rfl) trivial
      · have hm : Exits worker (s.spill l j) := { h with }
        exact hm.rest rfl trivial

theorem Exits.popStep (h : Exits worker s) {i : Fin n} (ho : Owns worker t (.bufferPop i : Stage Thread n τ)) :
    Exits worker (s.popStep t i) := by
  rw [Sys.popStep]
  split
  · exact h.move ho trivial
  · rename_i j rest hq
    have k := shrinks_popBuffer worker t hq false
    exact h.goto _ k rfl rfl (owns_of_none rfl) trivial

theorem Exits.takeStep (h : Exits worker s) {i : Fin n} {d : Bool}
    (ho : Owns worker t (.bufferTake i d : Stage Thread n τ)) : Exits worker (s.takeStep t i d) := by
  rw [Sys.takeStep]
  split
  · exact h.move ho trivial
  · rename_i j rest hq
    have k := shrinks_popBuffer worker t hq (!d)
    exact h.goto _ k rfl rfl (owns_of_none rfl) trivial

theorem Exits.recvStep (h : Exits worker s) {i : Fin n} (ho : Owns worker t (.localRecv i : Stage Thread n τ)) :
    Exits worker (s.recvStep t i) := by
  rw [Sys.recvStep]
  split
  · exact h.move ho trivial
  · rename_i j rest hq
    have k : Shrinks worker t s.pool (s.popLocal i j rest).pool :=
      { Shrinks.refl t s.pool with localQueue := fun _ k hk => update_nil hq k hk }
    exact h.goto _ k rfl rfl (owns_of_none rfl) trivial

/-- A batch pull fills the buffer of the worker that pulls. -/
theorem Exits.pullStep (h : Exits worker s) {i : Fin n} {d : Bool} {c : Nat}
    (ho : Owns worker t (.pull i d c : Stage Thread n τ)) : Exits worker (s.pullStep t i d c) := by
  cases c with
  | zero => exact h.move ho trivial
  | succ c =>
    rw [Sys.pullStep]
    split
    · exact h.move ho trivial
    · rename_i j rest hq
      have hne : s.pool.globalQueue ≠ [] := hq ▸ List.cons_ne_nil j rest
      have k : Shrinks worker t s.pool (s.pullOne i j rest).pool := by
        refine { (Shrinks.refl t s.pool : Shrinks worker t s.pool s.pool) with
          globalQueue := fun _ hg => absurd hg hne, buffer := fun _ l hl => ?_ }
        by_cases hi : l = i
        · exact .inr ⟨hi ▸ ho i rfl i.isLt, hne⟩
        · refine .inl ?_
          show Function.update s.pool.buffer i _ l = []
          rw [Function.update_of_ne hi]
          exact hl
      exact h.goto _ k rfl rfl ho trivial

/-- A worker that raises has seen everything it could take from empty. -/
theorem Exits.exitStep (h : Exits worker s) {i : Nat} {be le : Bool} (hc : Checked s.pool (.exitGlobal i be le)) :
    Exits worker (s.exitStep t i be le) := by
  rw [Sys.exitStep]
  split
  · rename_i hempty
    rw [Bool.and_eq_true, Bool.and_eq_true] at hempty
    obtain ⟨⟨hg, hb⟩, hl⟩ := hempty
    have hi : Emptied s.pool i := ⟨hc.1, List.isEmpty_iff.1 hg, hc.2.1 hb, hc.2.2 hl⟩
    have hm : Exits worker { s with raised := s.raised ++ [i] } := by
      refine { h with raised := fun l hl => ?_ }
      rcases List.mem_append.1 hl with hl | hl
      · exact h.raised l hl
      · rw [List.mem_singleton.1 hl]
        exact hi
    exact hm.rest rfl trivial
  · exact h.rest rfl trivial

theorem Exits.advance (h : Exits worker s) (hs : Sound s) (hst : s.advance t = some s') : Exits worker s' := by
  have ho := h.owns t
  have hc := h.checked t
  rw [Sys.advance] at hst
  generalize s.stage t = p at ho hc hst
  cases p with
  | idle => cases hst
  | globalFlag j =>
    dsimp only at hst
    split at hst
    · obtain rfl := Option.some.inj hst
      exact h.answer _
    · obtain rfl := Option.some.inj hst
      exact h.rest rfl trivial
  | globalLock j =>
    dsimp only at hst
    split at hst
    · obtain rfl := Option.some.inj hst
      have hm : Exits worker { s with globalMutex := some t } := { h with }
      exact hm.rest rfl trivial
    · cases hst
  | globalSend j =>
    obtain rfl := Option.some.inj hst
    exact h.sendStep hs
  | globalReturn j r =>
    obtain rfl := Option.some.inj hst
    have hm : Exits worker { s with globalMutex := none } := { h with }
    exact hm.answer r
  | localFlag i j =>
    dsimp only at hst
    split at hst
    · obtain rfl := Option.some.inj hst
      exact h.answer _
    · obtain rfl := Option.some.inj hst
      exact h.rest rfl trivial
  | localLock i j =>
    dsimp only at hst
    split at hst
    · obtain rfl := Option.some.inj hst
      have hm : Exits worker { s with localMutex := some t } := { h with }
      exact hm.rest rfl trivial
    · cases hst
  | localSend i j =>
    obtain rfl := Option.some.inj hst
    exact h.trySendStep hs i
  | localReturn j r =>
    obtain rfl := Option.some.inj hst
    have hm : Exits worker { s with localMutex := none } := { h with }
    exact hm.answer r
  | localFull j =>
    obtain rfl := Option.some.inj hst
    have hm : Exits worker { s with localMutex := none } := { h with }
    exact hm.rest rfl trivial
  | closeGlobal =>
    dsimp only at hst
    split at hst
    · obtain rfl := Option.some.inj hst
      exact h.goto { s with pool := { s.pool with globalSender := false } } { Shrinks.refl t s.pool with }
        rfl rfl (owns_of_none rfl) trivial
    · cases hst
  | closeLocal =>
    dsimp only at hst
    split at hst
    · obtain rfl := Option.some.inj hst
      exact h.goto { s with pool := { s.pool with localSenders := [] } } { Shrinks.refl t s.pool with }
        rfl rfl (owns_of_none rfl) trivial
    · cases hst
  | closeFlag =>
    obtain rfl := Option.some.inj hst
    exact h.goto { s with pool := { s.pool with isClosed := true }, closes := s.closes + 1 }
      { Shrinks.refl t s.pool with closed := fun _ => rfl } rfl rfl (owns_of_none rfl) trivial
  | bufferLock i =>
    dsimp only at hst
    split at hst
    · obtain rfl := Option.some.inj hst
      have hm : Exits worker { s with bufferMutex := Function.update s.bufferMutex i (some t) } := { h with }
      exact hm.move ho trivial
    · cases hst
  | bufferPop i =>
    obtain rfl := Option.some.inj hst
    exact h.popStep ho
  | drainFlag i =>
    obtain rfl := Option.some.inj hst
    rw [Sys.drainStep]
    split <;> exact h.move ho trivial
  | pollerGate i =>
    obtain rfl := Option.some.inj hst
    have k : Shrinks worker t s.pool { s.pool with numPolling := s.pool.numPolling + 1 } :=
      { Shrinks.refl t s.pool with }
    rw [Sys.pollerStep]
    split
    · exact h.goto { s with pool := { s.pool with numPolling := s.pool.numPolling + 1 } } k rfl rfl ho trivial
    · exact h.goto { s with pool := { s.pool with numPolling := s.pool.numPolling + 1 } } k rfl rfl ho trivial
  | globalLen i draining =>
    obtain rfl := Option.some.inj hst
    rw [Sys.lenStep]
    split <;> exact h.move ho trivial
  | pull i draining k =>
    obtain rfl := Option.some.inj hst
    exact h.pullStep ho
  | bufferTake i draining =>
    obtain rfl := Option.some.inj hst
    exact h.takeStep ho
  | bufferLeave i draining =>
    obtain rfl := Option.some.inj hst
    have k : Shrinks worker t s.pool (s.leaveBuffer i !draining).pool := { Shrinks.refl t s.pool with }
    exact h.goto _ k rfl rfl ho trivial
  | localRecv i =>
    obtain rfl := Option.some.inj hst
    exact h.recvStep ho
  | exitFlag i =>
    obtain rfl := Option.some.inj hst
    split
    · rename_i hclosed
      exact h.move ho hclosed
    · exact h.rest rfl trivial
  | exitBuffer i =>
    dsimp only at hst
    split at hst
    · split at hst
      · obtain rfl := Option.some.inj hst
        exact h.move ho ⟨hc, fun hb _ => List.isEmpty_iff.1 hb⟩
      · cases hst
    · rename_i hi
      obtain rfl := Option.some.inj hst
      exact h.move ho ⟨hc, fun _ h => absurd h hi⟩
  | exitLocal i be =>
    obtain rfl := Option.some.inj hst
    exact h.move ho ⟨hc.1, hc.2, fun hl hi => emptyAt_eq hl hi⟩
  | exitGlobal i be le =>
    obtain rfl := Option.some.inj hst
    exact h.exitStep hc

theorem Exits.step (h : Exits worker s) (hs : Sound s) {a : Action Thread τ} (ha : OwnPops worker s a)
    (hst : s.step a = some s') : Exits worker s' := by
  cases a with
  | pushGlobal t task =>
    dsimp only [Sys.step] at hst
    split at hst
    · cases task with
      | none => exact Option.some.inj hst ▸ h
      | some x =>
        obtain rfl := Option.some.inj hst
        have hm : Exits worker { s with pushes := Function.update s.pushes t (s.pushes t + 1) } := { h with }
        exact hm.rest rfl trivial
    · cases hst
  | pushLocal t index task =>
    dsimp only [Sys.step] at hst
    split at hst
    · cases task with
      | none => exact Option.some.inj hst ▸ h
      | some x =>
        obtain rfl := Option.some.inj hst
        have hm : Exits worker { s with pushes := Function.update s.pushes t (s.pushes t + 1) } := { h with }
        exact hm.rest rfl trivial
    · cases hst
  | close t =>
    dsimp only [Sys.step] at hst
    split at hst
    · obtain rfl := Option.some.inj hst
      exact h.rest rfl trivial
    · cases hst
  | popWork t index =>
    dsimp only [Sys.step] at hst
    split at hst
    · obtain rfl := Option.some.inj hst
      have howns : ∀ i, some index = some i → ∀ hi : i < n, t = worker ⟨i, hi⟩ := fun i hi hn => by
        cases hi
        exact ha hn
      split
      · exact h.move howns trivial
      · exact h.move howns trivial
    · cases hst
  | advance t => exact h.advance hs hst

theorem exits_of_reachable (h : (system Thread n τ).ReachableWhen (OwnPops worker) s) :
    Sound s ∧ Exits worker s :=
  h.inv (I := fun s => Sound s ∧ Exits worker s) (fun _ h0 => h0 ▸ ⟨sound_new, exits_new⟩)
    fun _ _ _ hi ha hst => ⟨hi.1.step hst, hi.2.step hi.1 ha hst⟩

/-! ## After the close -/

theorem accepted_pullStep (s : Sys Thread n τ) (t : Thread) (i : Fin n) (d : Bool) (k : Nat) :
    (s.pullStep t i d k).accepted = s.accepted := by
  cases k with
  | zero => rfl
  | succ k =>
    rw [Sys.pullStep]
    split <;> rfl

/-- A push returns `Ok` only from the last stage of its call. -/
theorem accepted_advance (hst : s.advance t = some s') :
    s'.accepted = s.accepted ∨ ∃ j, s.stage t = .globalReturn j (.ok ()) ∨ s.stage t = .localReturn j (.ok ()) := by
  rw [Sys.advance] at hst
  split at hst
  case h_5 j r hp =>
    obtain rfl := Option.some.inj hst
    cases r with
    | error e => exact .inl rfl
    | ok _ => exact .inr ⟨j, .inl hp⟩
  case h_9 j r hp =>
    obtain rfl := Option.some.inj hst
    cases r with
    | error e => exact .inl rfl
    | ok _ => exact .inr ⟨j, .inr hp⟩
  -- no other stage answers a push
  all_goals
    left
    repeat' split at hst
    all_goals cases hst
    try simp only [Sys.sendStep, Sys.trySendStep, Sys.popStep, Sys.drainStep, Sys.pollerStep, Sys.lenStep,
      Sys.takeStep, Sys.recvStep, Sys.exitStep]
    repeat' split
    all_goals first | rfl | exact accepted_pullStep ..

/-- Once a `close` has returned, no push returns `Ok`. -/
theorem Sound.accepted_step (h : Sound s) (hc : 0 < s.closes) {a : Action Thread τ} (hst : s.step a = some s') :
    s'.accepted = s.accepted := by
  obtain ⟨hg, hl⟩ := h.gates.closed (h.gates.closes hc)
  cases a with
  | advance t =>
    have hat := h.at_ t
    rcases accepted_advance hst with he | ⟨j, hp | hp⟩
    · exact he
    · rw [hp] at hat
      rw [(hat.2 rfl).2.2] at hg
      cases hg
    · rw [hp] at hat
      exact absurd hl (hat.2 rfl).2.2
  | pushGlobal t task =>
    dsimp only [Sys.step] at hst
    split at hst
    · cases task <;> cases hst <;> rfl
    · cases hst
  | pushLocal t index task =>
    dsimp only [Sys.step] at hst
    split at hst
    · cases task <;> cases hst <;> rfl
    · cases hst
  | close t =>
    dsimp only [Sys.step] at hst
    split at hst <;> cases hst
    rfl
  | popWork t index =>
    dsimp only [Sys.step] at hst
    split at hst <;> cases hst
    rfl

/-- The states some steps after `s`. -/
def Later (worker : Fin n → Thread) : Sys Thread n τ → Sys Thread n τ → Prop :=
  Relation.ReflTransGen fun s s' => ∃ a, OwnPops worker s a ∧ s.step a = some s'

theorem raised_pullStep (s : Sys Thread n τ) (t : Thread) (i : Fin n) (d : Bool) (k : Nat) :
    (s.pullStep t i d k).raised = s.raised := by
  cases k with
  | zero => rfl
  | succ k =>
    rw [Sys.pullStep]
    split <;> rfl

theorem raised_exitStep (s : Sys Thread n τ) (t : Thread) (i : Nat) (be le : Bool) :
    s.raised ⊆ (s.exitStep t i be le).raised := by
  rw [Sys.exitStep]
  split
  · exact List.subset_append_left _ _
  · exact List.Subset.refl _

theorem raised_answer (s : Sys Thread n τ) (t : Thread) (j : Job Thread τ) (r : Except PushError Unit) :
    ((s.answer j r).goto t .idle).raised = s.raised := by
  cases r <;> rfl

/-- Who has raised has raised. -/
theorem raised_step {a : Action Thread τ} (hst : s.step a = some s') : s.raised ⊆ s'.raised := by
  cases a with
  | advance t =>
    dsimp only [Sys.step] at hst
    rw [Sys.advance] at hst
    split at hst
    case h_26 =>
      cases hst
      exact raised_exitStep ..
    all_goals
      refine (?_ : s'.raised = s.raised) ▸ List.Subset.refl _
      repeat' split at hst
      all_goals cases hst
      try simp only [Sys.sendStep, Sys.trySendStep, Sys.popStep, Sys.drainStep, Sys.pollerStep, Sys.lenStep,
        Sys.takeStep, Sys.recvStep]
      repeat' split
      all_goals first | rfl | exact raised_pullStep .. | exact raised_answer ..
  | pushGlobal t task =>
    dsimp only [Sys.step] at hst
    split at hst
    · cases task <;> cases hst <;> exact List.Subset.refl _
    · cases hst
  | pushLocal t index task =>
    dsimp only [Sys.step] at hst
    split at hst
    · cases task <;> cases hst <;> exact List.Subset.refl _
    · cases hst
  | close t =>
    dsimp only [Sys.step] at hst
    split at hst <;> cases hst
    exact List.Subset.refl _
  | popWork t index =>
    dsimp only [Sys.step] at hst
    split at hst <;> cases hst
    exact List.Subset.refl _

theorem raised_later {worker : Fin n → Thread} (hl : Later worker s s') : s.raised ⊆ s'.raised := by
  induction hl with
  | refl => exact List.Subset.refl _
  | tail _ hst ih =>
    obtain ⟨a, _, hst⟩ := hst
    exact List.Subset.trans ih (raised_step hst)

theorem reachable_later {worker : Fin n → Thread} (h : (system Thread n τ).ReachableWhen (OwnPops worker) s)
    (hl : Later worker s s') : (system Thread n τ).ReachableWhen (OwnPops worker) s' := by
  induction hl with
  | refl => exact h
  | tail _ hst ih =>
    obtain ⟨a, ha, hst⟩ := hst
    exact ih.next a ha hst

/-- In every state of every run, what was accepted is in exactly one place;
no push returns `Ok` after a `close` has returned; and once every worker has
raised, the pool is drained and stays so. -/
theorem conserved_and_drained (hn : 0 < n) (worker : Fin n → Thread)
    (hs : (system Thread n τ).ReachableWhen (OwnPops worker) s) :
    s.places.Nodup ∧ (∀ j ∈ s.accepted, j ∈ s.places) ∧
      (0 < s.closes → ∀ a s', s.step a = some s' → s'.accepted = s.accepted) ∧
      ((∀ i : Fin n, ↑i ∈ s.raised) → ∀ s', Later worker s s' → s'.pool.isDrained = true) := by
  have hsound := sound_of_reachable hs
  refine ⟨hsound.places_nodup, fun j hj => hsound.mem_places (hsound.store.accepted j hj).1,
    fun hc a s' hst => hsound.accepted_step hc hst, fun hr s' hl => ?_⟩
  obtain ⟨_, hexits⟩ := exits_of_reachable (reachable_later hs hl)
  exact hexits.drained hn fun i => raised_later hl (hr i)

/-- A task is pushed, the pool closes, the task is popped, and the next
`pop_work` raises. -/
def closedRun : List (Action Unit Nat) :=
  .pushGlobal () (some 5) :: List.replicate 4 (.advance ()) ++ .close () :: List.replicate 3 (.advance ()) ++
    .popWork () 0 :: List.replicate 7 (.advance ()) ++ .popWork () 0 :: List.replicate 10 (.advance ())

theorem conserved_and_drained_closed :
    ∃ s, (system Unit 1 Nat).ReachableWhen (OwnPops fun _ => ()) s ∧ s.accepted.length = 1 ∧ 0 < s.closes ∧
      s.places.Nodup ∧ ∀ s', Later (fun _ => ()) s s' → s'.pool.isDrained = true := by
  have hrun : ((system Unit 1 Nat).run .new closedRun).any (fun s =>
      decide (s.accepted.length = 1 ∧ 0 < s.closes ∧ ∀ i : Fin 1, ↑i ∈ s.raised)) = true := by decide
  obtain ⟨s, hs, hp⟩ := (Option.any_eq_true _ _).1 hrun
  obtain ⟨ha, hc, hr⟩ := of_decide_eq_true hp
  have hreach : (system Unit 1 Nat).ReachableWhen (OwnPops fun _ => ()) s :=
    System.ReachableWhen.run (fun _ a => by cases a <;> first | trivial | exact fun _ => rfl) (.init rfl) hs
  obtain ⟨hnd, _, _, hdrained⟩ := conserved_and_drained Nat.one_pos (fun _ => ()) hreach
  exact ⟨s, hreach, ha, hc, hnd, hdrained hr⟩

end Multiloop.NativeWorkerPool
