import Mathlib.Data.Fintype.Basic
import Multiloop.Framework.Bins
import Multiloop.Pool.Native

/-!
# Where the tasks of the pool are

The invariant of every run. `Store` is about the jobs: what was sent is what
the queues and buffers hold and what was popped, each job once, and each local
queue is what is left of the jobs pinned to it. `Gates` is about the senders,
which `close` takes away one after the other. `At` is what a thread can rely
on in the middle of a call: the job it carries is in no queue yet, the mutex
it locked is its own, and the sender it used is still there, so `close` is
not past it.
-/

namespace Multiloop.NativeWorkerPool

variable {Thread τ : Type} {n : Nat}

namespace Sys

/-- Every place a job can be: the global queue, the local queues, the buffers
and the results of `pop_work`. -/
def places (s : Sys Thread n τ) : Multiset (Job Thread τ) :=
  s.pool.globalQueue + Bins.total s.pool.localQueue + Bins.total s.pool.buffer +
    (s.popped.map (·.2) : List (Job Thread τ))

/-- The results of `pop_work(i)`, in order. -/
def poppedAt (s : Sys Thread n τ) (i : Fin n) : List (Job Thread τ) :=
  (s.popped.filter (·.1 = i)).map (·.2)

end Sys

variable (s : Sys Thread n τ)

/-- If `j` is of a `push_local`, it found its queue full. -/
def Spilled (j : Job Thread τ) : Prop := ∀ i, j.target = some i → ∃ len, (j, len) ∈ s.spilled

/-- If `j` is of a `push_local(i, ..)`, it went into queue `i` or found it full. -/
def Routed (j : Job Thread τ) : Prop :=
  ∀ i, j.target = some i → (∃ h : i < n, j ∈ s.pinned ⟨i, h⟩) ∨ ∃ len, (j, len) ∈ s.spilled

structure Store : Prop where
  places : (s.sent : Multiset (Job Thread τ)) = s.places
  nodup : s.sent.Nodup
  old : ∀ j ∈ s.sent, j.number < s.pushes j.caller
  accepted : ∀ j ∈ s.accepted, j ∈ s.sent ∧ Routed s j
  /-- What was pinned to worker `i` is what it has popped of it and what its queue holds. -/
  pinned : ∀ i, ∃ done, s.pinned i = done ++ s.pool.localQueue i ∧ done.Sublist (s.poppedAt i)
  spilled : ∀ p ∈ s.spilled, localQueueCapacity ≤ p.2

structure Gates : Prop where
  closes : 0 < s.closes → s.pool.isClosed = true
  closed : s.pool.isClosed = true → s.pool.globalSender = false ∧ s.pool.localSenders = []
  senders : s.pool.localSenders = [] ∨ s.pool.localSenders = List.finRange n

/-- The job of a call of thread `t` that is in no queue yet. -/
structure Fresh (t : Thread) (j : Job Thread τ) : Prop where
  caller : j.caller = t
  number : j.number < s.pushes t
  unsent : j ∉ s.sent

/-- What holds while thread `t` is in a stage. -/
def At (t : Thread) : Stage Thread n τ → Prop
  | .globalFlag j | .globalLock j => Fresh s t j ∧ Spilled s j
  | .globalSend j => s.globalMutex = some t ∧ Fresh s t j ∧ Spilled s j
  | .globalReturn j r =>
    s.globalMutex = some t ∧ (r = .ok () → j ∈ s.sent ∧ Routed s j ∧ s.pool.globalSender = true)
  | .localFlag i j | .localLock i j => Fresh s t j ∧ j.target = some i
  | .localSend i j => s.localMutex = some t ∧ Fresh s t j ∧ j.target = some i
  | .localReturn j r =>
    s.localMutex = some t ∧ (r = .ok () → j ∈ s.sent ∧ Routed s j ∧ s.pool.localSenders ≠ [])
  | .localFull j => s.localMutex = some t ∧ Fresh s t j ∧ Spilled s j
  | .closeLocal => s.pool.globalSender = false
  | .closeFlag => s.pool.globalSender = false ∧ s.pool.localSenders = []
  | _ => True

/-- What a step of another thread leaves to thread `u`. -/
structure Frame (u : Thread) (s s' : Sys Thread n τ) : Prop where
  globalMutex : s.globalMutex = some u → s'.globalMutex = some u
  localMutex : s.localMutex = some u → s'.localMutex = some u
  globalSender : s.globalMutex = some u → s.pool.globalSender = true → s'.pool.globalSender = true
  localSenders : s.localMutex = some u → s.pool.localSenders ≠ [] → s'.pool.localSenders ≠ []
  globalShut : s.pool.globalSender = false → s'.pool.globalSender = false
  localShut : s.pool.localSenders = [] → s'.pool.localSenders = []
  pushes : s'.pushes u = s.pushes u
  sent : ∀ j ∈ s.sent, j ∈ s'.sent
  mine : ∀ j ∈ s'.sent, j.caller = u → j ∈ s.sent
  pinned : ∀ i, ∀ j ∈ s.pinned i, j ∈ s'.pinned i
  spilled : ∀ p ∈ s.spilled, p ∈ s'.spilled

variable {s} {s' : Sys Thread n τ} {t u : Thread} {j : Job Thread τ}

theorem Frame.refl (u : Thread) (s : Sys Thread n τ) : Frame u s s :=
  ⟨id, id, fun _ => id, fun _ => id, id, id, rfl, fun _ => id, fun _ h _ => h, fun _ _ => id, fun _ => id⟩

theorem Frame.spilledIn (f : Frame u s s') (h : Spilled s j) : Spilled s' j := by
  intro i hi
  obtain ⟨len, hl⟩ := h i hi
  exact ⟨len, f.spilled _ hl⟩

theorem Frame.routed (f : Frame u s s') (h : Routed s j) : Routed s' j := by
  intro i hi
  rcases h i hi with ⟨hn, hp⟩ | ⟨len, hl⟩
  · exact .inl ⟨hn, f.pinned _ _ hp⟩
  · exact .inr ⟨len, f.spilled _ hl⟩

theorem Frame.fresh (f : Frame u s s') (h : Fresh s u j) : Fresh s' u j where
  caller := h.caller
  number := f.pushes ▸ h.number
  unsent hm := h.unsent (f.mine _ hm h.caller)

/-- What thread `u` relies on survives the steps of others. -/
theorem At.frame (f : Frame u s s') {p : Stage Thread n τ} (h : At s u p) : At s' u p := by
  cases p with
  | globalFlag j => exact ⟨f.fresh h.1, f.spilledIn h.2⟩
  | globalLock j => exact ⟨f.fresh h.1, f.spilledIn h.2⟩
  | globalSend j => exact ⟨f.globalMutex h.1, f.fresh h.2.1, f.spilledIn h.2.2⟩
  | globalReturn j r =>
    refine ⟨f.globalMutex h.1, fun hr => ?_⟩
    obtain ⟨hs, hr, hg⟩ := h.2 hr
    exact ⟨f.sent _ hs, f.routed hr, f.globalSender h.1 hg⟩
  | localFlag i j => exact ⟨f.fresh h.1, h.2⟩
  | localLock i j => exact ⟨f.fresh h.1, h.2⟩
  | localSend i j => exact ⟨f.localMutex h.1, f.fresh h.2.1, h.2.2⟩
  | localReturn j r =>
    refine ⟨f.localMutex h.1, fun hr => ?_⟩
    obtain ⟨hs, hr, hl⟩ := h.2 hr
    exact ⟨f.sent _ hs, f.routed hr, f.localSenders h.1 hl⟩
  | localFull j => exact ⟨f.localMutex h.1, f.fresh h.2.1, f.spilledIn h.2.2⟩
  | closeLocal => exact f.globalShut h
  | closeFlag => exact ⟨f.globalShut h.1, f.localShut h.2⟩
  | _ => trivial

/-- The invariant but for thread `t`, which is between two stages. -/
structure Leaving (s : Sys Thread n τ) (t : Thread) : Prop where
  store : Store s
  gates : Gates s
  others : ∀ u, u ≠ t → At s u (s.stage u)

structure Sound (s : Sys Thread n τ) : Prop where
  store : Store s
  gates : Gates s
  at_ : ∀ t, At s t (s.stage t)

theorem Sound.leaving (h : Sound s) (t : Thread) : Leaving s t := ⟨h.store, h.gates, fun u _ => h.at_ u⟩

/-- A change of the state that thread `t` makes, stage by stage for the others. -/
theorem Leaving.frame (h : Leaving s t) (hst : s'.stage = s.stage) (hs : Store s') (hg : Gates s')
    (f : ∀ u, u ≠ t → Frame u s s') : Leaving s' t := by
  refine ⟨hs, hg, fun u hu => ?_⟩
  rw [hst]
  exact (h.others u hu).frame (f u hu)

/-! ## Mutexes -/

theorem Leaving.lockGlobal (h : Leaving s t) (hfree : s.globalMutex = none) :
    Leaving { s with globalMutex := some t } t := by
  refine h.frame rfl { h.store with } { h.gates with } fun u _ => ?_
  refine { Frame.refl u s with globalMutex := fun hu => ?_ }
  rw [hfree] at hu
  cases hu

theorem Leaving.lockLocal (h : Leaving s t) (hfree : s.localMutex = none) :
    Leaving { s with localMutex := some t } t := by
  refine h.frame rfl { h.store with } { h.gates with } fun u _ => ?_
  refine { Frame.refl u s with localMutex := fun hu => ?_ }
  rw [hfree] at hu
  cases hu

theorem Leaving.dropGlobal (h : Leaving s t) (hown : s.globalMutex = some t) :
    Leaving { s with globalMutex := none } t := by
  refine h.frame rfl { h.store with } { h.gates with } fun u hu => ?_
  refine { Frame.refl u s with globalMutex := fun hm => ?_ }
  rw [hown] at hm
  exact absurd (Option.some.inj hm).symm hu

theorem Leaving.dropLocal (h : Leaving s t) (hown : s.localMutex = some t) :
    Leaving { s with localMutex := none } t := by
  refine h.frame rfl { h.store with } { h.gates with } fun u hu => ?_
  refine { Frame.refl u s with localMutex := fun hm => ?_ }
  rw [hown] at hm
  exact absurd (Option.some.inj hm).symm hu

/-- A job is in one place at most, and there once. -/
theorem Sound.places_nodup (h : Sound s) : s.places.Nodup := by
  rw [← h.store.places]
  exact Multiset.coe_nodup.2 h.store.nodup

theorem Sound.mem_places (h : Sound s) (hj : j ∈ s.sent) : j ∈ s.places := by
  rw [← h.store.places]
  exact hj

theorem sound_new : Sound (Sys.new : Sys Thread n τ) where
  store :=
    { places := by
        show 0 = (0 : Multiset (Job Thread τ)) + Bins.total (fun _ => []) + Bins.total (fun _ => []) + 0
        rw [Bins.total_nil]
        rfl
      nodup := List.nodup_nil
      old := fun _ hj => absurd hj List.not_mem_nil
      accepted := fun _ hj => absurd hj List.not_mem_nil
      pinned := fun _ => ⟨[], rfl, .refl _⟩
      spilled := fun _ hp => absurd hp List.not_mem_nil }
  gates :=
    { closes := fun h => absurd h (Nat.lt_irrefl 0)
      closed := fun h => absurd h Bool.false_ne_true
      senders := .inr rfl }
  at_ _ := trivial

/-! ## The senders -/

theorem Leaving.closeGlobal (h : Leaving s t) (hfree : s.globalMutex = none) :
    Leaving { s with pool := { s.pool with globalSender := false } } t := by
  refine h.frame rfl { h.store with }
    { h.gates with closed := fun hc => ⟨rfl, (h.gates.closed hc).2⟩ } fun u _ => ?_
  refine { Frame.refl u s with globalSender := fun hu => ?_, globalShut := fun _ => rfl }
  rw [hfree] at hu
  cases hu

theorem Leaving.closeLocal (h : Leaving s t) (hfree : s.localMutex = none) :
    Leaving { s with pool := { s.pool with localSenders := [] } } t := by
  refine h.frame rfl { h.store with }
    { h.gates with closed := fun hc => ⟨(h.gates.closed hc).1, rfl⟩, senders := .inl rfl } fun u _ => ?_
  refine { Frame.refl u s with localSenders := fun hu => ?_, localShut := fun _ => rfl }
  rw [hfree] at hu
  cases hu

theorem Leaving.closeFlag (h : Leaving s t) (hat : At s t .closeFlag) :
    Leaving { s with pool := { s.pool with isClosed := true }, closes := s.closes + 1 } t :=
  h.frame rfl { h.store with } { h.gates with closes := fun _ => rfl, closed := fun _ => hat }
    fun u _ => { Frame.refl u s with }

/-! ## The queues -/

/-- The push of a job that was sent, or of one that was not, returns. -/
theorem Leaving.answer (h : Leaving s t) {r : Except PushError Unit}
    (hr : r = .ok () → j ∈ s.sent ∧ Routed s j) : Leaving (s.answer j r) t := by
  cases r with
  | error e => exact h.frame rfl { h.store with } { h.gates with } fun u _ => { Frame.refl u s with }
  | ok _ =>
    refine h.frame rfl { h.store with accepted := fun k hk => ?_ } { h.gates with }
      fun u _ => { Frame.refl u s with }
    rcases List.mem_append.1 hk with hk | hk
    · exact h.store.accepted k hk
    · rw [List.mem_singleton.1 hk]
      exact hr rfl

theorem Leaving.sendGlobal (h : Leaving s t) (hj : Fresh s t j) : Leaving (s.sendGlobal j) t := by
  refine h.frame rfl { h.store with places := ?_, nodup := ?_, old := ?_, accepted := ?_ } { h.gates with }
    fun u hu => { Frame.refl u s with sent := ?_, mine := ?_ }
  · show Multiset.ofList (s.sent ++ [j]) = Multiset.ofList (s.pool.globalQueue ++ [j]) + Bins.total s.pool.localQueue +
      Bins.total s.pool.buffer + Multiset.ofList (s.popped.map (·.2))
    rw [← Multiset.coe_add, ← Multiset.coe_add, h.store.places, Sys.places]
    abel
  · exact h.store.nodup.append (List.nodup_singleton j) (List.disjoint_singleton.2 hj.unsent)
  · intro k hk
    rcases List.mem_append.1 hk with hk | hk
    · exact h.store.old k hk
    · rw [List.mem_singleton.1 hk, hj.caller]
      exact hj.number
  · exact fun k hk => ⟨List.mem_append_left _ (h.store.accepted k hk).1, (h.store.accepted k hk).2⟩
  · exact fun k hk => List.mem_append_left _ hk
  · intro k hk hc
    rcases List.mem_append.1 hk with hk | hk
    · exact hk
    · rw [List.mem_singleton.1 hk, hj.caller] at hc
      exact absurd hc.symm hu

theorem mem_pinned_push {i : Fin n} (k : Fin n) {x : Job Thread τ} (hx : x ∈ s.pinned k) :
    x ∈ Function.update s.pinned i (s.pinned i ++ [j]) k := by
  by_cases hk : k = i
  · subst hk
    rw [Function.update_self]
    exact List.mem_append_left _ hx
  · rw [Function.update_of_ne hk]
    exact hx

theorem Leaving.sendLocal (h : Leaving s t) (hj : Fresh s t j) (i : Fin n) : Leaving (s.sendLocal i j) t := by
  have hgrow : ∀ k, ∀ x ∈ s.pinned k, x ∈ (s.sendLocal i j).pinned k := fun k x => mem_pinned_push k
  refine h.frame rfl
    { h.store with places := ?_, nodup := ?_, old := ?_, accepted := ?_, pinned := ?_ } { h.gates with }
    fun u hu => { Frame.refl u s with sent := ?_, mine := ?_, pinned := hgrow }
  · show Multiset.ofList (s.sent ++ [j]) = Multiset.ofList s.pool.globalQueue +
      Bins.total (Function.update s.pool.localQueue i (s.pool.localQueue i ++ [j])) + Bins.total s.pool.buffer +
      Multiset.ofList (s.popped.map (·.2))
    rw [Bins.total_push, ← Multiset.coe_add, h.store.places, Sys.places, ← Multiset.singleton_add,
      Multiset.coe_singleton]
    abel
  · exact h.store.nodup.append (List.nodup_singleton j) (List.disjoint_singleton.2 hj.unsent)
  · intro k hk
    rcases List.mem_append.1 hk with hk | hk
    · exact h.store.old k hk
    · rw [List.mem_singleton.1 hk, hj.caller]
      exact hj.number
  · intro k hk
    obtain ⟨hs, hr⟩ := h.store.accepted k hk
    refine ⟨List.mem_append_left _ hs, fun l hl => ?_⟩
    rcases hr l hl with ⟨hn, hp⟩ | hp
    · exact .inl ⟨hn, hgrow _ _ hp⟩
    · exact .inr hp
  · intro k
    obtain ⟨done, hd, hsub⟩ := h.store.pinned k
    refine ⟨done, ?_, hsub⟩
    show Function.update s.pinned i _ k = done ++ Function.update s.pool.localQueue i _ k
    by_cases hk : k = i
    · subst hk
      rw [Function.update_self, Function.update_self, hd, List.append_assoc]
    · rw [Function.update_of_ne hk, Function.update_of_ne hk, hd]
  · exact fun k hk => List.mem_append_left _ hk
  · intro k hk hc
    rcases List.mem_append.1 hk with hk | hk
    · exact hk
    · rw [List.mem_singleton.1 hk, hj.caller] at hc
      exact absurd hc.symm hu

theorem Leaving.spill (h : Leaving s t) {i : Fin n} (hfull : localQueueCapacity ≤ (s.pool.localQueue i).length) :
    Leaving (s.spill i j) t := by
  refine h.frame rfl { h.store with accepted := ?_, spilled := ?_ } { h.gates with }
    fun u _ => { Frame.refl u s with spilled := fun p hp => List.mem_append_left _ hp }
  · intro k hk
    obtain ⟨hs, hr⟩ := h.store.accepted k hk
    refine ⟨hs, fun l hl => ?_⟩
    rcases hr l hl with hp | ⟨len, hp⟩
    · exact .inl hp
    · exact .inr ⟨len, List.mem_append_left _ hp⟩
  · intro p hp
    rcases List.mem_append.1 hp with hp | hp
    · exact h.store.spilled p hp
    · rw [List.mem_singleton.1 hp]
      exact hfull

theorem Leaving.pullOne (h : Leaving s t) {rest : List (Job Thread τ)} (hq : s.pool.globalQueue = j :: rest)
    (i : Fin n) : Leaving (s.pullOne i j rest) t := by
  refine h.frame rfl { h.store with places := ?_ } { h.gates with } fun u _ => { Frame.refl u s with }
  show Multiset.ofList s.sent = Multiset.ofList rest + Bins.total s.pool.localQueue +
    Bins.total (Function.update s.pool.buffer i (s.pool.buffer i ++ [j])) + Multiset.ofList (s.popped.map (·.2))
  rw [Bins.total_push, h.store.places, Sys.places, hq, ← Multiset.cons_coe, ← Multiset.singleton_add,
    ← Multiset.singleton_add]
  abel

theorem Leaving.leaveBuffer (h : Leaving s t) (i : Fin n) (polling : Bool) : Leaving (s.leaveBuffer i polling) t :=
  h.frame rfl { h.store with } { h.gates with } fun u _ => { Frame.refl u s with }

theorem poppedAt_push (s : Sys Thread n τ) (i k : Fin n) (j : Job Thread τ) :
    ((s.popped ++ [(i, j)]).filter (·.1 = k)).map (·.2) = s.poppedAt k ++ if i = k then [j] else [] := by
  rw [List.filter_append, List.map_append, Sys.poppedAt]
  by_cases hk : i = k
  · simp [hk]
  · simp [hk]

theorem Leaving.popBuffer (h : Leaving s t) {i : Fin n} {rest : List (Job Thread τ)}
    (hq : s.pool.buffer i = j :: rest) : Leaving (s.popBuffer i j rest) t := by
  refine h.frame rfl { h.store with places := ?_, pinned := fun k => ?_ } { h.gates with }
    fun u _ => { Frame.refl u s with }
  · show Multiset.ofList s.sent = Multiset.ofList s.pool.globalQueue + Bins.total s.pool.localQueue +
      Bins.total (Function.update s.pool.buffer i rest) + Multiset.ofList ((s.popped ++ [(i, j)]).map (·.2))
    rw [List.map_append, ← Multiset.coe_add, h.store.places, Sys.places, Bins.total_pop hq,
      ← Multiset.singleton_add]
    rw [List.map_singleton, Multiset.coe_singleton]
    abel
  · obtain ⟨done, hd, hsub⟩ := h.store.pinned k
    refine ⟨done, hd, ?_⟩
    show done.Sublist (((s.popped ++ [(i, j)]).filter (·.1 = k)).map (·.2))
    rw [poppedAt_push]
    exact hsub.trans (List.sublist_append_left _ _)

theorem Leaving.popLocal (h : Leaving s t) {i : Fin n} {rest : List (Job Thread τ)}
    (hq : s.pool.localQueue i = j :: rest) : Leaving (s.popLocal i j rest) t := by
  refine h.frame rfl { h.store with places := ?_, pinned := fun k => ?_ } { h.gates with }
    fun u _ => { Frame.refl u s with }
  · show Multiset.ofList s.sent = Multiset.ofList s.pool.globalQueue +
      Bins.total (Function.update s.pool.localQueue i rest) + Bins.total s.pool.buffer +
      Multiset.ofList ((s.popped ++ [(i, j)]).map (·.2))
    rw [List.map_append, ← Multiset.coe_add, h.store.places, Sys.places, Bins.total_pop hq,
      ← Multiset.singleton_add]
    rw [List.map_singleton, Multiset.coe_singleton]
    abel
  · obtain ⟨done, hd, hsub⟩ := h.store.pinned k
    show ∃ done, s.pinned k = done ++ Function.update s.pool.localQueue i rest k ∧
      done.Sublist (((s.popped ++ [(i, j)]).filter (·.1 = k)).map (·.2))
    rw [poppedAt_push]
    by_cases hk : i = k
    · subst hk
      rw [hq] at hd
      refine ⟨done ++ [j], ?_, ?_⟩
      · rw [Function.update_self, hd, List.append_assoc, List.singleton_append]
      · rw [if_pos rfl]
        exact hsub.append (.refl _)
    · refine ⟨done, ?_, hsub.trans (List.sublist_append_left _ _)⟩
      rw [Function.update_of_ne (Ne.symm hk), hd]

/-! ## The steps -/

variable [DecidableEq Thread]

/-- Thread `t` enters stage `p`. -/
theorem Leaving.goto (h : Leaving s t) {p : Stage Thread n τ} (hp : At s t p) : Sound (s.goto t p) := by
  refine ⟨⟨h.store.places, h.store.nodup, h.store.old, h.store.accepted, h.store.pinned, h.store.spilled⟩,
    ⟨h.gates.closes, h.gates.closed, h.gates.senders⟩, fun u => ?_⟩
  have hframe : Frame u s (s.goto t p) := { Frame.refl u s with }
  by_cases hu : u = t
  · subst hu
    show At _ u (Function.update s.stage u p u)
    rw [Function.update_self]
    exact hp.frame hframe
  · show At _ u (Function.update s.stage t p u)
    rw [Function.update_of_ne hu]
    exact (h.others u hu).frame hframe

/-- The job of a push call that starts. -/
theorem Sound.call (h : Sound s) (target : Option Nat) (x : τ) {start : Job Thread τ → Stage Thread n τ}
    (hat : ∀ (s' : Sys Thread n τ) (j : Job Thread τ), Fresh s' t j → j.target = target → At s' t (start j)) :
    Sound (s.call t target x start) := by
  have hframe : Leaving { s with pushes := Function.update s.pushes t (s.pushes t + 1) } t := by
    refine (h.leaving t).frame rfl { h.store with old := fun j hj => ?_ } { h.gates with }
      fun u hu => { Frame.refl u s with pushes := Function.update_of_ne hu _ _ }
    by_cases hc : j.caller = t
    · show j.number < Function.update s.pushes t (s.pushes t + 1) j.caller
      rw [hc, Function.update_self]
      exact Nat.lt_succ_of_lt (hc ▸ h.store.old j hj)
    · show j.number < Function.update s.pushes t (s.pushes t + 1) j.caller
      rw [Function.update_of_ne hc]
      exact h.store.old j hj
  refine hframe.goto (hat _ _ ⟨rfl, ?_, fun hm => ?_⟩ rfl)
  · show s.pushes t < Function.update s.pushes t (s.pushes t + 1) t
    rw [Function.update_self]
    exact Nat.lt_succ_self _
  · exact Nat.lt_irrefl _ (h.store.old _ hm)

theorem Sound.sendStep (h : Sound s) (hat : At s t (.globalSend j)) : Sound (s.sendStep t j) := by
  obtain ⟨hown, hj, hsp⟩ := hat
  rw [Sys.sendStep]
  split
  · rename_i hopen
    have hsent : j ∈ s.sent ++ [j] := List.mem_append_right _ List.mem_cons_self
    refine ((h.leaving t).sendGlobal hj).goto ⟨hown, fun _ => ⟨hsent, fun i hi => ?_, hopen⟩⟩
    exact .inr (hsp i hi)
  · exact (h.leaving t).goto ⟨hown, fun hr => by cases hr⟩

theorem finRange_index {i : Nat} {k : Fin n} (h : (List.finRange n)[i]? = some k) :
    ∃ hi : i < n, k = ⟨i, hi⟩ := by
  obtain ⟨hi, hk⟩ := List.getElem?_eq_some_iff.1 h
  rw [List.length_finRange] at hi
  rw [List.getElem_finRange] at hk
  exact ⟨hi, hk.symm⟩

theorem Sound.trySendStep (h : Sound s) {i : Nat} (hat : At s t (.localSend i j)) : Sound (s.trySendStep t i j) := by
  obtain ⟨hown, hj, htarget⟩ := hat
  rw [Sys.trySendStep]
  split
  · exact (h.leaving t).goto ⟨hown, fun hr => by cases hr⟩
  · rename_i hopen
    have hsenders := h.gates.senders.resolve_left (by simpa using hopen)
    split
    · exact (h.leaving t).goto ⟨hown, fun hr => by cases hr⟩
    · rename_i k hk
      rw [hsenders] at hk
      obtain ⟨hi, rfl⟩ := finRange_index hk
      split
      · have hsent : j ∈ s.sent ++ [j] := List.mem_append_right _ List.mem_cons_self
        refine ((h.leaving t).sendLocal hj _).goto ⟨hown, fun _ => ⟨hsent, ?_, ?_⟩⟩
        · intro l hl
          rw [htarget] at hl
          cases hl
          refine .inl ⟨hi, ?_⟩
          show j ∈ Function.update s.pinned _ _ _
          rw [Function.update_self]
          exact List.mem_append_right _ List.mem_cons_self
        · show s.pool.localSenders ≠ []
          simpa using hopen
      · rename_i hfull
        refine ((h.leaving t).spill (Nat.le_of_not_lt hfull)).goto ⟨hown, { hj with }, fun l hl => ?_⟩
        exact ⟨_, List.mem_append_right _ List.mem_cons_self⟩

theorem Sound.popStep (h : Sound s) (i : Fin n) : Sound (s.popStep t i) := by
  rw [Sys.popStep]
  split
  · exact (h.leaving t).goto trivial
  · rename_i j rest hq
    exact (((h.leaving t).popBuffer hq).leaveBuffer i false).goto trivial

theorem Sound.takeStep (h : Sound s) (i : Fin n) (draining : Bool) : Sound (s.takeStep t i draining) := by
  rw [Sys.takeStep]
  split
  · exact (h.leaving t).goto trivial
  · rename_i j rest hq
    exact (((h.leaving t).popBuffer hq).leaveBuffer i _).goto trivial

theorem Sound.pullStep (h : Sound s) (i : Fin n) (draining : Bool) (k : Nat) : Sound (s.pullStep t i draining k) := by
  cases k with
  | zero => exact (h.leaving t).goto trivial
  | succ k =>
    rw [Sys.pullStep]
    split
    · exact (h.leaving t).goto trivial
    · rename_i j rest hq
      exact ((h.leaving t).pullOne hq i).goto trivial

theorem Sound.recvStep (h : Sound s) (i : Fin n) : Sound (s.recvStep t i) := by
  rw [Sys.recvStep]
  split
  · exact (h.leaving t).goto trivial
  · rename_i j rest hq
    exact ((h.leaving t).popLocal hq).goto trivial

/-- A step that changes no field the invariant is about. -/
theorem Sound.pollerStep (h : Sound s) (i : Fin n) : Sound (s.pollerStep t i) := by
  have hcount : Leaving { s with pool := { s.pool with numPolling := s.pool.numPolling + 1 } } t :=
    (h.leaving t).frame rfl { h.store with } { h.gates with } fun u _ => { Frame.refl u s with }
  rw [Sys.pollerStep]
  split <;> exact hcount.goto trivial

theorem Sound.exitStep (h : Sound s) (i : Nat) (be le : Bool) : Sound (s.exitStep t i be le) := by
  rw [Sys.exitStep]
  split
  · have hr : Leaving { s with raised := s.raised ++ [i] } t :=
      (h.leaving t).frame rfl { h.store with } { h.gates with } fun u _ => { Frame.refl u s with }
    exact hr.goto trivial
  · exact (h.leaving t).goto trivial

theorem Sound.advance (h : Sound s) (hst : s.advance t = some s') : Sound s' := by
  have hat := h.at_ t
  have hl := h.leaving t
  rw [Sys.advance] at hst
  generalize s.stage t = p at hat hst
  cases p with
  | idle => cases hst
  | globalFlag j =>
    dsimp only at hst
    split at hst
    · obtain rfl := Option.some.inj hst
      exact (hl.answer fun hr => by cases hr).goto trivial
    · obtain rfl := Option.some.inj hst
      exact hl.goto hat
  | globalLock j =>
    dsimp only at hst
    split at hst
    · rename_i hfree
      obtain rfl := Option.some.inj hst
      exact (hl.lockGlobal (Option.isNone_iff_eq_none.1 hfree)).goto ⟨rfl, { hat.1 with }, hat.2⟩
    · cases hst
  | globalSend j =>
    obtain rfl := Option.some.inj hst
    exact h.sendStep hat
  | globalReturn j r =>
    obtain rfl := Option.some.inj hst
    exact ((hl.dropGlobal hat.1).answer fun hr => ⟨(hat.2 hr).1, (hat.2 hr).2.1⟩).goto trivial
  | localFlag i j =>
    dsimp only at hst
    split at hst
    · obtain rfl := Option.some.inj hst
      exact (hl.answer fun hr => by cases hr).goto trivial
    · obtain rfl := Option.some.inj hst
      exact hl.goto hat
  | localLock i j =>
    dsimp only at hst
    split at hst
    · rename_i hfree
      obtain rfl := Option.some.inj hst
      exact (hl.lockLocal (Option.isNone_iff_eq_none.1 hfree)).goto ⟨rfl, { hat.1 with }, hat.2⟩
    · cases hst
  | localSend i j =>
    obtain rfl := Option.some.inj hst
    exact h.trySendStep hat
  | localReturn j r =>
    obtain rfl := Option.some.inj hst
    exact ((hl.dropLocal hat.1).answer fun hr => ⟨(hat.2 hr).1, (hat.2 hr).2.1⟩).goto trivial
  | localFull j =>
    obtain rfl := Option.some.inj hst
    exact (hl.dropLocal hat.1).goto ⟨{ hat.2.1 with }, hat.2.2⟩
  | closeGlobal =>
    dsimp only at hst
    split at hst
    · rename_i hfree
      obtain rfl := Option.some.inj hst
      exact (hl.closeGlobal (Option.isNone_iff_eq_none.1 hfree)).goto rfl
    · cases hst
  | closeLocal =>
    dsimp only at hst
    split at hst
    · rename_i hfree
      obtain rfl := Option.some.inj hst
      exact (hl.closeLocal (Option.isNone_iff_eq_none.1 hfree)).goto ⟨hat, rfl⟩
    · cases hst
  | closeFlag =>
    obtain rfl := Option.some.inj hst
    exact (hl.closeFlag hat).goto trivial
  | bufferLock i =>
    dsimp only at hst
    split at hst
    · obtain rfl := Option.some.inj hst
      have hm : Leaving { s with bufferMutex := Function.update s.bufferMutex i (some t) } t :=
        hl.frame rfl { h.store with } { h.gates with } fun u _ => { Frame.refl u s with }
      exact hm.goto trivial
    · cases hst
  | bufferPop i =>
    obtain rfl := Option.some.inj hst
    exact h.popStep i
  | drainFlag i =>
    obtain rfl := Option.some.inj hst
    rw [Sys.drainStep]
    split <;> exact hl.goto trivial
  | pollerGate i =>
    obtain rfl := Option.some.inj hst
    exact h.pollerStep i
  | globalLen i draining =>
    obtain rfl := Option.some.inj hst
    rw [Sys.lenStep]
    split <;> exact hl.goto trivial
  | pull i draining k =>
    obtain rfl := Option.some.inj hst
    exact h.pullStep i draining k
  | bufferTake i draining =>
    obtain rfl := Option.some.inj hst
    exact h.takeStep i draining
  | bufferLeave i draining =>
    obtain rfl := Option.some.inj hst
    exact (hl.leaveBuffer i _).goto trivial
  | localRecv i =>
    obtain rfl := Option.some.inj hst
    exact h.recvStep i
  | exitFlag i =>
    obtain rfl := Option.some.inj hst
    split <;> exact hl.goto trivial
  | exitBuffer i =>
    dsimp only at hst
    split at hst
    · split at hst
      · obtain rfl := Option.some.inj hst
        exact hl.goto trivial
      · cases hst
    · obtain rfl := Option.some.inj hst
      exact hl.goto trivial
  | exitLocal i be =>
    obtain rfl := Option.some.inj hst
    exact hl.goto trivial
  | exitGlobal i be le =>
    obtain rfl := Option.some.inj hst
    exact h.exitStep i be le

theorem Sound.step (h : Sound s) {a : Action Thread τ} (hst : s.step a = some s') : Sound s' := by
  cases a with
  | pushGlobal t task =>
    dsimp only [Sys.step] at hst
    split at hst
    · cases task with
      | none => exact Option.some.inj hst ▸ h
      | some x =>
        obtain rfl := Option.some.inj hst
        exact h.call none x fun s' j hj ht => ⟨hj, fun i hi => by rw [ht] at hi; cases hi⟩
    · cases hst
  | pushLocal t index task =>
    dsimp only [Sys.step] at hst
    split at hst
    · cases task with
      | none => exact Option.some.inj hst ▸ h
      | some x =>
        obtain rfl := Option.some.inj hst
        exact h.call (some index) x fun s' j hj ht => ⟨hj, ht⟩
    · cases hst
  | close t =>
    rw [Sys.step] at hst
    split at hst
    · obtain rfl := Option.some.inj hst
      exact (h.leaving t).goto trivial
    · cases hst
  | popWork t index =>
    rw [Sys.step] at hst
    split at hst
    · obtain rfl := Option.some.inj hst
      split <;> exact (h.leaving t).goto trivial
    · cases hst
  | advance t => exact h.advance hst

theorem sound_of_reachable {ok : Sys Thread n τ → Action Thread τ → Prop}
    (h : (system Thread n τ).ReachableWhen ok s) : Sound s :=
  h.inv (fun _ h0 => h0 ▸ sound_new) fun _ _ _ hi _ hst => hi.step hst

end Multiloop.NativeWorkerPool
