import Multiloop.Pool.Dispatcher
import Multiloop.Pool.Drain

/-!
# Calls of the native pool

What one step of a `pop_work`, of a push or of a `close` does to the queues, and
how such a call ends: the native pool as the dispatchers and `submit` see it.
-/

namespace Multiloop.NativeWorkerPool

variable {Thread τ : Type} {n : Nat}

namespace Stage

/-- `pop_work` is on its way out without a task. -/
def late : Stage Thread n τ → Bool
  | .exitFlag _ | .exitBuffer _ | .exitLocal _ _ | .exitGlobal _ _ _ => true
  | _ => false

/-- `pop_work` has seen the pool closed on its way out. -/
def sawClosed : Stage Thread n τ → Bool
  | .exitBuffer _ | .exitLocal _ _ | .exitGlobal _ _ _ => true
  | _ => false

/-- `pop_work` has found its buffer empty, and has put nothing in since. -/
def foundEmpty : Stage Thread n τ → Bool
  | .drainFlag _ | .pollerGate _ | .globalLen _ _ | .bufferLeave _ _ | .localRecv _ => true
  | p => p.late

/-- The stages of `push_global`. -/
def inGlobal : Stage Thread n τ → Bool
  | .globalFlag _ | .globalLock _ | .globalSend _ | .globalReturn _ _ => true
  | _ => false

/-- The stages of `push_local` with this index. -/
def inLocal (index : Nat) : Stage Thread n τ → Bool
  | .localFlag i _ | .localLock i _ | .localSend i _ => i = index
  | .localReturn _ _ | .localFull _ => true
  | p => p.inGlobal

def inClose : Stage Thread n τ → Bool
  | .closeGlobal | .closeLocal | .closeFlag => true
  | _ => false

/-- The task is in the local queue, and the call about to return. -/
def sent : Stage Thread n τ → Bool
  | .localReturn _ (.ok _) => true
  | _ => false

theorem inLocal_of_inGlobal {p : Stage Thread n τ} (index : Nat) (h : p.inGlobal = true) : p.inLocal index = true := by
  cases p with
  | globalFlag | globalLock | globalSend | globalReturn => rfl
  | _ => cases h

theorem not_inClose {index : Nat} {p : Stage Thread n τ} (h : p.inLocal index = true) : ¬ p.inClose = true := by
  cases p with
  | closeGlobal | closeLocal | closeFlag => cases h
  | _ => nofun

end Stage

/-- What `pop_work(i)` knows in a stage. -/
structure Knows (p : Pool Thread n τ) (i : Fin n) (stage : Stage Thread n τ) : Prop where
  index : stage.popIndex = some i.val
  buffer : stage.foundEmpty = true → p.buffer i = []
  closed : stage.sawClosed = true → p.isClosed = true

/-- What a step of thread `u` leaves alone. -/
structure Spares (u : Thread) (s s' : Sys Thread n τ) : Prop where
  stage : ∀ v, v ≠ u → s'.stage v = s.stage v
  isClosed : s'.pool.isClosed = s.pool.isClosed

/-- How `pop_work(i)`, called by thread `u`, goes on. -/
inductive Goes (i : Fin n) (u : Thread) (s s' : Sys Thread n τ) : Prop
  | on (knows : Knows s'.pool i (s'.stage u)) (queue : s'.pool.localQueue i = s.pool.localQueue i)
    (looked : (s'.stage u).late = true → (s.stage u).late = true ∨ s.pool.localQueue i = [])
  | task (idle : s'.stage u = .idle) (popped : s.popped.length < s'.popped.length)
  | nothing (idle : s'.stage u = .idle) (popped : s'.popped = s.popped) (late : (s.stage u).late = true)
    (buffer : s'.pool.buffer i = []) (queue : s'.pool.localQueue i = s.pool.localQueue i)
    (raised : s.raised.length < s'.raised.length → s.pool.isClosed = true)

/-- One step of `pop_work(i)`, called by thread `u`. -/
structure Pops (i : Fin n) (u : Thread) (s s' : Sys Thread n τ) : Prop where
  spares : Spares u s s'
  queues : ∀ l, l ≠ i → s'.pool.localQueue l = s.pool.localQueue l
  buffers : ∀ l, l ≠ i → s'.pool.buffer l = s.pool.buffer l
  goes : Goes i u s s'

variable [DecidableEq Thread] {s s' : Sys Thread n τ} {u : Thread} {i : Fin n} {p : Stage Thread n τ}

theorem stage_goto (s : Sys Thread n τ) (u : Thread) (p : Stage Thread n τ) : (s.goto u p).stage u = p :=
  Function.update_self ..

theorem stage_goto_of_ne (hs : s'.stage = s.stage) {v : Thread} (hv : v ≠ u) : (s'.goto u p).stage v = s.stage v := by
  rw [← hs]
  exact Function.update_of_ne hv _ _

theorem spares_goto (hs : s'.stage = s.stage) (hc : s'.pool.isClosed = s.pool.isClosed) : Spares u s (s'.goto u p) where
  stage _ hv := stage_goto_of_ne hs hv
  isClosed := hc

/-- `pop_work` goes on to a stage, with the queues as they are. -/
theorem Pops.goto (hs : s'.stage = s.stage) (hc : s'.pool.isClosed = s.pool.isClosed)
    (hq : s'.pool.localQueue = s.pool.localQueue) (hb : ∀ l, l ≠ i → s'.pool.buffer l = s.pool.buffer l)
    (hk : Knows s'.pool i p) (hl : p.late = true → (s.stage u).late = true ∨ s.pool.localQueue i = []) :
    Pops i u s (s'.goto u p) where
  spares := spares_goto hs hc
  queues l _ := congrFun hq l
  buffers := hb
  goes := by
    refine .on ?_ (congrFun hq i) ?_
    · rw [stage_goto]
      exact hk
    · rw [stage_goto]
      exact hl

theorem Pops.return (hs : s'.stage = s.stage) (hc : s'.pool.isClosed = s.pool.isClosed)
    (hq : ∀ l, l ≠ i → s'.pool.localQueue l = s.pool.localQueue l)
    (hb : ∀ l, l ≠ i → s'.pool.buffer l = s.pool.buffer l) (hp : s.popped.length < s'.popped.length) :
    Pops i u s (s'.goto u .idle) where
  spares := spares_goto hs hc
  queues := hq
  buffers := hb
  goes := .task (stage_goto ..) hp

/-- `pop_work` returns without a task. -/
theorem Pops.leave (hs : s'.stage = s.stage) (hpool : s'.pool = s.pool) (hp : s'.popped = s.popped)
    (hlate : (s.stage u).late = true) (hb : s.pool.buffer i = [])
    (hr : s.raised.length < s'.raised.length → s.pool.isClosed = true) : Pops i u s (s'.goto u .idle) where
  spares := spares_goto hs (congrArg Pool.isClosed hpool)
  queues l _ := congrFun (congrArg Pool.localQueue hpool) l
  buffers l _ := congrFun (congrArg Pool.buffer hpool) l
  goes := .nothing (stage_goto ..) hp hlate ((congrFun (congrArg Pool.buffer hpool) i).trans hb)
    (congrFun (congrArg Pool.localQueue hpool) i) hr

theorem length_lt_append_singleton {α : Type} (l : List α) (a : α) : l.length < (l ++ [a]).length := by
  rw [List.length_append]
  exact Nat.lt_succ_self _

/-- The front of the buffer is returned. -/
theorem Pops.popBuffer {j : Job Thread τ} {rest : List (Job Thread τ)} (polling : Bool) :
    Pops i u s (((s.popBuffer i j rest).leaveBuffer i polling).goto u .idle) :=
  .return rfl rfl (fun _ _ => rfl) (fun _ hl => Function.update_of_ne hl _ _) (length_lt_append_singleton ..)

theorem unset {b : Bool} {q : Prop} (hb : b = false) (h : b = true) : q := by
  rw [hb] at h
  cases h

/-- One step of `pop_work(i)`. -/
theorem pops (hk : Knows s.pool i (s.stage u)) (hst : s.advance u = some s') : Pops i u s s' := by
  obtain ⟨hindex, hbuffer, hclosed⟩ := hk
  rw [Sys.advance] at hst
  cases hp : s.stage u with
  | bufferLock l =>
    rw [hp] at hst hindex
    obtain rfl : l = i := Fin.ext (Option.some.inj hindex)
    dsimp only at hst
    split at hst
    · obtain rfl := Option.some.inj hst
      exact .goto rfl rfl rfl (fun _ _ => rfl) ⟨rfl, unset rfl, unset rfl⟩ (unset rfl)
    · cases hst
  | bufferPop l =>
    rw [hp] at hst hindex
    obtain rfl : l = i := Fin.ext (Option.some.inj hindex)
    obtain rfl := Option.some.inj hst
    rw [Sys.popStep]
    split
    · rename_i hempty
      exact .goto rfl rfl rfl (fun _ _ => rfl) ⟨rfl, fun _ => hempty, unset rfl⟩ (unset rfl)
    · exact .popBuffer false
  | drainFlag l =>
    rw [hp] at hst hindex hbuffer
    obtain rfl : l = i := Fin.ext (Option.some.inj hindex)
    obtain rfl := Option.some.inj hst
    rw [Sys.drainStep]
    split
    · exact .goto rfl rfl rfl (fun _ _ => rfl) ⟨rfl, hbuffer, unset rfl⟩ (unset rfl)
    · exact .goto rfl rfl rfl (fun _ _ => rfl) ⟨rfl, hbuffer, unset rfl⟩ (unset rfl)
  | pollerGate l =>
    rw [hp] at hst hindex hbuffer
    obtain rfl : l = i := Fin.ext (Option.some.inj hindex)
    obtain rfl := Option.some.inj hst
    rw [Sys.pollerStep]
    split
    · exact .goto rfl rfl rfl (fun _ _ => rfl) ⟨rfl, hbuffer, unset rfl⟩ (unset rfl)
    · exact .goto rfl rfl rfl (fun _ _ => rfl) ⟨rfl, hbuffer, unset rfl⟩ (unset rfl)
  | globalLen l draining =>
    rw [hp] at hst hindex hbuffer
    obtain rfl : l = i := Fin.ext (Option.some.inj hindex)
    obtain rfl := Option.some.inj hst
    rw [Sys.lenStep]
    split
    · exact .goto rfl rfl rfl (fun _ _ => rfl) ⟨rfl, unset rfl, unset rfl⟩ (unset rfl)
    · exact .goto rfl rfl rfl (fun _ _ => rfl) ⟨rfl, hbuffer, unset rfl⟩ (unset rfl)
  | pull l draining k =>
    rw [hp] at hst hindex
    obtain rfl : l = i := Fin.ext (Option.some.inj hindex)
    obtain rfl := Option.some.inj hst
    cases k with
    | zero => exact .goto rfl rfl rfl (fun _ _ => rfl) ⟨rfl, unset rfl, unset rfl⟩ (unset rfl)
    | succ k =>
      rw [Sys.pullStep]
      split
      · exact .goto rfl rfl rfl (fun _ _ => rfl) ⟨rfl, unset rfl, unset rfl⟩ (unset rfl)
      · exact .goto rfl rfl rfl (fun m hm => Function.update_of_ne hm _ _) ⟨rfl, unset rfl, unset rfl⟩ (unset rfl)
  | bufferTake l draining =>
    rw [hp] at hst hindex
    obtain rfl : l = i := Fin.ext (Option.some.inj hindex)
    obtain rfl := Option.some.inj hst
    rw [Sys.takeStep]
    split
    · rename_i hempty
      exact .goto rfl rfl rfl (fun _ _ => rfl) ⟨rfl, fun _ => hempty, unset rfl⟩ (unset rfl)
    · exact .popBuffer _
  | bufferLeave l draining =>
    rw [hp] at hst hindex hbuffer
    obtain rfl : l = i := Fin.ext (Option.some.inj hindex)
    obtain rfl := Option.some.inj hst
    exact .goto rfl rfl rfl (fun _ _ => rfl) ⟨rfl, hbuffer, unset rfl⟩ (unset rfl)
  | localRecv l =>
    rw [hp] at hst hindex hbuffer
    obtain rfl : l = i := Fin.ext (Option.some.inj hindex)
    obtain rfl := Option.some.inj hst
    rw [Sys.recvStep]
    split
    · rename_i hempty
      exact .goto rfl rfl rfl (fun _ _ => rfl) ⟨rfl, hbuffer, unset rfl⟩ fun _ => .inr hempty
    · exact .return rfl rfl (fun m hm => Function.update_of_ne hm _ _) (fun _ _ => rfl) (length_lt_append_singleton ..)
  | exitFlag l =>
    have hlate : (s.stage u).late = true := by rw [hp]; rfl
    rw [hp] at hst hindex hbuffer
    obtain rfl : l = i := Option.some.inj hindex
    obtain rfl := Option.some.inj hst
    split
    · rename_i hc
      exact .goto rfl rfl rfl (fun _ _ => rfl) ⟨rfl, hbuffer, fun _ => hc⟩ fun _ => .inl hlate
    · exact .leave rfl rfl rfl hlate (hbuffer rfl) fun hlt => absurd hlt (Nat.lt_irrefl _)
  | exitBuffer l =>
    have hlate : (s.stage u).late = true := by rw [hp]; rfl
    rw [hp] at hst hindex hbuffer hclosed
    obtain rfl : l = i := Option.some.inj hindex
    dsimp only at hst
    split at hst
    · split at hst
      · obtain rfl := Option.some.inj hst
        exact .goto rfl rfl rfl (fun _ _ => rfl) ⟨rfl, hbuffer, hclosed⟩ fun _ => .inl hlate
      · cases hst
    · obtain rfl := Option.some.inj hst
      exact .goto rfl rfl rfl (fun _ _ => rfl) ⟨rfl, hbuffer, hclosed⟩ fun _ => .inl hlate
  | exitLocal l be =>
    have hlate : (s.stage u).late = true := by rw [hp]; rfl
    rw [hp] at hst hindex hbuffer hclosed
    obtain rfl : l = i := Option.some.inj hindex
    obtain rfl := Option.some.inj hst
    exact .goto rfl rfl rfl (fun _ _ => rfl) ⟨rfl, hbuffer, hclosed⟩ fun _ => .inl hlate
  | exitGlobal l be le =>
    have hlate : (s.stage u).late = true := by rw [hp]; rfl
    rw [hp] at hst hindex hbuffer hclosed
    obtain rfl : l = i := Option.some.inj hindex
    obtain rfl := Option.some.inj hst
    rw [Sys.exitStep]
    split
    · exact .leave rfl rfl rfl hlate (hbuffer rfl) fun _ => hclosed rfl
    · exact .leave rfl rfl rfl hlate (hbuffer rfl) fun hlt => absurd hlt (Nat.lt_irrefl _)
  | _ =>
    rw [hp] at hindex
    cases hindex

/-! ## Pushes and `close` -/

/-- One step of a push or of a `close`, by thread `u`. -/
structure Puts (u : Thread) (s s' : Sys Thread n τ) : Prop where
  stage : ∀ v, v ≠ u → s'.stage v = s.stage v
  buffer : s'.pool.buffer = s.pool.buffer
  isClosed : s'.pool.isClosed = s.pool.isClosed ∨ (s.stage u).inClose = true ∧ s'.pool.isClosed = true
  /-- A local queue gains a task from a `push_local` of its index only. -/
  queue : ∀ l, s'.pool.localQueue l = s.pool.localQueue l ∨
    (s'.stage u).sent = true ∧ ∃ j, s.stage u = .localSend l.val j
  /-- The task of a push is not forgotten before the call returns. -/
  returned : (s.stage u).sent = true → s'.stage u = .idle ∧ s.accepted.length < s'.accepted.length

theorem Puts.goto (hs : s'.stage = s.stage) (hb : s'.pool.buffer = s.pool.buffer)
    (hc : s'.pool.isClosed = s.pool.isClosed ∨ (s.stage u).inClose = true ∧ s'.pool.isClosed = true)
    (hq : s'.pool.localQueue = s.pool.localQueue) (hsent : (s.stage u).sent = false) : Puts u s (s'.goto u p) where
  stage _ hv := stage_goto_of_ne hs hv
  buffer := hb
  isClosed := hc
  queue l := .inl (congrFun hq l)
  returned h := by
    rw [hsent] at h
    cases h

theorem puts_trySend {j : Job Thread τ} {index : Nat} (hg : Gates s) (hp : s.stage u = .localSend index j) :
    Puts u s (s.trySendStep u index j) := by
  have hsent : (s.stage u).sent = false := by rw [hp]; rfl
  rw [Sys.trySendStep]
  split
  · exact .goto rfl rfl (.inl rfl) rfl hsent
  · rename_i hopen
    split
    · exact .goto rfl rfl (.inl rfl) rfl hsent
    · rename_i k hk
      rw [hg.senders.resolve_left (by simpa using hopen)] at hk
      obtain ⟨hi, rfl⟩ := finRange_index hk
      split
      · refine ⟨fun v hv => Function.update_of_ne hv _ _, rfl, .inl rfl, fun l => ?_, fun h => ?_⟩
        · by_cases hl : l = ⟨index, hi⟩
          · subst hl
            exact .inr ⟨by rw [stage_goto]; rfl, j, hp⟩
          · exact .inl (Function.update_of_ne hl _ _)
        · rw [hsent] at h
          cases h
      · exact .goto rfl rfl (.inl rfl) rfl hsent

/-- The answer to a push. -/
theorem Puts.answer {j : Job Thread τ} {r : Except PushError Unit} (hs : s'.stage = s.stage) (hpool : s'.pool = s.pool)
    (ha : s'.accepted = s.accepted) (hsent : (s.stage u).sent = true → ∃ x, r = .ok x) :
    Puts u s ((s'.answer j r).goto u .idle) where
  stage _ hv := stage_goto_of_ne (by cases r <;> exact hs) hv
  buffer := by
    rw [← hpool]
    cases r <;> rfl
  isClosed := .inl (by rw [← hpool]; cases r <;> rfl)
  queue _ := .inl (by rw [← hpool]; cases r <;> rfl)
  returned h := by
    obtain ⟨x, rfl⟩ := hsent h
    refine ⟨stage_goto .., ?_⟩
    show s.accepted.length < (s'.accepted ++ [j]).length
    rw [ha]
    exact length_lt_append_singleton ..

/-- One step of a `push_global`. -/
theorem puts_global (hp : (s.stage u).inGlobal = true) (hst : s.advance u = some s') :
    Puts u s s' ∧ (s'.stage u = .idle ∨ (s'.stage u).inGlobal = true) := by
  rw [Sys.advance] at hst
  cases hstage : s.stage u with
  | globalFlag j =>
    have hsent : (s.stage u).sent = false := by rw [hstage]; rfl
    rw [hstage] at hst
    dsimp only at hst
    split at hst
    · obtain rfl := Option.some.inj hst
      refine ⟨.answer rfl rfl rfl fun h => ?_, .inl (stage_goto ..)⟩
      rw [hsent] at h
      cases h
    · obtain rfl := Option.some.inj hst
      exact ⟨.goto rfl rfl (.inl rfl) rfl hsent, .inr (by rw [stage_goto]; rfl)⟩
  | globalLock j =>
    have hsent : (s.stage u).sent = false := by rw [hstage]; rfl
    rw [hstage] at hst
    dsimp only at hst
    split at hst
    · obtain rfl := Option.some.inj hst
      exact ⟨.goto rfl rfl (.inl rfl) rfl hsent, .inr (by rw [stage_goto]; rfl)⟩
    · cases hst
  | globalSend j =>
    have hsent : (s.stage u).sent = false := by rw [hstage]; rfl
    rw [hstage] at hst
    obtain rfl := Option.some.inj hst
    rw [Sys.sendStep]
    split
    · exact ⟨.goto rfl rfl (.inl rfl) rfl hsent, .inr (by rw [stage_goto]; rfl)⟩
    · exact ⟨.goto rfl rfl (.inl rfl) rfl hsent, .inr (by rw [stage_goto]; rfl)⟩
  | globalReturn j r =>
    have hsent : (s.stage u).sent = false := by rw [hstage]; rfl
    rw [hstage] at hst
    obtain rfl := Option.some.inj hst
    refine ⟨.answer rfl rfl rfl fun h => ?_, .inl (stage_goto ..)⟩
    rw [hsent] at h
    cases h
  | _ =>
    rw [hstage] at hp
    cases hp

/-- One step of a `push_local`. -/
theorem puts_local {index : Nat} (hg : Gates s) (hp : (s.stage u).inLocal index = true) (hst : s.advance u = some s') :
    Puts u s s' ∧ (s'.stage u = .idle ∨ (s'.stage u).inLocal index = true) := by
  cases hstage : s.stage u with
  | localFlag i j =>
    have hsent : (s.stage u).sent = false := by rw [hstage]; rfl
    rw [Sys.advance, hstage] at hst
    rw [hstage] at hp
    dsimp only at hst
    split at hst
    · obtain rfl := Option.some.inj hst
      refine ⟨.answer rfl rfl rfl fun h => ?_, .inl (stage_goto ..)⟩
      rw [hsent] at h
      cases h
    · obtain rfl := Option.some.inj hst
      exact ⟨.goto rfl rfl (.inl rfl) rfl hsent, .inr (by rw [stage_goto]; exact hp)⟩
  | localLock i j =>
    have hsent : (s.stage u).sent = false := by rw [hstage]; rfl
    rw [Sys.advance, hstage] at hst
    rw [hstage] at hp
    dsimp only at hst
    split at hst
    · obtain rfl := Option.some.inj hst
      exact ⟨.goto rfl rfl (.inl rfl) rfl hsent, .inr (by rw [stage_goto]; exact hp)⟩
    · cases hst
  | localSend i j =>
    rw [Sys.advance, hstage] at hst
    rw [hstage] at hp
    obtain rfl := Option.some.inj hst
    refine ⟨puts_trySend hg hstage, .inr ?_⟩
    rw [Sys.trySendStep]
    split
    · rw [stage_goto]
      rfl
    · split
      · rw [stage_goto]
        rfl
      · split
        · rw [stage_goto]
          rfl
        · rw [stage_goto]
          rfl
  | localReturn j r =>
    rw [Sys.advance, hstage] at hst
    obtain rfl := Option.some.inj hst
    refine ⟨.answer rfl rfl rfl fun h => ?_, .inl (stage_goto ..)⟩
    rw [hstage] at h
    cases r with
    | ok x => exact ⟨x, rfl⟩
    | error e => cases h
  | localFull j =>
    have hsent : (s.stage u).sent = false := by rw [hstage]; rfl
    rw [Sys.advance, hstage] at hst
    obtain rfl := Option.some.inj hst
    exact ⟨.goto rfl rfl (.inl rfl) rfl hsent, .inr (by rw [stage_goto]; rfl)⟩
  | globalFlag j =>
    obtain ⟨hputs, hstage'⟩ := puts_global (by rw [hstage]; rfl) hst
    exact ⟨hputs, hstage'.imp_right (Stage.inLocal_of_inGlobal _)⟩
  | globalLock j =>
    obtain ⟨hputs, hstage'⟩ := puts_global (by rw [hstage]; rfl) hst
    exact ⟨hputs, hstage'.imp_right (Stage.inLocal_of_inGlobal _)⟩
  | globalSend j =>
    obtain ⟨hputs, hstage'⟩ := puts_global (by rw [hstage]; rfl) hst
    exact ⟨hputs, hstage'.imp_right (Stage.inLocal_of_inGlobal _)⟩
  | globalReturn j r =>
    obtain ⟨hputs, hstage'⟩ := puts_global (by rw [hstage]; rfl) hst
    exact ⟨hputs, hstage'.imp_right (Stage.inLocal_of_inGlobal _)⟩
  | _ =>
    rw [hstage] at hp
    cases hp

/-- One step of `close`. -/
theorem puts_close (hp : (s.stage u).inClose = true) (hst : s.advance u = some s') :
    Puts u s s' ∧ (s'.stage u = .idle ∨ (s'.stage u).inClose = true) := by
  rw [Sys.advance] at hst
  cases hstage : s.stage u with
  | closeGlobal =>
    have hsent : (s.stage u).sent = false := by rw [hstage]; rfl
    rw [hstage] at hst
    dsimp only at hst
    split at hst
    · obtain rfl := Option.some.inj hst
      exact ⟨.goto rfl rfl (.inl rfl) rfl hsent, .inr (by rw [stage_goto]; rfl)⟩
    · cases hst
  | closeLocal =>
    have hsent : (s.stage u).sent = false := by rw [hstage]; rfl
    rw [hstage] at hst
    dsimp only at hst
    split at hst
    · obtain rfl := Option.some.inj hst
      exact ⟨.goto rfl rfl (.inl rfl) rfl hsent, .inr (by rw [stage_goto]; rfl)⟩
    · cases hst
  | closeFlag =>
    have hsent : (s.stage u).sent = false := by rw [hstage]; rfl
    rw [hstage] at hst
    obtain rfl := Option.some.inj hst
    exact ⟨.goto rfl rfl (.inr ⟨hp, rfl⟩) rfl hsent, .inl (stage_goto ..)⟩
  | _ =>
    rw [hstage] at hp
    cases hp

/-- A call of thread `u` begins. -/
structure Begins (u : Thread) (s s' : Sys Thread n τ) : Prop where
  stage : ∀ v, v ≠ u → s'.stage v = s.stage v
  pool : s'.pool = s.pool

theorem begins_pushGlobal {x : τ} (hst : s.step (.pushGlobal u (some x)) = some s') :
    Begins u s s' ∧ (s'.stage u).inGlobal = true := by
  simp only [Sys.step] at hst
  split at hst
  · obtain rfl := Option.some.inj hst
    refine ⟨⟨fun v hv => Function.update_of_ne hv _ _, rfl⟩, ?_⟩
    rw [Sys.call, stage_goto]
    rfl
  · cases hst

theorem begins_pushLocal {x : τ} {index : Nat} (hst : s.step (.pushLocal u index (some x)) = some s') :
    Begins u s s' ∧ (s'.stage u).inLocal index = true ∧ (s'.stage u).sent = false := by
  simp only [Sys.step] at hst
  split at hst
  · obtain rfl := Option.some.inj hst
    refine ⟨⟨fun v hv => Function.update_of_ne hv _ _, rfl⟩, ?_⟩
    rw [Sys.call, stage_goto]
    exact ⟨decide_eq_true rfl, rfl⟩
  · cases hst

theorem begins_close (hst : s.step (.close u) = some s') : Begins u s s' ∧ (s'.stage u).inClose = true := by
  simp only [Sys.step] at hst
  split at hst
  · obtain rfl := Option.some.inj hst
    refine ⟨⟨fun v hv => Function.update_of_ne hv _ _, rfl⟩, ?_⟩
    rw [stage_goto]
    rfl
  · cases hst

end Multiloop.NativeWorkerPool
