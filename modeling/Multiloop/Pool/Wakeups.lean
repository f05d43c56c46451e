import Multiloop.Pool.Calls

/-!
# No pinned work is slept on

While the pool runs, a task in the local queue of a worker, or in its buffer, is
seen by its dispatcher without any time limit: the dispatcher looks at both
before it waits, or it is woken, or the `submit` that put the task there is about
to wake it. The event is cleared before the second look, so that a task that
this look misses comes with a wakeup that is not cleared.

The tasks of the global queue have no such guarantee: a dispatcher is turned
away from that queue while enough others poll it, in both of its looks.
-/

namespace Multiloop.Dispatcher

open NativeWorkerPool (Stage Knows Pops Puts Begins)

variable {Thread τ : Type} {n : Nat}

/-- The dispatcher looks at its local queue before it waits; `late` tells that
its `pop_work` has done so already. -/
def Pc.looks (late : Bool) : Pc → Bool
  | .again => !late
  | .joining | .waiting | .ended | .closed => false
  | _ => true

/-- The dispatcher is about to call `pop_work`, and its buffer need not be empty. -/
def Pc.mayHold : Pc → Bool
  | .drain _ | .yielding => true
  | _ => false

/-- The call has put a task into the local queue of worker `i`, and will wake it. -/
def Call.Sends (i : Fin n) (stage : Stage (Party Thread n) n τ) : Call n → Prop
  | .pushing target => target = some i.val ∧ stage.sent = true
  | .notify target => target = some i.val
  | .schedule l own => l = i ∧ own = true
  | _ => False

/-- Where a thread is in the native pool. -/
def Call.Fits (running : Bool) (stage : Stage (Party Thread n) n τ) : Call n → Prop
  | .pushing none => stage.inGlobal = true
  | .pushing (some target) => stage.inLocal target = true
  | .closing => stage.inClose = true ∧ running = false
  | _ => stage = .idle

namespace Sys

variable (s : Sys Thread n τ)

/-- The dispatcher looks at its local queue before it waits. -/
def looks (i : Fin n) : Bool := (s.pc i).looks (s.native.stage (.worker i)).late

def Sends (i : Fin n) (t : Thread) : Prop := (s.calls t).Sends i (s.native.stage (.caller t))

/-- The event of a worker is set, or will be. -/
def Woken (i : Fin n) : Prop := s.isSet i = true ∨ true ∈ s.scheduled i ∨ ∃ t, s.Sends i t

structure Worker (i : Fin n) : Prop where
  idle : s.inPop i = false → s.native.stage (.worker i) = .idle
  knows : s.inPop i = true → Knows s.native.pool i (s.native.stage (.worker i))
  down : s.pc i = .ended ∨ s.pc i = .closed → s.running = false
  born : s.ownEvent i = false → s.pc i = .unborn ∨ s.running = false
  waits : i ∈ s.idleWorkers ↔ s.pc i = .waiting ∨ s.pc i = .leaving

/-- What holds of a worker while the pool runs. -/
structure Awake (i : Fin n) : Prop where
  buffer : s.inPop i = false → s.native.pool.buffer i ≠ [] → (s.pc i).mayHold = true
  queue : s.native.pool.localQueue i ≠ [] → s.looks i = true ∨ s.Woken i

structure Sound [DecidableEq Thread] : Prop where
  native : NativeWorkerPool.Sound s.native
  loops : s.running = true → s.loops = List.finRange n ∧ s.native.pool.isClosed = false
  index : 0 < n → s.index < n
  worker : ∀ i, s.Worker i
  caller : ∀ t, (s.calls t).Fits s.running (s.native.stage (.caller t))
  awake : s.running = true → ∀ i, s.Awake i

/-- What a step of worker `i` leaves alone. -/
structure Keeps (i : Fin n) (s s' : Sys Thread n τ) : Prop where
  running : s'.running = s.running
  loops : s'.loops = s.loops
  index : s'.index = s.index
  calls : s'.calls = s.calls
  isClosed : s'.native.pool.isClosed = s.native.pool.isClosed
  callers : ∀ t, s'.native.stage (.caller t) = s.native.stage (.caller t)
  workers : ∀ l, l ≠ i → s'.native.stage (.worker l) = s.native.stage (.worker l)
  queue : ∀ l, l ≠ i → s'.native.pool.localQueue l = s.native.pool.localQueue l
  buffer : ∀ l, l ≠ i → s'.native.pool.buffer l = s.native.pool.buffer l
  pc : ∀ l, l ≠ i → s'.pc l = s.pc l
  isSet : ∀ l, l ≠ i → s'.isSet l = s.isSet l
  scheduled : ∀ l, l ≠ i → s'.scheduled l = s.scheduled l
  ownEvent : ∀ l, l ≠ i → s'.ownEvent l = s.ownEvent l
  idleWorkers : ∀ l, l ≠ i → (l ∈ s'.idleWorkers ↔ l ∈ s.idleWorkers)

/-- What a step of thread `t` leaves alone. -/
structure Spares (t : Thread) (s s' : Sys Thread n τ) : Prop where
  calls : ∀ u, u ≠ t → s'.calls u = s.calls u
  callers : ∀ u, u ≠ t → s'.native.stage (.caller u) = s.native.stage (.caller u)
  workers : ∀ i, s'.native.stage (.worker i) = s.native.stage (.worker i)
  buffer : s'.native.pool.buffer = s.native.pool.buffer
  pc : s'.pc = s.pc
  isSet : s'.isSet = s.isSet
  scheduled : ∀ i, true ∈ s.scheduled i → true ∈ s'.scheduled i
  ownEvent : s'.ownEvent = s.ownEvent
  idleWorkers : s'.idleWorkers = s.idleWorkers

variable {s} {s' : Sys Thread n τ} {i l : Fin n} {t : Thread}

/-! ## A step of a worker -/

theorem Keeps.inPop (h : Keeps i s s') (hl : l ≠ i) : s'.inPop l = s.inPop l := by
  unfold Sys.inPop
  rw [h.pc l hl]

theorem Keeps.sends (h : Keeps i s s') (t : Thread) : s'.Sends l t ↔ s.Sends l t := by
  unfold Sys.Sends
  rw [h.calls, h.callers]

theorem Keeps.worker (h : Keeps i s s') (hl : l ≠ i) (hw : s.Worker l) : s'.Worker l where
  idle := by
    rw [h.inPop hl, h.workers l hl]
    exact hw.idle
  knows := by
    rw [h.inPop hl, h.workers l hl]
    intro hin
    obtain ⟨hindex, hbuffer, hclosed⟩ := hw.knows hin
    refine ⟨hindex, ?_, ?_⟩
    · rw [h.buffer l hl]
      exact hbuffer
    · rw [h.isClosed]
      exact hclosed
  down := by
    rw [h.pc l hl, h.running]
    exact hw.down
  born := by
    rw [h.ownEvent l hl, h.pc l hl, h.running]
    exact hw.born
  waits := by
    rw [h.idleWorkers l hl, h.pc l hl]
    exact hw.waits

theorem Keeps.awake (h : Keeps i s s') (hl : l ≠ i) (hw : s.Awake l) : s'.Awake l where
  buffer := by
    rw [h.inPop hl, h.buffer l hl, h.pc l hl]
    exact hw.buffer
  queue := by
    unfold Sys.looks Sys.Woken
    rw [h.queue l hl, h.pc l hl, h.workers l hl, h.isSet l hl, h.scheduled l hl]
    simp only [h.sends]
    exact hw.queue

variable [DecidableEq Thread]

theorem Sound.work (h : s.Sound) (hk : Keeps i s s') (hnative : NativeWorkerPool.Sound s'.native) (hw : s'.Worker i)
    (ha : s.running = true → s'.Awake i) : s'.Sound where
  native := hnative
  loops := by
    rw [hk.running, hk.loops, hk.isClosed]
    exact h.loops
  index := by
    rw [hk.index]
    exact h.index
  worker l := by
    by_cases hl : l = i
    · exact hl ▸ hw
    · exact hk.worker hl (h.worker l)
  caller t := by
    rw [hk.calls, hk.running, hk.callers]
    exact h.caller t
  awake hrun l := by
    rw [hk.running] at hrun
    by_cases hl : l = i
    · exact hl ▸ ha hrun
    · exact hk.awake hl (h.awake hrun l)

omit [DecidableEq Thread] in
theorem keeps_goto {p : Pc} {isSet : Fin n → Bool} {ownEvent : Fin n → Bool} {idleWorkers : List (Fin n)}
    (hs : ∀ l, l ≠ i → isSet l = s.isSet l) (ho : ∀ l, l ≠ i → ownEvent l = s.ownEvent l)
    (hi : ∀ l, l ≠ i → (l ∈ idleWorkers ↔ l ∈ s.idleWorkers)) :
    Keeps i s ({ s with isSet, ownEvent, idleWorkers }.goto i p) where
  running := rfl
  loops := rfl
  index := rfl
  calls := rfl
  isClosed := rfl
  callers _ := rfl
  workers _ _ := rfl
  queue _ _ := rfl
  buffer _ _ := rfl
  pc _ hl := Function.update_of_ne hl _ _
  isSet := hs
  scheduled _ _ := rfl
  ownEvent := ho
  idleWorkers := hi

omit [DecidableEq Thread] in
theorem goto_pc (s : Sys Thread n τ) (i : Fin n) (p : Pc) : (s.goto i p).pc i = p := Function.update_self ..

omit [DecidableEq Thread] in
theorem goto_inPop (s : Sys Thread n τ) {i : Fin n} {p : Pc} (hp : ∀ b, p ≠ .popping b) (ha : p ≠ .again) :
    (s.goto i p).inPop i = false := by
  unfold Sys.inPop
  rw [goto_pc]
  cases p with
  | popping b => exact absurd rfl (hp b)
  | again => exact absurd rfl ha
  | _ => rfl

/-- The dispatcher goes on outside of `pop_work`. -/
theorem Sound.move (h : s.Sound) {p : Pc} {isSet : Fin n → Bool} {ownEvent : Fin n → Bool} {idleWorkers : List (Fin n)}
    (hs : ∀ l, l ≠ i → isSet l = s.isSet l) (ho : ∀ l, l ≠ i → ownEvent l = s.ownEvent l)
    (hi : ∀ l, l ≠ i → (l ∈ idleWorkers ↔ l ∈ s.idleWorkers)) (hin : s.inPop i = false) (hp : ∀ b, p ≠ .popping b)
    (ha : p ≠ .again) (hdown : p = .ended ∨ p = .closed → s.running = false)
    (hborn : ownEvent i = false → p = .unborn ∨ s.running = false)
    (hwaits : i ∈ idleWorkers ↔ p = .waiting ∨ p = .leaving)
    (hbuffer : s.running = true → s.native.pool.buffer i ≠ [] → p.mayHold = true)
    (hqueue : s.running = true → s.native.pool.localQueue i ≠ [] →
      p.looks false = true ∨ isSet i = true ∨ true ∈ s.scheduled i ∨ ∃ t, s.Sends i t) :
    ({ s with isSet, ownEvent, idleWorkers }.goto i p).Sound := by
  have hpop := goto_inPop { s with isSet, ownEvent, idleWorkers } (i := i) hp ha
  have hidle := (h.worker i).idle hin
  refine h.work (keeps_goto hs ho hi) h.native ⟨fun _ => hidle, fun hin' => ?_, ?_, ?_, ?_⟩
    fun hrun => ⟨fun _ hb => ?_, fun hq => ?_⟩
  · rw [hpop] at hin'
    cases hin'
  · rw [goto_pc]
    exact hdown
  · rw [goto_pc]
    exact hborn
  · rw [goto_pc]
    exact hwaits
  · rw [goto_pc]
    exact hbuffer hrun hb
  · refine (hqueue hrun hq).imp (fun hlooks => ?_) id
    unfold Sys.looks
    rw [goto_pc]
    show p.looks (s.native.stage (.worker i)).late = true
    rw [hidle]
    exact hlooks

/-- The same, if nothing but the place of the dispatcher changes. -/
theorem Sound.goto (h : s.Sound) {p : Pc} (hin : s.inPop i = false) (hp : ∀ b, p ≠ .popping b) (ha : p ≠ .again)
    (hdown : p = .ended ∨ p = .closed → s.running = false)
    (hborn : s.ownEvent i = false → p = .unborn ∨ s.running = false)
    (hwaits : i ∈ s.idleWorkers ↔ p = .waiting ∨ p = .leaving)
    (hbuffer : s.running = true → s.native.pool.buffer i ≠ [] → p.mayHold = true)
    (hqueue : s.running = true → s.native.pool.localQueue i ≠ [] → p.looks false = true ∨ s.Woken i) :
    (s.goto i p).Sound :=
  h.move (fun _ _ => rfl) (fun _ _ => rfl) (fun _ _ => .rfl) hin hp ha hdown hborn hwaits hbuffer hqueue

/-- The loop of a worker sets an event. -/
theorem Sound.callback (h : s.Sound) (own : Bool) :
    ({ s with
      scheduled := Function.update s.scheduled i ((s.scheduled i).erase own)
      isSet := if own then Function.update s.isSet i true else s.isSet } : Sys Thread n τ).Sound := by
  have hw := h.worker i
  refine h.work (i := i) ⟨rfl, rfl, rfl, rfl, rfl, fun _ => rfl, fun _ _ => rfl, fun _ _ => rfl, fun _ _ => rfl,
    fun _ _ => rfl, fun l hl => ?_, fun l hl => Function.update_of_ne hl _ _, fun _ _ => rfl, fun _ _ => .rfl⟩ h.native
    ⟨hw.idle, hw.knows, hw.down, hw.born, hw.waits⟩ fun hrun => ⟨(h.awake hrun i).buffer, fun hq => ?_⟩
  · cases own with
    | true => exact Function.update_of_ne hl _ _
    | false => rfl
  · refine ((h.awake hrun i).queue hq).imp id fun hwoken => ?_
    unfold Sys.Woken
    dsimp only
    cases own with
    | true => exact .inl (Function.update_self ..)
    | false =>
      refine hwoken.imp id (Or.imp_left fun hscheduled => ?_)
      rw [Function.update_self]
      exact (List.mem_erase_of_ne (by decide)).2 hscheduled

omit [DecidableEq Thread] in
theorem inPop_of_pc {p : Pc} (hpc : s.pc i = p) (hp : ∀ b, p ≠ .popping b) (ha : p ≠ .again) : s.inPop i = false := by
  unfold Sys.inPop
  rw [hpc]
  cases p with
  | popping b => exact absurd rfl (hp b)
  | again => exact absurd rfl ha
  | _ => rfl

/-- What is known of a worker that is at work, outside of `pop_work`. -/
theorem Sound.outside (h : s.Sound) {p : Pc} (hpc : s.pc i = p) (hp : p ≠ .unborn) (hw : p ≠ .waiting)
    (hl : p ≠ .leaving) : (s.ownEvent i = false → s.running = false) ∧ i ∉ s.idleWorkers := by
  refine ⟨fun ho => ((h.worker i).born ho).resolve_left fun hu => hp (hpc.symm.trans hu), fun hm => ?_⟩
  rcases (h.worker i).waits.1 hm with hpc' | hpc'
  · exact hw (hpc.symm.trans hpc')
  · exact hl (hpc.symm.trans hpc')

/-- A dispatcher that is at work goes to a place from which it looks again. -/
theorem Sound.look (h : s.Sound) {p q : Pc} (hpc : s.pc i = p) (hp : p ≠ .unborn) (hw : p ≠ .waiting)
    (hl : p ≠ .leaving) (hpop : ∀ b, p ≠ .popping b) (hagain : p ≠ .again) (hqpop : ∀ b, q ≠ .popping b)
    (hqagain : q ≠ .again) (hqw : q ≠ .waiting) (hql : q ≠ .leaving) (hlooks : q.looks false = true)
    (hhold : p.mayHold = true → q.mayHold = true) : (s.goto i q).Sound := by
  obtain ⟨hborn, hidle⟩ := h.outside hpc hp hw hl
  have hin := inPop_of_pc hpc hpop hagain
  refine h.goto hin hqpop hqagain ?_ (fun ho => .inr (hborn ho)) ?_ (fun hrun hb => ?_) fun _ _ => .inl hlooks
  · rintro (rfl | rfl)
    · cases hlooks
    · cases hlooks
  · exact ⟨fun hm => absurd hm hidle, fun h => h.elim (absurd · hqw) (absurd · hql)⟩
  · exact hhold (hpc ▸ (h.awake hrun i).buffer hin hb)

/-! ## `pop_work` -/

/-- A call of `pop_work` begins: the dispatcher may have cleared its event. -/
theorem Sound.popWork (h : s.Sound) {p q : Pc} {isSet : Fin n → Bool} (hs : ∀ l, l ≠ i → isSet l = s.isSet l)
    (hpc : s.pc i = p) (hp : p ≠ .unborn) (hw : p ≠ .waiting) (hl : p ≠ .leaving)
    (hq : (∃ b, q = .popping b) ∨ q = .again)
    (hst : ({ s with isSet } : Sys Thread n τ).popWork i q = some s') : s'.Sound := by
  obtain ⟨hborn, hidle⟩ := h.outside hpc hp hw hl
  have hcaller : ∀ t : Thread, Party.caller t ≠ Party.worker i := by
    intro t heq
    cases heq
  simp only [Sys.popWork, Option.map_eq_some_iff] at hst
  obtain ⟨native, hnative, rfl⟩ := hst
  have hsound := h.native.step hnative
  simp only [NativeWorkerPool.Sys.step] at hnative
  split at hnative
  · obtain rfl := Option.some.inj hnative
    have hstage : (if h : i.val < n then Stage.bufferLock ⟨i.val, h⟩ else .exitFlag i.val) =
        (.bufferLock i : Stage (Party Thread n) n τ) := dif_pos i.isLt
    rw [hstage] at hsound ⊢
    have hin' : (({ s with isSet, native := s.native.goto (.worker i) (.bufferLock i) } : Sys Thread n τ).goto i q).inPop
        i = true := by
      unfold Sys.inPop
      rw [goto_pc]
      rcases hq with ⟨b, rfl⟩ | rfl
      · rfl
      · rfl
    refine h.work (i := i) ⟨rfl, rfl, rfl, rfl, rfl, fun _ => NativeWorkerPool.stage_goto_of_ne rfl (hcaller _),
      fun l hl => NativeWorkerPool.stage_goto_of_ne rfl fun heq => hl (Party.worker.inj heq), fun _ _ => rfl,
      fun _ _ => rfl, fun l hl => Function.update_of_ne hl _ _, hs, fun _ _ => rfl, fun _ _ => rfl, fun _ _ => .rfl⟩
      hsound ⟨fun hin => ?_, fun _ => ?_, ?_, fun ho => .inr (hborn ho), ?_⟩ fun _ => ⟨fun hin => ?_, fun _ => .inl ?_⟩
    · rw [hin'] at hin
      cases hin
    · show Knows _ i ((s.native.goto (.worker i) (.bufferLock i)).stage (.worker i))
      rw [NativeWorkerPool.stage_goto]
      exact ⟨rfl, NativeWorkerPool.unset rfl, NativeWorkerPool.unset rfl⟩
    · rw [goto_pc]
      rcases hq with ⟨b, rfl⟩ | rfl
      · exact fun h => h.elim Pc.noConfusion Pc.noConfusion
      · exact fun h => h.elim Pc.noConfusion Pc.noConfusion
    · rw [goto_pc]
      refine ⟨fun hm => absurd hm hidle, fun h => ?_⟩
      rcases hq with ⟨b, rfl⟩ | rfl
      · rcases h with h | h
        · cases h
        · cases h
      · rcases h with h | h
        · cases h
        · cases h
    · rw [hin'] at hin
      cases hin
    · unfold Sys.looks
      rw [goto_pc]
      show q.looks ((s.native.goto (.worker i) (.bufferLock i)).stage (.worker i)).late = true
      rw [NativeWorkerPool.stage_goto]
      rcases hq with ⟨b, rfl⟩ | rfl
      · rfl
      · rfl
  · cases hnative

omit [DecidableEq Thread] in
/-- The native pool makes a step of worker `i`; the dispatcher goes to `p`. -/
theorem keeps_native [DecidableEq (Party Thread n)] {native : NativeWorkerPool.Sys (Party Thread n) n τ} {p : Pc}
    (h : Pops i (.worker i) s.native native) : Keeps i s ({ s with native }.goto i p) where
  running := rfl
  loops := rfl
  index := rfl
  calls := rfl
  isClosed := h.spares.isClosed
  callers _ := h.spares.stage _ nofun
  workers _ hl := h.spares.stage _ fun heq => hl (Party.worker.inj heq)
  queue := h.queues
  buffer := h.buffers
  pc _ hl := Function.update_of_ne hl _ _
  isSet _ _ := rfl
  scheduled _ _ := rfl
  ownEvent _ _ := rfl
  idleWorkers _ _ := .rfl

omit [DecidableEq Thread] in
theorem goto_same (s : Sys Thread n τ) (i : Fin n) : s.goto i (s.pc i) = s := by
  unfold Sys.goto
  rw [Function.update_eq_self]

omit [DecidableEq Thread] in
theorem pc_of_inPop (hin : s.inPop i = true) : (∃ b, s.pc i = .popping b) ∨ s.pc i = .again := by
  unfold Sys.inPop at hin
  split at hin
  · exact .inl ⟨_, ‹_›⟩
  · exact .inr ‹_›
  · cases hin

/-- `pop_work` has returned, and the dispatcher goes on. -/
theorem Sound.returns (h : s.Sound) {native : NativeWorkerPool.Sys (Party Thread n) n τ} {q : Pc}
    (hpops : Pops i (.worker i) s.native native) (hnative : NativeWorkerPool.Sound native)
    (hidle : native.stage (.worker i) = .idle) (hin : s.inPop i = true) (hqpop : ∀ b, q ≠ .popping b)
    (hqagain : q ≠ .again) (hqw : q ≠ .waiting) (hql : q ≠ .leaving) (hdown : q = .ended ∨ q = .closed → s.running = false)
    (hbuffer : s.running = true → native.pool.buffer i ≠ [] → q.mayHold = true)
    (hqueue : s.running = true → native.pool.localQueue i ≠ [] → q.looks false = true ∨ s.Woken i) :
    ({ s with native }.goto i q).Sound := by
  have hkeeps := keeps_native (p := q) hpops
  have hborn : s.ownEvent i = false → s.running = false := fun ho =>
    ((h.worker i).born ho).resolve_left fun hpc => by
      rcases pc_of_inPop hin with ⟨b, hpc'⟩ | hpc'
      · exact Pc.noConfusion (hpc.symm.trans hpc')
      · exact Pc.noConfusion (hpc.symm.trans hpc')
  have hnotIdle : i ∉ s.idleWorkers := fun hm => by
    rcases pc_of_inPop hin with ⟨b, hpc⟩ | hpc
    · rcases (h.worker i).waits.1 hm with hpc' | hpc'
      · exact Pc.noConfusion (hpc.symm.trans hpc')
      · exact Pc.noConfusion (hpc.symm.trans hpc')
    · rcases (h.worker i).waits.1 hm with hpc' | hpc'
      · exact Pc.noConfusion (hpc.symm.trans hpc')
      · exact Pc.noConfusion (hpc.symm.trans hpc')
  have hout := goto_inPop { s with native } (i := i) hqpop hqagain
  refine h.work hkeeps hnative ⟨fun _ => hidle, fun hin' => ?_, ?_, fun ho => .inr (hborn ho), ?_⟩
    fun hrun => ⟨fun _ hb => ?_, fun hq => ?_⟩
  · rw [hout] at hin'
    cases hin'
  · rw [goto_pc]
    exact hdown
  · rw [goto_pc]
    exact ⟨fun hm => absurd hm hnotIdle, fun h => h.elim (absurd · hqw) (absurd · hql)⟩
  · rw [goto_pc]
    exact hbuffer hrun hb
  · refine (hqueue hrun hq).imp (fun hlooks => ?_) fun hwoken => ?_
    · unfold Sys.looks
      rw [goto_pc]
      show q.looks (native.stage (.worker i)).late = true
      rw [hidle]
      exact hlooks
    · exact hwoken.imp id (Or.imp_right fun ⟨t, ht⟩ => ⟨t, (hkeeps.sends t).2 ht⟩)

theorem Sound.pop (h : s.Sound) (hin : s.inPop i = true) (hst : s.pop i = some s') : s'.Sound := by
  simp only [Sys.pop, Option.map_eq_some_iff] at hst
  obtain ⟨native, hnative, rfl⟩ := hst
  have hsound := h.native.step hnative
  have hpops := NativeWorkerPool.pops ((h.worker i).knows hin) hnative
  rcases hpops.goes with ⟨hknows, hqueue, hlooked⟩ | ⟨hidle, hpopped⟩ |
    ⟨hidle, hpopped, hlate, hbuffer, hqueue, hraised⟩
  · have hbusy : native.isIdle (.worker i) = false := by
      have hindex := hknows.index
      unfold NativeWorkerPool.Sys.isIdle
      split
      · rename_i hidle
        rw [hidle] at hindex
        cases hindex
      · rfl
    rw [hbusy]
    show ({ s with native } : Sys Thread n τ).Sound
    have hkeeps := keeps_native (p := s.pc i) hpops
    have hsame : ({ s with native } : Sys Thread n τ).goto i (s.pc i) = { s with native } :=
      goto_same { s with native } i
    rw [hsame] at hkeeps
    have hw := h.worker i
    refine h.work hkeeps hsound ⟨fun hout => ?_, fun _ => hknows, hw.down, hw.born, hw.waits⟩
      fun hrun => ⟨fun hout => ?_, fun hq => ?_⟩
    · rw [show ({ s with native } : Sys Thread n τ).inPop i = s.inPop i from rfl, hin] at hout
      cases hout
    · rw [show ({ s with native } : Sys Thread n τ).inPop i = s.inPop i from rfl, hin] at hout
      cases hout
    · have hq' : s.native.pool.localQueue i ≠ [] := fun hnil => hq (hqueue.trans hnil)
      refine ((h.awake hrun i).queue hq').imp (fun hlooks => ?_) fun hwoken =>
        hwoken.imp id (Or.imp_right fun ⟨t, ht⟩ => ⟨t, (hkeeps.sends t).2 ht⟩)
      unfold Sys.looks at hlooks ⊢
      rcases pc_of_inPop hin with ⟨b, hpc⟩ | hpc
      · show (s.pc i).looks _ = true
        rw [hpc]
        rfl
      · rw [hpc] at hlooks
        show (s.pc i).looks (native.stage (.worker i)).late = true
        rw [hpc]
        cases hlate : (native.stage (.worker i)).late with
        | false => rfl
        | true =>
          -- This step was the look at the local queue, which is not empty.
          have hlate' := (hlooked hlate).resolve_right hq'
          rw [hlate'] at hlooks
          cases hlooks
  · have hreturned : native.isIdle (.worker i) = true := by
      unfold NativeWorkerPool.Sys.isIdle
      rw [hidle]
    rw [hreturned]
    show ({ s with native }.goto i (s.popped native (s.pc i))).Sound
    rcases pc_of_inPop hin with ⟨b, hpc⟩ | hpc
    · have hq : s.popped native (s.pc i) = .yielding := by
        rw [hpc]
        exact if_pos hpopped
      rw [hq]
      exact h.returns hpops hsound hidle hin nofun nofun nofun nofun nofun (fun _ _ => rfl) fun _ _ => .inl rfl
    · have hq : s.popped native (s.pc i) = .drain false := by
        rw [hpc]
        exact if_pos hpopped
      rw [hq]
      exact h.returns hpops hsound hidle hin nofun nofun nofun nofun nofun (fun _ _ => rfl) fun _ _ => .inl rfl
  · have hreturned : native.isIdle (.worker i) = true := by
      unfold NativeWorkerPool.Sys.isIdle
      rw [hidle]
    rw [hreturned]
    show ({ s with native }.goto i (s.popped native (s.pc i))).Sound
    have hsame : ¬ s.native.popped.length < native.popped.length := by
      rw [hpopped]
      exact Nat.lt_irrefl _
    rcases pc_of_inPop hin with ⟨b, hpc⟩ | hpc
    · by_cases hgrew : s.native.raised.length < native.raised.length
      · have hq : s.popped native (s.pc i) = .ended := by
          rw [hpc]
          exact (if_neg hsame).trans (if_pos hgrew)
        have hdown : s.running = false := by
          refine Bool.eq_false_iff.2 fun hrun => ?_
          have hopen := (h.loops hrun).2
          rw [hraised hgrew] at hopen
          cases hopen
        rw [hq]
        exact h.returns hpops hsound hidle hin nofun nofun nofun nofun (fun _ => hdown)
          (fun _ hb => absurd hbuffer hb) fun hrun => by rw [hdown] at hrun; cases hrun
      · have hq : s.popped native (s.pc i) = .checkRunning b := by
          rw [hpc]
          exact (if_neg hsame).trans (if_neg hgrew)
        rw [hq]
        exact h.returns hpops hsound hidle hin nofun nofun nofun nofun nofun (fun _ hb => absurd hbuffer hb)
          fun _ _ => .inl rfl
    · have hq : s.popped native (s.pc i) = .joining := by
        rw [hpc]
        exact if_neg hsame
      rw [hq]
      refine h.returns hpops hsound hidle hin nofun nofun nofun nofun nofun (fun _ hb => absurd hbuffer hb)
        fun hrun hq => .inr ?_
      refine ((h.awake hrun i).queue fun hnil => hq (hqueue.trans hnil)).resolve_left fun hlooks => ?_
      unfold Sys.looks at hlooks
      rw [hpc, hlate] at hlooks
      cases hlooks

/-! ## `submit` and `close` -/

omit [DecidableEq Thread] in
theorem Spares.worker (hk : Spares t s s') (hclosed : s.native.pool.isClosed = true → s'.native.pool.isClosed = true)
    (hrun : s'.running = true → s.running = true) (hw : s.Worker i) : s'.Worker i := by
  have hin : s'.inPop i = s.inPop i := by
    unfold Sys.inPop
    rw [hk.pc]
  have hdown : s.running = false → s'.running = false := fun hoff =>
    Bool.eq_false_iff.2 fun hon => Bool.eq_false_iff.1 hoff (hrun hon)
  refine ⟨?_, ?_, ?_, ?_, ?_⟩
  · rw [hin, hk.workers]
    exact hw.idle
  · rw [hin, hk.workers]
    intro h
    obtain ⟨hindex, hbuffer, hsaw⟩ := hw.knows h
    refine ⟨hindex, ?_, fun hs => hclosed (hsaw hs)⟩
    rw [hk.buffer]
    exact hbuffer
  · rw [hk.pc]
    exact fun h => hdown (hw.down h)
  · rw [hk.ownEvent, hk.pc]
    exact fun h => (hw.born h).imp id hdown
  · rw [hk.idleWorkers, hk.pc]
    exact hw.waits

omit [DecidableEq Thread] in
theorem Spares.awake (hk : Spares t s s') (hw : s.Awake i)
    (hqueue : s'.native.pool.localQueue i ≠ [] → s.native.pool.localQueue i ≠ [] ∨ s'.Sends i t)
    (hsends : s.Sends i t → s'.Sends i t ∨ true ∈ s'.scheduled i ∨ s.pc i = .unborn) : s'.Awake i where
  buffer := by
    unfold Sys.inPop
    rw [hk.pc, hk.buffer]
    exact hw.buffer
  queue hq := by
    unfold Sys.looks
    rw [hk.pc, hk.workers]
    rcases hqueue hq with hq | hs
    · rcases hw.queue hq with hlooks | hset | hscheduled | ⟨u, hu⟩
      · exact .inl hlooks
      · exact .inr (.inl (hk.isSet ▸ hset))
      · exact .inr (.inr (.inl (hk.scheduled i hscheduled)))
      · by_cases hut : u = t
        · subst hut
          rcases hsends hu with hs | hs | hunborn
          · exact .inr (.inr (.inr ⟨u, hs⟩))
          · exact .inr (.inr (.inl hs))
          · rw [hunborn]
            exact .inl rfl
        · refine .inr (.inr (.inr ⟨u, ?_⟩))
          unfold Sys.Sends
          rw [hk.calls u hut, hk.callers u hut]
          exact hu
    · exact .inr (.inr (.inr ⟨t, hs⟩))

omit [DecidableEq Thread] in
theorem fits_down {c : Call n} {stage : Stage (Party Thread n) n τ} {running running' : Bool}
    (hrun : running' = true → running = true) (h : c.Fits running stage) : c.Fits running' stage := by
  cases c with
  | closing => exact ⟨h.1, Bool.eq_false_iff.2 fun hon => Bool.eq_false_iff.1 h.2 (hrun hon)⟩
  | pushing target => cases target <;> exact h
  | _ => exact h

theorem Sound.talk (h : s.Sound) (hk : Spares t s s') (hnative : NativeWorkerPool.Sound s'.native)
    (hloops : s'.running = true → s'.loops = s.loops ∧ s'.native.pool.isClosed = s.native.pool.isClosed)
    (hclosed : s.native.pool.isClosed = true → s'.native.pool.isClosed = true) (hindex : 0 < n → s'.index < n)
    (hrun : s'.running = true → s.running = true) (hfits : (s'.calls t).Fits s'.running (s'.native.stage (.caller t)))
    (hqueue : ∀ i, s'.native.pool.localQueue i ≠ [] → s.native.pool.localQueue i ≠ [] ∨ s'.Sends i t)
    (hsends : s'.running = true → ∀ i, s.Sends i t → s'.Sends i t ∨ true ∈ s'.scheduled i ∨ s.pc i = .unborn) :
    s'.Sound where
  native := hnative
  loops hon := by
    obtain ⟨hl, hc⟩ := hloops hon
    rw [hl, hc]
    exact h.loops (hrun hon)
  index := hindex
  worker i := hk.worker hclosed hrun (h.worker i)
  caller u := by
    by_cases hu : u = t
    · exact hu ▸ hfits
    · rw [hk.calls u hu, hk.callers u hu]
      exact fits_down hrun (h.caller u)
  awake hon i := hk.awake (h.awake (hrun hon) i) (hqueue i) (hsends hon i)

theorem spares_call (s : Sys Thread n τ) (t : Thread) (c : Call n) : Spares t s (s.call t c) where
  calls _ hu := Function.update_of_ne hu _ _
  callers _ _ := rfl
  workers _ := rfl
  buffer := rfl
  pc := rfl
  isSet := rfl
  scheduled _ := id
  ownEvent := rfl
  idleWorkers := rfl

theorem call_self (s : Sys Thread n τ) (t : Thread) (c : Call n) : (s.call t c).calls t = c := Function.update_self ..

/-- A thread that is not in the native pool goes on. -/
theorem Sound.call (h : s.Sound) {c : Call n} (hidle : s.native.stage (.caller t) = .idle)
    (hfits : c.Fits s.running (.idle : Stage (Party Thread n) n τ))
    (hsends : s.running = true → ∀ i, s.Sends i t → (s.call t c).Sends i t ∨ true ∈ s.scheduled i ∨ s.pc i = .unborn) :
    (s.call t c).Sound := by
  refine h.talk (spares_call s t c) h.native (fun _ => ⟨rfl, rfl⟩) id h.index id ?_ (fun _ => .inl) hsends
  rw [call_self]
  show c.Fits s.running (s.native.stage (.caller t))
  rw [hidle]
  exact hfits

omit [DecidableEq Thread] in
theorem not_sends {c : Call n} (hc : s.calls t = c) (hno : ∀ stage : Stage (Party Thread n) n τ, ¬ c.Sends i stage) :
    ¬ s.Sends i t := by
  unfold Sys.Sends
  rw [hc]
  exact hno _

/-- A call of the native pool begins. -/
theorem Sound.enter (h : s.Sound) {native : NativeWorkerPool.Sys (Party Thread n) n τ} {c : Call n} {running : Bool}
    {loops : List (Fin n)} (hbegins : Begins (.caller t) s.native native) (hnative : NativeWorkerPool.Sound native)
    (hrun : running = true → s.running = true ∧ loops = s.loops) (hfits : c.Fits running (native.stage (.caller t)))
    (hno : ∀ i, ¬ s.Sends i t) : ({ s with running, loops, native }.call t c).Sound := by
  refine h.talk (t := t) ⟨fun u hu => Function.update_of_ne hu _ _, fun u hu => hbegins.stage _ fun heq =>
    hu (Party.caller.inj heq), fun _ => hbegins.stage _ nofun, congrArg _ hbegins.pool, rfl, rfl, fun _ => id, rfl, rfl⟩
    hnative (fun hon => ⟨(hrun hon).2, congrArg _ hbegins.pool⟩) (fun hc => ?_) h.index (fun hon => (hrun hon).1) ?_
    (fun i hq => .inl ?_) fun _ i hs => absurd hs (hno i)
  · show native.pool.isClosed = true
    rw [hbegins.pool]
    exact hc
  · rw [call_self]
    exact hfits
  · have hq' : native.pool.localQueue i ≠ [] := hq
    rw [hbegins.pool] at hq'
    exact hq'

/-- The call of the native pool that thread `t` is in goes on, and may return. -/
theorem Sound.onNative (h : s.Sound) {after : NativeWorkerPool.Sys (Party Thread n) n τ → Call n}
    (hputs : ∀ native, s.native.advance (.caller t) = some native →
      Puts (.caller t) s.native native ∧
        (native.stage (.caller t) = .idle ∨ (s.calls t).Fits s.running (native.stage (.caller t))))
    (hafter : ∀ native, (after native).Fits s.running (.idle : Stage (Party Thread n) n τ))
    (hclose : (s.native.stage (.caller t)).inClose = true → s.running = false)
    (hreturn : ∀ i native, s.Sends i t → s.native.accepted.length < native.accepted.length →
      (after native).Sends i (.idle : Stage (Party Thread n) n τ))
    (hsend : ∀ (i : Fin n) j, s.native.stage (.caller t) = .localSend i.val j → s.calls t = .pushing (some i.val))
    (hcalls : ∀ i, s.Sends i t → (s.native.stage (.caller t)).sent = true)
    (hst : s.onNative t after = some s') : s'.Sound := by
  simp only [Sys.onNative, Option.map_eq_some_iff] at hst
  obtain ⟨native, hnative, rfl⟩ := hst
  have hsound := h.native.step hnative
  obtain ⟨hputs, hstage⟩ := hputs native hnative
  have hstages (u : Thread) (hu : u ≠ t) : native.stage (.caller u) = s.native.stage (.caller u) :=
    hputs.stage _ fun heq => hu (Party.caller.inj heq)
  have hloops (hon : s.running = true) : native.pool.isClosed = s.native.pool.isClosed :=
    hputs.isClosed.resolve_right fun ⟨hc, _⟩ => by
      rw [hclose hc] at hon
      cases hon
  have hclosed (hc : s.native.pool.isClosed = true) : native.pool.isClosed = true :=
    hputs.isClosed.elim (fun heq => heq.trans hc) And.right
  have hqueue (i : Fin n) (hq : native.pool.localQueue i ≠ []) : s.native.pool.localQueue i ≠ [] ∨
      (native.stage (.caller t)).sent = true ∧ s.calls t = .pushing (some i.val) := by
    rcases hputs.queue i with heq | ⟨hs, j, hj⟩
    · exact .inl (heq ▸ hq)
    · exact .inr ⟨hs, hsend i j hj⟩
  split
  · rename_i hreturned
    have hidle : native.stage (.caller t) = .idle := by
      unfold NativeWorkerPool.Sys.isIdle at hreturned
      split at hreturned
      · assumption
      · cases hreturned
    refine h.talk (t := t) ⟨fun u hu => Function.update_of_ne hu _ _, hstages, fun _ => hputs.stage _ nofun,
      hputs.buffer, rfl, rfl, fun _ => id, rfl, rfl⟩ hsound (fun hon => ⟨rfl, hloops hon⟩) hclosed h.index id ?_
      (fun i hq => .inl ?_) fun _ i hs => .inl ?_
    · rw [call_self]
      show (after native).Fits s.running (native.stage (.caller t))
      rw [hidle]
      exact hafter native
    · refine (hqueue i hq).resolve_right fun ⟨hsent, _⟩ => ?_
      rw [hidle] at hsent
      cases hsent
    · unfold Sys.Sends
      rw [call_self]
      show (after native).Sends i (native.stage (.caller t))
      rw [hidle]
      exact hreturn i native hs (hputs.returned (hcalls i hs)).2
  · rename_i hbusy
    have hbusy' : native.stage (.caller t) ≠ .idle := fun hidle => hbusy (by
      unfold NativeWorkerPool.Sys.isIdle
      rw [hidle])
    refine h.talk (t := t) ⟨fun _ _ => rfl, hstages, fun _ => hputs.stage _ nofun, hputs.buffer, rfl, rfl, fun _ => id,
      rfl, rfl⟩ hsound (fun hon => ⟨rfl, hloops hon⟩) hclosed h.index id (hstage.resolve_left hbusy')
      (fun i hq => (hqueue i hq).imp id fun ⟨hsent, hc⟩ => ?_) fun _ i hs => ?_
    · exact absurd (hputs.returned (hcalls i hs)).1 hbusy'
    · show (s.calls t).Sends i (native.stage (.caller t))
      rw [hc]
      exact ⟨rfl, hsent⟩

theorem Sound.atRest (h : s.Sound) (hidle : s.isIdle t = true) :
    s.calls t = .idle ∧ s.native.stage (.caller t) = .idle := by
  have hcalls : s.calls t = .idle := by
    unfold Sys.isIdle at hidle
    split at hidle
    · assumption
    · cases hidle
  have hfits := h.caller t
  rw [hcalls] at hfits
  exact ⟨hcalls, hfits⟩

theorem Sound.notify (h : s.Sound) {target : Option Nat} {choice : Nat} (hcalls : s.calls t = .notify target)
    (hst : s.notify t choice target = some s') : s'.Sound := by
  have hidle : s.native.stage (.caller t) = .idle := by
    have hfits := h.caller t
    rw [hcalls] at hfits
    exact hfits
  have hborn {i : Fin n} (hon : s.running = true) (hown : s.ownEvent i = false) : s.pc i = .unborn :=
    ((h.worker i).born hown).resolve_right fun hoff => by
      rw [hon] at hoff
      cases hoff
  have hsends {i : Fin n} (hs : s.Sends i t) : target = some i.val := by
    unfold Sys.Sends at hs
    rw [hcalls] at hs
    exact hs
  cases target with
  | some index =>
    simp only [Sys.notify] at hst
    split at hst
    · rename_i l hl
      split at hst
      · rename_i hon
        obtain rfl := Option.some.inj hst
        refine h.call hidle rfl fun _ i hs => ?_
        rw [(h.loops hon).1] at hl
        obtain ⟨hi, rfl⟩ := NativeWorkerPool.finRange_index hl
        obtain rfl : (⟨index, hi⟩ : Fin n) = i := Fin.ext (Option.some.inj (hsends hs))
        cases hown : s.ownEvent ⟨index, hi⟩ with
        | false => exact .inr (.inr (hborn hon hown))
        | true =>
          refine .inl ?_
          unfold Sys.Sends
          rw [call_self]
          exact ⟨rfl, rfl⟩
      · rename_i hoff
        obtain rfl := Option.some.inj hst
        exact h.call hidle rfl fun hon => absurd hon hoff
    · rename_i hnone
      obtain rfl := Option.some.inj hst
      refine h.call hidle rfl fun hon i hs => ?_
      -- Every worker has a loop.
      rw [(h.loops hon).1, List.getElem?_eq_none_iff, List.length_finRange] at hnone
      exact absurd i.isLt (Nat.not_lt.2 (Option.some.inj (hsends hs) ▸ hnone))
  | none =>
    have hno (i : Fin n) : ¬ s.Sends i t := fun hs => by cases hsends hs
    simp only [Sys.notify] at hst
    split at hst
    · obtain rfl := Option.some.inj hst
      exact h.call hidle rfl fun _ i hs => absurd hs (hno i)
    · rename_i hopen
      simp only [Option.bind_eq_some_iff, Option.map_eq_some_iff] at hst
      obtain ⟨⟨index, next⟩, hchoose, l, -, rfl⟩ := hst
      have hindex : 0 < n → next < n := by
        unfold Sys.choose at hchoose
        split at hchoose
        · cases hchoose
          intro _
          have hon : s.running = true := by simpa using (not_or.1 hopen).2
          rw [(h.loops hon).1, List.length_finRange]
          exact Nat.mod_lt _ ‹_›
        · obtain ⟨m, -, heq⟩ := Option.map_eq_some_iff.1 hchoose
          cases heq
          exact h.index
      refine h.talk (t := t) ⟨fun u hu => Function.update_of_ne hu _ _, fun _ _ => rfl, fun _ => rfl, rfl, rfl, rfl,
        fun _ => id, rfl, rfl⟩ h.native (fun _ => ⟨rfl, rfl⟩) id hindex id ?_ (fun _ => .inl)
        fun _ i hs => absurd hs (hno i)
      rw [call_self]
      exact hidle

theorem Sound.advance (h : s.Sound) {task : τ} {choice : Nat} (hst : s.advance t task choice = some s') : s'.Sound := by
  have hfits := h.caller t
  unfold Sys.advance at hst
  cases hcalls : s.calls t with
  | idle =>
    rw [hcalls] at hst
    cases hst
  | resolve pin =>
    have hno (i : Fin n) : ¬ s.Sends i t := not_sends hcalls fun _ => id
    rw [hcalls] at hst hfits
    dsimp only at hst
    split at hst
    · obtain rfl := Option.some.inj hst
      exact h.call hfits rfl fun _ i hs => absurd hs (hno i)
    · obtain ⟨native, hnative, rfl⟩ := Option.map_eq_some_iff.1 hst
      obtain ⟨hbegins, hstage⟩ := NativeWorkerPool.begins_pushGlobal hnative
      exact h.enter hbegins (h.native.step hnative) (fun hon => ⟨hon, rfl⟩) hstage hno
    · obtain ⟨native, hnative, rfl⟩ := Option.map_eq_some_iff.1 hst
      obtain ⟨hbegins, hstage, -⟩ := NativeWorkerPool.begins_pushLocal hnative
      exact h.enter hbegins (h.native.step hnative) (fun hon => ⟨hon, rfl⟩) hstage hno
  | pushing target =>
    rw [hcalls] at hst hfits
    dsimp only at hst
    refine h.onNative (fun native hnative => ?_) (fun native => ?_) (fun hclose => ?_) (fun i native hs hgrew => ?_)
      (fun i j hsend => ?_) (fun i hs => ?_) hst
    · rw [hcalls]
      cases target with
      | none => exact NativeWorkerPool.puts_global hfits hnative
      | some index => exact NativeWorkerPool.puts_local h.native.gates hfits hnative
    · split
      · rfl
      · rfl
    · cases target with
      | none => exact absurd hclose (Stage.not_inClose (Stage.inLocal_of_inGlobal 0 hfits))
      | some index => exact absurd hclose (Stage.not_inClose hfits)
    · unfold Sys.Sends at hs
      rw [hcalls] at hs
      rw [if_pos hgrew]
      exact hs.1
    · rw [hcalls]
      cases target with
      | none =>
        have hglobal : (s.native.stage (.caller t)).inGlobal = true := hfits
        rw [hsend] at hglobal
        cases hglobal
      | some index =>
        have hlocal : (s.native.stage (.caller t)).inLocal index = true := hfits
        rw [hsend] at hlocal
        rw [of_decide_eq_true hlocal]
    · unfold Sys.Sends at hs
      rw [hcalls] at hs
      exact hs.2
  | notify target =>
    rw [hcalls] at hst
    exact h.notify hcalls hst
  | schedule i own =>
    rw [hcalls] at hst hfits
    dsimp only at hst
    split at hst
    · rename_i hclosed
      obtain rfl := Option.some.inj hst
      refine h.call hfits rfl fun hon l hs => ?_
      rw [(h.worker i).down (.inr hclosed)] at hon
      cases hon
    · obtain rfl := Option.some.inj hst
      refine h.talk (t := t) ⟨fun u hu => Function.update_of_ne hu _ _, fun _ _ => rfl, fun _ => rfl, rfl, rfl, rfl,
        fun l hl => ?_, rfl, rfl⟩ h.native (fun _ => ⟨rfl, rfl⟩) id h.index id ?_ (fun _ => .inl) fun _ l hs => ?_
      · show true ∈ Function.update s.scheduled i (s.scheduled i ++ [own]) l
        by_cases hli : l = i
        · subst hli
          rw [Function.update_self]
          exact List.mem_append_left _ hl
        · rw [Function.update_of_ne hli]
          exact hl
      · rw [call_self]
        exact hfits
      · unfold Sys.Sends at hs
        rw [hcalls] at hs
        obtain ⟨rfl, rfl⟩ := hs
        refine .inr (.inl ?_)
        show true ∈ Function.update s.scheduled i (s.scheduled i ++ [true]) i
        rw [Function.update_self]
        exact List.mem_append_right _ List.mem_cons_self
  | close =>
    have hno (i : Fin n) : ¬ s.Sends i t := not_sends hcalls fun _ => id
    rw [hcalls] at hst hfits
    dsimp only at hst
    split at hst
    · obtain ⟨native, hnative, rfl⟩ := Option.map_eq_some_iff.1 hst
      obtain ⟨hbegins, hstage⟩ := NativeWorkerPool.begins_close hnative
      exact h.enter hbegins (h.native.step hnative) nofun ⟨hstage, rfl⟩ hno
    · obtain rfl := Option.some.inj hst
      exact h.call hfits rfl fun _ i hs => absurd hs (hno i)
  | closing =>
    have hno (i : Fin n) : ¬ s.Sends i t := not_sends hcalls fun _ => id
    rw [hcalls] at hst hfits
    dsimp only at hst
    obtain ⟨hclose, hoff⟩ := hfits
    refine h.onNative (fun native hnative => ?_) (fun native => ?_) (fun _ => hoff) (fun i _ hs => absurd hs (hno i))
      (fun i j hsend => ?_) (fun i hs => absurd hs (hno i)) hst
    · rw [hcalls]
      exact (NativeWorkerPool.puts_close hclose hnative).imp id (Or.imp_right fun hstage => ⟨hstage, hoff⟩)
    · rfl
    · rw [hsend] at hclose
      cases hclose

theorem Sound.atWork (h : s.Sound) (hst : s.work i = some s') : s'.Sound := by
  unfold Sys.work at hst
  cases hpc : s.pc i with
  | drain processed =>
    rw [hpc] at hst
    exact h.popWork (fun _ _ => rfl) hpc nofun nofun nofun (.inl ⟨_, rfl⟩) hst
  | yielding =>
    rw [hpc] at hst
    obtain rfl := Option.some.inj hst
    exact h.look hpc nofun nofun nofun nofun nofun nofun nofun nofun nofun rfl fun _ => rfl
  | checkRunning processed =>
    rw [hpc] at hst
    obtain rfl := Option.some.inj hst
    split
    · exact h.look hpc nofun nofun nofun nofun nofun nofun nofun nofun nofun rfl nofun
    · exact h.look hpc nofun nofun nofun nofun nofun nofun nofun nofun nofun rfl nofun
  | checkClosed processed =>
    rw [hpc] at hst
    obtain ⟨closed, -, rfl⟩ := Option.map_eq_some_iff.1 hst
    split
    · exact h.look hpc nofun nofun nofun nofun nofun nofun nofun nofun nofun rfl nofun
    · split
      · exact h.look hpc nofun nofun nofun nofun nofun nofun nofun nofun nofun rfl nofun
      · exact h.look hpc nofun nofun nofun nofun nofun nofun nofun nofun nofun rfl nofun
  | napping =>
    rw [hpc] at hst
    obtain rfl := Option.some.inj hst
    exact h.look hpc nofun nofun nofun nofun nofun nofun nofun nofun nofun rfl nofun
  | clearing =>
    rw [hpc] at hst
    exact h.popWork (fun _ hl => Function.update_of_ne hl _ _) hpc nofun nofun nofun (.inr rfl) hst
  | joining =>
    rw [hpc] at hst
    obtain rfl := Option.some.inj hst
    obtain ⟨hborn, -⟩ := h.outside hpc nofun nofun nofun
    have hin := inPop_of_pc hpc nofun nofun
    refine h.move (fun _ _ => rfl) (fun _ _ => rfl) (fun l hl => List.mem_cons.trans (or_iff_right hl)) hin nofun nofun
      nofun (fun ho => .inr (hborn ho)) ⟨fun _ => .inl rfl, fun _ => List.mem_cons_self⟩ (fun hrun hb => ?_)
      fun hrun hq => .inr (((h.awake hrun i).queue hq).resolve_left fun hlooks => ?_)
    · have hhold := (h.awake hrun i).buffer hin hb
      rw [hpc] at hhold
      cases hhold
    · unfold Sys.looks at hlooks
      rw [hpc] at hlooks
      cases hlooks
  | leaving =>
    rw [hpc] at hst
    obtain rfl := Option.some.inj hst
    refine h.move (fun _ _ => rfl) (fun _ _ => rfl) (fun l hl => ?_) (inPop_of_pc hpc nofun nofun) nofun nofun nofun
      (fun ho => .inr (((h.worker i).born ho).resolve_left fun hu => ?_)) ⟨fun hm => ?_, ?_⟩ (fun _ _ => rfl)
      fun _ _ => .inl rfl
    · rw [List.mem_filter]
      exact ⟨And.left, fun hm => ⟨hm, decide_eq_true hl⟩⟩
    · rw [hpc] at hu
      cases hu
    · exact absurd rfl (of_decide_eq_true (List.mem_filter.1 hm).2)
    · rintro (h | h)
      · cases h
      · cases h
  | _ =>
    rw [hpc] at hst
    cases hst

theorem Sound.step (h : s.Sound) {a : Action Thread τ n} (hst : s.step a = some s') : s'.Sound := by
  cases a with
  | begin i =>
    simp only [Sys.step] at hst
    split at hst
    · rename_i hpc
      obtain rfl := Option.some.inj hst
      refine h.move (fun _ _ => rfl) (fun _ hl => Function.update_of_ne hl _ _) (fun _ _ => .rfl)
        (inPop_of_pc hpc nofun nofun) nofun nofun nofun (fun ho => ?_) ?_ (fun _ _ => rfl) fun _ _ => .inl rfl
      · rw [Function.update_self] at ho
        cases ho
      · rw [(h.worker i).waits, hpc]
        exact ⟨fun h => h.elim nofun nofun, fun h => h.elim nofun nofun⟩
    · cases hst
  | work i => exact h.atWork hst
  | pop i =>
    simp only [Sys.step] at hst
    split at hst
    · exact h.pop ‹_› hst
    · cases hst
  | resume i timedOut =>
    simp only [Sys.step] at hst
    split at hst
    · rename_i hwaiting
      obtain rfl := Option.some.inj hst
      have hpc := hwaiting.1
      have hin := inPop_of_pc hpc nofun nofun
      refine h.goto hin nofun nofun nofun (fun ho => .inr (((h.worker i).born ho).resolve_left fun hu => ?_)) ?_
        (fun hrun hb => ?_) fun _ _ => .inl rfl
      · rw [hpc] at hu
        cases hu
      · rw [(h.worker i).waits, hpc]
        exact ⟨fun _ => .inr rfl, fun _ => .inl rfl⟩
      · have hhold := (h.awake hrun i).buffer hin hb
        rw [hpc] at hhold
        cases hhold
    · cases hst
  | callback i own =>
    simp only [Sys.step] at hst
    split at hst
    · obtain rfl := Option.some.inj hst
      exact h.callback own
    · cases hst
  | stop i =>
    simp only [Sys.step] at hst
    split at hst
    · rename_i hstop
      obtain rfl := Option.some.inj hst
      have hoff : s.running = false := by simpa using hstop.1
      refine h.move (fun _ _ => rfl) (fun _ _ => rfl) (fun l hl => ?_) hstop.2 nofun nofun (fun _ => hoff)
        (fun _ => .inr hoff) ⟨fun hm => ?_, ?_⟩ (fun hon => ?_) fun hon => ?_
      · rw [List.mem_filter]
        exact ⟨And.left, fun hm => ⟨hm, decide_eq_true hl⟩⟩
      · exact absurd rfl (of_decide_eq_true (List.mem_filter.1 hm).2)
      · rintro (h | h)
        · cases h
        · cases h
      · rw [hoff] at hon
        cases hon
      · rw [hoff] at hon
        cases hon
    · cases hst
  | submit t pin =>
    simp only [Sys.step] at hst
    split at hst
    · rename_i hidle
      obtain rfl := Option.some.inj hst
      obtain ⟨hcalls, hstage⟩ := h.atRest hidle
      exact h.call hstage rfl fun _ i hs => absurd hs (not_sends hcalls fun _ => id)
    · cases hst
  | close t =>
    simp only [Sys.step] at hst
    split at hst
    · rename_i hidle
      obtain rfl := Option.some.inj hst
      obtain ⟨hcalls, hstage⟩ := h.atRest hidle
      exact h.call hstage rfl fun _ i hs => absurd hs (not_sends hcalls fun _ => id)
    · cases hst
  | advance t task choice => exact h.advance hst

theorem sound_new : (Sys.new : Sys Thread n τ).Sound where
  native := NativeWorkerPool.sound_new
  loops _ := ⟨rfl, rfl⟩
  index := id
  worker _ :=
    ⟨fun _ => rfl, nofun, fun h => h.elim nofun nofun, fun _ => .inl rfl, ⟨nofun, fun h => h.elim nofun nofun⟩⟩
  caller _ := rfl
  awake _ _ := ⟨fun _ h => absurd rfl h, fun h => absurd rfl h⟩

end Sys

variable [DecidableEq Thread] {s : Sys Thread n τ}

theorem sound_of_reachable (h : (system Thread n τ).Reachable s) : s.Sound :=
  h.inv (fun _ h0 => h0 ▸ Sys.sound_new) fun _ _ _ hi hst => hi.step hst

/-- In every run of a pool that has not begun to close: while a dispatcher waits
and nothing is about to wake it, its local queue and its buffer are empty; and
the workers in `_idle_workers`, of which `submit` wakes one, are those that wait
or have just been woken. -/
theorem no_pinned_work_asleep (h : (system Thread n τ).Reachable s) (hrun : s.running = true) (i : Fin n) :
    (s.pc i = .waiting → ¬ s.Woken i → s.native.pool.localQueue i = [] ∧ s.native.pool.buffer i = []) ∧
      (i ∈ s.idleWorkers ↔ s.pc i = .waiting ∨ s.pc i = .leaving) := by
  have hsound := sound_of_reachable h
  obtain ⟨hbuffer, hqueue⟩ := hsound.awake hrun i
  refine ⟨fun hpc hasleep => ⟨?_, ?_⟩, (hsound.worker i).waits⟩
  · refine Classical.byContradiction fun hq => ?_
    have hlooks := (hqueue hq).resolve_right hasleep
    unfold Sys.looks at hlooks
    rw [hpc] at hlooks
    cases hlooks
  · refine Classical.byContradiction fun hb => ?_
    have hhold := hbuffer (Sys.inPop_of_pc hpc nofun nofun) hb
    rw [hpc] at hhold
    cases hhold

/-- A task is pinned to the one worker, which runs it and then waits. -/
def pinnedRun : List (Action Unit Nat 1) :=
  .begin 0 :: .submit () (.index 0) :: List.replicate 7 (.advance () 5 0) ++ .callback 0 true :: .work 0 ::
    List.replicate 7 (.pop 0) ++ .work 0 :: .work 0 :: List.replicate 8 (.pop 0) ++ .work 0 :: .work 0 :: .work 0 ::
    List.replicate 8 (.pop 0) ++ .work 0 :: .work 0 :: .work 0 :: List.replicate 8 (.pop 0) ++ [.work 0]

theorem no_pinned_work_asleep_popped : ∃ s : Sys Unit 1 Nat, s.native.popped.length = 1 ∧ s.pc 0 = .waiting ∧
    s.native.pool.localQueue 0 = [] ∧ s.native.pool.buffer 0 = [] := by
  have hrun := System.exists_reachable_of_run (M := system Unit 1 Nat) (s := .new) pinnedRun
    (p := fun s => s.running = true ∧ s.native.popped.length = 1 ∧ s.pc 0 = .waiting ∧ s.isSet 0 = false ∧
      s.scheduled 0 = [] ∧ s.isIdle () = true) rfl (by decide)
  obtain ⟨s, hs, hon, hpopped, hpc, hset, hscheduled, hidle⟩ := hrun
  refine ⟨s, hpopped, hpc, (no_pinned_work_asleep hs hon 0).1 hpc ?_⟩
  rintro (h | h | ⟨t, h⟩)
  · rw [hset] at h
    cases h
  · rw [hscheduled] at h
    cases h
  · exact Sys.not_sends ((sound_of_reachable hs).atRest hidle).1 (fun _ => id) h

end Multiloop.Dispatcher
