import Mathlib.Tactic.SplitIfs
import Multiloop.Lifespan.Manager

/-!
# What the outcome of `startup()` tells

A call of `startup()` that returns should leave the manager running, or stopped
once an earlier call had succeeded, and one that raises should leave it failed.
Which steps of a run keep this is decided by the state before the step
(`Orderly`): the calls that pass the early return see what an earlier attempt
left, `CancelledError` leaves the state as it is, and so does a `scope["state"]`
that is no mapping. `Stands` is what holds of every run; with it each piece of
`startup` is looked at once, by itself.
-/

namespace Multiloop

namespace StartupExit

/-- A `startup()` that returned with the application running. -/
def Succeeded (e : StartupExit) : Prop := e.outcome = .returned ∧ e.state = .running

/-- The outcome says what the state is, `earlier` being the calls before. -/
def Honest (earlier : List StartupExit) (e : StartupExit) : Prop :=
  match e.outcome with
  | .returned => e.state = .running ∨ e.state = .stopped ∧ ∃ e' ∈ earlier, e'.Succeeded
  | .raised _ => e.state = .failed

instance (e : StartupExit) : Decidable e.Succeeded := inferInstanceAs (Decidable (_ ∧ _))

instance (earlier : List StartupExit) (e : StartupExit) : Decidable (Honest earlier e) := by
  unfold Honest
  split
  · exact inferInstance
  · exact inferInstance

end StartupExit

/-- Every call that ended was honest. -/
def Truthful : List StartupExit → Prop
  | [] => True
  | e :: earlier => e.Honest earlier ∧ Truthful earlier

instance decidableTruthful : (exits : List StartupExit) → Decidable (Truthful exits)
  | [] => isTrue trivial
  | e :: earlier =>
    have := decidableTruthful earlier
    inferInstanceAs (Decidable (e.Honest earlier ∧ Truthful earlier))

/-- A `startup()` that returned left the state so, or a `shutdown()` after
it. -/
def LifespanState.Started (state : LifespanState) : Prop :=
  state = .running ∨ state = .stopping ∨ state = .stopped

/-- The state while a call stands at an await with the lock held. -/
def CallPhase.Awaits (state : LifespanState) : CallPhase → Prop
  | .waiting .startup => state = .starting
  | .joining .startupTimedOut => state = .failed
  | .joining .startupException => False
  | .waiting .shutdown | .joining .shutdown => state.Started
  | .idle | .queued _ | .finished => True

def Progress.phase (call : LifespanCall) : Progress → CallPhase
  | .done _ => .finished
  | .waits => .waiting call
  | .joins join => .joining join

namespace LifespanManager

/-- What the flags, the task and the messages sent say of each other. -/
structure Tells (m : LifespanManager) (sent : List String) : Prop where
  fresh : m.state = .uninitialized → m.lifespanTask = .none
  open_ : m.lifespanTask.isDone = false → m.startupStatus.exception = none
  event : m.startupEvent = true → m.startupStatus.complete = true ∨ m.startupStatus.failed = true ∨
    m.startupStatus.unsupported = true ∨ m.startupStatus.exception ≠ none
  complete : m.startupStatus.complete = true → "lifespan.startup.complete" ∈ sent
  failed : "lifespan.startup.failed" ∈ sent → m.startupStatus.failed = true

variable {m : LifespanManager} {sent : List String}

theorem Tells.fresh_exception (h : m.Tells sent) (hstate : m.state = .uninitialized) :
    m.startupStatus.exception = none :=
  h.open_ (by rw [h.fresh hstate]; rfl)

theorem Tells.init (lifespan timeout : String) : (LifespanManager.init lifespan timeout).Tells [] where
  fresh _ := rfl
  open_ _ := rfl
  event he := by cases he
  complete hc := by cases hc
  failed hf := by cases hf

/-! ## What the application does -/

theorem send_tells (h : m.Tells sent) (hcalled : m.lifespanTask.called = true) (message : LifespanMessage) :
    (m.send message).Tells (message.type.getD "" :: sent) := by
  have hfresh : m.state ≠ .uninitialized := fun hstate => by
    rw [h.fresh hstate] at hcalled
    cases hcalled
  have hmore : m.startupStatus.complete = true →
      "lifespan.startup.complete" ∈ message.type.getD "" :: sent := fun hc => List.mem_cons_of_mem _ (h.complete hc)
  unfold send
  extract_lets type
  by_cases hc : type = "lifespan.startup.complete"
  · rw [if_pos hc]
    exact ⟨fun hs => absurd hs hfresh, h.open_, fun _ => .inl rfl, fun _ => List.mem_cons.2 (.inl hc.symm),
      fun hf => h.failed (List.mem_of_ne_of_mem (by rw [show message.type.getD "" = type from rfl, hc]; decide) hf)⟩
  rw [if_neg hc]
  by_cases hf : type = "lifespan.startup.failed"
  · rw [if_pos hf]
    exact ⟨fun hs => absurd hs hfresh, h.open_, fun _ => .inr (.inl rfl), hmore, fun _ => rfl⟩
  rw [if_neg hf]
  have hless : "lifespan.startup.failed" ∈ message.type.getD "" :: sent → m.startupStatus.failed = true :=
    fun hmem => h.failed (List.mem_of_ne_of_mem (fun heq => hf heq.symm) hmem)
  by_cases hsc : type = "lifespan.shutdown.complete"
  · rw [if_pos hsc]
    exact ⟨h.fresh, h.open_, h.event, hmore, hless⟩
  rw [if_neg hsc]
  by_cases hsf : type = "lifespan.shutdown.failed"
  · rw [if_pos hsf]
    exact ⟨h.fresh, h.open_, h.event, hmore, hless⟩
  rw [if_neg hsf]
  exact ⟨h.fresh, h.open_, h.event, hmore, hless⟩

theorem send_state (m : LifespanManager) (message : LifespanMessage) :
    (m.send message).state = m.state ∧ (m.send message).lifespanTask = m.lifespanTask := by
  unfold send
  extract_lets type
  split_ifs <;> exact ⟨rfl, rfl⟩

theorem excepts_state (m : LifespanManager) (how : Ending) : (m.excepts how).state = m.state := by
  cases how with
  | returns => rfl
  | crashes => rfl
  | raises exc =>
    simp only [excepts]
    split_ifs <;> rfl
  | cancelled =>
    simp only [excepts]
    split_ifs <;> rfl

theorem finishes_state (m : LifespanManager) : m.finishes.state = m.state := by
  simp only [finishes]
  split_ifs <;> rfl

theorem runnerEnds_state (m : LifespanManager) (how : Ending) : (m.runnerEnds how).state = m.state :=
  (finishes_state _).trans (excepts_state m how)

/-- The end of the runner sets a flag with the event, and no flag that says the
application sent something it did not. -/
theorem runnerEnds_flags (m : LifespanManager) (how : Ending) :
    (m.runnerEnds how).startupStatus.complete = m.startupStatus.complete ∧
      (m.startupStatus.failed = true → (m.runnerEnds how).startupStatus.failed = true) ∧
      ((m.startupEvent = true → (m.runnerEnds how).startupStatus = m.startupStatus) ∧
        (m.startupEvent = false → (m.runnerEnds how).startupStatus.failed = true ∨
          (m.runnerEnds how).startupStatus.unsupported = true ∨
          (m.runnerEnds how).startupStatus.exception ≠ none)) := by
  cases hevent : m.startupEvent <;> cases hshutdown : m.shutdownEvent <;>
    cases how <;> simp [runnerEnds, excepts, finishes, hevent, hshutdown]

theorem runnerEnds_tells (h : m.Tells sent) (hrunning : m.lifespanTask = .running) (how : Ending) :
    (m.runnerEnds how).Tells sent := by
  obtain ⟨hcomplete, hfailed, hset, hunset⟩ := runnerEnds_flags m how
  refine ⟨?_, ?_, ?_, ?_, fun hf => hfailed (h.failed hf)⟩
  · intro hstate
    rw [runnerEnds_state] at hstate
    have hnone := h.fresh hstate
    rw [hrunning] at hnone
    cases hnone
  · intro hopen
    cases how <;> cases hopen
  · intro _
    cases hevent : m.startupEvent with
    | true =>
      rw [hset hevent]
      exact h.event hevent
    | false => exact .inr (hunset hevent)
  · intro hc
    exact h.complete (hcomplete ▸ hc)

/-! ## What the calls do -/

/-- What `startup` and `shutdown` keep, `call` going on from manager `m` as `r`
says. -/
structure Fits (m : LifespanManager) (call : LifespanCall) (r : LifespanManager × Progress) : Prop where
  status : r.1.startupStatus = m.startupStatus
  event : r.1.startupEvent = m.startupEvent
  fresh : r.1.state = .uninitialized → r.1.lifespanTask = .none
  open_ : r.1.lifespanTask.isDone = false → r.1.startupStatus.exception = none
  awaits : (r.2.phase call).Awaits r.1.state
  started : r.1.state.Started → m.state.Started ∨ call = .startup ∧ r.2 = .done .returned ∧ r.1.state = .running

theorem Fits.tells {call : LifespanCall} {r : LifespanManager × Progress} (hf : m.Fits call r)
    (h : m.Tells sent) : r.1.Tells sent where
  fresh := hf.fresh
  open_ := hf.open_
  event he := by
    rw [hf.status]
    exact h.event (hf.event ▸ he)
  complete hc := h.complete (hf.status ▸ hc)
  failed hs := by
    rw [hf.status]
    exact h.failed hs

/-- A piece that ends its call and leaves the manager as it is. -/
theorem Fits.same (h : m.Tells sent) (call : LifespanCall) (outcome : LifespanOutcome) :
    m.Fits call (m, .done outcome) where
  status := rfl
  event := rfl
  fresh := h.fresh
  open_ := h.open_
  awaits := trivial
  started := .inl

/-- A piece that sets the state, to none of those a success leads to. -/
theorem Fits.sets (h : m.Tells sent) (call : LifespanCall) (outcome : LifespanOutcome) {state : LifespanState}
    (hfresh : state ≠ .uninitialized)
    (hstarted : state.Started → m.state.Started ∨ call = .startup ∧ outcome = .returned ∧ state = .running) :
    m.Fits call ({ m with state := state }, .done outcome) where
  status := rfl
  event := rfl
  fresh hs := absurd hs hfresh
  open_ := h.open_
  awaits := trivial
  started hs := (hstarted hs).imp_right fun ⟨hc, ho, hr⟩ => ⟨hc, congrArg _ ho, hr⟩

theorem fails_fits (h : m.Tells sent) (call : LifespanCall) (outcome : LifespanOutcome) :
    m.Fits call ({ m with state := .failed }, .done outcome) :=
  Fits.sets h call outcome (by decide) fun hs => by rcases hs with hs | hs | hs <;> cases hs

theorem runs_fits (h : m.Tells sent) : m.Fits .startup ({ m with state := .running }, .done .returned) :=
  Fits.sets h _ _ (by decide) fun _ => .inr ⟨rfl, rfl, rfl⟩

theorem startup_fits (h : m.Tells sent) : m.Fits .startup m.startup := by
  unfold startup
  split_ifs with hstate hoff
  · exact Fits.same h _ _
  · exact runs_fits h
  · exact {
      status := rfl
      event := rfl
      fresh := fun hs => by cases hs
      open_ := fun _ => h.fresh_exception (not_not.1 hstate)
      awaits := rfl
      started := fun hs => by rcases hs with hs | hs | hs <;> cases hs }

theorem startupTimesOut_fits (h : m.Tells sent) : m.Fits .startup m.startupTimesOut := by
  unfold startupTimesOut
  split_ifs with hopen
  · exact {
      status := rfl
      event := rfl
      fresh := fun hs => by cases hs
      open_ := h.open_
      awaits := rfl
      started := fun hs => by rcases hs with hs | hs | hs <;> cases hs }
  · exact fails_fits h _ _

/-- An application that raised is over, so that no `startup()` waits for it. -/
theorem startupResumes_fits (h : m.Tells sent) : m.Fits .startup m.startupResumes := by
  unfold startupResumes
  split
  · split
    · exact fails_fits h _ _
    · exact runs_fits h
  split
  · exact fails_fits h _ _
  split
  · rename_i exc hexc
    split_ifs with hsent hopen
    · exact fails_fits h _ _
    · have hnone := h.open_ hopen.2
      rw [hexc] at hnone
      cases hnone
    · exact runs_fits h
  · split
    · exact {
        status := rfl
        event := rfl
        fresh := fun hs => by cases hs
        open_ := h.open_
        awaits := trivial
        started := fun _ => .inr ⟨rfl, rfl, rfl⟩ }
    · exact Fits.same h _ _

theorem shutdown_fits (h : m.Tells sent) : m.Fits .shutdown m.shutdown := by
  unfold shutdown
  split_ifs with hstate hoff
  · exact Fits.same h _ _
  · exact Fits.sets h _ _ (by decide) fun _ => .inl (.inl (not_not.1 hstate))
  · exact {
      status := rfl
      event := rfl
      fresh := fun hs => by cases hs
      open_ := h.open_
      awaits := .inr (.inl rfl)
      started := fun _ => .inl (.inl (not_not.1 hstate)) }

/-- The rest of `shutdown`, from a state that a success led to. -/
theorem shutdownResumes_fits (h : m.Tells sent) (hstarted : m.state.Started) : m.Fits .shutdown m.shutdownResumes := by
  unfold shutdownResumes
  split_ifs
  · exact {
      status := rfl
      event := rfl
      fresh := h.fresh
      open_ := h.open_
      awaits := hstarted
      started := fun _ => .inl hstarted }
  · exact Fits.sets h _ _ (by decide) fun _ => .inl hstarted

theorem joined_fits (h : m.Tells sent) {join : LifespanJoin} (hjoin : join ≠ .startupException)
    (hstarted : join = .shutdown → m.state.Started) (cancelled : Bool) :
    m.Fits join.call (m.joined join cancelled) := by
  unfold joined
  split_ifs
  · exact Fits.same h _ _
  · cases join with
    | startupTimedOut => exact Fits.same h _ _
    | startupException => exact absurd rfl hjoin
    | shutdown => exact Fits.sets h _ _ (by decide) fun _ => .inl (hstarted rfl)

end LifespanManager

end Multiloop
