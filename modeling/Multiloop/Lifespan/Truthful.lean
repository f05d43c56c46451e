import Multiloop.Lifespan.Outcome

/-!
# The outcomes of `startup()` over a run

`Stepped` says once what a step of a run is: a call is made, a call that holds
the lock goes on (`Turn`), a call gives up at the lock, or the application does
something. `Stands` is the invariant; a step keeps the outcomes truthful
exactly when it is `Orderly`.
-/

namespace Multiloop

/-- The call holds the lock. -/
def CallPhase.holds : CallPhase → Prop
  | .waiting _ | .joining _ => True
  | .idle | .queued _ | .finished => False

namespace LifespanRun

open LifespanManager

variable {s s' : LifespanRun} {a : LifespanAction}

/-- What a step must meet for the outcomes to stay truthful: a `startup()` is
not let in after an attempt that did not end well, none is cancelled but where
the state is already that of a failure, and the one that succeeds finds a
mapping under `state`. -/
def Orderly (s : LifespanRun) : LifespanAction → Prop
  | .acquire i => s.calls i = .queued .startup →
      s.manager.state = .uninitialized ∨ s.manager.state = .running ∨ s.manager.state = .stopped
  | .cancel i => s.calls i = .queued .startup ∨ s.calls i = .waiting .startup → s.manager.state = .failed
  | .resume i => s.calls i = .waiting .startup → s.manager.startupStatus.unsupported = false →
      s.manager.startupStatus.failed = false → s.manager.startupStatus.exception = none →
      s.manager.scopeState ≠ .other
  | _ => True

/-- A call that holds the lock, or gets it, goes on as the code says. -/
inductive Turn (s : LifespanRun) :
    LifespanAction → Nat → LifespanCall → LifespanManager × Progress → Prop
  | startup {i : Nat} : s.holder = none → s.calls i = .queued .startup →
      Turn s (.acquire i) i .startup s.manager.startup
  | shutdown {i : Nat} : s.holder = none → s.calls i = .queued .shutdown →
      Turn s (.acquire i) i .shutdown s.manager.shutdown
  | startupResumes {i : Nat} : s.calls i = .waiting .startup → s.manager.startupEvent = true →
      Turn s (.resume i) i .startup s.manager.startupResumes
  | startupTimesOut {i : Nat} : s.calls i = .waiting .startup →
      Turn s (.timeout i) i .startup s.manager.startupTimesOut
  | shutdownResumes {i : Nat} {a : LifespanAction} : s.calls i = .waiting .shutdown →
      a = .resume i ∨ a = .timeout i → Turn s a i .shutdown s.manager.shutdownResumes
  | cancelled {i : Nat} {call : LifespanCall} : s.calls i = .waiting call →
      Turn s (.cancel i) i call (s.manager, .done (.raised .cancelledError))
  | joined {i : Nat} {join : LifespanJoin} {cancelled : Bool} : s.calls i = .joining join →
      Turn s (.joined i cancelled) i join.call (s.manager.joined join cancelled)

inductive Stepped (s : LifespanRun) : LifespanAction → LifespanRun → Prop
  | made {i : Nat} {call : LifespanCall} : s.calls i = .idle →
      Stepped s (.make i call) { s with calls := Function.update s.calls i (.queued call) }
  | goesOn {a : LifespanAction} {i : Nat} {call : LifespanCall} {r : LifespanManager × Progress} :
      s.Turn a i call r → Stepped s a (s.goesOn i call r)
  | gaveUp {i : Nat} {call : LifespanCall} : s.calls i = .queued call → Stepped s (.cancel i) (s.gaveUp i call)
  | app {a : LifespanAction} {m : LifespanManager} {sent : List String} : s.Orderly a →
      m.state = s.manager.state → (s.manager.Tells s.sent → m.Tells sent) →
      Stepped s a { s with manager := m, sent := sent }

theorem stepped (hst : s.step a = some s') : s.Stepped a s' := by
  cases a with
  | make i call =>
    simp only [step, Option.ite_none_right_eq_some] at hst
    obtain ⟨hidle, hst⟩ := hst
    cases hst
    exact .made hidle
  | acquire i =>
    simp only [step, Option.ite_none_right_eq_some] at hst
    obtain ⟨hfree, hst⟩ := hst
    split at hst
    · rename_i hcall
      cases hst
      exact .goesOn (.startup hfree hcall)
    · rename_i hcall
      cases hst
      exact .goesOn (.shutdown hfree hcall)
    · cases hst
  | resume i =>
    simp only [step] at hst
    split at hst
    · rename_i hcall
      obtain ⟨hevent, hst⟩ := Option.ite_none_right_eq_some.1 hst
      cases hst
      exact .goesOn (.startupResumes hcall hevent)
    · rename_i hcall
      obtain ⟨hevent, hst⟩ := Option.ite_none_right_eq_some.1 hst
      cases hst
      exact .goesOn (.shutdownResumes hcall (.inl rfl))
    · cases hst
  | timeout i =>
    simp only [step] at hst
    split at hst
    · rename_i hcall
      cases hst
      exact .goesOn (.startupTimesOut hcall)
    · rename_i hcall
      cases hst
      exact .goesOn (.shutdownResumes hcall (.inr rfl))
    · cases hst
  | cancel i =>
    simp only [step] at hst
    split at hst
    · rename_i call hcall
      cases hst
      exact .gaveUp hcall
    · rename_i call hcall
      cases hst
      exact .goesOn (.cancelled hcall)
    · cases hst
  | joined i cancelled =>
    simp only [step] at hst
    split at hst
    · rename_i join hcall
      obtain ⟨hdone, hst⟩ := Option.ite_none_right_eq_some.1 hst
      cases hst
      exact .goesOn (.joined hcall)
    · cases hst
  | begins =>
    simp only [step, Option.ite_none_right_eq_some] at hst
    obtain ⟨hcreated, hst⟩ := hst
    cases hst
    refine .app trivial rfl fun h => ⟨fun hs => ?_, fun _ => h.open_ ?_, h.event, h.complete, h.failed⟩
    · rw [h.fresh hs] at hcreated
      cases hcreated
    · rw [hcreated]
      rfl
  | dropped =>
    simp only [step, Option.ite_none_right_eq_some] at hst
    obtain ⟨⟨hcreated, hcancelled⟩, hst⟩ := hst
    cases hst
    refine .app trivial rfl fun h => ⟨fun hs => ?_, (fun hopen => by cases hopen), h.event, h.complete, h.failed⟩
    rw [h.fresh hs] at hcreated
    cases hcreated
  | receive =>
    simp only [step, Option.ite_none_right_eq_some, Option.map_eq_some_iff] at hst
    obtain ⟨hcalled, r, hr, hst⟩ := hst
    cases hst
    unfold LifespanManager.receive at hr
    split_ifs at hr
    · cases hr
      exact .app trivial rfl fun h => ⟨h.fresh, h.open_, h.event, h.complete, h.failed⟩
    · cases hr
      exact .app trivial rfl id
  | send message =>
    simp only [step, Option.ite_none_right_eq_some] at hst
    obtain ⟨hcalled, hst⟩ := hst
    cases hst
    exact .app trivial (send_state _ _).1 fun h => send_tells h hcalled message
  | assign scope =>
    simp only [step, Option.ite_none_right_eq_some] at hst
    obtain ⟨hcalled, hst⟩ := hst
    cases hst
    exact .app trivial rfl fun h => ⟨h.fresh, h.open_, h.event, h.complete, h.failed⟩
  | ends how =>
    simp only [step, Option.ite_none_right_eq_some] at hst
    obtain ⟨hrunning, hst⟩ := hst
    cases hst
    exact .app trivial (runnerEnds_state _ _) fun h => runnerEnds_tells h hrunning how

/-! ## The invariant -/

structure Stands (s : LifespanRun) : Prop where
  tells : s.manager.Tells s.sent
  holds : ∀ i, (s.calls i).holds → s.holder = some i
  awaits : ∀ i, (s.calls i).Awaits s.manager.state
  started : s.manager.state.Started → ∃ e ∈ s.exits, e.Succeeded

theorem Starts.stands (h : s.Starts) : s.Stands := by
  obtain ⟨⟨lifespan, timeout, hmanager⟩, hcalls, hholder, hexits, hsent⟩ := h
  refine ⟨?_, fun i hi => ?_, fun i => ?_, fun hstarted => ?_⟩
  · rw [hmanager, hsent]
    exact Tells.init lifespan timeout
  · rw [hcalls i] at hi
    cases hi
  · rw [hcalls i]
    trivial
  · rw [hmanager] at hstarted
    rcases hstarted with hs | hs | hs <;> cases hs

theorem Turn.fits {i : Nat} {call : LifespanCall} {r : LifespanManager × Progress} (h : s.Stands)
    (ht : s.Turn a i call r) : s.manager.Fits call r := by
  cases ht with
  | startup hfree hcall => exact startup_fits h.tells
  | shutdown hfree hcall => exact shutdown_fits h.tells
  | startupResumes hcall hevent => exact startupResumes_fits h.tells
  | startupTimesOut hcall => exact startupTimesOut_fits h.tells
  | shutdownResumes hcall ha =>
    have hawaits := h.awaits i
    rw [hcall] at hawaits
    exact shutdownResumes_fits h.tells hawaits
  | cancelled hcall => exact Fits.same h.tells _ _
  | @joined _ join cancelled hcall =>
    have hawaits := h.awaits i
    rw [hcall] at hawaits
    refine joined_fits h.tells ?_ ?_ cancelled
    · rintro rfl
      exact hawaits
    · rintro rfl
      exact hawaits

/-- No call but the one that goes on holds the lock. -/
theorem Turn.alone {i j : Nat} {call : LifespanCall} {r : LifespanManager × Progress} (h : s.Stands)
    (ht : s.Turn a i call r) (hj : (s.calls j).holds) : j = i := by
  have hholder := h.holds j hj
  have hsame (hi : (s.calls i).holds) : j = i := Option.some.inj (hholder.symm.trans (h.holds i hi))
  cases ht with
  | startup hfree hcall | shutdown hfree hcall =>
    rw [hholder] at hfree
    cases hfree
  | startupResumes hcall | startupTimesOut hcall | shutdownResumes hcall | cancelled hcall | joined hcall =>
    exact hsame (by rw [hcall]; trivial)

theorem goesOn_calls (s : LifespanRun) (i : Nat) (call : LifespanCall) (r : LifespanManager × Progress) :
    (s.goesOn i call r).calls = Function.update s.calls i (r.2.phase call) := by
  unfold goesOn
  split <;> rename_i hr <;> rw [hr] <;> rfl

theorem goesOn_manager (s : LifespanRun) (i : Nat) (call : LifespanCall) (r : LifespanManager × Progress) :
    (s.goesOn i call r).manager = r.1 ∧ (s.goesOn i call r).sent = s.sent := by
  unfold goesOn
  split <;> exact ⟨rfl, rfl⟩

theorem goesOn_holder (s : LifespanRun) (i : Nat) (call : LifespanCall) (r : LifespanManager × Progress)
    (h : (r.2.phase call).holds) : (s.goesOn i call r).holder = some i := by
  unfold goesOn
  split
  · rename_i hr
    rw [hr] at h
    cases h
  · rfl
  · rfl

theorem goesOn_exits (s : LifespanRun) (i : Nat) {call : LifespanCall} {r : LifespanManager × Progress} :
    (s.goesOn i call r).exits = s.exits ∨
      ∃ outcome, call = .startup ∧ r.2 = .done outcome ∧
        (s.goesOn i call r).exits = { outcome := outcome, state := r.1.state } :: s.exits := by
  unfold goesOn
  split
  · rename_i outcome hr
    cases call with
    | startup => exact .inr ⟨outcome, rfl, hr, rfl⟩
    | shutdown => exact .inl rfl
  · exact .inl rfl
  · exact .inl rfl

/-- A phase that holds no lock awaits nothing. -/
theorem awaits_of_not_holds {phase : CallPhase} (state : LifespanState) (h : ¬ phase.holds) :
    phase.Awaits state := by
  cases phase with
  | idle | queued call | finished => trivial
  | waiting call | joining join => exact absurd trivial h

theorem Turn.stands {i : Nat} {call : LifespanCall} {r : LifespanManager × Progress} (h : s.Stands)
    (ht : s.Turn a i call r) : (s.goesOn i call r).Stands := by
  have hfits := ht.fits h
  obtain ⟨hmanager, hsent⟩ := goesOn_manager s i call r
  refine ⟨?_, fun j hj => ?_, fun j => ?_, fun hstarted => ?_⟩
  · rw [hmanager, hsent]
    exact hfits.tells h.tells
  · rw [goesOn_calls] at hj
    by_cases hji : j = i
    · subst hji
      rw [Function.update_self] at hj
      exact goesOn_holder s j call r hj
    · rw [Function.update_of_ne hji] at hj
      exact absurd (ht.alone h hj) hji
  · rw [goesOn_calls, hmanager]
    by_cases hji : j = i
    · subst hji
      rw [Function.update_self]
      exact hfits.awaits
    · rw [Function.update_of_ne hji]
      exact awaits_of_not_holds _ fun hj => hji (ht.alone h hj)
  · rw [hmanager] at hstarted
    rcases hfits.started hstarted with hbefore | ⟨rfl, hdone, hrunning⟩
    · obtain ⟨e, he, hsucceeded⟩ := h.started hbefore
      rcases @goesOn_exits s i call r with hexits | ⟨outcome, -, -, hexits⟩
      · exact ⟨e, hexits ▸ he, hsucceeded⟩
      · exact ⟨e, hexits ▸ List.mem_cons_of_mem _ he, hsucceeded⟩
    · unfold goesOn
      rw [hdone]
      exact ⟨_, List.mem_cons_self, rfl, hrunning⟩

/-- A call moves on where it does not hold the lock. -/
theorem Stands.moves (h : s.Stands) (i : Nat) {phase : CallPhase} (hphase : ¬ phase.holds)
    (added : List StartupExit) :
    Stands { s with calls := Function.update s.calls i phase, exits := added ++ s.exits } := by
  have hcalls (j : Nat) : Function.update s.calls i phase j = s.calls j ∨
      ¬ (Function.update s.calls i phase j).holds := by
    by_cases hji : j = i
    · subst hji
      rw [Function.update_self]
      exact .inr hphase
    · exact .inl (Function.update_of_ne hji _ _)
  refine ⟨h.tells, fun j hj => ?_, fun j => ?_, fun hstarted => ?_⟩
  · rcases hcalls j with hsame | hnot
    · exact h.holds j (hsame ▸ hj)
    · exact absurd hj hnot
  · rcases hcalls j with hsame | hnot
    · have hawaits := h.awaits j
      rw [← hsame] at hawaits
      exact hawaits
    · exact awaits_of_not_holds _ hnot
  · obtain ⟨e, he, hsucceeded⟩ := h.started hstarted
    exact ⟨e, List.mem_append_right _ he, hsucceeded⟩

theorem Stepped.stands (h : s.Stands) (hst : s.Stepped a s') : s'.Stands := by
  cases hst with
  | @made i call hidle => exact @Stands.moves _ h i (.queued call) id []
  | goesOn ht => exact ht.stands h
  | @gaveUp i call hcall => exact @Stands.moves _ h i .finished id _
  | app hfree hstate htells =>
    refine ⟨htells h.tells, h.holds, fun j => ?_, fun hstarted => ?_⟩
    · rw [hstate]
      exact h.awaits j
    · rw [hstate] at hstarted
      exact h.started hstarted

theorem stands (h : system.Reachable s) : s.Stands :=
  System.Reachable.inv (M := system) (fun _ hi => Starts.stands hi)
    (fun _ _ _ hi hst => Stepped.stands hi (stepped hst)) h

/-! ## The outcomes -/

/-- What call `i` leaves behind as it goes on is honest, if it ends. -/
def HonestTurn (s : LifespanRun) (call : LifespanCall) (r : LifespanManager × Progress) : Prop :=
  ∀ outcome, call = .startup → r.2 = .done outcome →
    StartupExit.Honest s.exits { outcome := outcome, state := r.1.state }

theorem goesOn_truthful (s : LifespanRun) (i : Nat) (call : LifespanCall) (r : LifespanManager × Progress) :
    Truthful (s.goesOn i call r).exits ↔ s.HonestTurn call r ∧ Truthful s.exits := by
  unfold goesOn HonestTurn
  split
  · rename_i outcome hr
    cases call with
    | startup =>
      constructor
      · rintro ⟨hhonest, htruthful⟩
        refine ⟨fun outcome' _ hr' => ?_, htruthful⟩
        rw [hr] at hr'
        cases hr'
        exact hhonest
      · rintro ⟨hhonest, htruthful⟩
        exact ⟨hhonest outcome rfl hr, htruthful⟩
    | shutdown => exact ⟨fun h => ⟨fun _ hc => (by cases hc), h⟩, And.right⟩
  · rename_i hr
    refine ⟨fun h => ⟨fun outcome _ hr' => ?_, h⟩, And.right⟩
    rw [hr] at hr'
    cases hr'
  · rename_i hr
    refine ⟨fun h => ⟨fun outcome _ hr' => ?_, h⟩, And.right⟩
    rw [hr] at hr'
    cases hr'

theorem honestTurn_done {r : LifespanManager × Progress} {outcome : LifespanOutcome} (hr : r.2 = .done outcome) :
    s.HonestTurn .startup r ↔ StartupExit.Honest s.exits { outcome := outcome, state := r.1.state } := by
  constructor
  · intro h
    exact h outcome rfl hr
  · intro h outcome' _ hr'
    rw [hr] at hr'
    cases hr'
    exact h

theorem honestTurn_failed {m : LifespanManager} (error : LifespanError) (hstate : m.state = .failed) :
    s.HonestTurn .startup (m, .done (.raised error)) :=
  (@honestTurn_done s (m, .done (.raised error)) (.raised error) rfl).2 hstate

theorem honestTurn_running {m : LifespanManager} (hstate : m.state = .running) :
    s.HonestTurn .startup (m, .done .returned) :=
  (@honestTurn_done s (m, .done .returned) .returned rfl).2 (Or.inl hstate)

/-- The early return and the start. -/
theorem startup_honest_iff (h : s.Stands) : s.HonestTurn .startup s.manager.startup ↔
    s.manager.state = .uninitialized ∨ s.manager.state = .running ∨ s.manager.state = .stopped := by
  unfold LifespanManager.startup
  split_ifs with hstate hoff
  · rw [honestTurn_done rfl]
    constructor
    · rintro (hrunning | ⟨hstopped, -⟩)
      · exact .inr (.inl hrunning)
      · exact .inr (.inr hstopped)
    · rintro (hfresh | hrunning | hstopped)
      · exact absurd hfresh hstate
      · exact .inl hrunning
      · exact .inr ⟨hstopped, h.started (.inr (.inr hstopped))⟩
  · exact iff_of_true (honestTurn_running rfl) (.inl (not_not.1 hstate))
  · exact iff_of_true (fun _ _ hr => by cases hr) (.inl (not_not.1 hstate))

theorem startupResumes_honest_iff (h : s.Stands) {i : Nat} (hcall : s.calls i = .waiting .startup) :
    s.HonestTurn .startup s.manager.startupResumes ↔ s.Orderly (.resume i) := by
  have hstarting := h.awaits i
  rw [hcall] at hstarting
  unfold startupResumes
  split
  · rename_i hunsupported
    refine iff_of_true ?_ fun _ hno => absurd hunsupported (by rw [hno]; decide)
    split_ifs
    · exact honestTurn_failed _ rfl
    · exact honestTurn_running rfl
  rename_i hsupported
  split
  · rename_i hfailed
    exact iff_of_true (honestTurn_failed _ rfl) fun _ _ hno => absurd hfailed (by rw [hno]; decide)
  rename_i hnotFailed
  split
  · rename_i exc hexc
    refine iff_of_true ?_ fun _ _ _ hno => by
      rw [hexc] at hno
      cases hno
    split_ifs
    · exact honestTurn_failed _ rfl
    · exact fun _ _ hr => by cases hr
    · exact honestTurn_running rfl
  · rename_i hexc
    split
    · rename_i entries hdict
      refine iff_of_true (honestTurn_running rfl) fun _ _ _ _ hother => ?_
      rw [hother] at hdict
      cases hdict
    · rename_i hdict
      refine iff_of_false ?_ fun horderly => ?_
      · rw [honestTurn_done rfl]
        intro hfailed
        have hfailed : s.manager.state = .failed := hfailed
        rw [show s.manager.state = .starting from hstarting] at hfailed
        cases hfailed
      · refine horderly hcall (eq_false_of_ne_true hsupported) (eq_false_of_ne_true hnotFailed) hexc ?_
        cases hscope : s.manager.scopeState with
        | missing | mapping entries =>
          rw [hscope] at hdict
          cases hdict
        | other => rfl

theorem startupTimesOut_honest (s : LifespanRun) : s.HonestTurn .startup s.manager.startupTimesOut := by
  unfold startupTimesOut
  split_ifs
  · exact fun _ _ hr => by cases hr
  · unfold timedOut
    split_ifs
    · exact honestTurn_failed _ rfl
    · exact honestTurn_failed _ rfl

theorem honestTurn_shutdown (s : LifespanRun) (r : LifespanManager × Progress) : s.HonestTurn .shutdown r :=
  fun _ hc => by cases hc

/-- The end of the wait for the task, after a timeout. -/
theorem joined_honest (h : s.Stands) {i : Nat} {join : LifespanJoin} (hcall : s.calls i = .joining join)
    (cancelled : Bool) : s.HonestTurn join.call (s.manager.joined join cancelled) := by
  have hawaits := h.awaits i
  rw [hcall] at hawaits
  cases join with
  | startupTimedOut =>
    unfold joined
    split_ifs
    · exact honestTurn_failed _ hawaits
    · simp only [timedOut]
      split_ifs
      · exact honestTurn_failed _ hawaits
      · exact honestTurn_failed _ hawaits
  | startupException => cases hawaits
  | shutdown => exact honestTurn_shutdown _ _

theorem Turn.honest_iff {i : Nat} {call : LifespanCall} {r : LifespanManager × Progress} (h : s.Stands)
    (ht : s.Turn a i call r) : s.HonestTurn call r ↔ s.Orderly a := by
  cases ht with
  | startup hfree hcall => exact (startup_honest_iff h).trans ⟨fun ho _ => ho, fun ho => ho hcall⟩
  | shutdown hfree hcall =>
    refine iff_of_true (honestTurn_shutdown _ _) fun hother => ?_
    rw [hcall] at hother
    cases hother
  | startupResumes hcall hevent => exact startupResumes_honest_iff h hcall
  | startupTimesOut hcall => exact iff_of_true (startupTimesOut_honest s) trivial
  | shutdownResumes hcall ha =>
    refine iff_of_true (honestTurn_shutdown _ _) ?_
    rcases ha with rfl | rfl
    · intro hother
      rw [hcall] at hother
      cases hother
    · trivial
  | @cancelled i call hcall =>
    cases call with
    | startup =>
      rw [honestTurn_done rfl]
      exact ⟨fun hfailed _ => hfailed, fun ho => ho (.inr hcall)⟩
    | shutdown =>
      refine iff_of_true (honestTurn_shutdown _ _) fun hother => ?_
      rw [hcall] at hother
      rcases hother with hother | hother <;> cases hother
  | joined hcall => exact iff_of_true (joined_honest h hcall _) trivial

theorem Stepped.truthful_iff (h : s.Stands) (hst : s.Stepped a s') :
    Truthful s'.exits ↔ Truthful s.exits ∧ s.Orderly a := by
  cases hst with
  | made hidle => exact ⟨fun ht => ⟨ht, trivial⟩, And.left⟩
  | goesOn ht => rw [goesOn_truthful, ht.honest_iff h, and_comm]
  | @gaveUp i call hcall =>
    cases call with
    | startup => exact ⟨fun ht => ⟨ht.2, fun _ => ht.1⟩, fun ht => ⟨ht.2 (.inl hcall), ht.1⟩⟩
    | shutdown =>
      refine ⟨fun ht => ⟨ht, fun hother => ?_⟩, And.left⟩
      rw [hcall] at hother
      rcases hother with hother | hother <;> cases hother
  | app hfree hstate htells => exact ⟨fun ht => ⟨ht, hfree⟩, And.left⟩

/-! ## Mode `"on"` -/

/-- In mode `"on"` only a `startup()` that finds the event set, and no flag but
`complete`, makes the manager run. -/
theorem Turn.running {i : Nat} {call : LifespanCall} {r : LifespanManager × Progress} (h : s.Stands)
    (ht : s.Turn a i call r) (hmode : s.manager.lifespan = "on") (hbefore : s.manager.state ≠ .running)
    (hrunning : r.1.state = .running) :
    s.manager.startupStatus.complete = true ∧ s.manager.startupStatus.failed = false := by
  cases ht with
  | startup hfree hcall =>
    unfold LifespanManager.startup at hrunning
    rw [hmode] at hrunning
    split_ifs at hrunning with hstate hoff
    · exact absurd hrunning hbefore
    · exact absurd hoff (by decide)
  | startupResumes hcall hevent =>
    unfold LifespanManager.startupResumes at hrunning
    rw [hmode] at hrunning
    split at hrunning
    · simp at hrunning
    rename_i hsupported
    split at hrunning
    · simp at hrunning
    rename_i hnotFailed
    split at hrunning
    · simp at hrunning
    · rename_i hexc
      rcases h.tells.event hevent with hcomplete | hfailed | hunsupported | hraised
      · exact ⟨hcomplete, eq_false_of_ne_true hnotFailed⟩
      · exact absurd hfailed hnotFailed
      · exact absurd hunsupported hsupported
      · exact absurd hexc hraised
  | startupTimesOut hcall =>
    unfold LifespanManager.startupTimesOut at hrunning
    split_ifs at hrunning
  | shutdown hfree hcall =>
    unfold LifespanManager.shutdown at hrunning
    split_ifs at hrunning
    exact absurd hrunning hbefore
  | shutdownResumes hcall ha =>
    unfold LifespanManager.shutdownResumes at hrunning
    split_ifs at hrunning
    exact absurd hrunning hbefore
  | cancelled hcall => exact absurd hrunning hbefore
  | @joined i join cancelled hcall =>
    have hawaits := h.awaits i
    rw [hcall] at hawaits
    unfold LifespanManager.joined at hrunning
    split_ifs at hrunning
    · exact absurd hrunning hbefore
    · cases join with
      | startupTimedOut => exact absurd hrunning hbefore
      | startupException => cases hawaits
      | shutdown => cases hrunning

theorem running_of_complete (h : s.Stands) (hst : s.Stepped a s') (hmode : s.manager.lifespan = "on")
    (hbefore : s.manager.state ≠ .running) (hrunning : s'.manager.state = .running) :
    "lifespan.startup.complete" ∈ s.sent ∧ "lifespan.startup.failed" ∉ s.sent := by
  cases hst with
  | made hidle => exact absurd hrunning hbefore
  | goesOn ht =>
    rw [(goesOn_manager _ _ _ _).1] at hrunning
    obtain ⟨hcomplete, hfailed⟩ := ht.running h hmode hbefore hrunning
    refine ⟨h.tells.complete hcomplete, fun hsent => ?_⟩
    rw [h.tells.failed hsent] at hfailed
    cases hfailed
  | gaveUp hcall => exact absurd hrunning hbefore
  | app hfree hstate htells => exact absurd (hstate ▸ hrunning) hbefore

/-- The outcomes of `startup()` are truthful in every run of orderly steps, no
other step keeps them so, and in mode `"on"` the manager runs only if the
application said it was complete and had not said it failed. -/
theorem startup_truthful_iff (s : LifespanRun) :
    (system.ReachableWhen Orderly s → Truthful s.exits) ∧
    (∀ a s', system.Reachable s → Truthful s.exits → s.step a = some s' →
      (Truthful s'.exits ↔ s.Orderly a)) ∧
    (∀ a s', system.Reachable s → s.step a = some s' → s.manager.lifespan = "on" →
      s.manager.state ≠ .running → s'.manager.state = .running →
      "lifespan.startup.complete" ∈ s.sent ∧ "lifespan.startup.failed" ∉ s.sent) := by
  refine ⟨fun h => ?_, fun a s' h ht hst => ?_, fun a s' h hst hmode hbefore hrunning => ?_⟩
  · have hall : s.Stands ∧ Truthful s.exits := by
      refine h.inv (I := fun s => s.Stands ∧ Truthful s.exits) ?_ ?_
      · intro s hi
        obtain ⟨-, -, -, hexits, -⟩ := id hi
        rw [hexits]
        exact ⟨Starts.stands hi, trivial⟩
      · intro s a s' hi hok hst
        exact ⟨(stepped hst).stands hi.1, ((stepped hst).truthful_iff hi.1).2 ⟨hi.2, hok⟩⟩
    exact hall.2
  · rw [(stepped hst).truthful_iff (stands h)]
    exact ⟨And.right, fun ho => ⟨ht, ho⟩⟩
  · exact running_of_complete (stands h) (stepped hst) hmode hbefore hrunning

/-- A manager in mode `"on"`, before any call. -/
def switchedOn : LifespanRun where
  manager := .init "on" "10.0"
  calls _ := .idle
  holder := none
  exits := []
  sent := []

theorem switchedOn_starts : switchedOn.Starts := ⟨⟨_, _, rfl⟩, fun _ => rfl, rfl, rfl, rfl⟩

/-- The application says it is complete, and `startup()` returns. -/
theorem startup_truthful_complete :
    ∃ s : LifespanRun, s.exits = [{ outcome := .returned, state := .running }] ∧ Truthful s.exits ∧
      "lifespan.startup.complete" ∈ s.sent := by
  have h : system.ReachableWhen Orderly switchedOn := .init switchedOn_starts
  have h := ((h.next (.make 0 .startup) trivial rfl).next (.acquire 0) (fun _ => .inl rfl) rfl).next
    .begins trivial rfl
  have h := (h.next .receive trivial rfl).next
    (.send { type := some "lifespan.startup.complete", message := none }) trivial rfl
  obtain ⟨-, -, hmode⟩ := startup_truthful_iff _
  have hsent := (hmode (.resume 0) _ h.reachable rfl rfl (by decide) rfl).1
  have h := h.next (.resume 0) (fun _ _ _ _ hother => by cases hother) rfl
  exact ⟨_, rfl, (startup_truthful_iff _).1 h, hsent⟩

/-- An application says it failed, which the first `startup()` raises, and the
next one returns; a `startup()` is cancelled, and the next one returns while
the state is still that of the start. -/
theorem failed_startup_returns :
    (∃ s, system.Reachable s ∧ ¬ Truthful s.exits ∧
      s.exits.map (·.state) = [.failed, .failed] ∧ s.exits.head?.map (·.outcome) = some .returned) ∧
    (∃ s, system.Reachable s ∧ ¬ Truthful s.exits ∧
      s.exits = [{ outcome := .returned, state := .starting },
        { outcome := .raised .cancelledError, state := .starting }]) := by
  constructor
  · exact System.exists_reachable_of_run (M := system)
      [.make 0 .startup, .acquire 0, .begins,
        .send { type := some "lifespan.startup.failed", message := some "no database" }, .resume 0,
        .make 1 .startup, .acquire 1]
      (p := fun s => ¬ Truthful s.exits ∧
        s.exits.map (·.state) = [.failed, .failed] ∧ s.exits.head?.map (·.outcome) = some .returned)
      switchedOn_starts (by decide)
  · exact System.exists_reachable_of_run (M := system)
      [.make 0 .startup, .acquire 0, .begins, .cancel 0, .make 1 .startup, .acquire 1]
      (p := fun s => ¬ Truthful s.exits ∧
        s.exits = [{ outcome := .returned, state := .starting },
          { outcome := .raised .cancelledError, state := .starting }])
      switchedOn_starts (by decide)

end LifespanRun

end Multiloop
