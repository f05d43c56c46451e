import Multiloop.Http.Draining
import Multiloop.Http.Frozen
import Multiloop.Http.SelfDelimiting

/-!
# How far a response is

The state of a response, while calls of `send` wait that will change it: it has
not begun, more of it may follow, or it is whole. A part of the body that
`send` is given, and a call that goes on, lead from one of them to another, as
long as no other call waits that will change the state.
-/

namespace Multiloop.Http

/-- The call changes the state of the response where it goes on. -/
def Sending.counts (s : Sending) : Bool := s.first || !s.moreBody

/-- How far the response to a request with this method is, while the calls of
`send` that wait and will change its state are these. -/
inductive Tracks (method : Bytes) (r : Response) : List Sending → Prop
  | unsent (hstatus : r.respStatus ≠ .streaming ∧ r.respStatus ≠ .complete) (hwire : r.wire = []) : Tracks method r []
  | streaming (hstatus : r.respStatus = .streaming) (hwire : Streams method r.wire) : Tracks method r []
  | complete (hstatus : r.respStatus = .complete) (hwire : Whole method r.wire) : Tracks method r []
  | begun (s : Sending) (hfirst : s.first = true) (hstatus : ∃ status headers, r.respStatus = .headersSent status headers)
      (hwire : if s.moreBody then Streams method r.wire else Whole method r.wire) : Tracks method r [s]
  | ended (s : Sending) (hfirst : s.first = false) (hlast : s.moreBody = false) (hstatus : r.respStatus = .streaming)
      (hwire : Whole method r.wire) : Tracks method r [s]

section Tracks

variable {method date : Bytes} {r r' : Response} {ss : List Sending}

theorem Tracks.wake (h : Tracks method r ss) : Tracks method r (ss.map fun s => { s with woken := true }) := by
  cases h with
  | unsent hstatus hwire => exact .unsent hstatus hwire
  | streaming hstatus hwire => exact .streaming hstatus hwire
  | complete hstatus hwire => exact .complete hstatus hwire
  | begun s hfirst hstatus hwire => exact .begun _ hfirst hstatus hwire
  | ended s hfirst hlast hstatus hwire => exact .ended _ hfirst hlast hstatus hwire

/-- The calls that wait for this response will make it complete, or it is. -/
theorem Tracks.whole (h : Tracks method r ss) (hdone : r.respStatus = .complete ∨ ∃ s ∈ ss, s.moreBody = false) :
    Whole method r.wire := by
  cases h with
  | unsent hstatus hwire => exact hdone.elim (fun hd => absurd hd hstatus.2) fun ⟨s, hs, _⟩ => absurd hs List.not_mem_nil
  | streaming hstatus hwire =>
    rcases hdone with hd | ⟨s, hs, -⟩
    · rw [hstatus] at hd
      cases hd
    · cases hs
  | complete hstatus hwire => exact hwire
  | begun s hfirst hstatus hwire =>
    rcases hdone with hd | ⟨s', hs, hlast⟩
    · obtain ⟨status, headers, hst⟩ := hstatus
      rw [hst] at hd
      cases hd
    · rw [← List.mem_singleton.1 hs, hlast, if_neg Bool.false_ne_true] at hwire
      exact hwire
  | ended s hfirst hlast hstatus hwire => exact hwire

/-- Otherwise it has not begun, or more of it may follow. -/
theorem Tracks.streams (h : Tracks method r ss) (hdone : ¬ (r.respStatus = .complete ∨ ∃ s ∈ ss, s.moreBody = false)) :
    r.wire = [] ∨ Streams method r.wire := by
  rw [not_or] at hdone
  cases h with
  | unsent hstatus hwire => exact .inl hwire
  | streaming hstatus hwire => exact .inr hwire
  | complete hstatus hwire => exact absurd hstatus hdone.1
  | begun s hfirst hstatus hwire =>
    cases hmore : s.moreBody with
    | true =>
      rw [hmore, if_pos rfl] at hwire
      exact .inr hwire
    | false => exact absurd ⟨s, .head _, hmore⟩ hdone.2
  | ended s hfirst hlast hstatus hwire => exact absurd ⟨s, .head _, hlast⟩ hdone.2

/-- A call of `send` that waits for nothing to be recorded. -/
theorem Tracks.write (hdate : hasCrlf date = false) (h : Tracks method r []) {body : Bytes} {moreBody first : Bool}
    (hframed : ∀ status headers, r.respStatus = .headersSent status headers → Framed method status headers body moreBody)
    (hw : r.write method date body moreBody = .ok (r', first)) :
    r.respStatus ≠ .complete ∧ (∃ bs, r'.wire = r.wire ++ bs) ∧ ∀ s : Sending, s.first = first → s.moreBody = moreBody →
      Tracks method r' (if s.counts then [s] else []) := by
  unfold Response.write at hw
  split at hw
  · rename_i status headers hr
    cases hformat : formatResponse status serverHeader (dateHeader date) headers body moreBody (isNoBody method status)
        r.keepAlive with
    | error e =>
      rw [hformat] at hw
      cases hw
    | ok w =>
      rw [hformat] at hw
      cases hw
      have hwhole := (hframed status headers hr).whole_or_streams hdate hformat
      refine ⟨by rw [hr]; exact nofun, ⟨w.1, rfl⟩, fun s hfirst hmore => ?_⟩
      have hnil : r.wire = [] := by
        cases h with
        | unsent hstatus hwire => exact hwire
        | streaming hstatus hwire =>
          rw [hr] at hstatus
          cases hstatus
        | complete hstatus hwire =>
          rw [hr] at hstatus
          cases hstatus
      have hcounts : s.counts = true := by rw [Sending.counts, hfirst, Bool.true_or]
      rw [if_pos hcounts]
      refine .begun s hfirst ⟨status, headers, hr⟩ ?_
      show if s.moreBody then Streams method (r.wire ++ w.1) else Whole method (r.wire ++ w.1)
      rw [hnil, List.nil_append, hmore]
      exact hwhole
  · rename_i hr
    cases hw
    have hstreams : Streams method r.wire := by
      cases h with
      | unsent hstatus hwire => exact absurd hr hstatus.1
      | streaming hstatus hwire => exact hwire
      | complete hstatus hwire =>
        rw [hr] at hstatus
        cases hstatus
    refine ⟨by rw [hr]; exact nofun, ⟨_, rfl⟩, fun s hfirst hmore => ?_⟩
    cases moreBody with
    | true =>
      have hcounts : s.counts = false := by
        rw [Sending.counts, hfirst, hmore]
        rfl
      rw [hcounts, if_neg Bool.false_ne_true]
      exact .streaming hr (hstreams.more body)
    | false =>
      have hcounts : s.counts = true := by
        rw [Sending.counts, hfirst, hmore]
        rfl
      rw [if_pos hcounts]
      exact .ended s hfirst hmore hr (hstreams.last body)
  · cases hw

/-- A call that will change the state of the response goes on. -/
theorem Tracks.goOn {s : Sending} (h : Tracks method r [s]) : Tracks method (r.goOn s.first s.moreBody) [] := by
  cases h with
  | begun _ hfirst hstatus hwire =>
    rw [hfirst]
    cases hmore : s.moreBody with
    | true =>
      rw [hmore, if_pos rfl] at hwire
      exact .streaming rfl hwire
    | false =>
      rw [hmore, if_neg Bool.false_ne_true] at hwire
      exact .complete rfl hwire
  | ended _ hfirst hlast hstatus hwire =>
    rw [hfirst, hlast]
    exact .complete rfl hwire

/-- The others change nothing. -/
theorem Response.goOn_of_not_counts {s : Sending} (h : s.counts = false) (r : Response) :
    r.goOn s.first s.moreBody = r := by
  obtain ⟨hfirst, hmore⟩ := Bool.or_eq_false_iff.1 h
  rw [hfirst, show s.moreBody = true by simpa using hmore]
  rfl

theorem Response.wire_goOn (r : Response) (first moreBody : Bool) : (r.goOn first moreBody).wire = r.wire := by
  cases first <;> cases moreBody <;> rfl

/-- `send` that does not wait. -/
theorem Tracks.send (hdate : hasCrlf date = false) (h : Tracks method r []) {body : Bytes} {moreBody : Bool}
    (hframed : ∀ status headers, r.respStatus = .headersSent status headers → Framed method status headers body moreBody)
    (hsend : r.send method date (.body body moreBody) = .ok r') :
    r.respStatus ≠ .complete ∧ (∃ bs, r'.wire = r.wire ++ bs) ∧ Tracks method r' [] := by
  rw [Response.send_body] at hsend
  cases hw : r.write method date body moreBody with
  | error e =>
    rw [hw] at hsend
    cases hsend
  | ok w =>
    obtain ⟨r₁, first⟩ := w
    rw [hw] at hsend
    cases hsend
    obtain ⟨hstatus, ⟨bs, hbs⟩, htracks⟩ := h.write hdate hframed hw
    have hs := htracks ⟨0, first, moreBody, false⟩ rfl rfl
    refine ⟨hstatus, ⟨bs, (r₁.wire_goOn first moreBody).trans hbs⟩, ?_⟩
    dsimp only
    cases hcounts : Sending.counts ⟨0, first, moreBody, false⟩ with
    | true =>
      rw [hcounts, if_pos rfl] at hs
      exact hs.goOn
    | false =>
      rw [hcounts, if_neg Bool.false_ne_true] at hs
      rwa [Response.goOn_of_not_counts (s := ⟨0, first, moreBody, false⟩) hcounts]

theorem Tracks.start (h : Tracks method r ss)
    (hr : r.respStatus = .initial) (status : Nat) (headers : List Header) :
    r.wire = [] ∧ Tracks method { r with respStatus := .headersSent status headers } ss := by
  cases h with
  | unsent hstatus hwire => exact ⟨hwire, .unsent ⟨nofun, nofun⟩ hwire⟩
  | streaming hstatus hwire =>
    rw [hr] at hstatus
    cases hstatus
  | complete hstatus hwire =>
    rw [hr] at hstatus
    cases hstatus
  | begun s hfirst hstatus hwire =>
    obtain ⟨_, _, hstatus⟩ := hstatus
    rw [hr] at hstatus
    cases hstatus
  | ended s hfirst hlast hstatus hwire =>
    rw [hr] at hstatus
    cases hstatus

end Tracks

end Multiloop.Http
