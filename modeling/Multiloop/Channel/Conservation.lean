import Multiloop.Channel.Wiring
import Multiloop.Framework.Conveyor
import Multiloop.Framework.Counting

/-!
# Conservation and order of items

A run of tasks over a channel, seen as a run of a `Conveyor`: its buffer is
the channel's, in flight are the items of scheduled wakes and the results of
receivers about to resume. Every step is a step of the conveyor or none
(`view_step`), provided that it neither cancels a receiver that has its item
already nor puts back an item the channel cannot take or that is no longer
the newest of its sender.
-/

namespace Multiloop.Channel

open ChannelState Conveyor

variable {Loop Task α : Type}

/-- The item of a `send` in progress. -/
def Pc.item? : Pc Task α → Option (Parcel Task α)
  | .sendTry x _ | .sendRegister x | .sendRetry x _ | .sendAwait x _ => some x
  | _ => none

/-- Sent before, by the same sender. -/
def Parcel.Before (y x : Parcel Task α) : Prop := y.sender = x.sender → y.seq < x.seq

theorem Parcel.not_before_self (x : Parcel Task α) : ¬ x.Before x := fun h => Nat.lt_irrefl _ (h rfl)

namespace Sys

variable {s s' : Sys Loop Task α} {home : Task → Loop}

/-! ## Numbering -/

/-- Items are numbered in the order of the calls that send them, and the item
of a `send` in progress is newer than all accepted items of the task. -/
structure Numbered (s : Sys Loop Task α) : Prop where
  accepted : ∀ y ∈ s.accepted, y.seq < s.calls y.sender
  sending : ∀ t x, (s.pc t).item? = some x →
    x.sender = t ∧ x.seq < s.calls t ∧ ∀ y ∈ s.accepted, y.Before x

theorem Numbered.of_eq (h : s.Numbered) (ha : s'.accepted = s.accepted) (hc : s'.calls = s.calls)
    (hp : ∀ u x, (s'.pc u).item? = some x → (s.pc u).item? = some x) : s'.Numbered :=
  ⟨ha ▸ hc ▸ h.accepted, fun t x hx => ha ▸ hc ▸ h.sending t x (hp t x hx)⟩

/-- An item newer than every accepted one of its sender is accepted. -/
theorem Numbered.accept (h : s.Numbered) {x : Parcel Task α} (hx : x.seq < s.calls x.sender)
    (hp : ∀ y, (s.pc x.sender).item? = some y → x.Before y) : (s.accept x).Numbered where
  accepted y hy := by
    rcases List.mem_append.1 hy with hy | hy
    · exact h.accepted y hy
    · obtain rfl := List.mem_singleton.1 hy
      exact hx
  sending t y hy := by
    obtain ⟨ht, hs, hn⟩ := h.sending t y hy
    refine ⟨ht, hs, fun z hz => ?_⟩
    rcases List.mem_append.1 hz with hz | hz
    · exact hn z hz
    · obtain rfl := List.mem_singleton.1 hz
      intro he
      have hy : (s.pc t).item? = some y := hy
      rw [← ht, ← he] at hy
      exact hp y hy he

section Step

variable [DecidableEq Task]

/-- A new program counter for one task, that sends nothing else than before. -/
theorem Numbered.setPc (h : s.Numbered) {t : Task} {p : Pc Task α} (ha : s'.accepted = s.accepted)
    (hc : s'.calls = s.calls) (hp : s'.pc = Function.update s.pc t p)
    (hi : ∀ x, p.item? = some x → (s.pc t).item? = some x) : s'.Numbered := by
  refine h.of_eq ha hc fun u x hx => ?_
  by_cases hu : u = t
  · subst hu
    exact hi x (by simpa [hp] using hx)
  · simpa [hp, hu] using hx

theorem Numbered.call (h : s.Numbered) (t : Task) (a : α) : (s.call t a).2.Numbered := by
  have hle : ∀ u, s.calls u ≤ (s.call t a).2.calls u := fun u => by
    by_cases hu : u = t <;> simp [Sys.call, hu]
  exact ⟨fun y hy => Nat.lt_of_lt_of_le (h.accepted y hy) (hle _), fun u x hx =>
    ⟨(h.sending u x hx).1, Nat.lt_of_lt_of_le (h.sending u x hx).2.1 (hle _), (h.sending u x hx).2.2⟩⟩

/-- The item of the next call of `t` is newer than all accepted ones. -/
theorem Numbered.call_new (h : s.Numbered) (t : Task) (a : α) :
    ∀ y ∈ s.accepted, y.Before (s.call t a).1 := by
  intro y hy he
  have hlt := h.accepted y hy
  rwa [show y.sender = t from he] at hlt

theorem call_lt (t : Task) (a : α) :
    (s.call t a).1.seq < (s.call t a).2.calls (s.call t a).1.sender := by
  simp [Sys.call]

theorem Move.numbered {a : Action Task α} (hm : Move home s a s') (h : s.Numbered) : s'.Numbered := by
  cases hm with
  | @send t a hpc =>
    have hc := h.call t a
    refine ⟨hc.accepted, fun u x hx => ?_⟩
    by_cases hu : u = t
    · subst hu
      obtain rfl : (s.call u a).1 = x := by simpa [Sys.goto, Pc.item?] using hx
      exact ⟨rfl, call_lt u a, h.call_new u a⟩
    · exact hc.sending u x (by simpa [Sys.goto, hu] using hx)
  | @trySend t a hpc =>
    refine ((h.call t a).accept (call_lt t a) fun y hy => ?_).of_eq rfl rfl fun _ _ hx => hx
    have hpc' : (s.call t a).2.pc (s.call t a).1.sender = .idle := hpc
    simp [hpc', Pc.item?] at hy
  | @trySendFail t a => exact h.call t a
  | @sendOk t x hpc =>
    have hx : (s.pc t).item? = some x := by rcases hpc with ⟨o, hpc⟩ | ⟨f, hpc⟩ <;> rw [hpc] <;> rfl
    obtain ⟨rfl, hlt, -⟩ := h.sending t x hx
    have hg : (s.goto x.sender .idle).Numbered := h.setPc rfl rfl rfl (by simp [Pc.item?])
    refine (hg.accept hlt fun y hy => ?_).of_eq rfl rfl fun _ _ hx => hx
    simp [Sys.goto, Pc.item?] at hy
  | tryRecvFail => exact h
  | tryRecv | close | cancelFut | cancelTask | wake | requeue | drop =>
    exact h.of_eq rfl rfl fun _ _ hx => hx
  | recv | closed | registerClosed | unregisterPutter | recvEmpty
  | registerGetter | unregisterGetter | raiseSend | resumeRecv | resumeNone | raiseRecv =>
    exact h.setPc rfl rfl rfl (by simp [Pc.item?])
  | recvOk hpc =>
    rcases hpc with ⟨-, rfl⟩ | ⟨-, rfl⟩ <;> exact h.setPc rfl rfl rfl (by simp [Pc.item?])
  | sendFull hpc | sendRetryFull hpc | registerRoom hpc | registerPutter hpc | resumeSend hpc =>
    exact h.setPc rfl rfl rfl (by simp [hpc, Pc.item?])

end Step

/-! ## The channel as a conveyor -/

/-- The item task `t` receives when it resumes, unless it is cancelled before. -/
def delivered (s : Sys Loop Task α) (t : Task) : Option (Parcel Task α) :=
  match s.pc t with
  | .recvAwait f =>
    match s.futs f, s.mustCancel t with
    | .result (some x), false => some x
    | _, _ => none
  | _ => none

/-- The receiver that waits for future `f`, if it has not been cancelled. -/
def receiver (s : Sys Loop Task α) (f : Fut Task) : Option Task :=
  match s.futs f with
  | .pending => some f.owner
  | _ => none

/-- An item in flight to a receiver, or (`none`) to be put back. -/
def parcel (o : Option Task) : Option (Parcel Task α) → Multiset (Option Task × Parcel Task α)
  | some x => {(o, x)}
  | none => 0

/-- The item of a scheduled wake. -/
def carried (s : Sys Loop Task α) (c : WakeCall Task α) : Multiset (Option Task × Parcel Task α) :=
  parcel (s.receiver c.fut) (resultOf c.val)

/-- The hand-offs in flight: items of scheduled wakes, and of receivers about
to resume. -/
def flight [Fintype Task] (s : Sys Loop Task α) : Multiset (Option Task × Parcel Task α) :=
  (s.scheduled.map s.carried).sum + ∑ t, parcel (some t) (s.delivered t)

def view [Fintype Task] (s : Sys Loop Task α) : Conveyor Task (Parcel Task α) :=
  ⟨s.chan.buffer, s.flight, s.received, s.accepted⟩

@[simp] theorem parcel_none (o : Option Task) : parcel o (none : Option (Parcel Task α)) = 0 := rfl
@[simp] theorem parcel_some (o : Option Task) (x : Parcel Task α) : parcel o (some x) = {(o, x)} := rfl

@[simp] theorem mem_parcel {o : Option Task} {v : Option (Parcel Task α)} {e : Option Task × Parcel Task α} :
    e ∈ parcel o v ↔ v = some e.2 ∧ e.1 = o := by
  obtain ⟨o', x⟩ := e
  cases v <;> simp [parcel, Prod.ext_iff, eq_comm, and_comm]

theorem delivered_of_ne {t : Task} (h : ∀ f, s.pc t ≠ .recvAwait f) : s.delivered t = none := by
  unfold delivered
  split
  · exact absurd ‹_› (h _)
  · rfl

theorem delivered_eq_some {t : Task} {x : Parcel Task α} :
    s.delivered t = some x ↔
      ∃ f, s.pc t = .recvAwait f ∧ s.futs f = .result (some x) ∧ s.mustCancel t = false := by
  unfold delivered
  split
  · rename_i f hpc
    split
    · rename_i y hf hm
      simp [hpc, hf, hm]
    · rename_i hne
      simp only [reduceCtorEq, false_iff, not_exists, not_and, hpc, Pc.recvAwait.injEq]
      rintro g rfl hf
      simpa using hne x hf
  · rename_i hne
    simp only [reduceCtorEq, false_iff, not_exists, not_and]
    exact fun f hpc => absurd hpc (hne f)

theorem receiver_eq_some {f : Fut Task} {t : Task} :
    s.receiver f = some t ↔ s.futs f = .pending ∧ f.owner = t := by
  unfold receiver
  split <;> simp_all

/-- What `delivered` reads. -/
theorem delivered_congr {t : Task} (hp : s'.pc t = s.pc t) (hm : s'.mustCancel t = s.mustCancel t)
    (hf : ∀ f, s.pc t = .recvAwait f → s'.futs f = s.futs f) : s'.delivered t = s.delivered t := by
  unfold delivered
  rw [hp, hm]
  split
  · rename_i f hpc
    rw [hf f hpc]
  · rfl

section Flight

variable [Fintype Task]

theorem mem_flight {e : Option Task × Parcel Task α} :
    e ∈ s.flight ↔ (∃ c ∈ s.scheduled, resultOf c.val = some e.2 ∧ e.1 = s.receiver c.fut) ∨
      ∃ t, s.delivered t = some e.2 ∧ e.1 = some t := by
  have hl : ∀ l : List (WakeCall Task α),
      e ∈ (l.map s.carried).sum ↔ ∃ c ∈ l, resultOf c.val = some e.2 ∧ e.1 = s.receiver c.fut := by
    intro l
    induction l with
    | nil => simp
    | cons c l ih => simp [ih, carried]
  simp [flight, hl, Multiset.mem_sum]

/-- What `flight` reads. -/
theorem flight_congr (hs : s'.scheduled = s.scheduled)
    (hf : ∀ c ∈ s.scheduled, s'.receiver c.fut = s.receiver c.fut)
    (hd : ∀ t, s'.delivered t = s.delivered t) : s'.flight = s.flight := by
  unfold flight
  rw [hs, List.map_congr_left fun c hc => show s'.carried c = s.carried c by rw [carried, hf c hc, carried]]
  simp only [hd]

omit [Fintype Task] in
/-- The items a Rust call hands over. -/
theorem carried_dispatch (ts : List (WakeTarget Loop (Fut Task) Unit (Parcel Task α))) :
    ((ts.filterMap WakeTarget.call?).map s.carried).sum =
      (ts.map fun t => parcel (s.receiver t.target.future) t.item?).sum := by
  induction ts with
  | nil => rfl
  | cons t ts ih =>
    cases t with
    | waiter w v e =>
      have hv : (WakeTarget.waiter w v e : WakeTarget Loop (Fut Task) Unit (Parcel Task α)).item? =
          resultOf v := by
        rcases v with _ | ⟨⟨⟩⟩ <;> rfl
      simp only [List.filterMap_cons, WakeTarget.call?, List.map_cons, List.sum_cons, ih, hv]
      rfl
    | selectWatcher w tok =>
      rw [List.filterMap_cons_none rfl, ih, List.map_cons, List.sum_cons]
      exact (zero_add _).symm

theorem flight_dispatch {β : Type} (o : Outcome Loop (Fut Task) Unit (Parcel Task α) β) :
    (s.dispatch o).flight =
      (o.toWake.map fun t => parcel (s.receiver t.target.future) t.item?).sum + s.flight := by
  simp only [flight, Sys.dispatch, List.map_append, List.sum_append]
  rw [← carried_dispatch, add_comm ((s.scheduled.map _).sum), add_assoc]
  rfl

/-- A call that hands nothing over. -/
theorem flight_dispatch_nil {β : Type} {o : Outcome Loop (Fut Task) Unit (Parcel Task α) β}
    (h : o.handed = []) : (s.dispatch o).flight = s.flight := by
  rw [flight_dispatch, List.sum_eq_zero, zero_add]
  intro e he
  obtain ⟨t, ht, rfl⟩ := List.mem_map.1 he
  rw [item?_of_handed_nil h ht]
  rfl

/-- Nothing is in flight to a task that is not waiting. -/
theorem free_of_awake (hw : s.Wired) {t : Task} (ha : s.Awake t) (hn : s.delivered t = none) :
    Free s.flight t := by
  intro x hx
  rcases mem_flight.1 hx with ⟨c, hc, -, ho⟩ | ⟨u, hu, ho⟩
  · obtain ⟨hp, rfl⟩ := receiver_eq_some.1 ho.symm
    rcases hw.attached c.fut (List.mem_append_right _ (List.mem_map_of_mem hc)) with hcan | ⟨-, haw⟩
    · simp [hp] at hcan
    · exact ha _ haw hp
  · cases ho
    simp [hn] at hu

/-- Nothing is in flight yet to a receiver that is still queued. -/
theorem free_of_queued (hw : s.Wired) {w : ChannelWaiter Loop (Fut Task) Unit} (hq : w ∈ s.chan.queued)
    {t : Task} (ht : s.receiver w.future = some t) : Free s.flight t := by
  obtain ⟨hp, rfl⟩ := receiver_eq_some.1 ht
  have hl : w.future ∈ s.chan.queued.map ChannelWaiter.future := List.mem_map_of_mem hq
  have haw : s.awaited w.future.owner = some w.future := by
    rcases hw.attached w.future (List.mem_append_left _ hl) with hcan | ⟨-, haw⟩
    · simp [hp] at hcan
    · exact haw
  intro x hx
  rcases mem_flight.1 hx with ⟨c, hc, -, ho⟩ | ⟨u, hu, ho⟩
  · obtain ⟨hp', ho'⟩ := receiver_eq_some.1 ho.symm
    have hlc : c.fut ∈ s.scheduled.map WakeCall.fut := List.mem_map_of_mem hc
    rcases hw.attached c.fut (List.mem_append_right _ hlc) with hcan | ⟨-, haw'⟩
    · simp [hp'] at hcan
    · rw [ho', haw] at haw'
      exact (List.nodup_append.1 hw.nodup).2.2 _ hl _ hlc (by simpa using haw')
  · cases ho
    obtain ⟨f, hpc, hf, -⟩ := delivered_eq_some.1 hu
    rw [awaited_recv hpc] at haw
    cases haw
    simp [hp] at hf

/-- A scheduled wake is taken off the schedule. -/
theorem flight_erase {i : Nat} {c : WakeCall Task α} (hi : s.scheduled[i]? = some c) :
    s.flight = s.carried c + (s.unscheduled i).flight := by
  have hp : (c :: s.scheduled.eraseIdx i).Perm s.scheduled := by
    obtain ⟨hlt, rfl⟩ := List.getElem?_eq_some_iff.1 hi
    exact List.getElem_cons_eraseIdx_perm hlt
  have hsum := (hp.map s.carried).sum_eq
  rw [List.map_cons, List.sum_cons] at hsum
  rw [flight, ← hsum, add_assoc]
  rfl

/-- An accepted item is buffered, or handed to a receiver that nothing else is
in flight to. -/
theorem flight_trySend (hw : s.Wired) {x : Parcel Task α} (hr : (s.chan.trySend x).reply = .ok true) :
    ((s.chan.trySend x).state.buffer = s.chan.buffer ++ [x] ∧
      (s.dispatch (s.chan.trySend x)).flight = s.flight) ∨
    ∃ o, s.chan.buffer = [] ∧ (s.chan.trySend x).state.buffer = [] ∧
      (s.dispatch (s.chan.trySend x)).flight = (o, x) ::ₘ s.flight ∧
      ∀ t, o = some t → Free s.flight t := by
  rcases trySend_cases hw.consistent x with ⟨-, h⟩ | ⟨-, g, gs, hg, hb, h⟩ | ⟨-, -, w, ws, -, h⟩ |
    ⟨-, -, -, -, -, h⟩ | ⟨-, -, -, -, h⟩
  · rw [h] at hr
    cases hr
  · refine .inr ⟨s.receiver g.future, hb, by rw [h]; exact hb, ?_,
      fun t ht => free_of_queued hw (by simp [queued, hg]) ht⟩
    rw [flight_dispatch, h, List.map_cons, List.sum_cons, List.map_map, List.sum_eq_zero]
    · rw [add_zero]
      rfl
    · intro e he
      obtain ⟨p, -, rfl⟩ := List.mem_map.1 he
      rfl
  · exact .inl ⟨by rw [h], flight_dispatch_nil (by rw [h]; rfl)⟩
  · rw [h] at hr
    cases hr
  · exact .inl ⟨by rw [h], flight_dispatch_nil (by rw [h]; rfl)⟩

variable [DecidableEq Task]

/-- A new program counter for a task that no item is delivered to. -/
theorem flight_goto {t : Task} {p : Pc Task α} (hn : s.delivered t = none) (hp : ∀ f, p ≠ .recvAwait f) :
    (s.goto t p).flight = s.flight := by
  refine flight_congr rfl (fun _ _ => rfl) fun u => ?_
  by_cases hu : u = t
  · subst hu
    rw [hn, delivered_of_ne]
    simpa [Sys.goto] using hp
  · exact delivered_congr (by simp [Sys.goto, hu]) rfl fun _ _ => rfl

theorem flight_raise {t : Task} {p : Pc Task α} (hn : s.delivered t = none) (hp : ∀ f, p ≠ .recvAwait f) :
    (s.raise t p).flight = s.flight := by
  refine flight_congr rfl (fun _ _ => rfl) fun u => ?_
  by_cases hu : u = t
  · subst hu
    rw [hn, delivered_of_ne]
    simpa [Sys.raise] using hp
  · exact delivered_congr (by simp [Sys.raise, hu]) (by simp [Sys.raise, hu]) fun _ _ => rfl

/-- A task that no item is delivered to starts to await a future of its own
that is pending and not live. -/
theorem flight_await (hw : s.Wired) {t : Task} {f : Fut Task} {p : Pc Task α} (hn : s.delivered t = none)
    (hl : f ∉ s.live) (ho : f.owner = t) (hp : s.futs f = .pending) (hf : p.fut? = some f) :
    (s.await t f p).flight = s.flight := by
  have hne : ∀ g, g ≠ f → (s.await t f p).futs g = s.futs g := by
    intro g hg
    simp only [Sys.await]
    split
    · exact Function.update_of_ne hg _ _
    · rfl
  refine flight_congr rfl (fun c hc => ?_) fun u => ?_
  · unfold receiver
    rw [hne c.fut fun e => hl (e ▸ List.mem_append_right _ (List.mem_map_of_mem hc))]
  · by_cases hu : u = t
    · subst hu
      rw [hn, Option.eq_none_iff_forall_ne_some]
      intro x hx
      obtain ⟨g, hpc, hg, -⟩ := delivered_eq_some.1 hx
      obtain rfl : p = .recvAwait g := by simpa [Sys.await] using hpc
      obtain rfl : g = f := by simpa [Pc.fut?] using hf
      cases hm : s.mustCancel u <;> simp [Sys.await, hm, hp] at hg
    · refine delivered_congr (by simp [Sys.await, hu]) (by simp [Sys.await, hu]) fun g hg => hne g ?_
      rintro rfl
      exact hu ((hw.owner u g (by rw [hg]; rfl)).1.symm.trans ho)

/-- The future of another task's wake changes state: only what is delivered to
its owner may change. -/
theorem flight_setFut (hw : s.Wired) {f : Fut Task} (st : FutState (Option (Parcel Task α)))
    (hl : ∀ c ∈ s.scheduled, c.fut ≠ f) :
    (s.withFut f st).flight +
        parcel (some f.owner) (s.delivered f.owner) =
      s.flight + parcel (some f.owner)
        ((s.withFut f st).delivered f.owner) := by
  set s' := s.withFut f st with hs'
  have hsched : (s'.scheduled.map s'.carried).sum = (s.scheduled.map s.carried).sum := by
    refine congrArg List.sum (List.map_congr_left fun c hc => ?_)
    simp [carried, receiver, hs', hl c hc]
  have hsum := sum_step (f := fun t => parcel (some t) (s.delivered t))
    (g := fun t => parcel (some t) (s'.delivered t)) f.owner fun u hu => by
      refine congrArg _ (delivered_congr rfl rfl fun g hg => ?_)
      have hne : g ≠ f := by
        rintro rfl
        exact hu (hw.owner u g (by rw [hg]; rfl)).1.symm
      simp [hs', hne]
  rw [flight, flight, hsched, add_assoc, hsum, add_assoc]

/-- A wake moves its item to the receiver about to resume. -/
theorem flight_wake (hw : s.Wired) {i : Nat} {c : WakeCall Task α}
    {st : FutState (Option (Parcel Task α))} (hi : s.scheduled[i]? = some c)
    (hp : s.futs c.fut = .pending)
    (hst : st = .exception ∧ c.isExc = true ∨ st = .result (resultOf c.val) ∧ c.isExc = false) :
    ((s.unscheduled i).withFut c.fut st).flight = s.flight := by
  obtain ⟨hw₀, hl⟩ := hw.unschedule hi
  have hmem := List.mem_of_getElem? hi
  have haw : s.awaited c.fut.owner = some c.fut := by
    rcases hw.attached c.fut (List.mem_append_right _ (List.mem_map_of_mem hmem)) with hcan | ⟨-, h⟩
    · simp [hp] at hcan
    · exact h
  have hset := flight_setFut hw₀ st fun d hd he =>
    hl (List.mem_append_right _ (List.mem_map.2 ⟨d, hd, he⟩))
  have hbefore : (s.unscheduled i).delivered
      c.fut.owner = none := by
    rw [Option.eq_none_iff_forall_ne_some]
    intro x hx
    obtain ⟨f, hpc, hf, -⟩ := delivered_eq_some.1 hx
    obtain rfl : f = c.fut := by simpa [awaited_recv (s := s) hpc] using haw
    simp [hp] at hf
  have hafter : ((s.unscheduled i).withFut c.fut st).delivered c.fut.owner = resultOf c.val := by
    ext x
    rw [delivered_eq_some]
    constructor
    · rintro ⟨f, hpc, hf, -⟩
      obtain rfl : f = c.fut := by simpa [awaited_recv (s := s) hpc] using haw
      rcases hst with ⟨rfl, -⟩ | ⟨rfl, -⟩
      · simp at hf
      · simpa using hf
    · intro hx
      have hval : c.val = some (.item x) := by
        unfold resultOf at hx
        split at hx <;> simp_all
      obtain ⟨he, hch⟩ := hw.item_ch c hmem x hval
      obtain ⟨y, hpc⟩ | hpc := awaited_eq_some.1 haw
      · have := hw.kind c.fut.owner
        simp [hpc, Pc.Kind, hch] at this
      · refine ⟨c.fut, hpc, ?_, hw.pending _ _ haw hp⟩
        rcases hst with ⟨-, he'⟩ | ⟨rfl, -⟩
        · simp [he] at he'
        · simpa using hx
  rw [hbefore, hafter] at hset
  rw [flight_erase hi, carried, receiver_eq_some.2 ⟨hp, rfl⟩, add_comm, ← hset]
  exact (add_zero _).symm

/-- Cancelling a receiver leaves the item in flight to it, if any, to be put
back. -/
theorem flight_cancelFut (hw : s.Wired) {f : Fut Task} (haw : s.awaited f.owner = some f)
    (hp : s.futs f = .pending) :
    (s.withFut f .cancelled).flight = s.flight ∨
    ∃ x F, s.flight = (some f.owner, x) ::ₘ F ∧
      (s.withFut f .cancelled).flight = (none, x) ::ₘ F := by
  have hnone : ∀ s' : Sys Loop Task α, s'.pc = s.pc → (∀ x, s'.futs f ≠ .result (some x)) →
      s'.delivered f.owner = none := by
    intro s' hpc hf
    rw [Option.eq_none_iff_forall_ne_some]
    intro x hx
    obtain ⟨g, hg, hr, -⟩ := delivered_eq_some.1 hx
    rw [hpc] at hg
    obtain rfl : g = f := by simpa [awaited_recv hg] using haw
    exact hf x hr
  by_cases hl : ∃ c ∈ s.scheduled, c.fut = f
  · obtain ⟨c, hc, rfl⟩ := hl
    obtain ⟨i, hi, rfl⟩ := List.getElem_of_mem hc
    have hi' : s.scheduled[i]? = some s.scheduled[i] := List.getElem?_eq_getElem hi
    obtain ⟨hw₀, hl⟩ := hw.unschedule hi'
    have hset := flight_setFut hw₀ .cancelled fun d hd he =>
      hl (List.mem_append_right _ (List.mem_map.2 ⟨d, hd, he⟩))
    rw [hnone (s.unscheduled i) rfl (by simp [hp]),
      hnone ((s.unscheduled i).withFut s.scheduled[i].fut .cancelled) rfl (by simp)] at hset
    have hset := add_right_cancel hset
    have he := flight_erase hi'
    have he' := flight_erase (s := (s.withFut s.scheduled[i].fut .cancelled)) hi'
    rw [carried, receiver_eq_some.2 ⟨hp, rfl⟩] at he
    rw [carried, show receiver (s.withFut s.scheduled[i].fut .cancelled)
      s.scheduled[i].fut = none by simp [receiver]] at he'
    rcases hv : resultOf s.scheduled[i].val with _ | x
    · left
      rw [he, he', hv]
      exact congrArg _ hset
    · right
      refine ⟨x, _, by rw [he, hv]; rfl, ?_⟩
      rw [he', hv]
      exact congrArg _ hset
  · left
    have hset := flight_setFut hw .cancelled fun d hd he => hl ⟨d, hd, he⟩
    rw [hnone s rfl (by simp [hp]), hnone (s.withFut f .cancelled) rfl
      (by simp)] at hset
    exact add_right_cancel hset

/-! ## Steps of the conveyor -/

omit [DecidableEq Task] in
theorem view_eq (hb : s'.chan.buffer = s.chan.buffer) (hf : s'.flight = s.flight)
    (hr : s'.received = s.received) (ha : s'.accepted = s.accepted) : s'.view = s.view := by
  simp [view, hb, hf, hr, ha]

variable {r : Parcel Task α → Parcel Task α → Prop}

omit [DecidableEq Task] in
/-- A `try_send` that accepts a new item. -/
theorem view_accept (hw : s.Wired) {x : Parcel Task α} (hr : (s.chan.trySend x).reply = .ok true)
    (hn : ∀ y ∈ s.accepted, r y x) :
    Step r s.view ((s.dispatch (s.chan.trySend x)).accept x).view := by
  change Step r s.view ⟨(s.chan.trySend x).state.buffer, (s.dispatch (s.chan.trySend x)).flight,
    s.received, s.accepted ++ [x]⟩
  rcases flight_trySend hw hr with ⟨hb, hf⟩ | ⟨o, hb, hb', hf, hfree⟩
  · rw [hb, hf]
    exact .accept hn
  · rw [hb'.trans hb.symm, hf]
    exact .handOver hn hb hfree

omit [DecidableEq Task] in
/-- A `try_recv` that takes an item for a task that waits for none. -/
theorem view_take (hw : s.Wired) {t : Task} {x : Parcel Task α} (ha : s.Awake t)
    (hn : s.delivered t = none) (hr : s.chan.tryRecv.reply = .ok (true, some x)) :
    Step r s.view ((s.dispatch s.chan.tryRecv).receive t x).view := by
  obtain ⟨hb, hh⟩ := tryRecv_items (s := s.chan)
  rw [hr, returned_some, List.singleton_append] at hb
  change Step r s.view ⟨s.chan.tryRecv.state.buffer, (s.dispatch s.chan.tryRecv).flight,
    s.received ++ [(t, x)], s.accepted⟩
  rw [flight_dispatch_nil hh]
  exact .take hb.symm (free_of_awake hw ha hn)

omit [DecidableEq Task] in
/-- The item of a receiver that was cancelled before its wake ran is put back. -/
theorem view_requeue (hw : s.Wired) {i : Nat} {c : WakeCall Task α} {x : Parcel Task α}
    (hi : s.scheduled[i]? = some c) (hp : s.futs c.fut ≠ .pending) (hx : c.val = some (.item x))
    (hr : (s.chan.trySend x).reply = .ok true) (hl : ∀ y ∈ s.accepted, y ≠ x → r y x) :
    Step r s.view ((s.unscheduled i).dispatch (s.chan.trySend x)).view := by
  have hk : s.view.flight = (none, x) ::ₘ (s.unscheduled i).flight := by
    refine (flight_erase hi).trans ?_
    rw [carried, hx]
    have hnone : s.receiver c.fut = none := by
      rw [Option.eq_none_iff_forall_ne_some]
      exact fun t ht => hp (receiver_eq_some.1 ht).1
    rw [hnone]
    rfl
  change Step r s.view ⟨(s.chan.trySend x).state.buffer,
    ((s.unscheduled i).dispatch (s.chan.trySend x)).flight, s.received, s.accepted⟩
  rcases flight_trySend (hw.unschedule hi).1 hr with ⟨hb, hf⟩ | ⟨o, hb, hb', hf, hfree⟩
  · rw [show (s.chan.trySend x).state.buffer = s.chan.buffer ++ [x] from hb,
      show ((s.unscheduled i).dispatch (s.chan.trySend x)).flight = _ from hf]
    exact .requeue hk hl
  · rw [show (s.chan.trySend x).state.buffer = s.chan.buffer from hb'.trans hb.symm,
      show ((s.unscheduled i).dispatch (s.chan.trySend x)).flight = _ from hf]
    exact .rehand hk hl hb hfree

/-- A receiver whose item was set on its future resumes. -/
theorem view_resume {t : Task} {x : Parcel Task α} {f : Fut Task} (hpc : s.pc t = .recvAwait f)
    (hf : s.futs f = .result (some x)) (hm : s.mustCancel t = false) :
    Step r s.view ((s.receive t x).goto t .idle).view := by
  have hd : s.delivered t = some x := delivered_eq_some.2 ⟨f, hpc, hf, hm⟩
  have hd' : ((s.receive t x).goto t .idle).delivered t = none :=
    delivered_of_ne (by simp [Sys.goto])
  have hne : ∀ u, u ≠ t → ((s.receive t x).goto t .idle).delivered u = s.delivered u := fun u hu =>
    delivered_congr (by simp [Sys.goto, Sys.receive, hu]) rfl fun _ _ => rfl
  have hsum := sum_step (f := fun u => parcel (some u) (((s.receive t x).goto t .idle).delivered u))
    (g := fun u => parcel (some u) (s.delivered u)) t fun u hu => by rw [hne u hu]
  have hk : s.flight = (some t, x) ::ₘ ((s.receive t x).goto t .idle).flight := by
    simp only [hd, hd', parcel_some, parcel_none, add_zero] at hsum
    rw [flight, hsum, ← add_assoc, add_comm _ {((some t, x) : Option Task × Parcel Task α)}]
    rfl
  exact .deliver (F := ((s.receive t x).goto t .idle).flight) hk

/-- The condition on a step: a task is not cancelled after its item was set on
its future and before it resumes; and when a wake finds its receiver
cancelled, the channel is open and takes the item, which is `r`-above the other
accepted ones. -/
def Ok (r : Parcel Task α → Parcel Task α → Prop) (s : Sys Loop Task α) : Action Task α → Prop
  | .cancel t => s.delivered t = none
  | .wake i => ∀ c x, s.scheduled[i]? = some c → c.val = some (.item x) → s.futs c.fut ≠ .pending →
    s.chan.HasPlace ∧ ∀ y ∈ s.accepted, y ≠ x → r y x
  | _ => True

/-- A step that meets the condition is a step of the conveyor, or none. -/
theorem Move.view_step {a : Action Task α} (hm : Move home s a s') (hw : s.Wired) (hn : s.Numbered)
    (hok : s.Ok r a) (hr : ∀ y x : Parcel Task α, y.Before x → r y x) :
    s'.view = s.view ∨ Step r s.view s'.view := by
  have hawake := fun t (e : a = .advance t) => (e ▸ hm : Move home s (.advance t) s').awake
  cases hm with
  | send hpc =>
    exact .inl (view_eq rfl (flight_goto (delivered_of_ne (by simp [Sys.call, hpc])) (by simp)) rfl rfl)
  | trySend hpc hrep =>
    exact .inr (view_accept (hw.call _ _) hrep fun y hy => hr y _ (hn.call_new _ _ y hy))
  | trySendFail | tryRecvFail => exact .inl rfl
  | recv hpc =>
    exact .inl (view_eq rfl (flight_goto (delivered_of_ne (by simp [hpc])) (by simp)) rfl rfl)
  | tryRecv hpc hrep =>
    exact .inr (view_take hw (awake_of_pc hpc) (delivered_of_ne (by simp [hpc])) hrep)
  | close => exact .inl (view_eq close_items.2 (flight_dispatch_nil close_items.1) rfl rfl)
  | sendOk hpc hrep =>
    refine .inr ?_
    rename_i t x
    have hi : (s.pc t).item? = some x := by rcases hpc with ⟨o, hpc⟩ | ⟨f, hpc⟩ <;> rw [hpc] <;> rfl
    have hne : ∀ f, s.pc t ≠ .recvAwait f := by
      intro f hf
      simp [hf, Pc.item?] at hi
    have hv : ((((s.dispatch (s.chan.trySend x)).accept x).goto t .idle).view : Conveyor _ _) =
        ((s.dispatch (s.chan.trySend x)).accept x).view :=
      view_eq rfl (flight_goto (delivered_of_ne hne) (by simp)) rfl rfl
    rw [hv]
    exact view_accept hw hrep fun y hy => hr y x ((hn.sending t x hi).2.2 y hy)
  | sendFull hpc | registerRoom hpc | recvEmpty hpc =>
    exact .inl (view_eq rfl (flight_goto (delivered_of_ne (by simp [Sys.createFuture, hpc])) (by simp)) rfl rfl)
  | closed hpc =>
    refine .inl (view_eq rfl (flight_goto (delivered_of_ne ?_) (by simp)) rfl rfl)
    rcases hpc with ⟨x, o, hpc⟩ | ⟨x, f, hpc⟩ | hpc <;> simp [hpc]
  | registerClosed hpc =>
    refine .inl (view_eq rfl (flight_goto (delivered_of_ne ?_) (by simp)) rfl rfl)
    rcases hpc with ⟨x, hpc⟩ | hpc <;> simp [Sys.createFuture, hpc]
  | @sendRetryFull t x f hpc =>
    refine .inl (view_eq rfl (flight_await hw (delivered_of_ne (by simp [hpc])) (hw.retry_not_live hpc)
      (hw.owner t f (by rw [hpc]; rfl)).1 (hw.retry t x f hpc) rfl) rfl rfl)
  | @registerPutter t x hpc =>
    refine .inl (view_eq rfl ((flight_dispatch_nil rfl).trans ?_) rfl rfl)
    exact flight_await (hw.createFuture t false) (delivered_of_ne (by simp [Sys.createFuture, hpc]))
      (hw.next t false).2 rfl (hw.next t false).1 rfl
  | @registerGetter t hpc =>
    refine .inl (view_eq rfl ((flight_dispatch_nil rfl).trans ?_) rfl rfl)
    exact flight_await (hw.createFuture t true) (delivered_of_ne (by simp [Sys.createFuture, hpc]))
      (hw.next t true).2 rfl (hw.next t true).1 rfl
  | @unregisterPutter t f hpc =>
    refine .inl (view_eq (unregisterPutter_items f).2
      ((flight_goto (delivered_of_ne (by simp [Sys.dispatch, hpc])) (by simp)).trans
        (flight_dispatch_nil (unregisterPutter_items f).1)) rfl rfl)
  | @unregisterGetter t f hpc =>
    have hg := unregisterGetter_items hw.consistent f
    exact .inl (view_eq hg.2
      ((flight_goto (delivered_of_ne (by simp [Sys.dispatch, hpc])) (by simp)).trans
        (flight_dispatch_nil hg.1)) rfl rfl)
  | @recvOk t x s₁ hpc hrep =>
    refine .inr ?_
    have hne : s.delivered t = none := delivered_of_ne (by
      rcases hpc with ⟨hpc, -⟩ | ⟨hpc, -⟩ <;> simp [hpc])
    have h₁ : s₁.Wired ∧ s₁.chan = s.chan ∧ s₁.Awake t ∧ s₁.delivered t = none ∧ s₁.view = s.view := by
      rcases hpc with ⟨-, rfl⟩ | ⟨-, rfl⟩
      · exact ⟨hw, rfl, hawake t rfl, hne, rfl⟩
      · exact ⟨hw.createFuture t true, rfl, hawake t rfl, hne, rfl⟩
    obtain ⟨hw₁, hc, ha, hd, hv⟩ := h₁
    rw [← hc] at hrep ⊢
    rw [← hv]
    have hg : ((((s₁.dispatch s₁.chan.tryRecv).receive t x).goto t .idle).view : Conveyor _ _) =
        ((s₁.dispatch s₁.chan.tryRecv).receive t x).view :=
      view_eq rfl (flight_goto hd (by simp)) rfl rfl
    rw [hg]
    exact view_take hw₁ ha hd hrep
  | resumeSend hpc =>
    exact .inl (view_eq rfl (flight_goto (delivered_of_ne (by simp [hpc])) (by simp)) rfl rfl)
  | raiseSend hpc =>
    exact .inl (view_eq rfl (flight_raise (delivered_of_ne (by simp [hpc])) (by simp)) rfl rfl)
  | resumeRecv hpc hf hmc => exact .inr (view_resume hpc hf hmc)
  | @resumeNone t f hpc hf =>
    refine .inl (view_eq rfl (flight_goto ?_ (by simp)) rfl rfl)
    simp [delivered, hpc, hf]
  | @raiseRecv t f hpc hf hv =>
    refine .inl (view_eq rfl (flight_raise ?_ (by simp)) rfl rfl)
    rw [Option.eq_none_iff_forall_ne_some]
    intro x hx
    obtain ⟨g, hg, hr, hmc⟩ := delivered_eq_some.1 hx
    rw [hpc] at hg
    cases hg
    simp [hv x hr] at hmc
  | @cancelFut t f hf hp =>
    have haw : s.awaited f.owner = some f := (hw.owner t f (awaited_fut? hf)).1 ▸ hf
    rcases flight_cancelFut hw haw hp with he | ⟨x, F, he, he'⟩
    · exact .inl (view_eq rfl he rfl rfl)
    · refine .inr ?_
      change Step r s.view ⟨s.chan.buffer, (s.withFut f .cancelled).flight, s.received, s.accepted⟩
      rw [he']
      exact .abandon he
  | @cancelTask t =>
    refine .inl (view_eq rfl (flight_congr rfl (fun _ _ => rfl) fun u => ?_) rfl rfl)
    by_cases hu : u = t
    · subst hu
      rw [show s.delivered u = none from hok, Option.eq_none_iff_forall_ne_some]
      intro x hx
      obtain ⟨f, -, -, hmc⟩ := delivered_eq_some.1 hx
      simp at hmc
    · exact delivered_congr rfl (by simp [hu]) fun _ _ => rfl
  | wake hi hp hst => exact .inl (view_eq rfl (flight_wake hw hi hp hst) rfl rfl)
  | @requeue i c x hi hp hx =>
    obtain ⟨hplace, hl⟩ := hok c x hi hx hp
    exact .inr (view_requeue hw hi hp hx (trySend_of_hasPlace hw.consistent hplace x) hl)
  | @drop i c hi hp hx =>
    refine .inl (view_eq rfl ?_ rfl rfl)
    have hval : resultOf c.val = none := by
      unfold resultOf
      split
      · rename_i x hval
        obtain ⟨he, hch⟩ := hw.item_ch c (List.mem_of_getElem? hi) x hval
        have ho := (hok c x hi hval hp).1.1
        rcases hx x hval with h | h | h <;> simp_all
      · rfl
    rw [flight_erase hi, carried, hval]
    exact (zero_add _).symm

end Flight

end Sys

/-! ## Every run -/

section Runs

variable [DecidableEq Task] [Fintype Task] {home : Task → Loop} {maxsize : Nat} {s : Sys Loop Task α}

/-- In a run whose steps all meet the condition for `r`, the channel is a
conveyor for `r`. -/
theorem conveyor_of_reachable {r : Parcel Task α → Parcel Task α → Prop} (hirr : ∀ x, ¬ r x x)
    (hr : ∀ y x : Parcel Task α, y.Before x → r y x)
    (h : (tasks home maxsize).ReachableWhen (Sys.Ok r) s) : Conveyor.Inv r s.view := by
  have hi : s.Wired ∧ s.Numbered ∧ Conveyor.Inv r s.view := by
    refine h.inv (I := fun s => s.Wired ∧ s.Numbered ∧ Conveyor.Inv r s.view) (fun s hs => ?_)
      fun s a s' ⟨hw, hn, hv⟩ hok hst => ?_
    · obtain rfl : s = Sys.new maxsize := hs
      refine ⟨Sys.wired_new maxsize, ⟨by simp [Sys.new], by simp [Sys.new, Pc.item?]⟩, ?_⟩
      have hv : (Sys.new maxsize : Sys Loop Task α).view = ⟨[], 0, [], []⟩ := by
        simp [Sys.view, Sys.flight, Sys.new, Channel.new, Sys.delivered]
      rw [hv]
      exact inv_empty
    · have hm := Sys.move_of_step hw.consistent hst
      refine ⟨hw.step hst, hm.numbered hn, ?_⟩
      rcases hm.view_step hw hn hok hr with he | hstep
      · rwa [he]
      · exact hv.step hirr hstep
  exact hi.2.2

/-- In every run that cancels no receiver that has its item already, and puts
items back only where they find a place and behind no later item of their
sender: every accepted item is in exactly one place (the buffer, a hand-off in
flight, one receive), nothing else is anywhere, and every task receives the
items of every sender in order. -/
theorem one_place_in_order [DecidableEq α]
    (h : (tasks home maxsize).ReachableWhen (Sys.Ok Parcel.Before) s) :
    (∀ x : Parcel Task α,
      s.chan.buffer.count x + (s.flight.map Prod.snd).count x + (s.received.map Prod.snd).count x =
        if x ∈ s.accepted then 1 else 0) ∧
    s.received.Pairwise fun a b => a.1 = b.1 → a.2.sender = b.2.sender → a.2.seq < b.2.seq := by
  have hi := conveyor_of_reachable Parcel.not_before_self (fun _ _ hb => hb) h
  exact ⟨hi.count, hi.inOrder⟩

end Runs

/-- A receiver that is cancelled while its item is in flight, before the wake
runs: the wake puts the item back. -/
theorem one_place_in_order_put_back : ∃ s : Sys Unit Bool Nat,
    s.chan.buffer = [⟨true, 0, 7⟩] ∧ s.pc false = .recvUnregister ⟨false, 0, true⟩ ∧
    (∀ x : Parcel Bool Nat,
      s.chan.buffer.count x + (s.flight.map Prod.snd).count x + (s.received.map Prod.snd).count x =
        if x ∈ s.accepted then 1 else 0) ∧
    s.received.Pairwise fun a b => a.1 = b.1 → a.2.sender = b.2.sender → a.2.seq < b.2.seq := by
  have h : (tasks (fun _ => ()) 1).ReachableWhen (Sys.Ok Parcel.Before) (Sys.new 1 : Sys Unit Bool Nat) :=
    .init rfl
  have h := h.next (.recv false) trivial rfl
  have h := h.next (.advance false) trivial rfl
  have h := h.next (.advance false) trivial rfl
  have h := h.next (.trySend true 7) trivial rfl
  have h := h.next (.cancel false) rfl rfl
  have h := h.next (.wake 0) (by
    rintro c x hc hx -
    cases hc
    cases hx
    exact ⟨⟨rfl, .inr (.inr Nat.one_pos)⟩, fun y hy hne => absurd (List.mem_singleton.1 hy) hne⟩) rfl
  have h := h.next (.resume false) trivial rfl
  exact ⟨_, rfl, rfl, one_place_in_order h⟩

/-- A receiver that is cancelled after the wake set its item, and before it
resumes, loses the item: it was accepted and is in no place. -/
theorem cancelled_receiver_loses_item : ∃ s : Sys Unit Bool Nat,
    (tasks (fun _ => ()) 0).Reachable s ∧ (⟨true, 0, 7⟩ : Parcel Bool Nat) ∈ s.accepted ∧
      s.chan.buffer.count ⟨true, 0, 7⟩ + (s.flight.map Prod.snd).count ⟨true, 0, 7⟩ +
        (s.received.map Prod.snd).count ⟨true, 0, 7⟩ = 0 :=
  System.exists_reachable_of_run [.recv false, .advance false, .advance false, .trySend true 7,
    .wake 0, .cancel false] (s := Sys.new 0) rfl (by decide +kernel)

end Multiloop.Channel
