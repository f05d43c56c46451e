import Multiloop.Channel.History
import Multiloop.Framework.Transition

/-!
# The capacity of a bounded channel

Runs of operations on a fresh `RawAsyncChannel` of positive `maxsize`. Every
operation but `try_send` only takes items out of the buffer; `try_send` puts
one in where no receiver waits. It looks at the capacity in the branch without
waiters, and not in the one that wakes a selector (`OverfillsFor`), where it
pushes onto a full buffer.
-/

namespace Multiloop.Channel

variable {Loop Fut Tok Item : Type}

namespace ChannelState

/-- The call sends to a full buffer on which a selector is registered. -/
def OverfillsFor (s : ChannelState Loop Fut Tok Item) : Op Loop Fut Tok Item → Prop
  | .trySend _ => s.isClosed = false ∧ s.getters = [] ∧ s.selectWatchers ≠ [] ∧ s.maxsize ≤ s.buffer.length
  | _ => False

end ChannelState

variable [DecidableEq Fut]

/-- The runs of operations on a fresh channel. -/
def operations (maxsize : Nat) : System (ChannelState Loop Fut Tok Item) (Op Loop Fut Tok Item) where
  init s := s = new maxsize
  step s op := some (s.exec op).2

namespace ChannelState

variable {s : ChannelState Loop Fut Tok Item} {maxsize : Nat}

omit [DecidableEq Fut] in
theorem registerGetter_maxsize (l : Loop) (f : Fut) : (s.registerGetter l f).state.maxsize = s.maxsize := by
  rcases registerGetter_cases (s := s) l f with ⟨-, -, h⟩ | ⟨-, h⟩ | ⟨-, -, h⟩ <;> rw [h]
  rcases tryRecv_cases (s := s) with ⟨x, xs, -, e⟩ | ⟨-, -, e⟩ | ⟨-, -, e⟩ <;> rw [e]

/-- No operation changes the capacity. -/
theorem exec_maxsize (hc : s.Consistent) (op : Op Loop Fut Tok Item) : (s.exec op).2.maxsize = s.maxsize := by
  cases op with
  | trySend x => exact trySend_maxsize hc x
  | tryRecv =>
    show s.tryRecv.state.maxsize = s.maxsize
    rcases tryRecv_cases (s := s) with ⟨x, xs, -, h⟩ | ⟨-, -, h⟩ | ⟨-, -, h⟩ <;> rw [h]
  | registerGetter l f => exact registerGetter_maxsize l f
  | unregisterGetter f =>
    show (s.unregisterGetter f).state.maxsize = s.maxsize
    rcases unregisterGetter_cases hc f with ⟨r, h⟩ | ⟨w, ws, -, -, -, h⟩ <;> rw [h]
  | registerPutter l f =>
    show (s.registerPutter l f).state.maxsize = s.maxsize
    rcases registerPutter_cases (s := s) l f with ⟨-, h⟩ | ⟨-, -, -, h⟩ | ⟨-, -, h⟩ <;> rw [h]
  | unregisterPutter f =>
    show (s.unregisterPutter f).state.maxsize = s.maxsize
    rcases unregisterPutter_cases (s := s) f with ⟨r, h, -⟩ | ⟨p, ps, -, -, -, h⟩ <;> rw [h]
  | registerSelectWatcher l f t =>
    show (s.registerSelectWatcher l f t).state.maxsize = s.maxsize
    rcases registerSelectWatcher_cases (s := s) l f t with ⟨-, h⟩ | ⟨-, -, h⟩ <;> rw [h]
  | unregisterSelectWatcher f => rfl
  | forwardSelectWakeup =>
    show s.forwardSelectWakeup.state.maxsize = s.maxsize
    rcases forwardSelectWakeup_cases (s := s) with ⟨-, h⟩ | ⟨-, -, w, ws, -, h⟩ <;> rw [h]
  | close =>
    show s.close.state.maxsize = s.maxsize
    rcases close_cases (s := s) with ⟨-, h⟩ | ⟨-, h⟩ <;> rw [h]

/-- The buffer grows by what is sent, if at all. -/
theorem exec_length_le (hc : s.Consistent) (op : Op Loop Fut Tok Item) :
    (s.exec op).2.buffer.length ≤ s.buffer.length + (s.exec op).1.sent.length := by
  have hitems := congrArg List.length (exec_spec hc op).items
  simp only [List.length_append] at hitems
  omega

omit [DecidableEq Fut] in
/-- A send that is not made to a full buffer for a selector keeps the bound. -/
theorem trySend_length_le (hc : s.Consistent) (hm : 0 < s.maxsize) (hle : s.buffer.length ≤ s.maxsize) (x : Item)
    (hok : ¬ s.OverfillsFor (.trySend x)) : (s.trySend x).state.buffer.length ≤ s.maxsize := by
  rcases trySend_cases hc x with ⟨-, h⟩ | ⟨-, g, gs, -, -, h⟩ | ⟨ho, hg, w, ws, hw, h⟩ | ⟨-, -, -, -, -, h⟩ |
    ⟨-, -, -, hroom, h⟩ <;> rw [h]
  · exact hle
  · exact hle
  · have hlt : s.buffer.length < s.maxsize := by
      by_contra hge
      exact hok ⟨ho, hg, by simp [hw], by omega⟩
    simp only [List.length_append, List.length_singleton]
    omega
  · exact hle
  · simp only [List.length_append, List.length_singleton]
    omega

omit [DecidableEq Fut] in
/-- Where no receiver waits, what such a send accepts had a place in the buffer. -/
theorem room_of_accepted (hc : s.Consistent) (hm : 0 < s.maxsize) {x : Item}
    (hok : ¬ s.OverfillsFor (.trySend x)) (hr : (s.trySend x).reply = .ok true) (hg : s.getters = []) :
    s.buffer.length < s.maxsize := by
  rcases trySend_cases hc x with ⟨-, h⟩ | ⟨-, g, gs, hgs, -, -⟩ | ⟨ho, -, w, ws, hw, -⟩ | ⟨-, -, -, -, -, h⟩ |
    ⟨-, -, -, hroom, -⟩
  · simp [h] at hr
  · simp [hg] at hgs
  · by_contra hge
    exact hok ⟨ho, hg, by simp [hw], by omega⟩
  · simp [h] at hr
  · omega

/-- A send to a full buffer for a selector exceeds the bound. -/
theorem overfills (op : Op Loop Fut Tok Item) (h : s.OverfillsFor op) : s.maxsize < (s.exec op).2.buffer.length := by
  cases op with
  | trySend x =>
    obtain ⟨ho, hg, hw, hfull⟩ := h
    obtain ⟨w, ws, hw⟩ := List.exists_cons_of_ne_nil hw
    have hlen : (s.exec (.trySend x)).2.buffer.length = s.buffer.length + 1 := by
      simp [exec, trySend, ho, hg, hw]
    omega
  | _ => exact h.elim

/-- What holds of a channel on which no send overfilled the buffer. -/
structure Within (maxsize : Nat) (s : ChannelState Loop Fut Tok Item) : Prop where
  consistent : s.Consistent
  capacity : s.maxsize = maxsize
  length_le : s.buffer.length ≤ maxsize

theorem Within.step (h : s.Within maxsize) (hm : 0 < maxsize) (op : Op Loop Fut Tok Item)
    (hok : ¬ s.OverfillsFor op) : (s.exec op).2.Within maxsize := by
  have hmax := h.capacity
  have hle := h.length_le
  refine ⟨(exec_spec h.consistent op).consistent, (exec_maxsize h.consistent op).trans hmax, ?_⟩
  have hgrow := exec_length_le h.consistent op
  cases op with
  | trySend x =>
    have hlen := trySend_length_le h.consistent (by omega) (by omega) x hok
    exact hmax ▸ hlen
  | _ => exact Nat.le_trans hgrow hle

theorem within_of_reachable (hm : 0 < maxsize)
    (h : (operations maxsize).ReachableWhen (fun s op => ¬ s.OverfillsFor op) s) : s.Within maxsize := by
  apply h.inv
  · intro s hs
    obtain rfl : s = new maxsize := hs
    exact ⟨consistent_new maxsize, rfl, Nat.zero_le _⟩
  · intro s op s' hi hok hst
    cases hst
    exact hi.step hm op hok

/-- Over every run of operations in which no item is sent to a full buffer for
a registered selector, the buffer never exceeds `maxsize`, and `try_send`
accepts an item without a waiting receiver only if the buffer had room. Every
send that is left out exceeds the bound. -/
theorem capacity_bound (hm : 0 < maxsize)
    (h : (operations maxsize).ReachableWhen (fun s op => ¬ s.OverfillsFor op) s) :
    s.buffer.length ≤ maxsize ∧
    (∀ x, ¬ s.OverfillsFor (.trySend x) → (s.trySend x).reply = .ok true → s.getters = [] →
      s.buffer.length < maxsize) ∧
    ∀ op, s.OverfillsFor op → maxsize < (s.exec op).2.buffer.length := by
  have hw := within_of_reachable hm h
  have hmax := hw.capacity
  refine ⟨hw.length_le, fun x hok hr hg => ?_, fun op ho => ?_⟩
  · have hroom := room_of_accepted hw.consistent (by omega) hok hr hg
    omega
  · have hover := overfills op ho
    omega

/-- A selector is registered, and the buffer of one place is filled. -/
theorem capacity_bound_one : ∃ s : ChannelState Unit Nat Unit Nat,
    s.buffer = [7] ∧ s.buffer.length ≤ 1 := by
  have h₀ : (operations 1).ReachableWhen (fun (s : ChannelState Unit Nat Unit Nat) op => ¬ s.OverfillsFor op)
    (new 1) := .init rfl
  have h₁ := h₀.next (.registerSelectWatcher () 1 ()) (fun h => h) rfl
  have h₂ := h₁.next (.trySend 7) (fun h => absurd h.2.2.2 (by decide)) rfl
  exact ⟨_, rfl, (capacity_bound (by decide) h₂).1⟩

/-- Two selectors are registered on a channel of capacity one: the second send
finds the buffer full, and pushes. -/
theorem selector_overfills : ∃ s : ChannelState Unit Nat Unit Nat,
    (operations 1).Reachable s ∧ ¬ s.buffer.length ≤ 1 :=
  System.exists_reachable_of_run
    [.registerSelectWatcher () 1 (), .registerSelectWatcher () 2 (), .trySend 7, .trySend 8] rfl (by decide)

end ChannelState

end Multiloop.Channel
