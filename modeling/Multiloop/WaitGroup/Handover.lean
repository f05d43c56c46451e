import Mathlib.Data.List.Nodup
import Multiloop.Framework.Ledger
import Multiloop.Framework.Transition
import Multiloop.WaitGroup.Raw

/-!
# Who is handed over, and when

Runs of calls on a fresh `RawAsyncWaitGroup`. A run numbers the registrations
and keeps the times of the calls: when a waiter was registered, when it was
handed over or removed, and when the counter came to 0. Each registration is
queued, handed over or removed, and handed over at the first of those times
after it was made.
-/

namespace Multiloop.WaitGroup

variable {Loop F : Type}

/-- A call of the Rust object. -/
inductive Operation (Loop F : Type)
  | add (delta : Int)
  | done
  | registerWaiter (loop : Loop) (fut : F)
  | unregisterWaiter (fut : F)

/-- A wait group, each loop of its waiters with the number of the registration,
and what happened to the registrations. -/
structure Course (Loop F : Type) where
  inner : WaitGroupInner (Loop × Nat) F
  /-- The sum of the changes that were accepted. -/
  sum : Int
  time : Nat
  ledger : Ledger Nat
  registeredAt : Nat → Nat
  /-- When it was handed over or removed. -/
  endedAt : Nat → Nat
  /-- When the counter came to 0. -/
  zeros : List Nat

namespace Course

/-- A fresh wait group. -/
def new : Course Loop F where
  inner := .new
  sum := 0
  time := 0
  ledger := {}
  registeredAt _ := 0
  endedAt _ := 0
  zeros := []

variable (s : Course Loop F)

/-- The numbers of these waiters. -/
def numbers (ws : List ((Loop × Nat) × F)) : List Nat := ws.map (·.1.2)

/-- The numbers of the queued registrations. -/
def queue : List Nat := numbers s.inner.waiters

/-- The registrations `ks` end at this operation. -/
def endNow (ks : List Nat) : Nat → Nat := fun k => if k ∈ ks then s.time else s.endedAt k

/-- A call of `add` or `done` returns or raises. -/
def changed (delta : Int)
    (r : Except Error (Option (List ((Loop × Nat) × F)) × WaitGroupInner (Loop × Nat) F)) : Course Loop F :=
  match r with
  | .error _ => { s with time := s.time + 1 }
  | .ok (ws, inner) =>
    { s with
      inner
      sum := s.sum + delta
      time := s.time + 1
      ledger := s.ledger.grant (numbers (ws.getD []))
      endedAt := s.endNow (numbers (ws.getD []))
      zeros := if s.inner.counter ≠ 0 ∧ inner.counter = 0 then s.zeros ++ [s.time] else s.zeros }

/-- `register_waiter`; it returns true if there is nothing to wait for. -/
def register (loop : Loop) (fut : F) : Course Loop F :=
  let k := s.ledger.registered.length
  let (done, inner) := s.inner.registerWaiter ((loop, k), fut)
  if done then { s with inner, time := s.time + 1 }
  else
    { s with
      inner
      time := s.time + 1
      ledger := s.ledger.register k
      registeredAt := fun j => if j = k then s.time else s.registeredAt j }

/-- `unregister_waiter` removes the registrations of the future. -/
def unregister [DecidableEq F] (fut : F) : Course Loop F :=
  let gone := numbers (s.inner.waiters.filter fun w => w.2 = fut)
  { s with
    inner := (s.inner.unregisterWaiter fut).2
    time := s.time + 1
    ledger := s.ledger.leave gone
    endedAt := s.endNow gone }

/-- One call; a call that raises changes nothing but the time. -/
def step [DecidableEq F] : Operation Loop F → Course Loop F
  | .add delta => s.changed delta (s.inner.add delta)
  | .done => s.changed (-1) s.inner.done
  | .registerWaiter loop fut => s.register loop fut
  | .unregisterWaiter fut => s.unregister fut

end Course

/-- The sequences of calls on a fresh wait group. -/
def operations [DecidableEq F] : System (Course Loop F) (Operation Loop F) where
  init s := s = .new
  step s op := some (s.step op)

/-! ## One operation -/

namespace WaitGroupInner

variable {g g' : WaitGroupInner Loop F} {ws : Option (List (Loop × F))}

/-- The counter comes to 0 and all waiters are handed over, or nothing is. -/
def Moves (g : WaitGroupInner Loop F) (ws : Option (List (Loop × F))) (g' : WaitGroupInner Loop F) : Prop :=
  (ws = some g.waiters ∧ g'.waiters = [] ∧ g.counter ≠ 0 ∧ g'.counter = 0) ∨
    (ws = none ∧ g'.waiters = g.waiters ∧ (g.counter ≠ 0 → g'.counter ≠ 0))

theorem lower_moves {n : Nat} (hpos : g.counter ≠ 0) : Moves g (g.lower n).1 (g.lower n).2 := by
  unfold lower
  split
  · exact .inl ⟨rfl, rfl, hpos, rfl⟩
  · rename_i hn
    exact .inr ⟨rfl, rfl, fun _ => hn⟩

theorem add_moves {delta : Int} (h : g.add delta = .ok (ws, g')) : Moves g ws g' := by
  unfold add at h
  split at h
  · cases h
  · split at h
    · rename_i hneg
      split at h
      · cases h
      · rename_i hle
        have hpos : g.counter ≠ 0 := by omega
        have heq : g.lower (g.counter - delta.natAbs) = (ws, g') := Except.ok.inj h
        have hmoves := lower_moves (n := g.counter - delta.natAbs) hpos
        rwa [heq] at hmoves
    · split at h
      · cases h
        exact .inr ⟨rfl, rfl, fun hpos => by show g.counter + delta.toNat ≠ 0; omega⟩
      · cases h

theorem done_moves (h : g.done = .ok (ws, g')) : Moves g ws g' := by
  unfold done at h
  split at h
  · cases h
  · rename_i hpos
    have heq : g.lower (g.counter - 1) = (ws, g') := Except.ok.inj h
    have hmoves := lower_moves (n := g.counter - 1) hpos
    rwa [heq] at hmoves

/-- `n` calls of `done`, and what each of them returns. -/
def dones : Nat → WaitGroupInner Loop F → Except Error (List (Option (List (Loop × F))) × WaitGroupInner Loop F)
  | 0, g => .ok ([], g)
  | n + 1, g => do
    let (ws, g') ← g.done
    let (rest, g'') ← dones n g'
    return (ws :: rest, g'')

/-- As many calls of `done` as the counter allows: the last one hands over what
`lower` does. -/
theorem dones_eq_lower : ∀ (n : Nat) (g : WaitGroupInner Loop F), n + 1 ≤ g.counter →
    dones (n + 1) g = .ok (List.replicate n none ++ [(g.lower (g.counter - (n + 1))).1],
      (g.lower (g.counter - (n + 1))).2)
  | 0, g, hle => by
    have hdone : g.done = .ok (g.lower (g.counter - 1)) := if_neg (by omega)
    unfold dones
    rw [hdone]
    rfl
  | n + 1, g, hle => by
    have hdone : g.done = .ok (g.lower (g.counter - 1)) := if_neg (by omega)
    have hlower : g.lower (g.counter - 1) = (none, { g with counter := g.counter - 1 }) := if_neg (by omega)
    have ih := dones_eq_lower n { g with counter := g.counter - 1 } (by show n + 1 ≤ g.counter - 1; omega)
    have hsub : g.counter - 1 - (n + 1) = g.counter - (n + 1 + 1) := by omega
    unfold dones
    rw [hdone, hlower]
    show (dones (n + 1) { g with counter := g.counter - 1 }).bind (fun r => .ok (none :: r.1, r.2)) = _
    rw [ih]
    show Except.ok (none :: (List.replicate n none ++
      [(lower { g with counter := g.counter - 1 } (g.counter - 1 - (n + 1))).1]),
      (lower { g with counter := g.counter - 1 } (g.counter - 1 - (n + 1))).2) = _
    rw [hsub, show lower { g with counter := g.counter - 1 } = g.lower from rfl]
    rfl

/-- An accepted `add` of `-n` does what `n` calls of `done` do. -/
theorem add_neg_eq_dones {n : Nat} (hn : 1 ≤ n) (h : g.add (-n) = .ok (ws, g')) :
    dones n g = .ok (List.replicate (n - 1) none ++ [ws], g') := by
  unfold add at h
  split at h
  · cases h
  · split at h
    · split at h
      · cases h
      · rename_i hle
        rw [show (-(n : Int)).natAbs = n by omega] at h hle
        obtain ⟨m, rfl⟩ : ∃ m, n = m + 1 := ⟨n - 1, by omega⟩
        have heq : g.lower (g.counter - (m + 1)) = (ws, g') := Except.ok.inj h
        rw [dones_eq_lower m g (by omega), heq]
        rfl
    · omega

end WaitGroupInner

/-! ## Every run -/

namespace Course

variable {s : Course Loop F}

/-- `u` is the first time after the registration of `k` at which the counter
comes to 0. -/
def FirstZero (s : Course Loop F) (k u : Nat) : Prop :=
  u ∈ s.zeros ∧ s.registeredAt k < u ∧ ∀ z ∈ s.zeros, s.registeredAt k < z → u ≤ z

/-- The counter is the sum, and each registration ends once, when it should. -/
structure Exact (s : Course Loop F) : Prop where
  counter : (s.inner.counter : Int) = s.sum
  positive : s.inner.waiters ≠ [] → 0 < s.inner.counter
  numbered : s.ledger.registered = List.range s.ledger.registered.length
  /-- A registration is handed over, removed or queued, one of these and once. -/
  once : (s.ledger.granted ++ s.ledger.left ++ s.queue).Perm s.ledger.registered
  handed : ∀ k ∈ s.ledger.granted, s.FirstZero k (s.endedAt k)
  removed : ∀ k ∈ s.ledger.left, s.registeredAt k < s.endedAt k ∧
    ∀ z ∈ s.zeros, s.registeredAt k < z → s.endedAt k < z
  queued : ∀ k ∈ s.queue, ∀ z ∈ s.zeros, z < s.registeredAt k

/-- What the steps keep beside it. -/
structure Sound (s : Course Loop F) : Prop extends Exact s where
  fair : s.ledger.Fair s.queue
  skipped : s.ledger.skipped = []
  past : ∀ z ∈ s.zeros, z < s.time
  made : ∀ k ∈ s.ledger.registered, s.registeredAt k < s.time
  gone : ∀ k ∈ s.ledger.left, s.endedAt k < s.time

theorem sound_new : (new : Course Loop F).Sound := by
  refine ⟨⟨rfl, fun h => absurd rfl h, rfl, .refl _, ?_, ?_, ?_⟩, Ledger.fair_new, rfl, ?_, ?_, ?_⟩
  all_goals
    intro k hk
    cases hk

/-- No registration is counted twice. -/
theorem Sound.nodup (h : s.Sound) : (s.ledger.granted ++ s.ledger.left ++ s.queue).Nodup := by
  refine h.once.nodup_iff.2 ?_
  rw [h.numbered]
  exact List.nodup_range

theorem Sound.registered {k : Nat} (h : s.Sound) (hk : k ∈ s.ledger.granted ++ s.ledger.left ++ s.queue) :
    k ∈ s.ledger.registered := h.once.subset hk

/-- Without a ledger of those that were passed over, fairness says what becomes
of each registration. -/
theorem once_of_fair {l : Ledger Nat} {queue : List Nat} (h : l.Fair queue) (hskipped : l.skipped = []) :
    (l.granted ++ l.left ++ queue).Perm l.registered := by
  have honce := h.once
  rw [hskipped, List.append_nil] at honce
  exact honce

/-- A call raises, or finds nothing to do. -/
theorem Sound.tick (h : s.Sound) : Sound { s with time := s.time + 1 } where
  toExact := ⟨h.counter, h.positive, h.numbered, h.once, h.handed, h.removed, h.queued⟩
  fair := h.fair
  skipped := h.skipped
  past z hz := Nat.lt_succ_of_lt (h.past z hz)
  made k hk := Nat.lt_succ_of_lt (h.made k hk)
  gone k hk := Nat.lt_succ_of_lt (h.gone k hk)

/-- The end of registrations other than `k` says nothing of `k`. -/
theorem endNow_of_not_mem {ks : List Nat} {k : Nat} (h : k ∉ ks) : s.endNow ks k = s.endedAt k := if_neg h

theorem endNow_of_mem {ks : List Nat} {k : Nat} (h : k ∈ ks) : s.endNow ks k = s.time := if_pos h

/-- All waiters are handed over as the counter comes to 0. -/
theorem Sound.handOver {inner : WaitGroupInner (Loop × Nat) F} {sum : Int} (h : s.Sound)
    (hcounter : (inner.counter : Int) = sum) (hwaiters : inner.waiters = []) :
    Sound { s with
      inner, sum
      time := s.time + 1
      ledger := s.ledger.grant s.queue
      endedAt := s.endNow s.queue
      zeros := s.zeros ++ [s.time] } := by
  have hnodup := h.nodup
  rw [List.nodup_append] at hnodup
  obtain ⟨-, -, hapart⟩ := hnodup
  have hqueue : numbers inner.waiters = [] := by rw [hwaiters]; rfl
  have hfair : (s.ledger.grant s.queue).Fair (numbers inner.waiters) := by
    rw [hqueue]
    refine Ledger.Fair.grant ?_
    rw [List.append_nil]
    exact h.fair
  refine ⟨⟨hcounter, fun hne => absurd hwaiters hne, h.numbered, once_of_fair hfair h.skipped, ?_, ?_, ?_⟩,
    hfair, h.skipped, ?_, fun k hk => Nat.lt_succ_of_lt (h.made k hk), ?_⟩
  · intro k hk
    rcases List.mem_append.1 hk with hk | hk
    · have hout : k ∉ s.queue := fun hin => hapart k (List.mem_append_left _ hk) k hin rfl
      obtain ⟨hzero, hlt, hfirst⟩ := h.handed k hk
      show FirstZero _ k (s.endNow s.queue k)
      rw [endNow_of_not_mem hout]
      refine ⟨List.mem_append_left _ hzero, hlt, fun z hz hz' => ?_⟩
      rcases List.mem_append.1 hz with hz | hz
      · exact hfirst z hz hz'
      · rw [List.mem_singleton.1 hz]
        exact Nat.le_of_lt (h.past _ hzero)
    · show FirstZero _ k (s.endNow s.queue k)
      rw [endNow_of_mem hk]
      refine ⟨List.mem_append_right _ (List.mem_singleton.2 rfl),
        h.made k (h.registered (List.mem_append_right _ hk)), fun z hz hz' => ?_⟩
      rcases List.mem_append.1 hz with hz | hz
      · exact absurd hz' (Nat.lt_asymm (h.queued k hk z hz))
      · rw [List.mem_singleton.1 hz]
  · intro k hk
    have hout : k ∉ s.queue := fun hin => hapart k (List.mem_append_right _ hk) k hin rfl
    obtain ⟨hlt, hfirst⟩ := h.removed k hk
    show s.registeredAt k < s.endNow s.queue k ∧ _
    rw [endNow_of_not_mem hout]
    refine ⟨hlt, fun z hz hz' => ?_⟩
    show s.endNow s.queue k < z
    rw [endNow_of_not_mem hout]
    rcases List.mem_append.1 hz with hz | hz
    · exact hfirst z hz hz'
    · rw [List.mem_singleton.1 hz]
      exact h.gone k hk
  · intro k hk
    have hk' : k ∈ numbers inner.waiters := hk
    rw [hqueue] at hk'
    cases hk'
  · intro z hz
    rcases List.mem_append.1 hz with hz | hz
    · exact Nat.lt_succ_of_lt (h.past z hz)
    · rw [List.mem_singleton.1 hz]
      exact Nat.lt_succ_self _
  · intro k hk
    have hout : k ∉ s.queue := fun hin => hapart k (List.mem_append_right _ hk) k hin rfl
    show s.endNow s.queue k < s.time + 1
    rw [endNow_of_not_mem hout]
    exact Nat.lt_succ_of_lt (h.gone k hk)

/-- The counter changes and nobody is handed over. -/
theorem Sound.count {inner : WaitGroupInner (Loop × Nat) F} {sum : Int} (h : s.Sound)
    (hcounter : (inner.counter : Int) = sum) (hwaiters : inner.waiters = s.inner.waiters)
    (hpos : s.inner.counter ≠ 0 → inner.counter ≠ 0) :
    Sound { s with inner, sum, time := s.time + 1 } := by
  have hqueue : numbers inner.waiters = s.queue := congrArg numbers hwaiters
  refine ⟨⟨hcounter, fun hne => ?_, h.numbered, ?_, h.handed, h.removed, fun k hk => h.queued k (hqueue ▸ hk)⟩,
    ?_, h.skipped, fun z hz => Nat.lt_succ_of_lt (h.past z hz), fun k hk => Nat.lt_succ_of_lt (h.made k hk),
    fun k hk => Nat.lt_succ_of_lt (h.gone k hk)⟩
  · have hwas : 0 < s.inner.counter := h.positive (hwaiters ▸ hne)
    exact Nat.pos_of_ne_zero (hpos (Nat.ne_of_gt hwas))
  · show (s.ledger.granted ++ s.ledger.left ++ numbers inner.waiters).Perm s.ledger.registered
    rw [hqueue]
    exact h.once
  · show s.ledger.Fair (numbers inner.waiters)
    rw [hqueue]
    exact h.fair

theorem endNow_nil : s.endNow [] = s.endedAt := funext fun _ => endNow_of_not_mem List.not_mem_nil

theorem Sound.changed {delta : Int}
    {r : Except Error (Option (List ((Loop × Nat) × F)) × WaitGroupInner (Loop × Nat) F)} (h : s.Sound)
    (hr : ∀ ws inner, r = .ok (ws, inner) →
      s.inner.Moves ws inner ∧ (inner.counter : Int) = s.inner.counter + delta) : (s.changed delta r).Sound := by
  cases r with
  | error e => exact h.tick
  | ok p =>
    obtain ⟨ws, inner⟩ := p
    obtain ⟨hmoves, hcounter⟩ := hr ws inner rfl
    rw [h.counter] at hcounter
    rcases hmoves with ⟨rfl, hwaiters, hpos, hzero⟩ | ⟨rfl, hwaiters, hpos⟩
    · have hover := h.handOver hcounter hwaiters
      have hzeros : (if s.inner.counter ≠ 0 ∧ inner.counter = 0 then s.zeros ++ [s.time] else s.zeros) =
          s.zeros ++ [s.time] := if_pos ⟨hpos, hzero⟩
      rw [← hzeros] at hover
      exact hover
    · have hcount := h.count hcounter hwaiters hpos
      have hzeros : (if s.inner.counter ≠ 0 ∧ inner.counter = 0 then s.zeros ++ [s.time] else s.zeros) = s.zeros :=
        if_neg fun hboth => hpos hboth.1 hboth.2
      have hledger : s.ledger.grant (numbers ((none : Option (List ((Loop × Nat) × F))).getD [])) = s.ledger := by
        show ({ s.ledger with granted := s.ledger.granted ++ [] } : Ledger Nat) = s.ledger
        rw [List.append_nil]
      unfold Course.changed
      show Sound { s with
        inner
        sum := s.sum + delta
        time := s.time + 1
        ledger := s.ledger.grant (numbers ((none : Option (List ((Loop × Nat) × F))).getD []))
        endedAt := s.endNow []
        zeros := if s.inner.counter ≠ 0 ∧ inner.counter = 0 then s.zeros ++ [s.time] else s.zeros }
      rw [hledger, hzeros, endNow_nil]
      exact hcount

theorem Sound.register (h : s.Sound) (loop : Loop) (fut : F) : (s.register loop fut).Sound := by
  by_cases hzero : s.inner.counter = 0
  · have hregister : s.inner.registerWaiter ((loop, s.ledger.registered.length), fut) = (true, s.inner) :=
      if_pos hzero
    simp only [Course.register, hregister, if_true]
    exact h.tick
  · have hregister : s.inner.registerWaiter ((loop, s.ledger.registered.length), fut) = (false,
        { s.inner with waiters := s.inner.waiters ++ [((loop, s.ledger.registered.length), fut)] }) := if_neg hzero
    simp only [Course.register, hregister, Bool.false_eq_true, if_false]
    have hnew : s.ledger.registered.length ∉ s.ledger.registered := by
      rw [h.numbered, List.length_range]
      exact List.not_mem_range_self
    have hat : ∀ k ∈ s.ledger.registered,
        (if k = s.ledger.registered.length then s.time else s.registeredAt k) = s.registeredAt k :=
      fun k hk => if_neg fun heq : k = s.ledger.registered.length => hnew (heq ▸ hk)
    have hqueue : numbers (s.inner.waiters ++ [((loop, s.ledger.registered.length), fut)]) =
        s.queue ++ [s.ledger.registered.length] := List.map_append
    have hfair : (s.ledger.register s.ledger.registered.length).Fair
        (numbers (s.inner.waiters ++ [((loop, s.ledger.registered.length), fut)])) := by
      rw [hqueue]
      exact h.fair.register _
    refine ⟨⟨h.counter, fun _ => Nat.pos_of_ne_zero hzero, ?_, once_of_fair hfair h.skipped, fun k hk => ?_,
      fun k hk => ?_, fun k hk => ?_⟩, hfair, h.skipped, fun z hz => Nat.lt_succ_of_lt (h.past z hz), fun k hk => ?_,
      fun k hk => Nat.lt_succ_of_lt (h.gone k hk)⟩
    · show s.ledger.registered ++ [s.ledger.registered.length] =
        List.range (s.ledger.registered ++ [s.ledger.registered.length]).length
      rw [List.length_append, List.length_singleton, List.range_succ, ← h.numbered]
    · have hk' := hat k (h.registered (List.mem_append_left _ (List.mem_append_left _ hk)))
      have hzero' := h.handed k hk
      unfold FirstZero at hzero' ⊢
      show _ ∧ (if k = _ then _ else _) < _ ∧ ∀ z ∈ s.zeros, (if k = _ then _ else _) < z → _
      rwa [hk']
    · have hk' := hat k (h.registered (List.mem_append_left _ (List.mem_append_right _ hk)))
      show (if k = _ then _ else _) < _ ∧ ∀ z ∈ s.zeros, (if k = _ then _ else _) < z → _
      rw [hk']
      exact h.removed k hk
    · intro z hz
      have hk' : k ∈ s.queue ++ [s.ledger.registered.length] := hqueue ▸ hk
      show z < if k = _ then _ else _
      rcases List.mem_append.1 hk' with hk' | hk'
      · rw [hat k (h.registered (List.mem_append_right _ hk'))]
        exact h.queued k hk' z hz
      · rw [List.mem_singleton.1 hk', if_pos rfl]
        exact h.past z hz
    · show (if k = _ then _ else _) < s.time + 1
      rcases List.mem_append.1 hk with hk | hk
      · rw [hat k hk]
        exact Nat.lt_succ_of_lt (h.made k hk)
      · rw [List.mem_singleton.1 hk, if_pos rfl]
        exact Nat.lt_succ_self _

variable [DecidableEq F]

/-- The registrations of a future are those whose numbers leave. -/
theorem Sound.filter_queue (h : s.Sound) (fut : F) :
    (s.queue.filter fun k => k ∈ numbers (s.inner.waiters.filter fun w => w.2 = fut)) =
        numbers (s.inner.waiters.filter fun w => w.2 = fut) ∧
      (s.queue.filter fun k => ! k ∈ numbers (s.inner.waiters.filter fun w => w.2 = fut)) =
        numbers (s.inner.waiters.filter fun w => w.2 ≠ fut) := by
  have hnodup : (s.inner.waiters.map (·.1.2)).Nodup := (List.nodup_append.1 h.nodup).2.1
  have hmem : ∀ w ∈ s.inner.waiters,
      w.1.2 ∈ numbers (s.inner.waiters.filter fun w => w.2 = fut) ↔ w.2 = fut := by
    intro w hw
    refine ⟨fun hin => ?_, fun heq => ?_⟩
    · obtain ⟨v, hv, hnumber⟩ := List.mem_map.1 hin
      obtain ⟨hv, hfut⟩ := List.mem_filter.1 hv
      obtain rfl : v = w := List.inj_on_of_nodup_map hnodup hv hw hnumber
      exact of_decide_eq_true hfut
    · exact List.mem_map.2 ⟨w, List.mem_filter.2 ⟨hw, decide_eq_true heq⟩, rfl⟩
  unfold queue numbers at hmem ⊢
  rw [List.filter_map, List.filter_map]
  refine ⟨congrArg _ (List.filter_congr fun w hw => ?_), congrArg _ (List.filter_congr fun w hw => ?_)⟩
  · exact decide_eq_decide.2 (hmem w hw)
  · show (! decide _) = decide _
    rw [← decide_not]
    exact decide_eq_decide.2 (not_congr (hmem w hw))

theorem Sound.unregister (h : s.Sound) (fut : F) : (s.unregister fut).Sound := by
  obtain ⟨hgone, hstay⟩ := h.filter_queue fut
  have hsub : ∀ k ∈ numbers (s.inner.waiters.filter fun w => w.2 = fut), k ∈ s.queue := by
    intro k hk
    rw [← hgone] at hk
    exact List.mem_of_mem_filter hk
  have hstays : ∀ k ∈ numbers (s.inner.waiters.filter fun w => w.2 ≠ fut), k ∈ s.queue := by
    intro k hk
    rw [← hstay] at hk
    exact List.mem_of_mem_filter hk
  have hnodup := h.nodup
  rw [List.nodup_append] at hnodup
  obtain ⟨-, -, hapart⟩ := hnodup
  have hout : ∀ k ∈ s.ledger.granted ++ s.ledger.left,
      s.endNow (numbers (s.inner.waiters.filter fun w => w.2 = fut)) k = s.endedAt k :=
    fun k hk => endNow_of_not_mem fun hin => hapart k hk k (hsub k hin) rfl
  have hfair := h.fair.leave fun k => k ∈ numbers (s.inner.waiters.filter fun w => w.2 = fut)
  rw [hgone, hstay] at hfair
  refine ⟨⟨h.counter, fun hne => ?_, h.numbered, once_of_fair hfair h.skipped, fun k hk => ?_, fun k hk => ?_,
    fun k hk => h.queued k (hstays k hk)⟩, hfair, h.skipped, fun z hz => Nat.lt_succ_of_lt (h.past z hz),
    fun k hk => Nat.lt_succ_of_lt (h.made k hk), fun k hk => ?_⟩
  · refine h.positive fun hnil => hne ?_
    show s.inner.waiters.filter _ = []
    rw [hnil]
    rfl
  · have hk' := hout k (List.mem_append_left _ hk)
    show FirstZero _ k (s.endNow _ k)
    rw [hk']
    exact h.handed k hk
  · rcases List.mem_append.1 hk with hk | hk
    · have hk' := hout k (List.mem_append_right _ hk)
      show s.registeredAt k < s.endNow _ k ∧ ∀ z ∈ s.zeros, s.registeredAt k < z → s.endNow _ k < z
      rw [hk']
      exact h.removed k hk
    · show s.registeredAt k < s.endNow _ k ∧ ∀ z ∈ s.zeros, s.registeredAt k < z → s.endNow _ k < z
      rw [endNow_of_mem hk]
      refine ⟨h.made k (h.registered (List.mem_append_right _ (hsub k hk))), fun z hz hz' => ?_⟩
      exact absurd hz' (Nat.lt_asymm (h.queued k (hsub k hk) z hz))
  · show s.endNow _ k < s.time + 1
    rcases List.mem_append.1 hk with hk | hk
    · rw [hout k (List.mem_append_right _ hk)]
      exact Nat.lt_succ_of_lt (h.gone k hk)
    · rw [endNow_of_mem hk]
      exact Nat.lt_succ_self _

theorem Sound.step (h : s.Sound) (op : Operation Loop F) : (s.step op).Sound := by
  cases op with
  | add delta => exact h.changed fun ws inner hr => ⟨WaitGroupInner.add_moves hr, WaitGroupInner.add_counter hr⟩
  | done =>
    refine h.changed fun ws inner hr => ⟨WaitGroupInner.done_moves hr, ?_⟩
    have hcounter := WaitGroupInner.done_counter hr
    omega
  | registerWaiter loop fut => exact h.register loop fut
  | unregisterWaiter fut => exact h.unregister fut

/-- A call of `add` or `done` that raises. -/
def Raises (s : Course Loop F) : Operation Loop F → Prop
  | .add delta => ∃ e, s.inner.add delta = .error e
  | .done => ∃ e, s.inner.done = .error e
  | _ => False

theorem step_of_raises {op : Operation Loop F} (h : s.Raises op) : (s.step op).inner = s.inner := by
  cases op with
  | add delta =>
    obtain ⟨e, he⟩ := h
    show (s.changed delta (s.inner.add delta)).inner = s.inner
    rw [he]
    rfl
  | done =>
    obtain ⟨e, he⟩ := h
    show (s.changed (-1) s.inner.done).inner = s.inner
    rw [he]
    rfl
  | registerWaiter loop fut => exact h.elim
  | unregisterWaiter fut => exact h.elim

/-- The counter is the sum of the accepted changes, and each registration is
handed over, removed or queued, as the times of the calls tell; a call that
raises changes nothing, and an accepted `add(-n)` is `n` calls of `done()`. -/
theorem handed_over_once {s : Course Loop F} (h : operations.Reachable s) :
    s.Exact ∧ (∀ op, s.Raises op → (s.step op).inner = s.inner) ∧
      ∀ (n : Nat) (ws : Option (List ((Loop × Nat) × F))) (inner : WaitGroupInner (Loop × Nat) F), 1 ≤ n →
        s.inner.add (-n) = .ok (ws, inner) →
          s.inner.dones n = .ok (List.replicate (n - 1) none ++ [ws], inner) := by
  have hsound : s.Sound := by
    refine h.inv (I := Sound) ?_ fun s op s' hs hst => ?_
    · rintro s rfl
      exact sound_new
    · cases hst
      exact hs.step op
  exact ⟨hsound.toExact, fun op hop => step_of_raises hop, fun n ws inner hn hadd =>
    WaitGroupInner.add_neg_eq_dones hn hadd⟩

/-- A waiter is handed over by the second `done`. -/
theorem handed_over_once_second :
    ∃ s : Course Unit Nat, s.ledger.granted = [0] ∧ s.zeros = [3] ∧ s.Exact := by
  have h : operations.Reachable (new : Course Unit Nat) := .init rfl
  have h := (h.next (.add 2) trivial rfl).next (.registerWaiter () 7) trivial rfl
  have h := (h.next .done trivial rfl).next .done trivial rfl
  exact ⟨_, rfl, rfl, (handed_over_once h).1⟩

/-- `add(-2)` raises on a counter of 1, where two calls of `done` bring it to
0. -/
theorem add_neg_raises :
    ∃ s : Course Unit Nat, operations.Reachable s ∧ s.Raises (.add (-2)) ∧
      (s.step (.add (-2))).inner.counter = 1 ∧ ((s.step .done).step .done).inner.counter = 0 := by
  have h : operations.Reachable (new : Course Unit Nat) := .init rfl
  exact ⟨_, h.next (.add 1) trivial rfl, ⟨_, rfl⟩, rfl, rfl⟩

end Course

end Multiloop.WaitGroup
