import Multiloop.Context.Timeouts

/-!
# The count of cancellations

A scope owes to the count of its task what it has saved, and the count has one
too many when it has injected a cancellation. With what all the scopes inside
it owe, a block finds in the count what it should be: what it was before
`__aenter__`, the external cancellations since, those of the scopes around it,
and the slips. Every step keeps these accounts, as long as no scope is entered
twice at a time; so `__aexit__` leaves the count as it should be exactly when
the slips and the scopes around the block come to nothing.
-/

namespace Multiloop

/-- What the scope will add to the count. -/
def CancelScope.credit (c : CancelScope) : Int := c.savedCancelCount - if c.injected then 1 else 0

theorem Slip.total_append : ∀ xs ys : List Slip, total (xs ++ ys) = total xs + total ys
  | [], ys => (Int.zero_add _).symm
  | x :: xs, ys => by
    show x.amount + total (xs ++ ys) = x.amount + total xs + total ys
    rw [total_append xs ys]
    omega

theorem Slip.total_ofCount {slip : Nat → Slip} (n : Nat) (h : (slip 0).amount = 0) :
    total (ofCount slip n) = (slip n).amount := by
  unfold ofCount
  split
  · rename_i hn
    rw [hn, h]
    rfl
  · exact Int.add_zero _

namespace Block

/-- What the count of the task should be, slips included. -/
def expected (b : Block) : Int := b.before + b.external + b.enclosing + b.drift

theorem expected_slip (xs : List Slip) (b : Block) : (b.slip xs).expected = b.expected + Slip.total xs := by
  have hdrift : (b.slip xs).drift = Slip.total xs + b.drift := Slip.total_append xs b.slips
  show (b.before + b.external + b.enclosing + (b.slip xs).drift : Int) = _
  rw [hdrift, expected]
  omega

theorem expected_cancelled (b : Block) : b.cancelled.expected = b.expected + 1 := by
  show (b.before + (b.external + 1) + b.enclosing + b.drift : Int) = b.before + b.external + b.enclosing + b.drift + 1
  omega

theorem expected_uncancelled (b : Block) : b.uncancelled.expected = b.expected + -1 := by
  show (b.before + (b.external - 1) + b.enclosing + b.drift : Int) = b.before + b.external + b.enclosing + b.drift + -1
  omega

end Block

/-! ## The accounts of a nest -/

/-- With a count of `n`, each block finds what it expects when the scopes inside
it have done what they owe. -/
def Accounts (scopes : Nat → CancelScope) : Int → List Block → Prop
  | _, [] => True
  | n, b :: bs => n + (scopes b.scope).credit = b.expected ∧ Accounts scopes (n + (scopes b.scope).credit) bs

namespace Accounts

variable {scopes scopes' : Nat → CancelScope}

theorem congr : ∀ {n : Int} {bs : List Block}, (∀ b ∈ bs, (scopes' b.scope).credit = (scopes b.scope).credit) →
    Accounts scopes n bs → Accounts scopes' n bs
  | _, [], _, _ => trivial
  | n, b :: bs, hcredit, h => by
    obtain ⟨hb, hbs⟩ := h
    have heq := hcredit b List.mem_cons_self
    refine ⟨by rw [heq, hb], ?_⟩
    rw [heq]
    exact congr (fun u hu => hcredit u (List.mem_cons_of_mem b hu)) hbs

/-- Something changes the count by `d`, and every block expects it. -/
theorem map {d : Int} {f : Block → Block} (hscope : ∀ b, (f b).scope = b.scope)
    (hexpected : ∀ b, (f b).expected = b.expected + d) :
    ∀ {n : Int} {bs : List Block}, Accounts scopes n bs → Accounts scopes (n + d) (bs.map f)
  | _, [], _ => trivial
  | n, b :: bs, ⟨hb, hbs⟩ => by
    refine ⟨?_, ?_⟩
    · rw [hscope, hexpected]
      omega
    · rw [hscope]
      have h := map hscope hexpected hbs
      rwa [show n + d + (scopes b.scope).credit = n + (scopes b.scope).credit + d by omega]

theorem slip (xs : List Slip) {n : Int} {bs : List Block} (h : Accounts scopes n bs) :
    Accounts scopes (n + Slip.total xs) (bs.map (Block.slip xs)) :=
  h.map (f := Block.slip xs) (fun _ => rfl) (Block.expected_slip xs)

/-- The credit of scope `sc` falls by `k` as it adds `d` to the count; the rest
is a slip. -/
theorem update {sc : Nat} {c : CancelScope} {d k : Int} {xs : List Slip} (hc : c.credit = (scopes sc).credit - k)
    (hxs : Slip.total xs = d - k) : ∀ {n : Int} {bs : List Block}, (bs.map (·.scope)).Nodup →
    sc ∈ bs.map (·.scope) → Accounts scopes n bs →
    Accounts (Function.update scopes sc c) (n + d) (slipFrom sc xs (moveInside sc d bs))
  | _, [], _, hsc, _ => by cases hsc
  | n, b :: bs, hnodup, hsc, ⟨hb, hbs⟩ => by
    obtain ⟨hb', hnodup'⟩ := List.nodup_cons.1 hnodup
    by_cases hscope : b.scope = sc
    · have hout : ∀ u ∈ bs, (Function.update scopes sc c u.scope).credit = (scopes u.scope).credit := by
        intro u hu
        have hne : u.scope ≠ sc := fun heq => hb' (List.mem_map.2 ⟨u, hu, heq.trans hscope.symm⟩)
        rw [Function.update_of_ne hne]
      have hcredit : (Function.update scopes sc c b.scope).credit = (scopes b.scope).credit - k := by
        rw [hscope, Function.update_self, hc]
      rw [moveInside, if_pos hscope, slipFrom, if_pos hscope]
      refine ⟨?_, ?_⟩
      · show n + d + (Function.update scopes sc c b.scope).credit = (b.slip xs).expected
        rw [hcredit, Block.expected_slip, hxs]
        omega
      · show Accounts _ (n + d + (Function.update scopes sc c b.scope).credit) (bs.map (Block.slip xs))
        rw [hcredit, show n + d + ((scopes b.scope).credit - k) =
          n + (scopes b.scope).credit + Slip.total xs by omega]
        exact (hbs.congr hout).slip xs
    · have hin : sc ∈ bs.map (·.scope) := (List.mem_cons.1 hsc).resolve_left (Ne.symm hscope)
      rw [moveInside, if_neg hscope, slipFrom, if_neg hscope]
      have hcredit : (Function.update scopes sc c b.scope).credit = (scopes b.scope).credit := by
        rw [Function.update_of_ne hscope]
      refine ⟨?_, ?_⟩
      · show n + d + (Function.update scopes sc c b.scope).credit =
          (b.before + b.external + (b.enclosing + d) + b.drift : Int)
        rw [Block.expected] at hb
        rw [hcredit]
        omega
      · show Accounts _ (n + d + (Function.update scopes sc c b.scope).credit) _
        rw [hcredit, show n + d + (scopes b.scope).credit = n + (scopes b.scope).credit + d by omega]
        exact update hc hxs hnodup' hin hbs

end Accounts

namespace HostTask

/-- The scopes whose blocks the task is in, the innermost first. -/
def nest (s : HostTask) : List Nat := s.blocks.map (·.scope)

/-- Those of them that are entered: `__aexit__` lets go of its scope first. -/
def held (s : HostTask) : List Nat :=
  match s.phase with
  | .exiting _ _ _ => s.nest.tail
  | _ => s.nest

end HostTask

/-- The injection that an `__aexit__` has taken from its scope. -/
def ScopePhase.taken : ScopePhase → Int
  | .exiting _ _ true => 1
  | _ => 0

namespace HostTask

variable {s s' : HostTask}

/-- What the two functions know of the innermost scope. -/
def Placed (s : HostTask) : Prop :=
  match s.phase with
  | .running => True
  | .entering => ∀ sc ∈ s.nest.head?, (s.scopes sc).injected = false
  | .exiting _ task injected => task = true ∧ ∀ sc ∈ s.nest.head?, (s.scopes sc).injected = false ∧
      (injected = true → (s.scopes sc).cancelCalled = true)

structure Sound (s : HostTask) : Prop where
  accounts : Accounts s.scopes (s.cancelling - s.phase.taken) s.blocks
  nodup : s.nest.Nodup
  entered : ∀ sc, (s.scopes sc).entered = true ↔ sc ∈ s.held
  marked : ∀ sc, (s.scopes sc).injected = true → (s.scopes sc).cancelCalled = true
  asked : ∀ sc, .deliver sc ∈ s.callbacks → (s.scopes sc).cancelCalled = true
  placed : s.Placed
  exits : ∀ r ∈ s.exits, (r.after : Int) = r.block.expected

theorem sound_of_starts (h : s.Starts) : s.Sound := by
  obtain ⟨hscopes, hblocks, hphase, hcallbacks, -, hexits⟩ := h
  have hnest : s.nest = [] := by rw [nest, hblocks]; rfl
  refine ⟨?_, ?_, fun sc => ?_, fun sc hi => ?_, fun sc hc => ?_, ?_, fun r hr => ?_⟩
  · rw [hblocks]
    trivial
  · rw [hnest]
    exact List.nodup_nil
  · rw [(hscopes sc).1, held, hphase, hnest]
    simp
  · exact absurd hi (ne_true_of_eq_false (hscopes sc).2)
  · rw [hcallbacks] at hc
    cases hc
  · rw [Placed, hphase]
    trivial
  · rw [hexits] at hr
    cases hr

/-- A step that enters and leaves no block, and injects nothing. -/
theorem Sound.same (h : s.Sound) (hphase : s'.phase = s.phase) (hnest : s'.nest = s.nest)
    (hscopes : ∀ sc, (s'.scopes sc).entered = (s.scopes sc).entered ∧
      (s'.scopes sc).injected = (s.scopes sc).injected ∧
      ((s.scopes sc).cancelCalled = true → (s'.scopes sc).cancelCalled = true))
    (hasked : ∀ sc, .deliver sc ∈ s'.callbacks → (s'.scopes sc).cancelCalled = true) (hexits : s'.exits = s.exits)
    (haccounts : Accounts s'.scopes (s'.cancelling - s.phase.taken) s'.blocks) : s'.Sound where
  accounts := by rwa [hphase]
  nodup := hnest ▸ h.nodup
  entered sc := by
    rw [(hscopes sc).1, h.entered sc, held, held, hphase, hnest]
  marked sc hi := (hscopes sc).2.2 (h.marked sc ((hscopes sc).2.1 ▸ hi))
  asked := hasked
  placed := by
    have hplaced := h.placed
    unfold Placed at hplaced ⊢
    rw [hphase, hnest]
    split
    · trivial
    · rename_i heq
      rw [heq] at hplaced
      exact fun sc hsc => (hscopes sc).2.1.trans (hplaced sc hsc)
    · rename_i heq
      rw [heq] at hplaced
      refine ⟨hplaced.1, fun sc hsc => ⟨(hscopes sc).2.1.trans (hplaced.2 sc hsc).1, fun hi => ?_⟩⟩
      exact (hscopes sc).2.2 ((hplaced.2 sc hsc).2 hi)
  exits := hexits ▸ h.exits

/-- A scope is marked as cancelled, or its shield is set. -/
theorem Sound.setFlags {sc : Nat} {c : CancelScope} (h : s.Sound) (hentered : c.entered = (s.scopes sc).entered)
    (hinjected : c.injected = (s.scopes sc).injected) (hsaved : c.savedCancelCount = (s.scopes sc).savedCancelCount)
    (hcalled : (s.scopes sc).cancelCalled = true → c.cancelCalled = true) : (s.setScope sc c).Sound := by
  have hscopes : ∀ u, ((s.setScope sc c).scopes u).entered = (s.scopes u).entered ∧
      ((s.setScope sc c).scopes u).injected = (s.scopes u).injected ∧
      ((s.scopes u).cancelCalled = true → ((s.setScope sc c).scopes u).cancelCalled = true) := by
    intro u
    rcases eq_or_ne u sc with rfl | hne
    · rw [setScope_self]
      exact ⟨hentered, hinjected, hcalled⟩
    · rw [setScope_of_ne s c hne]
      exact ⟨rfl, rfl, id⟩
  refine h.same rfl rfl hscopes (fun u hu => (hscopes u).2.2 (h.asked u hu)) rfl ?_
  refine h.accounts.congr fun b _ => ?_
  rcases eq_or_ne b.scope sc with heq | hne
  · rw [heq, setScope_self, CancelScope.credit, CancelScope.credit, hinjected, hsaved]
  · rw [setScope_of_ne s c hne]

theorem held_of_body (hphase : s.phase = .running ∨ s.phase = .entering) : s.held = s.nest ∧ s.phase.taken = 0 := by
  unfold held
  rcases hphase with hphase | hphase
  · rw [hphase]
    exact ⟨rfl, rfl⟩
  · rw [hphase]
    exact ⟨rfl, rfl⟩

theorem nest_inject (sc : Nat) : (s.inject sc).nest = s.nest :=
  Block.scopes_of_due ((Block.slipFrom_due _ _ _).trans (Block.moveInside_due _ _ _))

/-- A scope that is entered injects a cancellation, in the body or at the end of
`__aenter__`. -/
theorem Sound.inject {sc : Nat} (h : s.Sound) (hphase : s.phase = .running ∨ s.phase = .entering)
    (hentered : (s.scopes sc).entered = true) (hcalled : (s.scopes sc).cancelCalled = true) :
    ({ s.inject sc with phase := .running } : HostTask).Sound := by
  obtain ⟨hheld, htaken⟩ := held_of_body hphase
  have hin : sc ∈ s.nest := by
    rw [← hheld]
    exact (h.entered sc).1 hentered
  have hsc : (s.inject sc).scopes sc = { s.scopes sc with injected := true } := Function.update_self ..
  have hother : ∀ u ≠ sc, (s.inject sc).scopes u = s.scopes u := fun u hne => Function.update_of_ne hne ..
  have hcalls : ∀ u, (s.scopes u).cancelCalled = true → ((s.inject sc).scopes u).cancelCalled = true := by
    intro u hu
    rcases eq_or_ne u sc with rfl | hne
    · rwa [hsc]
    · rwa [hother u hne]
  refine ⟨?_, ?_, fun u => ?_, fun u hu => ?_, fun u hu => hcalls u (h.asked u hu), trivial, h.exits⟩
  · have hcredit : ({ s.scopes sc with injected := true } : CancelScope).credit =
        (s.scopes sc).credit - (if (s.scopes sc).injected then 0 else 1) := by
      show ((s.scopes sc).savedCancelCount : Int) - 1 = _
      unfold CancelScope.credit
      split
      · omega
      · omega
    have hslips : Slip.total (if (s.scopes sc).injected then [.twice] else []) =
        1 - (if (s.scopes sc).injected then 0 else 1) := by
      split
      · rfl
      · rfl
    have hbooks := h.accounts.update hcredit hslips h.nodup hin
    rw [htaken] at hbooks
    show Accounts (s.inject sc).scopes (((s.cancelling + 1 : Nat) : Int) - 0) (s.inject sc).blocks
    rwa [show (((s.cancelling + 1 : Nat) : Int) - 0) = (s.cancelling : Int) - 0 + 1 by omega]
  · show (s.inject sc).nest.Nodup
    rw [nest_inject]
    exact h.nodup
  · show ((s.inject sc).scopes u).entered = true ↔ u ∈ (s.inject sc).nest
    rw [nest_inject, ← hheld, ← h.entered u]
    rcases eq_or_ne u sc with rfl | hne
    · rw [hsc]
    · rw [hother u hne]
  · rcases eq_or_ne u sc with rfl | hne
    · exact hcalls u hcalled
    · exact hcalls u (h.marked u (by
        have hu' : ((s.inject sc).scopes u).injected = true := hu
        rwa [hother u hne] at hu'))

theorem slipFrom_nil (sc : Nat) : ∀ bs : List Block, slipFrom sc [] bs = bs
  | [] => rfl
  | b :: bs => by
    unfold slipFrom
    split
    · exact List.map_id _
    · rw [slipFrom_nil sc bs]

/-- A shield takes the count to its scope, or gives it back. -/
theorem Sound.applyShield {sc : Nat} (h : s.Sound) (hphase : s.phase = .running)
    (hentered : (s.scopes sc).entered = true) (value : Bool) : (s.applyShield sc value).Sound := by
  obtain ⟨hheld, htaken⟩ := held_of_body (.inl hphase)
  have hin : sc ∈ s.nest := by
    rw [← hheld]
    exact (h.entered sc).1 hentered
  have hscopes : ∀ n u, ((s.setScope sc { s.scopes sc with savedCancelCount := n }).scopes u).entered =
        (s.scopes u).entered ∧
      ((s.setScope sc { s.scopes sc with savedCancelCount := n }).scopes u).injected = (s.scopes u).injected ∧
      ((s.scopes u).cancelCalled = true →
        ((s.setScope sc { s.scopes sc with savedCancelCount := n }).scopes u).cancelCalled = true) := by
    intro n u
    rcases eq_or_ne u sc with rfl | hne
    · rw [setScope_self]
      exact ⟨rfl, rfl, id⟩
    · rw [setScope_of_ne s _ hne]
      exact ⟨rfl, rfl, id⟩
  have hnest : ∀ d : Int, (moveInside sc d s.blocks).map (·.scope) = s.nest :=
    fun d => Block.scopes_of_due (Block.moveInside_due sc d s.blocks)
  cases value with
  | true =>
    refine h.same rfl (hnest _) (hscopes _) (fun u hu => (hscopes _ u).2.2 (h.asked u hu)) rfl ?_
    have hcredit : ({ s.scopes sc with
          savedCancelCount := (s.scopes sc).savedCancelCount + s.cancelling } : CancelScope).credit =
        (s.scopes sc).credit - -(s.cancelling : Int) := by
      show (((s.scopes sc).savedCancelCount + s.cancelling : Nat) : Int) -
        (if (s.scopes sc).injected then 1 else 0) = _
      unfold CancelScope.credit
      omega
    have hslips : Slip.total [] = -(s.cancelling : Int) - -(s.cancelling : Int) := by
      show (0 : Int) = _
      omega
    have hbooks := h.accounts.update hcredit hslips h.nodup hin
    rw [slipFrom_nil, htaken] at hbooks
    rw [htaken]
    show Accounts _ (((0 : Nat) : Int) - 0) (moveInside sc (-s.cancelling) s.blocks)
    rwa [show (((0 : Nat) : Int) - 0) = (s.cancelling : Int) - 0 + -s.cancelling by omega]
  | false =>
    refine h.same rfl (hnest _) (hscopes _) (fun u hu => (hscopes _ u).2.2 (h.asked u hu)) rfl ?_
    have hcredit : ({ s.scopes sc with savedCancelCount := 0 } : CancelScope).credit =
        (s.scopes sc).credit - ((s.scopes sc).savedCancelCount : Int) := by
      show ((0 : Nat) : Int) - (if (s.scopes sc).injected then 1 else 0) = _
      unfold CancelScope.credit
      omega
    have hslips : Slip.total [] = ((s.scopes sc).savedCancelCount : Int) - (s.scopes sc).savedCancelCount := by
      show (0 : Int) = _
      omega
    have hbooks := h.accounts.update hcredit hslips h.nodup hin
    rw [slipFrom_nil, htaken] at hbooks
    rw [htaken]
    show Accounts _ (((s.cancelling + (s.scopes sc).savedCancelCount : Nat) : Int) - 0)
      (moveInside sc (s.scopes sc).savedCancelCount s.blocks)
    rwa [show (((s.cancelling + (s.scopes sc).savedCancelCount : Nat) : Int) - 0) =
      (s.cancelling : Int) - 0 + (s.scopes sc).savedCancelCount by omega]

theorem Sound.deliver {callback : ScopeCallback} (h : s.Sound) (hphase : s.phase = .running)
    (hasked : ∀ sc, callback = .deliver sc → (s.scopes sc).cancelCalled = true) : (s.deliver callback).Sound := by
  cases callback with
  | deliver sc =>
    show HostTask.Sound (if _ then s.inject sc else s)
    split
    · rename_i hentered
      have hinject := h.inject (.inl hphase) hentered (hasked sc rfl)
      rwa [← hphase] at hinject
    · exact h
  | applyShield sc value =>
    show HostTask.Sound (if _ then s.applyShield sc value else s)
    split
    · rename_i hentered
      exact h.applyShield hphase hentered value
    · exact h

theorem Sound.setCallbacks {cs : List ScopeCallback} (h : s.Sound)
    (hasked : ∀ sc, .deliver sc ∈ cs → (s.scopes sc).cancelCalled = true) :
    ({ s with callbacks := cs } : HostTask).Sound :=
  h.same rfl rfl (fun _ => ⟨rfl, rfl, id⟩) hasked rfl h.accounts

theorem Sound.dispatch {callback : ScopeCallback} {remote : Bool} (h : s.Sound)
    (hmay : remote = true ∨ s.phase = .running)
    (hasked : ∀ sc, callback = .deliver sc → (s.scopes sc).cancelCalled = true) (entered : Bool) :
    (s.dispatch callback remote entered).Sound := by
  unfold HostTask.dispatch
  split
  · exact h
  · split
    · refine h.setCallbacks fun sc hsc => ?_
      rcases List.mem_append.1 hsc with hsc | hsc
      · exact h.asked sc hsc
      · exact hasked sc (List.mem_singleton.1 hsc).symm
    · rename_i hlocal
      exact h.deliver (hmay.resolve_left hlocal) hasked

theorem Sound.mark (h : s.Sound) (sc : Nat) : (s.setScope sc { s.scopes sc with cancelCalled := true }).Sound :=
  h.setFlags rfl rfl rfl fun _ => rfl

theorem Sound.cancel {remote : Bool} (h : s.Sound) (hmay : remote = true ∨ s.phase = .running) (sc : Nat) :
    (s.cancel sc remote).Sound := by
  unfold HostTask.cancel
  split
  · exact h
  · refine (h.mark sc).dispatch hmay ?_ _
    rintro u ⟨⟩
    rw [setScope_self]

theorem Sound.setShield {remote : Bool} (h : s.Sound) (hmay : remote = true ∨ s.phase = .running) (sc : Nat)
    (value : Bool) : (s.setShield sc value remote).Sound := by
  unfold HostTask.setShield
  split
  · exact h
  · have hset : (s.setScope sc { s.scopes sc with shield := value }).Sound := h.setFlags rfl rfl rfl id
    exact hset.dispatch hmay (fun u hu => by cases hu) _

theorem nest_map (f : Block → Block) (hscope : ∀ b, (f b).scope = b.scope) (bs : List Block) :
    (bs.map f).map (·.scope) = bs.map (·.scope) := by
  rw [List.map_map]
  exact List.map_congr_left fun b _ => hscope b

theorem Sound.taskCancel (h : s.Sound) :
    ({ s with
      cancelling := s.cancelling + 1, pending := s.pending + 1, blocks := s.blocks.map Block.cancelled } :
        HostTask).Sound := by
  refine h.same rfl (nest_map Block.cancelled (fun _ => rfl) _) (fun _ => ⟨rfl, rfl, id⟩) h.asked rfl ?_
  have hbooks := h.accounts.map (f := Block.cancelled) (fun _ => rfl) Block.expected_cancelled
  show Accounts s.scopes (((s.cancelling + 1 : Nat) : Int) - s.phase.taken) _
  rwa [show ((s.cancelling + 1 : Nat) : Int) - s.phase.taken = s.cancelling - s.phase.taken + 1 by omega]

theorem Sound.taskUncancel (h : s.Sound) (hpos : 0 < s.cancelling) :
    ({ s with
      cancelling := s.cancelling - 1, pending := s.pending - 1, blocks := s.blocks.map Block.uncancelled } :
        HostTask).Sound := by
  refine h.same rfl (nest_map Block.uncancelled (fun _ => rfl) _) (fun _ => ⟨rfl, rfl, id⟩) h.asked rfl ?_
  have hbooks := h.accounts.map (f := Block.uncancelled) (fun _ => rfl) Block.expected_uncancelled
  show Accounts s.scopes (((s.cancelling - 1 : Nat) : Int) - s.phase.taken) _
  rwa [show ((s.cancelling - 1 : Nat) : Int) - s.phase.taken = s.cancelling - s.phase.taken + -1 by omega]

theorem Sound.clear (h : s.Sound) (htaken : s.phase.taken = 0) : s.clear.Sound := by
  refine h.same rfl (nest_map (Block.slip _) (fun _ => rfl) _) (fun _ => ⟨rfl, rfl, id⟩) h.asked rfl ?_
  have hbooks := h.accounts.slip (Slip.ofCount .cleared s.cancelling)
  rw [Slip.total_ofCount _ rfl, htaken] at hbooks
  rw [htaken]
  show Accounts s.scopes (((0 : Nat) : Int) - 0) _
  rwa [show ((0 : Nat) : Int) - 0 = (s.cancelling : Int) - 0 + -s.cancelling by omega]

/-- The credit of a scope without an injection. -/
theorem credit_of_not_injected {c : CancelScope} (h : c.injected = false) : c.credit = c.savedCancelCount := by
  rw [CancelScope.credit, h]
  exact Int.sub_zero _

/-- The scope that a block leaves is not that of another block. -/
theorem scope_ne_of_nodup {b : Block} {bs : List Block} (hnodup : ((b :: bs).map (·.scope)).Nodup) {u : Block}
    (hu : u ∈ bs) : u.scope ≠ b.scope := by
  intro heq
  exact (List.nodup_cons.1 hnodup).1 (List.mem_map.2 ⟨u, hu, heq⟩)

theorem Sound.enter {sc : Nat} (h : s.Sound) (hphase : s.phase = .running)
    (hfresh : (s.scopes sc).entered = false) : (s.enter sc).Sound := by
  obtain ⟨hheld, htaken⟩ := held_of_body (.inl hphase)
  have hout : sc ∉ s.nest := by
    rw [← hheld, ← h.entered sc]
    exact ne_true_of_eq_false hfresh
  have hbooks := h.accounts
  rw [htaken] at hbooks
  have hcongr : ∀ c : CancelScope, ∀ b ∈ s.blocks,
      (Function.update s.scopes sc c b.scope).credit = (s.scopes b.scope).credit := by
    intro c b hb
    have hne : b.scope ≠ sc := fun heq => hout (heq ▸ List.mem_map_of_mem hb)
    rw [Function.update_of_ne hne]
  -- All but the accounts is the same with a shield and without.
  suffices hall : ∀ (c : CancelScope) (n : Nat) (bs : List Block), c.entered = true → c.injected = false →
      c.cancelCalled = (s.scopes sc).cancelCalled → bs.map (·.scope) = sc :: s.nest →
      Accounts (Function.update s.scopes sc c) n bs →
      ({ s.setScope sc c with cancelling := n, blocks := bs, phase := .entering } : HostTask).Sound by
    simp only [HostTask.enter]
    split
    · refine hall _ 0 _ rfl rfl rfl rfl ⟨?_, ?_⟩
      · rw [Function.update_self]
        show ((0 : Nat) : Int) + (s.cancelling - if false then 1 else 0) = s.cancelling + 0 + 0 + 0
        simp
      · rw [Function.update_self]
        show Accounts _ (((0 : Nat) : Int) + (s.cancelling - if false then 1 else 0)) s.blocks
        rw [show ((0 : Nat) : Int) + (s.cancelling - if false then 1 else 0) = s.cancelling - 0 by simp]
        exact hbooks.congr (hcongr _)
    · refine hall _ s.cancelling _ rfl rfl rfl (nest_map (Block.slip _) (fun _ => rfl) _) ?_
      have hkept : Slip.total (Slip.ofCount .kept (s.scopes sc).savedCancelCount) =
          ((s.scopes sc).savedCancelCount : Int) := Slip.total_ofCount _ rfl
      have hcredit : (Function.update s.scopes sc
          { s.scopes sc with entered := true, injected := false } sc).credit =
          ((s.scopes sc).savedCancelCount : Int) := by
        rw [Function.update_self]
        exact Int.sub_zero _
      refine ⟨?_, ?_⟩
      · show (s.cancelling : Int) + (Function.update s.scopes sc _ sc).credit = _
        rw [hcredit, Block.expected_slip, hkept]
        show (s.cancelling + (s.scopes sc).savedCancelCount : Int) =
          s.cancelling + 0 + 0 + 0 + (s.scopes sc).savedCancelCount
        omega
      · show Accounts _ ((s.cancelling : Int) + (Function.update s.scopes sc _ sc).credit) _
        rw [hcredit]
        have hslip := hbooks.slip (Slip.ofCount .kept (s.scopes sc).savedCancelCount)
        rw [hkept, Int.sub_zero] at hslip
        refine hslip.congr fun b hb => ?_
        obtain ⟨b', hb', rfl⟩ := List.mem_map.1 hb
        exact hcongr _ b' hb'
  intro c n bs hentered hinjected hcalled hnest haccounts
  have hscopes : ∀ u, (s.scopes u).cancelCalled = true →
      (Function.update s.scopes sc c u).cancelCalled = true := by
    intro u hu
    rcases eq_or_ne u sc with rfl | hne
    · rw [Function.update_self, hcalled, hu]
    · rwa [Function.update_of_ne hne]
  refine ⟨?_, ?_, fun u => ?_, fun u hu => ?_, fun u hu => hscopes u (h.asked u hu), ?_, h.exits⟩
  · show Accounts _ ((n : Int) - 0) bs
    rwa [Int.sub_zero]
  · show (bs.map (·.scope)).Nodup
    rw [hnest]
    exact List.nodup_cons.2 ⟨hout, h.nodup⟩
  · show (Function.update s.scopes sc c u).entered = true ↔ u ∈ bs.map (·.scope)
    rw [hnest, List.mem_cons]
    rcases eq_or_ne u sc with rfl | hne
    · rw [Function.update_self, hentered]
      simp
    · rw [Function.update_of_ne hne, h.entered u, hheld]
      simp [hne]
  · rcases eq_or_ne u sc with rfl | hne
    · have hu' : (Function.update s.scopes u c u).injected = true := hu
      rw [Function.update_self, hinjected] at hu'
      exact absurd hu' Bool.false_ne_true
    · have hu' : (Function.update s.scopes sc c u).injected = true := hu
      rw [Function.update_of_ne hne] at hu'
      exact hscopes u (h.marked u hu')
  · show ∀ u ∈ (bs.map (·.scope)).head?, (Function.update s.scopes sc c u).injected = false
    rw [hnest]
    rintro u hu
    obtain rfl : sc = u := Option.some_inj.1 hu
    rw [Function.update_self, hinjected]

theorem mem_held {b : Block} {bs : List Block} (hblocks : s.blocks = b :: bs) {u : Nat} (hne : u ≠ b.scope) :
    u ∈ s.held ↔ u ∈ bs.map (·.scope) := by
  have hnest : s.nest = b.scope :: bs.map (·.scope) := by
    rw [nest, hblocks]
    rfl
  unfold held
  split
  · rw [hnest, List.tail_cons]
  · rw [hnest, List.mem_cons]
    simp [hne]

/-- The innermost block is left; what the count lacks or has too much is a slip. -/
theorem Sound.pop {b : Block} {bs : List Block} {c : CancelScope} {n : Nat} {xs : List Slip}
    {refused : List (Nat × Refusal)} {exits : List Exit} (h : s.Sound) (hblocks : s.blocks = b :: bs)
    (hentered : c.entered = false) (hinjected : c.injected = false)
    (hcalled : c.cancelCalled = (s.scopes b.scope).cancelCalled)
    (hn : (n : Int) = s.cancelling - s.phase.taken + (s.scopes b.scope).credit + Slip.total xs)
    (hexits : ∀ r ∈ exits, (r.after : Int) = r.block.expected) :
    ({ s.setScope b.scope c with
        cancelling := n, blocks := bs.map (Block.slip xs), phase := .running, refused, exits } : HostTask).Sound := by
  have hnodup : ((b :: bs).map (·.scope)).Nodup := hblocks ▸ h.nodup
  have hscopes : ∀ u, (s.scopes u).cancelCalled = true →
      (Function.update s.scopes b.scope c u).cancelCalled = true := by
    intro u hu
    rcases eq_or_ne u b.scope with rfl | hne
    · rw [Function.update_self, hcalled, hu]
    · rwa [Function.update_of_ne hne]
  refine ⟨?_, ?_, fun u => ?_, fun u hu => ?_, fun u hu => hscopes u (h.asked u hu), trivial, hexits⟩
  · have hbooks := h.accounts
    rw [hblocks] at hbooks
    show Accounts _ ((n : Int) - 0) (bs.map (Block.slip xs))
    rw [Int.sub_zero, hn]
    refine (hbooks.2.slip xs).congr fun u hu => ?_
    obtain ⟨u', hu', rfl⟩ := List.mem_map.1 hu
    have hne : u'.scope ≠ b.scope := scope_ne_of_nodup hnodup hu'
    show (Function.update s.scopes b.scope c u'.scope).credit = (s.scopes u'.scope).credit
    rw [Function.update_of_ne hne]
  · show ((bs.map (Block.slip xs)).map (·.scope)).Nodup
    rw [nest_map (Block.slip xs) (fun _ => rfl)]
    exact (List.nodup_cons.1 hnodup).2
  · show (Function.update s.scopes b.scope c u).entered = true ↔ u ∈ (bs.map (Block.slip xs)).map (·.scope)
    rw [nest_map (Block.slip xs) (fun _ => rfl)]
    rcases eq_or_ne u b.scope with rfl | hne
    · rw [Function.update_self, hentered]
      exact ⟨fun hfalse => absurd hfalse Bool.false_ne_true, fun hu => absurd hu (List.nodup_cons.1 hnodup).1⟩
    · rw [Function.update_of_ne hne, h.entered u, mem_held hblocks hne]
  · rcases eq_or_ne u b.scope with rfl | hne
    · have hu' : (Function.update s.scopes b.scope c b.scope).injected = true := hu
      rw [Function.update_self, hinjected] at hu'
      exact absurd hu' Bool.false_ne_true
    · have hu' : (Function.update s.scopes b.scope c u).injected = true := hu
      rw [Function.update_of_ne hne] at hu'
      exact hscopes u (h.marked u hu')

theorem restore_fields (c : CancelScope) :
    c.restore.injected = c.injected ∧ c.restore.cancelCalled = c.cancelCalled ∧ c.restore.entered = c.entered := by
  unfold CancelScope.restore
  split
  · exact ⟨rfl, rfl, rfl⟩
  · exact ⟨rfl, rfl, rfl⟩

theorem restorable_le (c : CancelScope) : c.restorable ≤ c.savedCancelCount := by
  unfold CancelScope.restorable
  split
  · exact Nat.le_refl _
  · exact Nat.zero_le _

theorem total_lostSlips (c : CancelScope) : Slip.total (c.lostSlips true) = c.restorable - c.savedCancelCount := by
  have hle := restorable_le c
  rw [CancelScope.lostSlips, Slip.total_ofCount _ rfl, if_pos rfl]
  show -((c.savedCancelCount - c.restorable : Nat) : Int) = _
  omega

theorem Sound.refuse {b : Block} {bs : List Block} (h : s.Sound) (hphase : s.phase = .entering)
    (hblocks : s.blocks = b :: bs) (raised : Refusal) : (s.refuse b.scope raised).Sound := by
  obtain ⟨-, htaken⟩ := held_of_body (.inr hphase)
  have hinjected : (s.scopes b.scope).injected = false := by
    have hplaced := h.placed
    unfold Placed at hplaced
    rw [hphase] at hplaced
    refine hplaced b.scope ?_
    rw [nest, hblocks]
    rfl
  obtain ⟨hri, hrc, -⟩ := restore_fields (s.scopes b.scope)
  have htail : s.blocks.tail = bs := by rw [hblocks]; rfl
  unfold HostTask.refuse
  rw [htail]
  refine h.pop hblocks rfl (hri.trans hinjected) hrc ?_ h.exits
  rw [htaken, credit_of_not_injected hinjected, total_lostSlips]
  push_cast
  omega

theorem Sound.expire {b : Block} {bs : List Block} (h : s.Sound) (hphase : s.phase = .entering)
    (hblocks : s.blocks = b :: bs) : (s.expire b.scope).Sound := by
  have hmark := h.mark b.scope
  simp only [HostTask.expire]
  split
  · exact hmark.refuse hphase hblocks _
  · split
    · refine hmark.inject (.inr hphase) ?_ ?_
      · rw [setScope_self]
        show (s.scopes b.scope).entered = true
        rw [h.entered, (held_of_body (.inr hphase)).1, nest, hblocks]
        exact List.mem_cons_self
      · rw [setScope_self]
    · exact hmark.refuse hphase hblocks _

theorem Sound.resume (h : s.Sound) (hphase : s.phase = .entering) :
    ({ s with phase := .running } : HostTask).Sound := by
  obtain ⟨hheld, htaken⟩ := held_of_body (.inr hphase)
  have hbooks := h.accounts
  rw [htaken] at hbooks
  exact ⟨hbooks, h.nodup, fun u => (h.entered u).trans (by rw [hheld]; rfl), h.marked, h.asked, trivial, h.exits⟩

theorem Sound.proceed {b : Block} {bs : List Block} (h : s.Sound) (hphase : s.phase = .entering)
    (hblocks : s.blocks = b :: bs) : (s.proceed b.scope).Sound := by
  unfold HostTask.proceed
  split
  · split
    · exact h.refuse hphase hblocks _
    · split
      · rename_i hcaught
        refine h.inject (.inr hphase) ?_ hcaught.1
        rw [h.entered, (held_of_body (.inr hphase)).1, nest, hblocks]
        exact List.mem_cons_self
      · split
        · exact h.refuse hphase hblocks _
        · have hclear := h.clear (held_of_body (.inr hphase)).2
          have hblocks' : s.clear.blocks =
              b.slip (Slip.ofCount .cleared s.cancelling) :: bs.map (Block.slip (Slip.ofCount .cleared s.cancelling)) := by
            rw [HostTask.clear, hblocks]
            rfl
          exact hclear.refuse hphase hblocks' _
  · exact h.resume hphase

/-- `__aexit__` takes the injection back, or it is a slip. -/
theorem aexit_count (c : CancelScope) (exc : Exc) {injected : Bool} (n : Nat)
    (hcalled : injected = true → c.cancelCalled = true) :
    ((c.aexit exc true injected n).2 : Int) =
      n - (if injected then 1 else 0) + Slip.total (c.injectionSlips exc injected n) := by
  cases injected with
  | false =>
    have hcount : (c.aexit exc true false n).2 = n := by
      unfold CancelScope.aexit
      split
      · simp
      · split
        · simp
        · simp
    rw [hcount, CancelScope.injectionSlips, if_neg (by simp)]
    show (n : Int) = n - 0 + 0
    omega
  | true =>
    have hcalled := hcalled rfl
    by_cases hn : n = 0
    · have hcount : (c.aexit exc true true n).2 = 0 := by
        unfold CancelScope.aexit
        split
        · simp [hn]
        · split
          · simp [hn]
          · simp [hn]
      have hslips : c.injectionSlips exc true n = [.leftBehind] := if_pos ⟨rfl, .inl hn⟩
      rw [hcount, hslips, hn]
      rfl
    · have hpos : 0 < n := Nat.pos_of_ne_zero hn
      by_cases hplain : exc = .cancelledError ∧ c.convertToTimeout = false ∧ c.cancelledCaught = false
      · have hcount : (c.aexit exc true true n).2 = n := by
          obtain ⟨rfl, hconvert, hcaught⟩ := hplain
          simp [CancelScope.aexit, hconvert, hcaught]
        have hslips : c.injectionSlips exc true n = [.leftBehind] := if_pos ⟨rfl, .inr hplain⟩
        rw [hcount, hslips]
        show (n : Int) = n - 1 + 1
        omega
      · have hcount : (c.aexit exc true true n).2 = n - 1 := by
          unfold CancelScope.aexit
          split
          · simp [hpos]
          · rename_i hconvert
            split
            · simp [hpos]
            · rename_i hcaught
              -- A plain scope, so no `CancelledError` is on its way.
              have hexc : exc ≠ .cancelledError := fun hexc => hplain ⟨hexc,
                by simpa [hexc, hcalled] using hconvert, by simpa [hcalled] using hcaught⟩
              simp [hcalled, hexc, hpos]
        have hslips : c.injectionSlips exc true n = [] := if_neg (fun h => h.2.elim hn hplain)
        rw [hcount, hslips]
        show ((n - 1 : Nat) : Int) = n - 1 + 0
        omega

theorem Sound.exit {b : Block} {bs : List Block} (h : s.Sound) (hphase : s.phase = .running)
    (hblocks : s.blocks = b :: bs) (exc : Exc) : (s.exit b.scope exc).Sound := by
  obtain ⟨hheld, htaken⟩ := held_of_body (.inl hphase)
  have hnodup : ((b :: bs).map (·.scope)).Nodup := hblocks ▸ h.nodup
  have hnest : s.nest = b.scope :: bs.map (·.scope) := by
    rw [nest, hblocks]
    rfl
  have hentered : (s.scopes b.scope).entered = true := by
    rw [h.entered, hheld, hnest]
    exact List.mem_cons_self
  have hsc : (s.exit b.scope exc).scopes b.scope = { s.scopes b.scope with entered := false, injected := false } :=
    Function.update_self ..
  have hother : ∀ u ≠ b.scope, (s.exit b.scope exc).scopes u = s.scopes u :=
    fun u hne => Function.update_of_ne hne ..
  have hcalls : ∀ u, ((s.exit b.scope exc).scopes u).cancelCalled = (s.scopes u).cancelCalled := by
    intro u
    rcases eq_or_ne u b.scope with rfl | hne
    · rw [hsc]
    · rw [hother u hne]
  refine ⟨?_, h.nodup, fun u => ?_, fun u hu => ?_, fun u hu => (hcalls u).trans (h.asked u hu), ?_, h.exits⟩
  · have hbooks := h.accounts
    rw [hblocks, htaken] at hbooks
    obtain ⟨hb, hbs⟩ := hbooks
    have htaken' : (s.exit b.scope exc).phase.taken = if (s.scopes b.scope).injected then 1 else 0 := by
      show ScopePhase.taken (.exiting exc _ (s.scopes b.scope).injected) = _
      cases (s.scopes b.scope).injected with
      | true => rfl
      | false => rfl
    have hcredit : ((s.exit b.scope exc).scopes b.scope).credit = (s.scopes b.scope).savedCancelCount := by
      rw [hsc]
      exact credit_of_not_injected rfl
    have hbase : (s.cancelling : Int) - (s.exit b.scope exc).phase.taken +
        ((s.exit b.scope exc).scopes b.scope).credit = s.cancelling - 0 + (s.scopes b.scope).credit := by
      rw [htaken', hcredit, CancelScope.credit]
      omega
    show Accounts _ ((s.cancelling : Int) - (s.exit b.scope exc).phase.taken) s.blocks
    rw [hblocks]
    refine ⟨hbase.trans hb, ?_⟩
    rw [hbase]
    refine hbs.congr fun u hu => ?_
    rw [hother _ (scope_ne_of_nodup hnodup hu)]
  · show ((s.exit b.scope exc).scopes u).entered = true ↔ u ∈ s.nest.tail
    rw [hnest, List.tail_cons]
    rcases eq_or_ne u b.scope with rfl | hne
    · rw [hsc]
      exact ⟨fun hfalse => absurd hfalse Bool.false_ne_true, fun hu => absurd hu (List.nodup_cons.1 hnodup).1⟩
    · rw [hother u hne, h.entered u, hheld, hnest, List.mem_cons]
      simp [hne]
  · rcases eq_or_ne u b.scope with rfl | hne
    · rw [hsc] at hu
      exact absurd hu Bool.false_ne_true
    · rw [hother u hne] at hu
      rw [hcalls u]
      exact h.marked u hu
  · show _ = true ∧ ∀ u ∈ s.nest.head?, _
    rw [hnest]
    refine ⟨hentered, fun u hu => ?_⟩
    obtain rfl : b.scope = u := Option.some_inj.1 hu
    rw [hsc]
    exact ⟨rfl, h.marked b.scope⟩

theorem Sound.exited {b : Block} {bs : List Block} {exc : Exc} {task injected : Bool} (h : s.Sound)
    (hphase : s.phase = .exiting exc task injected) (hblocks : s.blocks = b :: bs) :
    (s.exited b bs exc task injected).Sound := by
  have hplaced := h.placed
  unfold Placed at hplaced
  rw [hphase] at hplaced
  obtain ⟨rfl, hplaced⟩ := hplaced
  obtain ⟨hinjected, hcalled⟩ := hplaced b.scope (by rw [nest, hblocks]; rfl)
  have hheld : s.held = bs.map (·.scope) := by
    rw [held, hphase, nest, hblocks]
    rfl
  have hentered : (s.scopes b.scope).entered = false := by
    by_contra hne
    have hin := (h.entered b.scope).1 (eq_true_of_ne_false hne)
    rw [hheld] at hin
    have hnodup : ((b :: bs).map (·.scope)).Nodup := hblocks ▸ h.nodup
    exact (List.nodup_cons.1 hnodup).1 hin
  have htaken : s.phase.taken = if injected then 1 else 0 := by
    rw [hphase]
    cases injected with
    | true => rfl
    | false => rfl
  have hcredit := credit_of_not_injected hinjected
  have hcount := aexit_count (s.scopes b.scope) exc (s.restoredCount b.scope true) hcalled
  have htotal : Slip.total (s.exitSlips b.scope exc true injected) =
      Slip.total ((s.scopes b.scope).injectionSlips exc injected (s.restoredCount b.scope true)) +
        ((s.scopes b.scope).restorable - (s.scopes b.scope).savedCancelCount) := by
    rw [exitSlips, Slip.total_append, total_lostSlips]
  have hrestored : (s.restoredCount b.scope true : Int) = s.cancelling + (s.scopes b.scope).restorable := by
    rw [restoredCount, if_pos rfl]
    push_cast
    rfl
  have hafter : (((s.scopes b.scope).aexit exc true injected (s.restoredCount b.scope true)).2 : Int) =
      s.cancelling - s.phase.taken + (s.scopes b.scope).credit +
        Slip.total (s.exitSlips b.scope exc true injected) := by
    rw [hcount, htotal, htaken, hcredit, hrestored]
    omega
  obtain ⟨hri, hrc, hre⟩ := restore_fields (s.scopes b.scope)
  refine h.pop hblocks (hre.trans hentered) (hri.trans hinjected) hrc hafter fun r hr => ?_
  rcases List.mem_append.1 hr with hr | hr
  · exact h.exits r hr
  · rw [List.mem_singleton.1 hr]
    have hbooks := h.accounts
    rw [hblocks] at hbooks
    show (((s.scopes b.scope).aexit exc true injected (s.restoredCount b.scope true)).2 : Int) = (b.slip _).expected
    rw [Block.expected_slip, ← hbooks.1, hafter]

/-- A scope is entered at most once at a time, and `checkpoint` is not called. -/
def Fresh (s : HostTask) : ScopeAction → Prop
  | .enter sc => (s.scopes sc).entered = false
  | .checkpoint => False
  | _ => True

theorem Sound.step {a : ScopeAction} (h : s.Sound) (hfresh : s.Fresh a) (hst : s.step a = some s') : s'.Sound := by
  cases stepped hst with
  | enter sc hphase => exact h.enter hphase hfresh
  | expired b bs hphase hblocks => exact h.expire hphase hblocks
  | unexpired b bs hphase hblocks => exact h.proceed hphase hblocks
  | exit b bs exc hphase hblocks => exact h.exit hphase hblocks exc
  | exited b bs exc task injected hphase hblocks => exact h.exited hphase hblocks
  | cancel sc remote hmay => exact h.cancel hmay sc
  | setShield sc value remote hmay => exact h.setShield hmay sc value
  | callback i callback hphase hget =>
    have hmem : callback ∈ s.callbacks := List.mem_of_getElem? hget
    have hdeliver := h.deliver hphase fun sc hsc => h.asked sc (hsc ▸ hmem)
    refine hdeliver.setCallbacks fun sc hsc => ?_
    have hasked := h.asked sc (List.mem_of_mem_eraseIdx hsc)
    exact (CancelScope.called_of_flags ((milder_deliver callback).flags sc)).trans hasked
  | taskCancel => exact h.taskCancel
  | taskUncancel hpos => exact h.taskUncancel hpos
  | nothing => exact h
  | thrown => exact h.same rfl rfl (fun _ => ⟨rfl, rfl, id⟩) h.asked rfl h.accounts
  | checkpoint => exact hfresh.elim

/-- `__aexit__` leaves in the count what was there before `__aenter__` and the
external cancellations since, exactly when the slips and the cancellations of
the scopes around the block come to nothing. -/
theorem exits_balanced_iff {s : HostTask} (h : system.ReachableWhen Fresh s) :
    ∀ r ∈ s.exits, (r.after : Int) = r.block.before + r.block.external ↔ r.block.enclosing + r.block.drift = 0 := by
  have hsound : s.Sound := h.inv (I := Sound) (fun s hs => sound_of_starts hs) fun s a s' hs hok hst => hs.step hok hst
  intro r hr
  have hexpected := hsound.exits r hr
  rw [Block.expected] at hexpected
  omega

/-- A task with a shielded scope. -/
def shielded : HostTask where
  cancelling := 0
  pending := 0
  scopes _ := { cancelCalled := false, shield := true, cancelledCaught := false, convertToTimeout := false }
  blocks := []
  inherited := []
  phase := .running
  callbacks := []
  refused := []
  exits := []

theorem shielded_starts : shielded.Starts := ⟨fun _ => ⟨rfl, rfl⟩, rfl, rfl, rfl, rfl, rfl⟩

/-- A cancellation that is pending comes back at the end of a shielded block, and
the injection of the scope does not stay. -/
theorem exits_balanced_shielded :
    ∃ s : HostTask, s.exits.map (·.after) = [1] ∧ ∀ r ∈ s.exits,
      (r.after : Int) = r.block.before + r.block.external ↔ r.block.enclosing + r.block.drift = 0 := by
  have h : system.ReachableWhen Fresh shielded := .init shielded_starts
  have h := (h.next .taskCancel trivial rfl).next (.enter 0) rfl rfl
  have h := (h.next (.entered false) trivial rfl).next (.cancel 0 false) trivial rfl
  have h := (h.next (.exit .none) trivial rfl).next .exited trivial rfl
  exact ⟨_, rfl, exits_balanced_iff h⟩

/-- Another thread takes the shield away, and the block ends before the callback
runs: the cancellation that was pending is lost. -/
theorem hidden_cancellation_lost :
    ∃ s, system.ReachableWhen Fresh s ∧ ∃ r ∈ s.exits, ¬ r.Propagates ∧ r.block.before = 1 ∧ r.block.external = 0 ∧
      r.block.enclosing = 0 ∧ r.after = 0 := by
  have h : system.ReachableWhen Fresh shielded := .init shielded_starts
  have h := (h.next .taskCancel trivial rfl).next (.enter 0) rfl rfl
  have h := (h.next (.entered false) trivial rfl).next (.setShield 0 false true) trivial rfl
  have h := (h.next (.exit .none) trivial rfl).next .exited trivial rfl
  refine ⟨_, h, _, List.mem_singleton.2 rfl, ?_, rfl, rfl, rfl, rfl⟩
  exact fun hprop => absurd hprop.1 (by decide)

end HostTask

end Multiloop
