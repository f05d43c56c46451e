import Multiloop.Context.AsyncContext

/-!
# Cancellation reaches everything

The invariant of every run of a tree of contexts. What a cancelled context has
to reach is either reached, or some thread has still to go there: a child that
is not in its parent's set is cancelled, or its constructor or a `cancel` is on
the way; a future that its context does not track is done or its cancellation
is scheduled, or on the way, and the same holds of its scope, unless the
future was done before its context was cancelled. Nothing is on the way when
no call is in progress.
-/

namespace Multiloop.AsyncContext

variable {Thread : Type} (pend : Item → Prop) (m : Shared Thread)

/-- Child `k` of `p` is or will be reached by a cancellation of `p`. -/
def Linked (p k : Nat) : Prop :=
  k ∈ (m.contexts p).children ∨ (m.contexts k).cancelled = true ∨ pend (.addChild p k) ∨ pend (.cancel k)

/-- Future `f` is done or its cancellation is on the way. -/
def Reached (f : Nat) : Prop :=
  (m.futures f).done = true ∨ (m.futures f).cancelScheduled = true ∨ pend (.cancelFuture f) ∨ pend (.deliver f)

/-- The scope of future `f` is cancelled, or will be, or need not be. -/
def ScopeReached (f sc : Nat) : Prop :=
  m.scopeCancelled sc = true ∨ pend (.cancelScope sc) ∨ ((m.futures f).done = true ∧ (m.futures f).early = true)

def Tracked (f sc : Nat) : Prop :=
  (f ∈ (m.contexts (m.futures f).ctx).futures ∧ (f, sc) ∈ (m.contexts (m.futures f).ctx).scopes) ∨
    pend (.recheck (m.futures f).ctx sc f) ∨ (Reached pend m f ∧ ScopeReached pend m f sc)

structure Sound : Prop where
  quiet : ∀ c, (m.contexts c).cancelled = true →
    (m.contexts c).children = [] ∧ (m.contexts c).futures = [] ∧ (m.contexts c).scopes = []
  child : ∀ k p, (m.contexts k).parent = some p → Linked pend m p k
  detach : ∀ p k, pend (.detach p k) → (m.contexts k).cancelled = true
  early : ∀ f, (m.futures f).done = true → (m.contexts (m.futures f).ctx).cancelled = false →
    (m.futures f).early = true
  due : ∀ f, (m.futures f).discardDue = true → (m.futures f).done = true
  /-- The future of a `submit` that found its context cancelled. -/
  plain : ∀ f < m.made, (m.futures f).scope = none → (m.futures f).done = true
  tracked : ∀ f < m.made, ∀ sc, (m.futures f).scope = some sc → Tracked pend m f sc

/-- What item `y` was to do is done, or left to other items. -/
def Discharged : Item → Prop
  | .addChild p k => k ∈ (m.contexts p).children ∨ (m.contexts k).cancelled = true ∨ pend (.cancel k)
  | .cancel k => (m.contexts k).cancelled = true
  | .cancelScope sc => m.scopeCancelled sc = true
  | .cancelFuture f => (m.futures f).done = true ∨ (m.futures f).cancelScheduled = true ∨ pend (.deliver f)
  | .deliver f => (m.futures f).done = true ∨ (m.futures f).cancelScheduled = true
  | .recheck c sc f => (m.futures f).ctx = c → Tracked pend m f sc
  | _ => True

variable {pend m} {q : Item → Prop}

/-- Items are done and leave others. -/
theorem Sound.swap (h : Sound pend m) (hq : ∀ y, pend y → q y ∨ Discharged q m y)
    (hd : ∀ p k, q (.detach p k) → (m.contexts k).cancelled = true) : Sound q m := by
  have hreached : ∀ f, Reached pend m f → Reached q m f := by
    intro f hf
    rcases hf with hf | hf | hf | hf
    · exact .inl hf
    · exact .inr (.inl hf)
    · rcases hq _ hf with hy | hy | hy | hy
      · exact .inr (.inr (.inl hy))
      · exact .inl hy
      · exact .inr (.inl hy)
      · exact .inr (.inr (.inr hy))
    · rcases hq _ hf with hy | hy | hy
      · exact .inr (.inr (.inr hy))
      · exact .inl hy
      · exact .inr (.inl hy)
  have hscope : ∀ f sc, ScopeReached pend m f sc → ScopeReached q m f sc := by
    intro f sc hf
    rcases hf with hf | hf | hf
    · exact .inl hf
    · rcases hq _ hf with hy | hy
      · exact .inr (.inl hy)
      · exact .inl hy
    · exact .inr (.inr hf)
  refine ⟨h.quiet, fun k p hp => ?_, hd, h.early, h.due, h.plain, fun f hf sc hsc => ?_⟩
  · rcases h.child k p hp with hk | hk | hk | hk
    · exact .inl hk
    · exact .inr (.inl hk)
    · rcases hq _ hk with hy | hy | hy | hy
      · exact .inr (.inr (.inl hy))
      · exact .inl hy
      · exact .inr (.inl hy)
      · exact .inr (.inr (.inr hy))
    · rcases hq _ hk with hy | hy
      · exact .inr (.inr (.inr hy))
      · exact .inr (.inl hy)
  · rcases h.tracked f hf sc hsc with ht | ht | ⟨hr, hs⟩
    · exact .inl ht
    · rcases hq _ ht with hy | hy
      · exact .inr (.inl hy)
      · exact hy rfl
    · exact .inr (.inr ⟨hreached f hr, hscope f sc hs⟩)

theorem Sound.more (h : Sound pend m) {items : List Item} (hd : ∀ p k, .detach p k ∉ items) :
    Sound (fun y => y ∈ items ∨ pend y) m :=
  h.swap (fun _ hy => .inl (.inr hy)) fun p k hp => hp.elim (fun hm => absurd hm (hd p k)) (h.detach p k)

/-- Item `x` was performed and left nothing. -/
theorem Sound.drop {x : Item} (h : Sound (fun y => y = x ∨ pend y) m)
    (hx : Discharged (fun y => y ∈ [] ∨ pend y) m x) : Sound (fun y => y ∈ [] ∨ pend y) m := by
  refine h.swap (fun y hy => ?_) fun p k hp => ?_
  · rcases hy with rfl | hy
    · exact .inr hx
    · exact .inl (.inr hy)
  · exact h.detach p k (.inr (hp.resolve_left List.not_mem_nil))

/-! ## Contexts -/

theorem contexts_setContext (c d : Nat) (x : Context) :
    (m.setContext c x).contexts d = if d = c then x else m.contexts d := by
  show Function.update m.contexts c x d = _
  by_cases hd : d = c
  · rw [if_pos hd, hd, Function.update_self]
  · rw [if_neg hd, Function.update_of_ne hd]

/-- Context `c` changes: it stays cancelled if it was, and what it no longer
tracks is reached. -/
theorem Sound.setContext (h : Sound pend m) {c : Nat} {x : Context} (hparent : x.parent = (m.contexts c).parent)
    (hcancelled : (m.contexts c).cancelled = true → x.cancelled = true)
    (hquiet : x.cancelled = true → x.children = [] ∧ x.futures = [] ∧ x.scopes = [])
    (hchild : ∀ k, (m.contexts k).parent = some c → k ∈ (m.contexts c).children →
      k ∈ x.children ∨ (m.contexts k).cancelled = true ∨ pend (.cancel k))
    (hfut : ∀ f sc, (m.futures f).ctx = c → f ∈ (m.contexts c).futures → (f, sc) ∈ (m.contexts c).scopes →
      (f ∈ x.futures ∧ (f, sc) ∈ x.scopes) ∨ (Reached pend m f ∧ ScopeReached pend m f sc)) :
    Sound pend (m.setContext c x) := by
  have hmono : ∀ d, (m.contexts d).cancelled = true → ((m.setContext c x).contexts d).cancelled = true := by
    intro d hd
    rw [contexts_setContext]
    split
    · rename_i hdc
      exact hcancelled (hdc ▸ hd)
    · exact hd
  refine ⟨fun d hd => ?_, fun k p hp => ?_, fun p k hp => hmono k (h.detach p k hp), fun f hf hc => ?_, h.due,
    h.plain, fun f hf sc hsc => ?_⟩
  · rw [contexts_setContext] at hd ⊢
    split
    · rename_i hdc
      rw [if_pos hdc] at hd
      exact hquiet hd
    · rename_i hdc
      rw [if_neg hdc] at hd
      exact h.quiet d hd
  · have hp' : (m.contexts k).parent = some p := by
      rw [contexts_setContext] at hp
      split at hp
      · rename_i hkc
        rw [hkc, ← hparent]
        exact hp
      · exact hp
    have hin : k ∈ (m.contexts p).children →
        k ∈ ((m.setContext c x).contexts p).children ∨ (m.contexts k).cancelled = true ∨ pend (.cancel k) := by
      intro hk
      rw [contexts_setContext]
      split
      · rename_i hpc
        rw [hpc] at hp' hk
        exact hchild k hp' hk
      · exact .inl hk
    rcases h.child k p hp' with hk | hk | hk
    · rcases hin hk with hk | hk | hk
      · exact .inl hk
      · exact .inr (.inl (hmono k hk))
      · exact .inr (.inr (.inr hk))
    · exact .inr (.inl (hmono k hk))
    · exact .inr (.inr hk)
  · exact h.early f hf (Bool.eq_false_iff.2 fun hct => Bool.false_ne_true (hc.symm.trans (hmono _ hct)))
  · rcases h.tracked f hf sc hsc with ⟨hin, hins⟩ | ht
    · show (f ∈ ((m.setContext c x).contexts (m.futures f).ctx).futures ∧ _) ∨ _
      by_cases hfc : (m.futures f).ctx = c
      · rw [hfc] at hin hins
        rcases hfut f sc hfc hin hins with hx | hx
        · left
          rw [Shared.setContext]
          dsimp only
          rw [hfc, Function.update_self]
          exact hx
        · exact .inr (.inr hx)
      · left
        rw [Shared.setContext]
        dsimp only
        rw [Function.update_of_ne hfc]
        exact ⟨hin, hins⟩
    · exact .inr ht

theorem futures_setFuture (f g : Nat) (x : Future) :
    (m.setFuture f x).futures g = if g = f then x else m.futures g := by
  show Function.update m.futures f x g = _
  by_cases hg : g = f
  · rw [if_pos hg, hg, Function.update_self]
  · rw [if_neg hg, Function.update_of_ne hg]

/-- Future `f` changes: nothing that has happened to it is undone. -/
theorem Sound.setFuture (h : Sound pend m) {f : Nat} {x : Future} (hctx : x.ctx = (m.futures f).ctx)
    (hscope : x.scope = (m.futures f).scope) (hdone : (m.futures f).done = true → x.done = true)
    (hsched : (m.futures f).cancelScheduled = true → x.cancelScheduled = true)
    (hkeep : (m.futures f).done = true → (m.futures f).early = true → x.early = true)
    (hearly : x.done = true → (m.contexts x.ctx).cancelled = false → x.early = true)
    (hdue : x.discardDue = true → x.done = true) : Sound pend (m.setFuture f x) := by
  have hsame : ∀ g, ((m.setFuture f x).futures g).ctx = (m.futures g).ctx ∧
      ((m.setFuture f x).futures g).scope = (m.futures g).scope := by
    intro g
    rw [futures_setFuture]
    split
    · rename_i hg
      rw [hg]
      exact ⟨hctx, hscope⟩
    · exact ⟨rfl, rfl⟩
  have hmono : ∀ g, (m.futures g).done = true → ((m.setFuture f x).futures g).done = true := by
    intro g hg
    rw [futures_setFuture]
    split
    · rename_i hgf
      exact hdone (hgf ▸ hg)
    · exact hg
  have hreached : ∀ g, Reached pend m g → Reached pend (m.setFuture f x) g := by
    intro g hg
    rcases hg with hg | hg | hg
    · exact .inl (hmono g hg)
    · refine .inr (.inl ?_)
      rw [futures_setFuture]
      split
      · rename_i hgf
        exact hsched (hgf ▸ hg)
      · exact hg
    · exact .inr (.inr hg)
  have hscopes : ∀ g sc, ScopeReached pend m g sc → ScopeReached pend (m.setFuture f x) g sc := by
    intro g sc hg
    rcases hg with hg | hg | ⟨hd, he⟩
    · exact .inl hg
    · exact .inr (.inl hg)
    · refine .inr (.inr ⟨hmono g hd, ?_⟩)
      rw [futures_setFuture]
      split
      · rename_i hgf
        rw [hgf] at hd he
        exact hkeep hd he
      · exact he
  refine ⟨h.quiet, h.child, h.detach, fun g hg hc => ?_, fun g hg => ?_, fun g hg hs => ?_, fun g hg sc hs => ?_⟩
  · rw [futures_setFuture] at hg hc ⊢
    split
    · rename_i hgf
      rw [if_pos hgf] at hg hc
      exact hearly hg hc
    · rename_i hgf
      rw [if_neg hgf] at hg hc
      exact h.early g hg hc
  · rw [futures_setFuture] at hg ⊢
    split
    · rename_i hgf
      rw [if_pos hgf] at hg
      exact hdue hg
    · rename_i hgf
      rw [if_neg hgf] at hg
      exact h.due g hg
  · exact hmono g (h.plain g hg ((hsame g).2 ▸ hs))
  · have ht := h.tracked g hg sc ((hsame g).2 ▸ hs)
    rw [Tracked, (hsame g).1]
    rcases ht with ht | ht | ⟨hr, hsr⟩
    · exact .inl ht
    · exact .inr (.inl ht)
    · exact .inr (.inr ⟨hreached g hr, hscopes g sc hsr⟩)

/-! ## The steps -/

theorem Sound.addChild (h : Sound pend m) {p k : Nat} (hp : (m.contexts p).cancelled = false) :
    Sound pend (m.addChild p k) := by
  refine h.setContext rfl id (fun hc => ?_) (fun l _ hl => .inl (List.mem_append_left _ hl))
    fun f sc _ hf hsc => .inl ⟨hf, hsc⟩
  rw [hp] at hc
  cases hc

theorem Sound.removeChild (h : Sound pend m) {p k : Nat} (hk : (m.contexts k).cancelled = true) :
    Sound pend (m.removeChild p k) := by
  refine h.setContext rfl id (fun hc => ?_) (fun l _ hl => ?_) fun f sc _ hf hsc => .inl ⟨hf, hsc⟩
  · obtain ⟨hch, hrest⟩ := h.quiet p hc
    refine ⟨?_, hrest⟩
    show (m.contexts p).children.filter _ = []
    rw [hch]
    rfl
  · by_cases hlk : l = k
    · exact .inr (.inl (hlk ▸ hk))
    · exact .inl (List.mem_filter.2 ⟨hl, decide_eq_true hlk⟩)

/-- A future that is done drops out of its context. -/
theorem Sound.discard (h : Sound pend m) {f : Nat} (hf : (m.futures f).discardDue = true) :
    Sound pend (m.discard f) := by
  have hdone := h.due f hf
  have hctx : Sound pend (m.setContext (m.futures f).ctx { m.contexts (m.futures f).ctx with
      futures := (m.contexts (m.futures f).ctx).futures.filter (· ≠ f)
      scopes := (m.contexts (m.futures f).ctx).scopes.filter (·.1 ≠ f) }) := by
    refine h.setContext rfl id (fun hc => ?_) (fun l _ hl => .inl hl) fun g sc hg hin hins => ?_
    · obtain ⟨hch, hfu, hsc⟩ := h.quiet _ hc
      refine ⟨hch, ?_, ?_⟩
      · show (m.contexts (m.futures f).ctx).futures.filter _ = []
        rw [hfu]
        rfl
      · show (m.contexts (m.futures f).ctx).scopes.filter _ = []
        rw [hsc]
        rfl
    · by_cases hgf : g = f
      · -- a context that still tracks a future is not cancelled
        have hopen : (m.contexts (m.futures f).ctx).cancelled = false := by
          refine Bool.eq_false_iff.2 fun hc => ?_
          rw [(h.quiet _ hc).2.1] at hin
          exact absurd hin List.not_mem_nil
        subst hgf
        exact .inr ⟨.inl hdone, .inr (.inr ⟨hdone, h.early g hdone hopen⟩)⟩
      · have hne : decide (g ≠ f) = true := decide_eq_true hgf
        exact .inl ⟨List.mem_filter.2 ⟨hin, hne⟩, List.mem_filter.2 ⟨hins, hne⟩⟩
  refine hctx.setFuture rfl rfl id id (fun _ he => he) (fun hd hc => hctx.early f hd hc) fun hd => ?_
  cases hd

theorem Sound.finish (h : Sound pend m) (f : Nat) : Sound pend (m.finish f) := by
  rw [Shared.finish]
  split
  · exact h
  · rename_i hnot
    refine h.setFuture rfl rfl (fun hd => absurd hd hnot) id (fun hd => absurd hd hnot) (fun _ hc => ?_) fun _ => rfl
    show (!(m.contexts (m.futures f).ctx).cancelled) = true
    rw [hc]
    rfl

theorem done_finish (f : Nat) : ((m.finish f).futures f).done = true := by
  rw [Shared.finish]
  split
  · assumption
  · rw [futures_setFuture, if_pos rfl]

theorem Sound.scheduleCancel (h : Sound pend m) (f : Nat) : Sound pend (m.scheduleCancel f) :=
  h.setFuture rfl rfl id (fun _ => rfl) (fun _ => id) (h.early f) (h.due f)

theorem Sound.register (h : Sound pend m) {c sc f : Nat} (hc : (m.contexts c).cancelled = false) :
    Sound pend (m.register c sc f) := by
  have hctx : Sound pend (m.setContext c { m.contexts c with
      futures := (m.contexts c).futures ++ [f], scopes := (m.contexts c).scopes ++ [(f, sc)] }) := by
    refine h.setContext rfl id (fun ht => ?_) (fun l _ hl => .inl hl)
      fun g sc' _ hin hins => .inl ⟨List.mem_append_left _ hin, List.mem_append_left _ hins⟩
    rw [hc] at ht
    cases ht
  exact hctx.setFuture rfl rfl id id (fun _ he => he) (fun hd hcn => hctx.early f hd hcn) id

/-- A new future. -/
theorem Sound.add (h : Sound pend m) {x : Future} (hplain : x.scope = none → x.done = true)
    (hrecheck : ∀ sc, x.scope = some sc → pend (.recheck x.ctx sc m.made))
    (hearly : x.done = true → (m.contexts x.ctx).cancelled = true) (hdue : x.discardDue = false) :
    Sound pend { m with futures := Function.update m.futures m.made x, made := m.made + 1 } := by
  have hold : ∀ f, f ≠ m.made → Function.update m.futures m.made x f = m.futures f := fun f hf =>
    Function.update_of_ne hf ..
  have hnew : Function.update m.futures m.made x m.made = x := Function.update_self ..
  refine ⟨h.quiet, h.child, h.detach, fun f hf hc => ?_, fun f hf => ?_, fun f hf hs => ?_, fun f hf sc hs => ?_⟩
  · dsimp only at hf hc ⊢
    by_cases hfm : f = m.made
    · rw [hfm, hnew] at hf hc
      rw [hearly hf] at hc
      cases hc
    · rw [hold f hfm] at hf hc ⊢
      exact h.early f hf hc
  · dsimp only at hf ⊢
    by_cases hfm : f = m.made
    · rw [hfm, hnew, hdue] at hf
      cases hf
    · rw [hold f hfm] at hf ⊢
      exact h.due f hf
  · dsimp only at hf hs ⊢
    by_cases hfm : f = m.made
    · rw [hfm, hnew] at hs ⊢
      exact hplain hs
    · rw [hold f hfm] at hs ⊢
      exact h.plain f (Nat.lt_of_le_of_ne (Nat.le_of_lt_succ hf) hfm) hs
  · dsimp only at hf hs ⊢
    rw [Tracked, Reached, ScopeReached]
    dsimp only
    by_cases hfm : f = m.made
    · rw [hfm, hnew] at hs ⊢
      exact .inr (.inl (hrecheck sc hs))
    · rw [hold f hfm] at hs ⊢
      exact h.tracked f (Nat.lt_of_le_of_ne (Nat.le_of_lt_succ hf) hfm) sc hs

/-- The future `submit` returns in a cancelled context. -/
theorem Sound.createCancelled (h : Sound pend m) {c : Nat} (hc : (m.contexts c).cancelled = true) :
    Sound pend ((m.create c none).finish m.made) := by
  have heq : (m.create c none).finish m.made = { m with
      futures := Function.update m.futures m.made { ctx := c, scope := none, done := true }, made := m.made + 1 } := by
    have hx : (m.create c none).futures m.made = { ctx := c, scope := none } := Function.update_self ..
    rw [Shared.finish, hx]
    show (m.create c none).setFuture m.made
      { ctx := c, scope := none, done := true, discardDue := false, early := !(m.contexts c).cancelled } = _
    rw [hc, Shared.setFuture]
    show ({ m with futures := Function.update (Function.update m.futures m.made _) m.made _, made := _ } :
      Shared Thread) = _
    rw [Function.update_idem]
    rfl
  rw [heq]
  exact h.add (fun _ => rfl) (fun sc hs => by cases hs) (fun _ => hc) rfl

theorem Sound.cancelScope (h : Sound pend m) (sc : Nat) :
    Sound pend { m with scopeCancelled := Function.update m.scopeCancelled sc true } := by
  have hmono : ∀ d, m.scopeCancelled d = true → Function.update m.scopeCancelled sc true d = true := by
    intro d hd
    by_cases hds : d = sc
    · rw [hds, Function.update_self]
    · rw [Function.update_of_ne hds]
      exact hd
  refine { h with tracked := fun f hf sc' hs => ?_ }
  rcases h.tracked f hf sc' hs with ht | ht | ⟨hr, hsr⟩
  · exact .inl ht
  · exact .inr (.inl ht)
  · exact .inr (.inr ⟨hr, hsr.imp_left (hmono sc')⟩)

/-- The first section of `cancel` in a context that was not cancelled. -/
theorem Sound.clear (h : Sound pend m) (c : Nat) :
    Sound (fun y => y ∈ m.cancelItems c ∨ pend y) (m.clear c) := by
  let reach : List Item := (m.contexts c).children.map .cancel ++
    (m.contexts c).scopes.map (fun p => .cancelScope p.2) ++ (m.contexts c).futures.map .cancelFuture
  have hchildren : ∀ k ∈ (m.contexts c).children, .cancel k ∈ reach := fun k hk =>
    List.mem_append_left _ (List.mem_append_left _ (List.mem_map_of_mem hk))
  have hscopes : ∀ f sc, (f, sc) ∈ (m.contexts c).scopes → .cancelScope sc ∈ reach := fun f sc hsc =>
    List.mem_append_left _ (List.mem_append_right _ (List.mem_map.2 ⟨(f, sc), hsc, rfl⟩))
  have hfutures : ∀ f ∈ (m.contexts c).futures, .cancelFuture f ∈ reach := fun f hf =>
    List.mem_append_right _ (List.mem_map_of_mem hf)
  have hno : ∀ p k, .detach p k ∉ reach := fun p k hm => by
    simp only [reach, List.mem_append, List.mem_map] at hm
    rcases hm with (⟨_, _, he⟩ | ⟨_, _, he⟩) | ⟨_, _, he⟩ <;> cases he
  have hmore : Sound (fun y => y ∈ reach ∨ pend y) m := h.more hno
  have hcleared : Sound (fun y => y ∈ reach ∨ pend y) (m.clear c) := by
    refine hmore.setContext rfl (fun _ => rfl) (fun _ => ⟨rfl, rfl, rfl⟩)
      (fun k _ hk => .inr (.inr (.inl (hchildren k hk)))) fun f sc _ hf hsc => .inr ⟨?_, ?_⟩
    · exact .inr (.inr (.inl (.inl (hfutures f hf))))
    · exact .inr (.inl (.inl (hscopes f sc hsc)))
  have hitems : ∀ y, y ∈ m.cancelItems c ↔ (∃ p, (m.contexts c).parent = some p ∧ y = .detach p c) ∨ y ∈ reach := by
    intro y
    simp only [Shared.cancelItems, reach, List.mem_append, Option.mem_toList, Option.map_eq_some_iff, or_assoc,
      eq_comm (a := y)]
  refine hcleared.swap (fun y hy => .inl ?_) fun p k hp => ?_
  · exact hy.imp_left fun hr => (hitems y).2 (.inr hr)
  · rcases hp with hm | hp
    · rcases (hitems _).1 hm with ⟨p', _, he⟩ | hr
      · cases he
        rw [Shared.clear, contexts_setContext, if_pos rfl]
      · exact absurd hr (hno p k)
    · exact hcleared.detach p k (.inr hp)

/-- Performing an item keeps the invariant. -/
theorem Sound.perform {t : Thread} {choice : Bool} {x : Item} {m' : Shared Thread} {new : List Item}
    (h : Sound (fun y => y = x ∨ pend y) m) (hp : Shared.perform t choice x m = some (m', new)) :
    Sound (fun y => y ∈ new ∨ pend y) m' := by
  cases x with
  | addChild p k =>
    simp only [Shared.perform] at hp
    split at hp
    · split at hp
      · rename_i hc
        cases hp
        refine h.swap (fun y hy => ?_) fun q k hq => ?_
        · rcases hy with rfl | hy
          · exact .inr (.inr (.inr (.inl List.mem_cons_self)))
          · exact .inl (.inr hy)
        · exact h.detach q k (.inr (hq.resolve_left (by simp)))
      · rename_i hc
        cases hp
        refine (h.addChild (Bool.eq_false_iff.2 hc)).drop (.inl ?_)
        rw [Shared.addChild, contexts_setContext, if_pos rfl]
        exact List.mem_append_right _ List.mem_cons_self
    · cases hp
  | cancel c =>
    simp only [Shared.perform] at hp
    split at hp
    · split at hp
      · rename_i hc
        cases hp
        exact h.drop hc
      · cases hp
        have hclear := h.clear c
        refine hclear.swap (fun y hy => ?_) fun q k hq => ?_
        · rcases hy with hy | rfl | hy
          · exact .inl (.inl hy)
          · right
            show ((m.clear c).contexts c).cancelled = true
            rw [Shared.clear, contexts_setContext, if_pos rfl]
          · exact .inl (.inr hy)
        · exact hclear.detach q k (hq.imp_right .inr)
    · cases hp
  | detach p k =>
    simp only [Shared.perform] at hp
    split at hp
    · cases hp
      exact (h.removeChild (h.detach p k (.inl rfl))).drop trivial
    · cases hp
  | cancelScope sc =>
    cases hp
    exact (h.cancelScope sc).drop (Function.update_self ..)
  | cancelFuture f =>
    cases hp
    refine h.swap (fun y hy => ?_) fun q k hq => ?_
    · rcases hy with rfl | hy
      · right
        show _ ∨ _ ∨ _
        by_cases hd : (m.futures f).done = true
        · exact .inl hd
        · refine .inr (.inr (.inl ?_))
          rw [if_neg hd]
          exact List.mem_cons_self
      · exact .inl (.inr hy)
    · refine h.detach q k (.inr (hq.resolve_left fun hm => ?_))
      split at hm <;> simp at hm
  | deliver f =>
    cases hp
    cases choice with
    | true =>
      refine (h.scheduleCancel f).drop (.inr ?_)
      show ((m.setFuture f _).futures f).cancelScheduled = true
      rw [futures_setFuture, if_pos rfl]
    | false => exact (h.finish f).drop (.inl (done_finish f))
  | submit c =>
    simp only [Shared.perform] at hp
    split at hp
    · split at hp
      · rename_i hc
        cases hp
        exact (h.createCancelled hc).drop trivial
      · cases hp
        have hm : Sound (fun y => y = .submit c ∨ pend y) { m with scopes := m.scopes + 1 } := { h with }
        refine hm.swap (fun y hy => ?_) fun q k hq => ?_
        · rcases hy with rfl | hy
          · exact .inr trivial
          · exact .inl (.inr hy)
        · exact h.detach q k (.inr (hq.resolve_left (by simp)))
    · cases hp
  | poolSubmit c sc =>
    simp only [Shared.perform] at hp
    split at hp
    · cases hp
      have hmore : Sound (fun y => y ∈ [Item.recheck c sc m.made] ∨ y = .poolSubmit c sc ∨ pend y) m :=
        h.more (by simp)
      have hadd := hmore.add (x := { ctx := c, scope := some sc }) (fun hs => by cases hs)
        (fun sc' hs => by cases hs; exact .inl List.mem_cons_self) (fun hd => by cases hd) rfl
      refine hadd.swap (fun y hy => ?_) fun q k hq => ?_
      · rcases hy with hy | rfl | hy
        · exact .inl (.inl hy)
        · exact .inr trivial
        · exact .inl (.inr hy)
      · exact h.detach q k (.inr (hq.resolve_left (by simp)))
    · cases hp
      exact h.drop trivial
  | recheck c sc f =>
    simp only [Shared.perform] at hp
    split at hp
    · split at hp
      · cases hp
        have hm : Sound (fun y => y = .recheck c sc f ∨ pend y) (m.setLock c (some t)) := { h with }
        refine hm.swap (fun y hy => ?_) fun q k hq => ?_
        · rcases hy with rfl | hy
          · refine .inr fun _ => .inr (.inr ⟨?_, ?_⟩)
            · exact .inr (.inr (.inl (.inl (by simp))))
            · exact .inr (.inl (.inl (by simp)))
          · exact .inl (.inr hy)
        · exact h.detach q k (.inr (hq.resolve_left (by simp)))
      · rename_i hc
        cases hp
        refine (h.register (Bool.eq_false_iff.2 hc)).drop fun hctx => .inl ?_
        have hcx : (m.futures f).ctx = c := by
          rw [Shared.register, futures_setFuture, if_pos rfl] at hctx
          exact hctx
        rw [Shared.register, futures_setFuture, if_pos rfl]
        show f ∈ ((m.setContext c _).contexts (m.futures f).ctx).futures ∧
          _ ∈ ((m.setContext c _).contexts (m.futures f).ctx).scopes
        rw [hcx, contexts_setContext, if_pos rfl]
        exact ⟨List.mem_append_right _ List.mem_cons_self, List.mem_append_right _ List.mem_cons_self⟩
    · cases hp
  | release c =>
    cases hp
    have hm : Sound (fun y => y = .release c ∨ pend y) (m.setLock c none) := { h with }
    exact hm.drop trivial

/-- A new context, which nothing has happened to yet. -/
theorem Sound.construct (h : Sound pend m) (parent : Option Nat) :
    Sound (fun y => y ∈ (parent.map fun p => Item.addChild p m.created).toList ∨ pend y)
      { m.setContext m.created { m.contexts m.created with parent } with created := m.created + 1 } := by
  let m' := m.setContext m.created { m.contexts m.created with parent }
  have hctx : ∀ d, (m'.contexts d).cancelled = (m.contexts d).cancelled ∧
      (m'.contexts d).children = (m.contexts d).children ∧ (m'.contexts d).futures = (m.contexts d).futures ∧
      (m'.contexts d).scopes = (m.contexts d).scopes := by
    intro d
    simp only [m', contexts_setContext]
    split
    · rename_i hd
      rw [hd]
      exact ⟨rfl, rfl, rfl, rfl⟩
    · exact ⟨rfl, rfl, rfl, rfl⟩
  have hno : ∀ p k, .detach p k ∉ (parent.map fun p => Item.addChild p m.created).toList := fun p k hm => by
    cases parent <;> simp at hm
  have hmore := h.more hno
  refine ⟨fun c hc => ?_, fun k p hp => ?_, fun p k hp => ?_, fun f hf hc => ?_, hmore.due, hmore.plain,
    fun f hf sc hsc => ?_⟩
  · obtain ⟨h₁, h₂, h₃, h₄⟩ := hctx c
    show (m'.contexts c).children = [] ∧ (m'.contexts c).futures = [] ∧ (m'.contexts c).scopes = []
    rw [h₂, h₃, h₄]
    exact h.quiet c (h₁ ▸ hc)
  · by_cases hk : k = m.created
    · -- the new context is on its way to its parent
      have hparent : parent = some p := by
        rw [hk] at hp
        exact (congrArg Context.parent (Function.update_self ..)).symm.trans hp
      refine .inr (.inr (.inl (.inl ?_)))
      rw [hparent, hk]
      exact List.mem_cons_self
    · have hp' : (m.contexts k).parent = some p :=
        (congrArg Context.parent (Function.update_of_ne hk ..)).symm.trans hp
      have hl := hmore.child k p hp'
      show k ∈ (m'.contexts p).children ∨ (m'.contexts k).cancelled = true ∨ _
      rw [(hctx p).2.1, (hctx k).1]
      exact hl
  · show (m'.contexts k).cancelled = true
    rw [(hctx k).1]
    exact hmore.detach p k hp
  · refine h.early f hf ?_
    rw [← (hctx _).1]
    exact hc
  · have ht := hmore.tracked f hf sc hsc
    show (f ∈ (m'.contexts (m.futures f).ctx).futures ∧ (f, sc) ∈ (m'.contexts (m.futures f).ctx).scopes) ∨ _
    rw [(hctx _).2.2.1, (hctx _).2.2.2]
    exact ht

variable [DecidableEq Thread]

theorem Sound.step {s s' : Sys Thread} {a : Action Thread} (h : Sound s.Pending s.shared)
    (hst : s.step a = some s') : Sound s'.Pending s'.shared := by
  cases a with
  | construct t parent =>
    dsimp only [Sys.step] at hst
    rw [Sys.construct] at hst
    dsimp only at hst
    split at hst
    · rename_i hidle
      cases hst
      rw [Bool.and_eq_true] at hidle
      exact Agenda.inv_start (List.isEmpty_iff.1 hidle.1) (h.construct parent)
    · cases hst
  | cancel t c =>
    dsimp only [Sys.step] at hst
    rw [Sys.call] at hst
    split at hst
    · rename_i hidle
      cases hst
      rw [Bool.and_eq_true] at hidle
      exact Agenda.inv_start (List.isEmpty_iff.1 hidle.1) (h.more (by simp))
    · cases hst
  | submit t c =>
    dsimp only [Sys.step] at hst
    rw [Sys.call] at hst
    split at hst
    · rename_i hidle
      cases hst
      rw [Bool.and_eq_true] at hidle
      exact Agenda.inv_start (List.isEmpty_iff.1 hidle.1) (h.more (by simp))
    · cases hst
  | advance t choice =>
    exact Agenda.inv_advance (I := Sound) Shared.perform (fun _ _ _ _ _ _ _ hi hp => hi.perform hp) h hst
  | complete f =>
    dsimp only [Sys.step] at hst
    split at hst
    · cases hst
      exact h.finish f
    · cases hst
  | runCancel f =>
    dsimp only [Sys.step] at hst
    split at hst
    · cases hst
      exact h.finish f
    · cases hst
  | discard f =>
    dsimp only [Sys.step] at hst
    split at hst
    · rename_i hdue
      cases hst
      rw [Bool.and_eq_true] at hdue
      exact h.discard hdue.1
    · cases hst

theorem sound_of_reachable {s : Sys Thread} (hs : (system Thread).Reachable s) : Sound s.Pending s.shared := by
  refine hs.inv (I := fun s => Sound s.Pending s.shared) (fun s h0 => ?_) fun s a s' hi hst => hi.step hst
  obtain rfl := h0
  have hnone : ∀ x, ¬ Agenda.Pending (⟨.new, fun _ => []⟩ : Sys Thread) x := fun x ⟨_, hx⟩ =>
    absurd hx List.not_mem_nil
  exact
    { quiet := fun c hc => by cases hc
      child := fun k p hp => by cases hp
      detach := fun p k hp => absurd hp (hnone _)
      early := fun f hf => by cases hf
      due := fun f hf => by cases hf
      plain := fun f hf => absurd hf (Nat.not_lt_zero f)
      tracked := fun f hf => absurd hf (Nat.not_lt_zero f) }

/-- `d` is a descendant of `c`. -/
inductive Descendant (m : Shared Thread) (c : Nat) : Nat → Prop
  | child {d : Nat} : (m.contexts d).parent = some c → Descendant m c d
  | next {d e : Nat} : Descendant m c d → (m.contexts e).parent = some d → Descendant m c e

/-- In every state of every run where no call is in progress, a cancelled
context has cancelled everything under it: its descendants, the futures made
in or for its `submit` and their scopes. -/
theorem cancellation_reaches_all {s : Sys Thread} (hs : (system Thread).Reachable s) (hrest : s.AtRest) (c : Nat)
    (hc : (s.shared.contexts c).cancelled = true) :
    (∀ d, Descendant s.shared c d → (s.shared.contexts d).cancelled = true) ∧
      (∀ f < s.shared.made, (s.shared.futures f).ctx = c →
        ((s.shared.futures f).done = true ∨ (s.shared.futures f).cancelScheduled = true) ∧
          ∀ sc, (s.shared.futures f).scope = some sc →
            s.shared.scopeCancelled sc = true ∨
              ((s.shared.futures f).done = true ∧ (s.shared.futures f).early = true)) ∧
      (s.shared.contexts c).children = [] ∧ (s.shared.contexts c).futures = [] ∧
        (s.shared.contexts c).scopes = [] := by
  have h := sound_of_reachable hs
  have hnone := hrest.not_pending
  have hchild : ∀ k p, (s.shared.contexts p).cancelled = true → (s.shared.contexts k).parent = some p →
      (s.shared.contexts k).cancelled = true := by
    intro k p hp hk
    rcases h.child k p hk with hm | hm | hm | hm
    · rw [(h.quiet p hp).1] at hm
      exact absurd hm List.not_mem_nil
    · exact hm
    · exact absurd hm (hnone _)
    · exact absurd hm (hnone _)
  refine ⟨fun d hd => ?_, fun f hf hfc => ?_, h.quiet c hc⟩
  · induction hd with
    | child hp => exact hchild _ _ hc hp
    | next _ hp ih => exact hchild _ _ ih hp
  · cases hscope : (s.shared.futures f).scope with
    | none => exact ⟨.inl (h.plain f hf hscope), fun sc hsc => by cases hsc⟩
    | some sc =>
      rcases h.tracked f hf sc hscope with ⟨hm, _⟩ | hm | ⟨hr, hsr⟩
      · rw [hfc, (h.quiet c hc).2.1] at hm
        exact absurd hm List.not_mem_nil
      · exact absurd hm (hnone _)
      · refine ⟨?_, fun sc' hsc => ?_⟩
        · rcases hr with hr | hr | hr | hr
          · exact .inl hr
          · exact .inr hr
          · exact absurd hr (hnone _)
          · exact absurd hr (hnone _)
        · obtain rfl := Option.some.inj hsc
          rcases hsr with hsr | hsr | hsr
          · exact .inl hsr
          · exact absurd hsr (hnone _)
          · exact .inr hsr

/-- A `submit` in a child context that a `cancel` of its parent overtakes
between the two sections. -/
theorem cancellation_reaches_all_overtaken : ∃ s : Sys Bool, (system Bool).Reachable s ∧ s.shared.made = 1 ∧
    (∀ d, Descendant s.shared 0 d → (s.shared.contexts d).cancelled = true) ∧
    ((s.shared.futures 0).done = true ∨ (s.shared.futures 0).cancelScheduled = true) := by
  obtain ⟨s, hs, hc, ht, hf, hp, hx, hm⟩ := System.exists_reachable_of_run (M := system Bool)
    (s := ⟨.new, fun _ => []⟩)
    ([.construct true none, .construct true (some 0), .advance true true, .submit false 1, .advance false true,
      .cancel true 0, .advance true true, .advance false true, .advance true true, .advance true true] ++
      List.replicate 5 (.advance false true))
    (p := fun s => (s.shared.contexts 0).cancelled = true ∧ s.todo true = [] ∧ s.todo false = [] ∧
      (s.shared.contexts 1).parent = some 0 ∧ (s.shared.futures 0).ctx = 1 ∧ s.shared.made = 1) rfl (by decide)
  have hrest : s.AtRest := fun b => by
    cases b
    · exact hf
    · exact ht
  obtain ⟨hd, -⟩ := cancellation_reaches_all hs hrest 0 hc
  obtain ⟨-, hfut, -⟩ := cancellation_reaches_all hs hrest 1 (hd 1 (.child hp))
  exact ⟨s, hs, hm, hd, (hfut 0 (by omega) hx).1⟩

end Multiloop.AsyncContext
