import Multiloop.Pool.EventLoops

/-!
# Shutting the pool down

What becomes of the futures when the pool ends. `close` takes what is left in
`_outstanding` when nothing can be pushed any more; so a future whose task was
accepted is there then, unless it was completed and discarded before, and
`close` completes it. `abort` takes what is there in its first section, while
the native pool is still open: a `submit` that has passed its check and
registers its future later finds the queues open, and nobody is left who
would complete its future if no worker runs its task. `Timely` are the steps
that do not accept such a task.
-/

namespace Multiloop.EventLoopThreadPool

variable {Thread Loop : Type}

/-- The futures that `close` or `abort` has taken and still has to settle. -/
def Shutdown.held : Shutdown Thread → List (Fut Thread)
  | .nativeGlobal _ snap | .nativeLocal _ snap | .stop _ snap | .join _ snap => snap
  | .settle fs => fs
  | .complete f fs => f :: fs
  | _ => []

variable (s : Sys Thread Loop)

def Settled (f : Fut Thread) : Prop := (s.futs f).done = true ∨ (s.futs f).scheduled = true

/-- Future `f` is done, or its completion is scheduled, or the shutdown will see
to it, unless it was registered too late. -/
def Covered (f : Fut Thread) : Prop :=
  s.late f = true ∨ (s.taken = false ∧ f ∈ s.outstanding) ∨ Settled s f ∨ f ∈ s.shutdown.held

/-- The future of the `submit` that thread `t` is in, whose task was not accepted yet. -/
structure Mine (t : Thread) (f : Fut Thread) : Prop where
  owner : f.owner = t
  serial : f.serial < s.created t
  absent : s.task f = .absent

def At (t : Thread) : Pc Thread Loop → Prop
  | .register _ f => Mine s t f ∧ f ∉ s.raised
  | .push _ f => (Mine s t f ∧ f ∉ s.raised) ∧ Covered s f
  | .refuse f => Mine s t f
  | .notify f => s.task f ≠ .absent
  | _ => True

/-- Nobody has got past the check of a pool that does not run. -/
def Unused : Prop := (∀ t, s.pc t = .idle ∨ ∃ pin, s.pc t = .resolve pin) ∧ ∀ f, s.task f = .absent

/-- The first section of `close` takes no futures, that of `abort` all there are. -/
structure Took (taken : Bool) (kind : Kind) (snap : List (Fut Thread)) : Prop where
  close : kind = .close → snap = []
  abort : kind = .abort → taken = true

/-- What the shutdown has done to the pool in each of its stages. -/
def Closing : Shutdown Thread → Prop
  | .notCalled | .begin _ => s.taken = false ∧ (s.running = false → Unused s)
  | .nativeGlobal kind snap => s.running = false ∧ Took s.taken kind snap
  | .nativeLocal kind snap => s.running = false ∧ s.globalOpen = false ∧ Took s.taken kind snap
  | .stop kind snap | .join kind snap =>
    s.running = false ∧ (s.globalOpen = false ∧ s.localOpen = false) ∧ Took s.taken kind snap
  | .drain | .leftover => s.running = false ∧ s.globalOpen = false ∧ s.localOpen = false
  | .settle _ | .complete _ _ => s.running = false ∧ s.taken = true
  | .returned => s.running = false ∧ (s.taken = false → Unused s)

/-- The part of the invariant that is not about the threads. -/
structure Kept : Prop where
  old : ∀ f, s.task f ≠ .absent ∨ f ∈ s.raised → f.serial < s.created f.owner
  covered : ∀ f, s.task f ≠ .absent → s.late f = false ∧ Covered s f
  late : ∀ f, s.late f = true → s.taken = true
  accepted : ∀ f ∈ s.returned, s.task f ≠ .absent
  raised : ∀ f ∈ s.raised, f ∉ s.outstanding
  discarding : ∀ f, s.task f = .discarding → Settled s f
  /-- `close` takes its futures when nothing can be pushed any more. -/
  shut : s.taken = true → s.aborted = false → s.globalOpen = false ∧ s.localOpen = false

structure Sound : Prop where
  kept : Kept s
  closing : Closing s s.shutdown
  at_ : ∀ t, At s t (s.pc t)

/-- What a step leaves to the `submit` of thread `u`. -/
structure Frame (u : Thread) (s s' : Sys Thread Loop) : Prop where
  created : s.created u ≤ s'.created u
  absent : ∀ f, f.owner = u → s.task f = .absent → s'.task f = .absent
  present : ∀ f, s.task f ≠ .absent → s'.task f ≠ .absent
  raised : ∀ f ∈ s'.raised, f.owner = u → f ∈ s.raised
  covered : ∀ f, f.owner = u → Covered s f → Covered s' f

variable {s} {s' : Sys Thread Loop} {t u : Thread} {f g : Fut Thread}

theorem Frame.refl (u : Thread) (s : Sys Thread Loop) : Frame u s s :=
  ⟨Nat.le_refl _, fun _ _ => id, fun _ => id, fun _ h _ => h, fun _ _ => id⟩

theorem Frame.mine (k : Frame u s s') (h : Mine s u f) : Mine s' u f :=
  ⟨h.owner, Nat.lt_of_lt_of_le h.serial k.created, k.absent f h.owner h.absent⟩

theorem At.frame (k : Frame u s s') {p : Pc Thread Loop} (h : At s u p) : At s' u p := by
  cases p with
  | register _ f => exact ⟨k.mine h.1, fun hm => h.2 (k.raised f hm h.1.owner)⟩
  | push _ f =>
    obtain ⟨⟨hf, hr⟩, hc⟩ := h
    exact ⟨⟨k.mine hf, fun hm => hr (k.raised f hm hf.owner)⟩, k.covered f hf.owner hc⟩
  | refuse f => exact k.mine h
  | notify f => exact k.present f h
  | _ => trivial

theorem Closing.frame (h : Closing s s.shutdown) (hsh : s'.shutdown = s.shutdown) (hr : s'.running = s.running)
    (ht : s'.taken = s.taken) (hg : s'.globalOpen = s.globalOpen) (hl : s'.localOpen = s.localOpen)
    (hu : s.running = false → Unused s → Unused s') : Closing s' s'.shutdown := by
  rw [hsh]
  cases hs : s.shutdown <;> rw [hs] at h <;> rw [Closing] at h ⊢ <;> simp only [hr, ht, hg, hl]
  case notCalled | begin => exact ⟨h.1, fun hn => hu hn (h.2 hn)⟩
  case returned => exact ⟨h.1, fun hn => hu h.1 (h.2 hn)⟩
  all_goals exact h

/-- Where what may happen to a future leaves it covered, it stays covered. -/
theorem Covered.mono (h : Covered s f) (hl : s.late f = true → s'.late f = true)
    (ho : s.taken = false → f ∈ s.outstanding → Covered s' f) (hs : Settled s f → Settled s' f)
    (hh : f ∈ s.shutdown.held → Covered s' f) : Covered s' f := by
  rcases h with h | ⟨ht, hm⟩ | h | h
  · exact .inl (hl h)
  · exact ho ht hm
  · exact .inr (.inr (.inl (hs h)))
  · exact hh h

/-! ## Futures and tasks -/

theorem settled_setFut [DecidableEq Thread] {x : FutState} (hd : (s.futs f).done = true → x.done = true)
    (hs : (s.futs f).scheduled = true → x.scheduled = true) (h : Settled s g) : Settled (s.setFut f x) g := by
  by_cases hg : g = f
  · subst hg
    show (Function.update s.futs g x g).done = true ∨ (Function.update s.futs g x g).scheduled = true
    rw [Function.update_self]
    exact h.imp hd hs
  · show (Function.update s.futs f x g).done = true ∨ (Function.update s.futs f x g).scheduled = true
    rw [Function.update_of_ne hg]
    exact h

/-- A step that no `submit` makes. -/
theorem Sound.outside (h : Sound s) (hpc : s'.pc = s.pc) (hk : Kept s') (hc : Closing s' s'.shutdown)
    (hf : ∀ u, Frame u s s') : Sound s' :=
  ⟨hk, hc, fun u => hpc ▸ (h.at_ u).frame (hf u)⟩

/-- A step of the shutdown keeps the threads' futures covered if it keeps hold
of its own until they are settled. -/
theorem Sound.shutdown (h : Sound s) (hpc : s'.pc = s.pc) (hk : Kept s') (hc : Closing s' s'.shutdown)
    (hcreated : s'.created = s.created) (htask : s'.task = s.task) (hraised : s'.raised = s.raised)
    (hcov : ∀ f, Covered s f → Covered s' f) : Sound s' := by
  refine h.outside hpc hk hc fun u => ⟨?_, ?_, ?_, ?_, fun f _ => hcov f⟩
  · exact Nat.le_of_eq (congrFun hcreated.symm u)
  · exact fun f _ hf => htask ▸ hf
  · exact fun f hf => htask ▸ hf
  · exact fun f hf _ => hraised ▸ hf

/-- The shutdown goes on to stage `sh`. -/
theorem Sound.shift (h : Sound s) {sh : Shutdown Thread}
    (hheld : ∀ f ∈ s.shutdown.held, f ∈ sh.held ∨ Settled s f) (hc : Closing { s with shutdown := sh } sh) :
    Sound { s with shutdown := sh } := by
  have hcov : ∀ f, Covered s f → Covered { s with shutdown := sh } f := fun f hf =>
    hf.mono id (fun ht hm => .inr (.inl ⟨ht, hm⟩)) id fun hm => .inr (.inr (hheld f hm).symm)
  have hk : Kept { s with shutdown := sh } :=
    { h.kept with covered := fun f hf => ⟨(h.kept.covered f hf).1, hcov f (h.kept.covered f hf).2⟩ }
  exact h.shutdown rfl hk hc rfl rfl rfl hcov

/-- The shutdown closes some of the native pool and goes on to stage `sh`, with
the futures it holds. -/
theorem Sound.shiftClosed (h : Sound s) (r : Bool) (loops : List Loop) (g l : Bool) {sh : Shutdown Thread}
    (hheld : sh.held = s.shutdown.held) (hg : s.globalOpen = false → g = false)
    (hl : s.localOpen = false → l = false)
    (hc : Closing { s with running := r, loops := loops, globalOpen := g, localOpen := l, shutdown := sh } sh) :
    Sound { s with running := r, loops := loops, globalOpen := g, localOpen := l, shutdown := sh } := by
  have hcov : ∀ f, Covered s f →
      Covered { s with running := r, loops := loops, globalOpen := g, localOpen := l, shutdown := sh } f := fun f hf =>
    hf.mono id (fun ht hm => .inr (.inl ⟨ht, hm⟩)) id fun hm => .inr (.inr (.inr (hheld ▸ hm)))
  refine h.shutdown rfl { h.kept with covered := fun f hf => ?_, shut := fun ht ha => ?_ } hc rfl rfl rfl hcov
  · exact ⟨(h.kept.covered f hf).1, hcov f (h.kept.covered f hf).2⟩
  · exact ⟨hg (h.kept.shut ht ha).1, hl (h.kept.shut ht ha).2⟩

/-- The shutdown takes the futures out of `_outstanding`. -/
theorem Sound.take (h : Sound s) {sh : Shutdown Thread} {r a : Bool} {loops : List Loop}
    (hheld : sh.held = s.outstanding) (hnone : s.shutdown.held = [])
    (ha : a = false → s.globalOpen = false ∧ s.localOpen = false)
    (hc : Closing { s with
      running := r, loops := loops, outstanding := [], aborted := a, taken := true, shutdown := sh } sh) :
    Sound { s with
      running := r, loops := loops, outstanding := [], aborted := a, taken := true, shutdown := sh } := by
  have hcov : ∀ f, Covered s f → Covered { s with
      running := r, loops := loops, outstanding := [], aborted := a, taken := true, shutdown := sh } f := by
    refine fun f hf => hf.mono id (fun _ hm => .inr (.inr (.inr ?_))) id fun hm => ?_
    · show f ∈ sh.held
      rw [hheld]
      exact hm
    · rw [hnone] at hm
      exact absurd hm List.not_mem_nil
  refine h.shutdown rfl { h.kept with
    covered := fun f hf => ?_
    late := fun _ _ => rfl
    raised := fun _ _ => List.not_mem_nil
    shut := fun _ hab => ha hab } hc rfl rfl rfl hcov
  exact ⟨(h.kept.covered f hf).1, hcov f (h.kept.covered f hf).2⟩

/-- A thread in the middle of a `submit` has got past the check. -/
theorem not_unused {p : Pc Thread Loop} (hp : s.pc t = p) (hi : p ≠ .idle) (hr : ∀ pin, p ≠ .resolve pin) :
    ¬ Unused s := by
  intro hu
  rcases hu.1 t with h | ⟨pin, h⟩
  · exact hi (hp.symm.trans h)
  · exact hr pin (hp.symm.trans h)

variable [DecidableEq Thread]

theorem Sound.setFut (h : Sound s) {x : FutState} (hd : (s.futs f).done = true → x.done = true)
    (hs : (s.futs f).scheduled = true → x.scheduled = true) : Sound (s.setFut f x) := by
  have hcov : ∀ g, Covered s g → Covered (s.setFut f x) g := fun g hg =>
    hg.mono id (fun ht hm => .inr (.inl ⟨ht, hm⟩)) (settled_setFut hd hs) fun hm => .inr (.inr (.inr hm))
  refine h.outside rfl { h.kept with covered := fun g hg => ?_, discarding := fun g hg => ?_ }
    (h.closing.frame rfl rfl rfl rfl rfl fun _ hu => hu) fun u => { Frame.refl u s with covered := fun g _ => hcov g }
  · exact ⟨(h.kept.covered g hg).1, hcov g (h.kept.covered g hg).2⟩
  · exact settled_setFut hd hs (h.kept.discarding g hg)

theorem Sound.safeComplete (h : Sound s) (f : Fut Thread) : Sound (s.safeComplete f) :=
  h.setFut id fun _ => rfl

theorem settled_safeComplete (s : Sys Thread Loop) (f : Fut Thread) : Settled (s.safeComplete f) f := by
  right
  show (Function.update s.futs f _ f).scheduled = true
  rw [Function.update_self]

theorem task_setTask (s : Sys Thread Loop) (f g : Fut Thread) (p : TaskStage) :
    (s.setTask f p).task g = if g = f then p else s.task g := by
  show Function.update s.task f p g = _
  by_cases hg : g = f
  · rw [if_pos hg, hg, Function.update_self]
  · rw [if_neg hg, Function.update_of_ne hg]

/-- The task of `f`, which was accepted, moves on. -/
theorem Sound.setTask (h : Sound s) {p : TaskStage} (hf : s.task f ≠ .absent) (hp : p ≠ .absent)
    (hd : p = .discarding → Settled s f) : Sound (s.setTask f p) := by
  have habsent : ∀ g, (s.setTask f p).task g ≠ .absent ↔ s.task g ≠ .absent := by
    intro g
    rw [task_setTask]
    split
    · rename_i hg
      rw [hg]
      exact iff_of_true hp hf
    · exact Iff.rfl
  refine h.outside rfl { h.kept with old := ?_, covered := ?_, accepted := ?_, discarding := ?_ }
    (h.closing.frame rfl rfl rfl rfl rfl fun _ hu => absurd (hu.2 f) hf) fun u =>
      { Frame.refl u s with absent := fun g _ hg => ?_, present := fun g hg => (habsent g).2 hg }
  · exact fun g hg => h.kept.old g (hg.imp_left (habsent g).1)
  · exact fun g hg => h.kept.covered g ((habsent g).1 hg)
  · exact fun g hg => (habsent g).2 (h.kept.accepted g hg)
  · intro g hg
    rw [task_setTask] at hg
    split at hg
    · rename_i hgf
      exact hgf ▸ hd hg
    · exact h.kept.discarding g hg
  · by_contra hne
    exact (habsent g).1 hne hg

/-- A future that is settled, or nobody's any more, is discarded. -/
theorem Kept.discard (h : Kept s) (hf : s.task f ≠ .absent → Settled s f) : Kept (s.discard f) := by
  refine { h with covered := fun g hg => ?_, raised := fun g hg hm => ?_ }
  · obtain ⟨hl, hc⟩ := h.covered g hg
    refine ⟨hl, hc.mono id (fun ht hm => ?_) id fun hm => .inr (.inr (.inr hm))⟩
    by_cases hgf : g = f
    · subst hgf
      exact .inr (.inr (.inl (hf hg)))
    · exact .inr (.inl ⟨ht, List.mem_filter.2 ⟨hm, decide_eq_true hgf⟩⟩)
  · exact h.raised g hg (List.mem_filter.1 hm).1

theorem Sound.advanceTask (h : Sound s) (hst : s.advanceTask f = some s') : Sound s' := by
  rw [Sys.advanceTask] at hst
  split at hst
  · rename_i ht
    cases hst
    have hf : s.task f ≠ .absent := fun he => by rw [ht] at he; cases he
    refine h.setTask hf ?_ fun hp => ?_
    · split <;> exact fun he => by cases he
    · split at hp
      · rename_i hdone
        exact .inl hdone
      · cases hp
  · rename_i ht
    cases hst
    have hf : (s.safeComplete f).task f ≠ .absent := fun he => by
      have he : s.task f = .absent := he
      rw [ht] at he
      cases he
    exact (h.safeComplete f).setTask hf (fun he => by cases he) fun _ => settled_safeComplete s f
  · rename_i ht
    cases hst
    have hf : s.task f ≠ .absent := fun he => by rw [ht] at he; cases he
    have hsettled := h.kept.discarding f ht
    have hdiscard : Sound (s.discard f) := by
      refine h.outside rfl (h.kept.discard fun _ => hsettled) (h.closing.frame rfl rfl rfl rfl rfl fun _ hu => hu)
        fun u => { Frame.refl u s with covered := fun g _ hg => ?_ }
      refine hg.mono id (fun ht hm => ?_) id fun hm => .inr (.inr (.inr hm))
      by_cases hgf : g = f
      · subst hgf
        exact .inr (.inr (.inl hsettled))
      · exact .inr (.inl ⟨ht, List.mem_filter.2 ⟨hm, decide_eq_true hgf⟩⟩)
    exact hdiscard.setTask hf (fun he => by cases he) fun he => by cases he
  · cases hst

/-! ## The shutdown -/

theorem Sound.advanceShutdown (h : Sound s) (hst : s.advanceShutdown = some s') : Sound s' := by
  have hc := h.closing
  rw [Sys.advanceShutdown] at hst
  split at hst <;> rename_i hs <;> try rw [hs] at hc
  · cases hst
  · split at hst
    · rename_i hr
      cases hst
      have hr : s.running = false := by simpa using hr
      exact h.shift (fun f hf => by rw [hs] at hf; exact absurd hf List.not_mem_nil) ⟨hr, fun _ => hc.2 hr⟩
    · split at hst
      · cases hst
        refine h.shiftClosed false [] s.globalOpen s.localOpen (by rw [hs]; rfl) id id
          ⟨rfl, fun _ => rfl, fun ha => ?_⟩
        cases ha
      · cases hst
        refine h.take rfl (by rw [hs]; rfl) (fun ha => by cases ha) ⟨rfl, fun hk => ?_, fun _ => rfl⟩
        cases hk
  · cases hst
    exact h.shiftClosed s.running s.loops false s.localOpen (by rw [hs]; rfl) (fun _ => rfl) id ⟨hc.1, rfl, hc.2⟩
  · rename_i snap
    cases hst
    obtain ⟨hr, hg, hk⟩ := hc
    have hsnap : snap = [] := hk.close rfl
    exact h.shiftClosed s.running s.loops s.globalOpen false (by rw [hs, hsnap]; rfl) id (fun _ => rfl) ⟨hr, hg, rfl⟩
  · cases hst
    obtain ⟨hr, hg, hk⟩ := hc
    exact h.shiftClosed s.running s.loops s.globalOpen false (by rw [hs]; rfl) id (fun _ => rfl) ⟨hr, ⟨hg, rfl⟩, hk⟩
  · cases hst
    refine h.shift (fun f hf => by rw [hs] at hf; exact absurd hf List.not_mem_nil)
      ⟨hc.1, hc.2, fun _ => rfl, fun ha => ?_⟩
    cases ha
  · cases hst
    have hstop : Sound { s with stopping := true } := h.outside rfl { h.kept with }
      (h.closing.frame rfl rfl rfl rfl rfl fun _ hu => hu) fun u => { Frame.refl u s with }
    exact hstop.shift (fun f hf => .inl (by rw [show _ = s.shutdown from rfl, hs] at hf; exact hf)) hc
  · rename_i snap
    cases hst
    have hsnap : snap = [] := hc.2.2.close rfl
    refine h.shift (fun f hf => ?_) ⟨hc.1, hc.2.1⟩
    rw [hs, hsnap] at hf
    exact absurd hf List.not_mem_nil
  · cases hst
    exact h.shift (fun f hf => .inl (by rw [hs] at hf; exact hf)) ⟨hc.1, hc.2.2.abort rfl⟩
  · cases hst
    exact h.take rfl (by rw [hs]; rfl) (fun _ => hc.2) ⟨hc.1, rfl⟩
  · cases hst
    refine h.shift (fun f hf => ?_) ⟨hc.1, fun ht => ?_⟩
    · rw [hs] at hf
      exact absurd hf List.not_mem_nil
    · rw [hc.2] at ht
      cases ht
  · rename_i f fs
    cases hst
    split
    · rename_i hdone
      refine h.shift (fun g hg => ?_) hc
      rw [hs] at hg
      rcases List.mem_cons.1 hg with rfl | hg
      · exact .inr (.inl hdone)
      · exact .inl hg
    · exact h.shift (fun g hg => .inl (by rw [hs] at hg; exact hg)) hc
  · rename_i f fs
    cases hst
    refine (h.safeComplete f).shift (fun g hg => ?_) hc
    have hg : g ∈ s.shutdown.held := hg
    rw [hs] at hg
    rcases List.mem_cons.1 hg with rfl | hg
    · exact .inr (settled_safeComplete s g)
    · exact .inl hg
  · cases hst

/-! ## `submit` -/

/-- A step of the `submit` of thread `t`, which then is at `p`. -/
theorem Sound.inside (h : Sound s) (s' : Sys Thread Loop) (hpc : s'.pc = s.pc) (hk : Kept s')
    {p : Pc Thread Loop} (hf : ∀ u, u ≠ t → Frame u s s') (hp : At s' t p)
    (hc : Closing (s'.goto t p) s'.shutdown) : Sound (s'.goto t p) := by
  refine ⟨{ hk with }, hc, fun u => ?_⟩
  have hframe : Frame u s' (s'.goto t p) := { Frame.refl u s' with }
  by_cases hu : u = t
  · subst hu
    show At (s'.goto u p) u (Function.update s'.pc u p u)
    rw [Function.update_self]
    exact hp.frame hframe
  · show At (s'.goto t p) u (Function.update s'.pc t p u)
    rw [Function.update_of_ne hu, hpc]
    exact ((h.at_ u).frame (hf u hu)).frame hframe

/-- A thread that is not past the check goes somewhere before it. -/
theorem Unused.goto (h : Unused s) {p : Pc Thread Loop} (hp : p = .idle ∨ ∃ pin, p = .resolve pin) :
    Unused (s.goto t p) := by
  refine ⟨fun u => ?_, h.2⟩
  show Function.update s.pc t p u = _ ∨ ∃ pin, Function.update s.pc t p u = _
  by_cases hu : u = t
  · subst hu
    rw [Function.update_self]
    exact hp
  · rw [Function.update_of_ne hu]
    exact h.1 u

variable [DecidableEq Loop]

theorem Sound.resolve (h : Sound s) {pin : PinTarget Loop} {choice : Bool} (hp : s.pc t = .resolve pin)
    (hst : s.advance t choice = some s') : Sound s' := by
  rw [Sys.advance, hp] at hst
  dsimp only at hst
  split at hst
  · cases hst
    exact h.inside s rfl h.kept (fun u _ => .refl u s) trivial
      (h.closing.frame rfl rfl rfl rfl rfl fun _ hu => hu.goto (.inl rfl))
  · rename_i target hres
    cases hst
    refine h.inside s rfl h.kept (fun u _ => .refl u s) trivial (h.closing.frame rfl rfl rfl rfl rfl fun hr _ => ?_)
    -- the check failed if the pool did not run
    rw [hr] at hres
    cases hres

theorem Sound.create (h : Sound s) {target : Option Nat} {choice : Bool} (hp : s.pc t = .create target)
    (hst : s.advance t choice = some s') : Sound s' := by
  have hnot : ¬ Unused s := not_unused hp (fun he => by cases he) fun _ he => by cases he
  rw [Sys.advance, hp] at hst
  dsimp only at hst
  split at hst
  · cases hst
    have hle : ∀ u, s.created u ≤ Function.update s.created t (s.created t + 1) u := by
      intro u
      by_cases hu : u = t
      · rw [hu, Function.update_self]
        exact Nat.le_succ _
      · exact Nat.le_of_eq (Function.update_of_ne hu ..).symm
    have hnew : ∀ f : Fut Thread, (s.task f ≠ .absent ∨ f ∈ s.raised) → f ≠ ⟨t, s.created t, false⟩ := by
      rintro f hf rfl
      exact Nat.lt_irrefl _ (h.kept.old _ hf)
    refine h.inside { s with created := Function.update s.created t (s.created t + 1) } rfl
      { h.kept with old := fun f hf => Nat.lt_of_lt_of_le (h.kept.old f hf) (hle _) }
      (fun u _ => { Frame.refl u s with created := hle u }) ⟨⟨rfl, ?_, ?_⟩, fun hm => hnew _ (.inr hm) rfl⟩
      (h.closing.frame rfl rfl rfl rfl rfl fun _ hu => absurd hu hnot)
    · show s.created t < Function.update s.created t (s.created t + 1) t
      rw [Function.update_self]
      exact Nat.lt_succ_self _
    · by_contra hne
      exact hnew _ (.inl hne) rfl
  · cases hst
    exact h.inside s rfl h.kept (fun u _ => .refl u s) trivial
      (h.closing.frame rfl rfl rfl rfl rfl fun _ hu => absurd hu hnot)

theorem Sound.register (h : Sound s) {target : Option Nat} {choice : Bool} (hp : s.pc t = .register target f)
    (hst : s.advance t choice = some s') : Sound s' := by
  have hnot : ¬ Unused s := not_unused hp (fun he => by cases he) fun _ he => by cases he
  have hat := h.at_ t
  rw [hp] at hat
  obtain ⟨hmine, hraised⟩ := hat
  rw [Sys.advance, hp] at hst
  cases hst
  let s₁ : Sys Thread Loop :=
    { s with outstanding := s.outstanding ++ [f], late := Function.update s.late f s.taken }
  have hlate : ∀ g, g ≠ f → s₁.late g = s.late g := fun g hg => Function.update_of_ne hg ..
  have hcov : ∀ g, g ≠ f → Covered s g → Covered s₁ g := fun g hg hc =>
    hc.mono (fun hl => (hlate g hg).trans hl) (fun ht hm => .inr (.inl ⟨ht, List.mem_append_left _ hm⟩)) id
      fun hm => .inr (.inr (.inr hm))
  have hother : ∀ g, s.task g ≠ .absent → g ≠ f := fun g hg he => hg (he ▸ hmine.absent)
  have hk : Kept s₁ := by
    refine { h.kept with covered := fun g hg => ?_, late := fun g hg => ?_, raised := fun g hg hm => ?_ }
    · rw [hlate g (hother g hg)]
      exact ⟨(h.kept.covered g hg).1, hcov g (hother g hg) (h.kept.covered g hg).2⟩
    · by_cases hgf : g = f
      · rw [hgf] at hg
        exact (Function.update_self f s.taken s.late).symm.trans hg
      · exact h.kept.late g ((hlate g hgf).symm.trans hg)
    · rcases List.mem_append.1 hm with hm | hm
      · exact h.kept.raised g hg hm
      · rw [List.mem_singleton.1 hm] at hg
        exact hraised hg
  refine h.inside s₁ rfl hk (fun u hu => { Frame.refl u s with covered := fun g hg hc => ?_ })
    ⟨⟨{ hmine with }, hraised⟩, ?_⟩ (h.closing.frame rfl rfl rfl rfl rfl fun _ hu => absurd hu hnot)
  · refine hcov g (fun he => hu ?_) hc
    rw [← hg, he, hmine.owner]
  · by_cases ht : s.taken = true
    · exact .inl ((Function.update_self f s.taken s.late).trans ht)
    · exact .inr (.inl ⟨Bool.eq_false_iff.2 ht, List.mem_append_right _ List.mem_cons_self⟩)

/-- Nothing that was registered after the shutdown took its futures finds its
queue open in `abort`. -/
def Timely (s : Sys Thread Loop) : Action Thread Loop → Prop
  | .advance t full =>
    ∀ target f, s.pc t = .push target f → s.aborted = true → s.late f = true → s.takes target full = false
  | _ => True

theorem Sound.push (h : Sound s) {target : Option Nat} {full : Bool} (hp : s.pc t = .push target f)
    (hok : Timely s (.advance t full)) (hst : s.advance t full = some s') : Sound s' := by
  have hnot : ¬ Unused s := not_unused hp (fun he => by cases he) fun _ he => by cases he
  have hat := h.at_ t
  rw [hp] at hat
  obtain ⟨⟨hmine, hraised⟩, hcovered⟩ := hat
  rw [Sys.advance, hp] at hst
  dsimp only at hst
  split at hst
  · rename_i htakes
    cases hst
    -- the future is not late: `close` has shut the queues first, and `abort` is covered by the condition
    have hlate : s.late f = false := by
      refine Bool.eq_false_iff.2 fun hl => ?_
      by_cases hab : s.aborted = true
      · rw [hok target f hp hab hl] at htakes
        cases htakes
      · obtain ⟨hg, hlo⟩ := h.kept.shut (h.kept.late f hl) (Bool.eq_false_iff.2 hab)
        have hno : s.takes target full = false := by
          cases target with
          | none => exact hg
          | some i => exact Bool.and_eq_false_iff.2 (.inl hlo)
        rw [hno] at htakes
        cases htakes
    have hpresent : ∀ g, s.task g ≠ .absent → (s.setTask f .queued).task g ≠ .absent := by
      intro g hg
      rw [task_setTask]
      split
      · exact fun he => by cases he
      · exact hg
    have hk : Kept (s.setTask f .queued) := by
      refine { h.kept with old := ?_, covered := ?_, accepted := ?_, discarding := ?_ }
      · intro g hg
        by_cases hgf : g = f
        · rw [hgf, hmine.owner]
          exact hmine.serial
        · rw [task_setTask, if_neg hgf] at hg
          exact h.kept.old g hg
      · intro g hg
        by_cases hgf : g = f
        · rw [hgf]
          exact ⟨hlate, hcovered⟩
        · rw [task_setTask, if_neg hgf] at hg
          exact h.kept.covered g hg
      · exact fun g hg => hpresent g (h.kept.accepted g hg)
      · intro g hg
        rw [task_setTask] at hg
        split at hg
        · cases hg
        · exact h.kept.discarding g hg
    refine h.inside (s.setTask f .queued) rfl hk
      (fun u hu => { Frame.refl u s with absent := fun g hg ha => ?_, present := hpresent }) ?_
      (h.closing.frame rfl rfl rfl rfl rfl fun _ hu => absurd hu hnot)
    · rw [task_setTask, if_neg fun he => hu ?_]
      · exact ha
      · rw [← hg, he, hmine.owner]
    · show (s.setTask f .queued).task f ≠ .absent
      rw [task_setTask, if_pos rfl]
      exact fun he => by cases he
  · cases hst
    exact h.inside s rfl h.kept (fun u _ => .refl u s) hmine
      (h.closing.frame rfl rfl rfl rfl rfl fun _ hu => absurd hu hnot)

/-- A `submit` that raises takes its future back. -/
theorem Sound.refuse (h : Sound s) {choice : Bool} (hp : s.pc t = .refuse f)
    (hst : s.advance t choice = some s') : Sound s' := by
  have hnot : ¬ Unused s := not_unused hp (fun he => by cases he) fun _ he => by cases he
  have hmine : Mine s t f := by
    have hat := h.at_ t
    rw [hp] at hat
    exact hat
  rw [Sys.advance, hp] at hst
  cases hst
  have hk := h.kept.discard (f := f) fun hf => absurd hmine.absent hf
  refine h.inside { s.discard f with raised := s.raised ++ [f] } rfl
    { hk with old := fun g hg => ?_, raised := fun g hg hm => ?_ }
    (fun u hu => { Frame.refl u s with raised := fun g hg ho => ?_, covered := fun g hg hc => ?_ }) trivial
    (h.closing.frame rfl rfl rfl rfl rfl fun _ hu => absurd hu hnot)
  · rcases hg with hg | hg
    · exact h.kept.old g (.inl hg)
    · rcases List.mem_append.1 hg with hg | hg
      · exact h.kept.old g (.inr hg)
      · rw [List.mem_singleton.1 hg, hmine.owner]
        exact hmine.serial
  · rcases List.mem_append.1 hg with hg | hg
    · exact hk.raised g hg hm
    · have hne := of_decide_eq_true (List.mem_filter.1 hm).2
      exact hne (List.mem_singleton.1 hg)
  · rcases List.mem_append.1 hg with hg | hg
    · exact hg
    · rw [List.mem_singleton.1 hg, hmine.owner] at ho
      exact absurd ho.symm hu
  · have hgf : g ≠ f := fun he => hu (by rw [← hg, he, hmine.owner])
    exact hc.mono id (fun ht hm => .inr (.inl ⟨ht, List.mem_filter.2 ⟨hm, decide_eq_true hgf⟩⟩)) id
      fun hm => .inr (.inr (.inr hm))

theorem Sound.notify (h : Sound s) {choice : Bool} (hp : s.pc t = .notify f)
    (hst : s.advance t choice = some s') : Sound s' := by
  have hnot : ¬ Unused s := not_unused hp (fun he => by cases he) fun _ he => by cases he
  have hat := h.at_ t
  rw [hp] at hat
  rw [Sys.advance, hp] at hst
  cases hst
  refine h.inside { s with returned := s.returned ++ [f] } rfl { h.kept with accepted := fun g hg => ?_ }
    (fun u _ => { Frame.refl u s with }) trivial
    (h.closing.frame rfl rfl rfl rfl rfl fun _ hu => absurd hu hnot)
  rcases List.mem_append.1 hg with hg | hg
  · exact h.kept.accepted g hg
  · rw [List.mem_singleton.1 hg]
    exact hat

theorem Sound.step (h : Sound s) {a : Action Thread Loop} (hok : Timely s a) (hst : s.step a = some s') :
    Sound s' := by
  cases a with
  | submit t pin =>
    dsimp only [Sys.step] at hst
    split at hst
    · cases hst
      exact h.inside s rfl h.kept (fun u _ => .refl u s) trivial
        (h.closing.frame rfl rfl rfl rfl rfl fun _ hu => hu.goto (.inr ⟨pin, rfl⟩))
    · cases hst
  | advance t choice =>
    cases hp : s.pc t with
    | idle =>
      rw [Sys.step, Sys.advance, hp] at hst
      cases hst
    | resolve pin => exact h.resolve hp hst
    | create target => exact h.create hp hst
    | register target f => exact h.register hp hst
    | push target f => exact h.push hp hok hst
    | refuse f => exact h.refuse hp hst
    | notify f => exact h.notify hp hst
  | shutdown kind =>
    dsimp only [Sys.step] at hst
    split at hst
    · rename_i hcall
      cases hst
      have hs : s.shutdown = .notCalled := by
        rw [Sys.notCalled] at hcall
        split at hcall
        · assumption
        · cases hcall
      have hc := h.closing
      rw [hs] at hc
      exact h.shift (fun f hf => by rw [hs] at hf; exact absurd hf List.not_mem_nil) hc
    · cases hst
  | advanceShutdown => exact h.advanceShutdown hst
  | pop f =>
    dsimp only [Sys.step] at hst
    split at hst
    · rename_i hf
      cases hst
      exact h.setTask (fun he => by rw [hf] at he; cases he) (fun he => by cases he) fun he => by cases he
    · cases hst
  | begin f =>
    dsimp only [Sys.step] at hst
    split at hst
    · rename_i hf
      cases hst
      exact h.setTask (fun he => by rw [hf] at he; cases he) (fun he => by cases he) fun he => by cases he
    · cases hst
  | finish f =>
    dsimp only [Sys.step] at hst
    split at hst
    · rename_i hf
      cases hst
      exact h.setTask (fun he => by rw [hf] at he; cases he) (fun he => by cases he) fun he => by cases he
    · cases hst
  | advanceTask f => exact h.advanceTask hst
  | drop f =>
    dsimp only [Sys.step] at hst
    split at hst
    · rename_i hf
      cases hst
      exact h.setTask (fun he => by rw [hf.1] at he; cases he) (fun he => by cases he) fun he => by cases he
    · cases hst
  | deliver f =>
    dsimp only [Sys.step] at hst
    split at hst
    · cases hst
      exact h.setFut (fun _ => rfl) id
    · cases hst
  | cancel f =>
    dsimp only [Sys.step] at hst
    split at hst
    · cases hst
      exact h.setFut (fun _ => rfl) id
    · cases hst

theorem sound_of_reachable (hs : (system Thread Loop).ReachableWhen Timely s) : Sound s := by
  refine hs.inv (fun s h0 => ?_) fun s a s' hi hok hst => hi.step hok hst
  obtain ⟨loops, rfl⟩ := h0
  exact
    { kept :=
        { old := fun f hf => hf.elim (fun hn => absurd rfl hn) fun hm => absurd hm List.not_mem_nil
          covered := fun f hf => absurd rfl hf
          late := fun f hf => by cases hf
          accepted := fun f hf => absurd hf List.not_mem_nil
          raised := fun f hf => absurd hf List.not_mem_nil
          discarding := fun f hf => by cases hf
          shut := fun ht => by cases ht }
      closing := ⟨rfl, fun _ => ⟨fun _ => .inl rfl, fun _ => rfl⟩⟩
      at_ := fun _ => trivial }

/-- In every run whose steps are all timely: when `close` or `abort` has
returned, every future a `submit` has returned is done or has its completion
scheduled; and a `submit` that raised has left nothing in `_outstanding`. -/
theorem no_future_orphaned (hs : (system Thread Loop).ReachableWhen Timely s) :
    (s.shutdown = .returned →
      ∀ f ∈ s.returned, (s.futs f).done = true ∨ (s.futs f).scheduled = true) ∧
    ∀ f ∈ s.raised, f ∉ s.outstanding := by
  have h := sound_of_reachable hs
  refine ⟨fun hr f hf => ?_, h.kept.raised⟩
  have htask := h.kept.accepted f hf
  have hc := h.closing
  rw [hr] at hc
  obtain ⟨hl, hl' | ⟨ht, _⟩ | hsettled | hheld⟩ := h.kept.covered f htask
  · rw [hl] at hl'
    cases hl'
  · exact absurd ((hc.2 ht).2 f) htask
  · exact hsettled
  · rw [hr] at hheld
    exact absurd hheld List.not_mem_nil

/-- A `submit` that `abort` overtakes between the registration and the push. -/
theorem no_future_orphaned_overtaken : ∃ s : Sys Unit Nat, (system Unit Nat).ReachableWhen Timely s ∧
    s.aborted = true ∧ s.returned = [⟨(), 0, false⟩] ∧
    ((s.futs ⟨(), 0, false⟩).done = true ∨ (s.futs ⟨(), 0, false⟩).scheduled = true) := by
  have hearly : ∀ s : Sys Unit Nat, s.aborted = false → ∀ a, Timely s a := fun s hs a => by
    cases a with
    | advance t full =>
      intro _ _ _ ha
      rw [hs] at ha
      cases ha
    | _ => trivial
  have h₁ : (system Unit Nat).ReachableWhen Timely _ := .init ⟨[0], rfl⟩
  have h₂ := h₁.next (.submit () .none) trivial rfl
  have h₃ := h₂.next (.advance () true) (hearly _ rfl _) rfl
  have h₄ := h₃.next (.advance () true) (hearly _ rfl _) rfl
  have h₅ := h₄.next (.advance () true) (hearly _ rfl _) rfl
  have h₆ := h₅.next (.shutdown .abort) trivial rfl
  have h₇ := h₆.next .advanceShutdown trivial rfl
  have h₈ := h₇.next (.advance () false) (fun _ _ hp _ hl => by cases hp; cases hl) rfl
  have h₉ := h₈.next (.advance () false) (fun _ _ hp => by cases hp) rfl
  have h₁₀ := h₉.next .advanceShutdown trivial rfl
  have h₁₁ := h₁₀.next .advanceShutdown trivial rfl
  have h₁₂ := h₁₁.next .advanceShutdown trivial rfl
  have h₁₃ := h₁₂.next .advanceShutdown trivial rfl
  have h₁₄ := h₁₃.next .advanceShutdown trivial rfl
  have h₁₅ := h₁₄.next .advanceShutdown trivial rfl
  have h₁₆ := h₁₅.next .advanceShutdown trivial rfl
  exact ⟨_, h₁₆, rfl, rfl, (no_future_orphaned h₁₆).1 rfl _ List.mem_cons_self⟩

/-- A `submit` that registers its future between the first section of `abort`
and the close of the native pool: its task is queued, and nobody completes its
future. -/
theorem abort_orphans_future : ∃ s : Sys Unit Nat, (system Unit Nat).Reachable s ∧ s.shutdown = .returned ∧
    ∃ f ∈ s.returned, (s.futs f).done = false ∧ (s.futs f).scheduled = false :=
  System.exists_reachable_of_run
    ([.submit () .none, .advance () true, .advance () true, .shutdown .abort, .advanceShutdown, .advance () true,
      .advance () false, .advance () false] ++ List.replicate 5 .advanceShutdown)
    ⟨[0], rfl⟩ (by decide)

end Multiloop.EventLoopThreadPool
