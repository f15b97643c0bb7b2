import SosKernel.Lib.Tracing

/-
  State programs whose events account for what they change.

  Main declarations:
    * `EStateM.Preserves`: nothing that is shown changes
    * `EStateM.Confined`: nothing changes without an event
-/

------------------------------------------------------------
-- Programs That Preserve
------------------------------------------------------------

namespace EStateM

variable {ε σ ω τ α β : Type}

/- When the program returns, `view` shows what it showed. -/
def Preserves (view : σ → τ) (x : EStateM ε σ α) : Prop :=
  ∀ s a s', x.run s = .ok a s' → view s' = view s

namespace Preserves

variable {view : σ → τ}

theorem pure (a : α) :
    Preserves view (Pure.pure a : EStateM ε σ α) := by
  intro s a s' hRun
  cases hRun
  rfl

theorem throw (e : ε) :
    Preserves view (MonadExcept.throw e : EStateM ε σ α) := by
  intro s a s' hRun
  cases hRun

theorem get :
    Preserves view (MonadState.get : EStateM ε σ σ) := by
  intro s a s' hRun
  cases hRun
  rfl

theorem modified
    {f : σ → σ}
    (hf : ∀ s, view (f s) = view s) :
    Preserves view (modify f : EStateM ε σ PUnit) := by
  intro s a s' hRun
  cases hRun
  exact hf s

theorem bind
    {x : EStateM ε σ α}
    {f : α → EStateM ε σ β}
    (hx : Preserves view x)
    (hf : ∀ a, Preserves view (f a)) :
    Preserves view (x >>= f) := by
  intro s b s' hRun
  rcases bind_eq_ok_iff.mp hRun with ⟨a, sMid, hFirst, hRest⟩
  exact (hf a sMid b s' hRest).trans (hx s a sMid hFirst)

theorem ite
    {p : Prop}
    [Decidable p]
    {x y : EStateM ε σ α}
    (hx : Preserves view x)
    (hy : Preserves view y) :
    Preserves view (if p then x else y) := by
  by_cases hp : p
  · rw [if_pos hp]
    exact hx
  · rw [if_neg hp]
    exact hy

end Preserves

------------------------------------------------------------
-- Confined Programs
------------------------------------------------------------

theorem trace_lift
    {x : EStateM ε σ α}
    {s s' : WithTrace σ ω}
    {a : α}
    (hRun : (lift x).run s = .ok a s') :
    s'.trace = s.trace := by
  have hLift := hRun
  rw [run_lift_ok (lift_eq_ok hRun)] at hLift
  injection hLift with _ hState
  rw [← hState]

/-
  When the program returns, it has added events, and what
  `view` shows has changed only if one of them touches it.
-/
structure Confined
    (touches : ω → Prop)
    (view : σ → τ)
    (x : EStateM ε (WithTrace σ ω) α) : Prop where
  grows :
    ∀ s a s', x.run s = .ok a s' → s.trace <+: s'.trace
  kept :
    ∀ s a s', x.run s = .ok a s' →
      (∀ e ∈ s'.trace, ¬ touches e) →
        view s'.state = view s.state

namespace Confined

variable {touches : ω → Prop}
variable {view : σ → τ}

theorem pure (a : α) :
    Confined touches view
      (Pure.pure a : EStateM ε (WithTrace σ ω) α) where
  grows := by
    intro s a s' hRun
    cases hRun
    exact List.prefix_rfl
  kept := by
    intro s a s' hRun _
    cases hRun
    rfl

/- A program without events that keeps what is shown. -/
theorem lift
    {x : EStateM ε σ α}
    (hx : Preserves view x) :
    Confined touches view
      (EStateM.lift x : EStateM ε (WithTrace σ ω) α) where
  grows := by
    intro s a s' hRun
    refine ⟨[], ?_⟩
    rw [List.append_nil, trace_lift hRun]
  kept := fun s a s' hRun _ => hx _ _ _ (lift_eq_ok hRun)

theorem bind
    {x : EStateM ε (WithTrace σ ω) α}
    {f : α → EStateM ε (WithTrace σ ω) β}
    (hx : Confined touches view x)
    (hf : ∀ a, Confined touches view (f a)) :
    Confined touches view (x >>= f) where
  grows := by
    intro s b s' hRun
    rcases bind_eq_ok_iff.mp hRun with ⟨a, sMid, hFirst, hRest⟩
    exact (hx.grows s a sMid hFirst).trans
      ((hf a).grows sMid b s' hRest)
  kept := by
    intro s b s' hRun hOff
    rcases bind_eq_ok_iff.mp hRun with ⟨a, sMid, hFirst, hRest⟩
    have hGrows := (hf a).grows sMid b s' hRest
    refine ((hf a).kept sMid b s' hRest hOff).trans ?_
    exact hx.kept s a sMid hFirst
      fun e he => hOff e (hGrows.subset he)

/- An event, and a step that changes only what it touches. -/
theorem record
    {x : EStateM ε σ α}
    (event : σ → ω)
    (hx :
      ∀ s a s', x.run s = .ok a s' → ¬ touches (event s) →
        view s' = view s) :
    Confined touches view
      (EStateM.record event >>= fun _ => EStateM.lift x) where
  grows := by
    intro s a s' hRun
    rw [bind_of_ok (run_record event s)] at hRun
    rw [trace_lift hRun]
    exact List.prefix_append _ _
  kept := by
    intro s a s' hRun hOff
    rw [bind_of_ok (run_record event s)] at hRun
    have hState := lift_eq_ok hRun
    refine hx s.state a s'.state hState (hOff _ ?_)
    rw [trace_lift hRun]
    exact List.mem_append_right _ List.mem_cons_self

/- An event that changes nothing. -/
theorem event (event : σ → ω) :
    Confined touches view
      (EStateM.record event :
        EStateM ε (WithTrace σ ω) Unit) where
  grows := by
    intro s a s' hRun
    cases hRun
    exact List.prefix_append _ _
  kept := by
    intro s a s' hRun _
    cases hRun
    rfl

theorem ite
    {p : Prop}
    [Decidable p]
    {x y : EStateM ε (WithTrace σ ω) α}
    (hx : Confined touches view x)
    (hy : Confined touches view y) :
    Confined touches view (if p then x else y) := by
  by_cases hp : p
  · rw [if_pos hp]
    exact hx
  · rw [if_neg hp]
    exact hy

end Confined

end EStateM
