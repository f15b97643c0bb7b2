import Mathlib.Logic.Relation

/-
  Reachable states of a transition system.

  Main declarations:
    * `Reachable`
    * `Reachable.invariant`
    * `Reachable.mono`
-/

------------------------------------------------------------
-- Reachability
------------------------------------------------------------

variable {σ : Type*}

/- States reached from a start state by steps. -/
inductive Reachable
    (start : σ → Prop)
    (step : σ → σ → Prop) : σ → Prop where
| start {s : σ} (hStart : start s) : Reachable start step s
| step {s s' : σ}
    (hReach : Reachable start step s)
    (hStep : step s s') : Reachable start step s'

namespace Reachable

variable {start start' : σ → Prop}
variable {step step' : σ → σ → Prop}

/-
  What holds at the start and is kept by every step from a
  reachable state holds in every reachable state.
-/
theorem invariant
    {I : σ → Prop}
    (hStart : ∀ s, start s → I s)
    (hStep :
      ∀ s s', Reachable start step s → I s →
        step s s' → I s')
    {s : σ}
    (hReach : Reachable start step s) :
    I s := by
  induction hReach with
  | start hs => exact hStart _ hs
  | step hPrev hs ih => exact hStep _ _ hPrev ih hs

theorem steps
    {s s' : σ}
    (hReach : Reachable start step s)
    (hSteps : Relation.ReflTransGen step s s') :
    Reachable start step s' := by
  induction hSteps with
  | refl => exact hReach
  | tail _ hStep ih => exact ih.step hStep

/- More starts and more steps reach more states. -/
theorem mono
    (hStart : ∀ s, start s → start' s)
    (hStep : ∀ s s', step s s' → step' s s')
    {s : σ}
    (hReach : Reachable start step s) :
    Reachable start' step' s := by
  induction hReach with
  | start hs => exact .start (hStart _ hs)
  | step _ hs ih => exact .step ih (hStep _ _ hs)

end Reachable
