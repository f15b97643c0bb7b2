import Mathlib.Data.List.Infix

/-
  Properties of all the states that a list of operations
  goes through.

  Main declarations:
    * `AllFit`
    * `forall_prefix_iff_allFit`
-/

------------------------------------------------------------
-- Runs of Operations
------------------------------------------------------------

variable {σ ω : Type*}

/- Every operation fits the state in which it is run. -/
def AllFit
    (step : σ → ω → σ)
    (Fits : σ → ω → Prop)
    (s : σ) : List ω → Prop
| [] => True
| op :: ops =>
    Fits s op ∧ AllFit step Fits (step s op) ops

/-
  Let an invariant give a property `P`, let the operations
  that fit keep the invariant, and let those that do not fit
  break `P`.  Then `P` holds in all the states of a run just
  when all its operations fit.
-/
theorem forall_prefix_iff_allFit
    {step : σ → ω → σ}
    {Fits : σ → ω → Prop}
    {I P : σ → Prop}
    (hHolds : ∀ s, I s → P s)
    (hKeep : ∀ s op, I s → Fits s op → I (step s op))
    (hBreak : ∀ s op, I s → P (step s op) → Fits s op)
    {s : σ}
    (hStart : I s)
    (ops : List ω) :
    (∀ before, before <+: ops → P (before.foldl step s)) ↔
      AllFit step Fits s ops := by
  induction ops generalizing s with
  | nil =>
      refine ⟨fun _ => trivial, ?_⟩
      intro _ before hBefore
      rw [List.prefix_nil.mp hBefore]
      exact hHolds s hStart
  | cons op ops ih =>
      constructor
      · intro hRun
        have hFits : Fits s op :=
          hBreak s op hStart (hRun [op] ⟨ops, rfl⟩)
        have hNext := ih (hKeep s op hStart hFits)
        refine ⟨hFits, hNext.mp ?_⟩
        rintro before ⟨after, rfl⟩
        exact hRun (op :: before) ⟨after, rfl⟩
      · rintro ⟨hFits, hRest⟩ before hBefore
        have hNext := ih (hKeep s op hStart hFits)
        rcases List.prefix_cons_iff.mp hBefore with
          rfl | ⟨rest, rfl, hPrefix⟩
        · exact hHolds s hStart
        · exact hNext.mpr hRest rest hPrefix
