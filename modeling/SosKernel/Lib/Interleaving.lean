import Mathlib.Logic.Basic

/-
  A deterministic program, interleaved with steps of others.

  Main declarations:
    * `Interleaved`
    * `Interleaved.invariant`
-/

------------------------------------------------------------
-- Interleavings
------------------------------------------------------------

variable {σ : Type*}

/-
  A run of a program from `s` with `n` steps of its own, and
  other steps in between.
-/
inductive Interleaved
    (step : σ → σ)
    (other : σ → σ → Prop)
    (s : σ) : Nat → σ → Prop where
| start : Interleaved step other s 0 s
| step {n : Nat} {t : σ}
    (hRun : Interleaved step other s n t) :
    Interleaved step other s (n + 1) (step t)
| other {n : Nat} {t u : σ}
    (hRun : Interleaved step other s n t)
    (hOther : other t u) :
    Interleaved step other s n u

variable {step : σ → σ}
variable {other : σ → σ → Prop}
variable {s t : σ}
variable {n : Nat}

/-
  What holds of the start, and is kept by the steps of both,
  holds after any run; it may depend on how far the program
  has come.
-/
theorem Interleaved.invariant
    {I : Nat → σ → Prop}
    (hStart : I 0 s)
    (hStep : ∀ n t, I n t → I (n + 1) (step t))
    (hOther : ∀ n t u, I n t → other t u → I n u)
    (hRun : Interleaved step other s n t) :
    I n t := by
  induction hRun with
  | start => exact hStart
  | step _ ih => exact hStep _ _ ih
  | other _ hUnseen ih => exact hOther _ _ _ ih hUnseen
