import Mathlib.Logic.Basic

/-
  Reasoning about state programs that may stop.

  Main declarations:
    * `EStateM.Result.Sat`
    * `EStateM.bind_of_ok`, `EStateM.bind_eq_ok_iff`
    * `EStateM.Result.Sat.bind`
    * `EStateM.endState`
    * `EStateM.Extends`
    * `EStateM.upTo`: a counted loop, with its rule
-/

------------------------------------------------------------
-- Results
------------------------------------------------------------

namespace EStateM

variable {ε σ α β : Type}

/-
  A result satisfies `Q` if the program returned, and `E` if
  it stopped.
-/
def Result.Sat
    (result : Result ε σ α)
    (Q : α → σ → Prop)
    (E : ε → σ → Prop) : Prop :=
  match result with
  | .ok a s => Q a s
  | .error e s => E e s

@[simp] theorem Result.sat_ok
    (a : α)
    (s : σ)
    (Q : α → σ → Prop)
    (E : ε → σ → Prop) :
    (Result.ok a s : Result ε σ α).Sat Q E ↔ Q a s :=
  Iff.rfl

@[simp] theorem Result.sat_error
    (e : ε)
    (s : σ)
    (Q : α → σ → Prop)
    (E : ε → σ → Prop) :
    (Result.error e s : Result ε σ α).Sat Q E ↔ E e s :=
  Iff.rfl

theorem Result.Sat.imp
    {result : Result ε σ α}
    {Q Q' : α → σ → Prop}
    {E E' : ε → σ → Prop}
    (hSat : result.Sat Q E)
    (hQ : ∀ a s, Q a s → Q' a s)
    (hE : ∀ e s, E e s → E' e s) :
    result.Sat Q' E' := by
  cases result with
  | ok a s => exact hQ a s hSat
  | error e s => exact hE e s hSat

------------------------------------------------------------
-- Sequencing
------------------------------------------------------------

theorem bind_of_ok
    {x : EStateM ε σ α}
    {f : α → EStateM ε σ β}
    {a : α}
    {s s' : σ}
    (hx : x.run s = .ok a s') :
    (x >>= f).run s = (f a).run s' := by
  rw [run_bind, hx]

theorem bind_of_error
    {x : EStateM ε σ α}
    {f : α → EStateM ε σ β}
    {e : ε}
    {s s' : σ}
    (hx : x.run s = .error e s') :
    (x >>= f).run s = .error e s' := by
  rw [run_bind, hx]

/- A sequence returns when both of its parts return. -/
theorem bind_eq_ok_iff
    {x : EStateM ε σ α}
    {f : α → EStateM ε σ β}
    {b : β}
    {s s' : σ} :
    (x >>= f).run s = .ok b s' ↔
      ∃ a sMid, x.run s = .ok a sMid ∧
        (f a).run sMid = .ok b s' := by
  rw [run_bind]
  cases x.run s with
  | ok a sMid =>
      constructor
      · intro hf
        exact ⟨a, sMid, rfl, hf⟩
      · rintro ⟨_, _, hx, hf⟩
        cases hx
        exact hf
  | error e sMid => simp

theorem Result.Sat.bind
    {x : EStateM ε σ α}
    {f : α → EStateM ε σ β}
    {s : σ}
    {Q : α → σ → Prop}
    {Q' : β → σ → Prop}
    {E : ε → σ → Prop}
    (hx : (x.run s).Sat Q E)
    (hf : ∀ a s', Q a s' → ((f a).run s').Sat Q' E) :
    ((x >>= f).run s).Sat Q' E := by
  rw [run_bind]
  cases hRun : x.run s with
  | ok a s' =>
      rw [hRun] at hx
      exact hf a s' hx
  | error e s' =>
      rw [hRun] at hx
      exact hx

/- The program returned. -/
def Result.isOk (result : Result ε σ α) : Bool :=
  match result with
  | .ok _ _ => true
  | .error _ _ => false

/- The state in which a program from `s` ends. -/
def endState (x : EStateM ε σ α) (s : σ) : σ :=
  match x.run s with
  | .ok _ s' => s'
  | .error _ s' => s'

theorem run_endState
    {x : EStateM ε σ Unit}
    {s : σ}
    (hOk : (x.run s).isOk = true) :
    x.run s = .ok () (endState x s) := by
  rw [endState]
  cases hRun : x.run s with
  | ok a s' => rfl
  | error e s' =>
      rw [hRun] at hOk
      cases hOk

/- What the program returned, if it did. -/
def Result.value (result : Result ε σ α) : Option α :=
  match result with
  | .ok a _ => some a
  | .error _ _ => none

theorem run_eq_of_value
    {x : EStateM ε σ α}
    {s : σ}
    {a : α}
    (hValue : (x.run s).value = some a) :
    x.run s = .ok a (endState x s) := by
  rw [endState]
  cases hRun : x.run s with
  | ok b s' =>
      rw [hRun] at hValue
      cases hValue
      rfl
  | error e s' =>
      rw [hRun] at hValue
      cases hValue

@[simp] theorem run_throw'
    (e : ε)
    (s : σ) :
    (throw e : EStateM ε σ α).run s = .error e s := rfl

------------------------------------------------------------
-- Bounds
------------------------------------------------------------

/-
  Every run that returns in `x` returns the same in `y`.
  Loops with a larger bound extend those with a smaller one.
-/
def Extends (x y : EStateM ε σ α) : Prop :=
  ∀ s a s', x.run s = .ok a s' → y.run s = .ok a s'

theorem Extends.refl (x : EStateM ε σ α) : Extends x x :=
  fun _ _ _ h => h

theorem Extends.bind
    {x y : EStateM ε σ α}
    {f g : α → EStateM ε σ β}
    (hxy : Extends x y)
    (hfg : ∀ a, Extends (f a) (g a)) :
    Extends (x >>= f) (y >>= g) := by
  intro s b s' hRun
  rw [bind_eq_ok_iff] at hRun ⊢
  rcases hRun with ⟨a, sMid, hx, hf⟩
  exact ⟨a, sMid, hxy _ _ _ hx, hfg a _ _ _ hf⟩

theorem Extends.bind_right
    (x : EStateM ε σ α)
    {f g : α → EStateM ε σ β}
    (hfg : ∀ a, Extends (f a) (g a)) :
    Extends (x >>= f) (x >>= g) :=
  (Extends.refl x).bind hfg

theorem Extends.ite
    {p : Prop}
    [Decidable p]
    {x y x' y' : EStateM ε σ α}
    (hx : Extends x x')
    (hy : Extends y y') :
    Extends (if p then x else y) (if p then x' else y') := by
  by_cases hp : p
  · rw [if_pos hp, if_pos hp]
    exact hx
  · rw [if_neg hp, if_neg hp]
    exact hy

/- A computation that stops is extended by every other. -/
theorem Extends.throw
    (e : ε)
    (y : EStateM ε σ α) :
    Extends (MonadExcept.throw e) y := by
  intro s a s' hRun
  cases hRun

------------------------------------------------------------
-- Counted Loops
------------------------------------------------------------

/- Run the body for `0`, `1`, .., `n - 1`. -/
def upTo (body : Nat → EStateM ε σ Unit) :
    Nat → EStateM ε σ Unit
| 0 => pure ()
| n + 1 => do
    upTo body n
    body n

/-
  A loop that returned has kept every invariant that its
  body keeps when it returns.
-/
theorem upTo_invariant
    {body : Nat → EStateM ε σ Unit}
    {I : Nat → σ → Prop}
    {n : Nat}
    {s s' : σ}
    (hRun : (upTo body n).run s = .ok () s')
    (hStart : I 0 s)
    (hBody :
      ∀ i s s', i < n → I i s →
        (body i).run s = .ok () s' → I (i + 1) s') :
    I n s' := by
  induction n generalizing s' with
  | zero =>
      cases hRun
      exact hStart
  | succ n ih =>
      rw [upTo, bind_eq_ok_iff] at hRun
      rcases hRun with ⟨_, sMid, hLoop, hLast⟩
      have hMid : I n sMid := by
        apply ih hLoop
        intro i s s' hi
        exact hBody i s s' (by omega)
      exact hBody n sMid s' (by omega) hMid hLast

/- A loop returns when its body does, under an invariant. -/
theorem upTo_total
    {body : Nat → EStateM ε σ Unit}
    {I : Nat → σ → Prop}
    {n : Nat}
    {s : σ}
    (hStart : I 0 s)
    (hBody :
      ∀ i s, i < n → I i s →
        ∃ s', (body i).run s = .ok () s' ∧ I (i + 1) s') :
    ∃ s', (upTo body n).run s = .ok () s' ∧ I n s' := by
  induction n with
  | zero => exact ⟨s, rfl, hStart⟩
  | succ n ih =>
      have hLoop := ih (by
        intro i s hi
        exact hBody i s (by omega))
      rcases hLoop with ⟨sMid, hMidRun, hMid⟩
      rcases hBody n sMid (by omega) hMid with ⟨s', hLast, hEnd⟩
      refine ⟨s', ?_, hEnd⟩
      rw [upTo, bind_of_ok hMidRun, hLast]

/- A loop keeps an invariant until its body stops. -/
theorem sat_upTo
    {body : Nat → EStateM ε σ Unit}
    {I : Nat → σ → Prop}
    {E : ε → σ → Prop}
    {n : Nat}
    {s : σ}
    (hStart : I 0 s)
    (hBody :
      ∀ i s, i < n → I i s →
        ((body i).run s).Sat (fun _ s' => I (i + 1) s') E) :
    ((upTo body n).run s).Sat (fun _ s' => I n s') E := by
  induction n with
  | zero => exact hStart
  | succ n ih =>
      have hLoop := ih (by
        intro i s hi
        exact hBody i s (by omega))
      rw [upTo]
      refine hLoop.bind ?_
      intro _ s' hMid
      exact hBody n s' (by omega) hMid

/- A loop whose states are known from pass to pass. -/
theorem run_upTo
    {body : Nat → EStateM ε σ Unit}
    {s : Nat → σ}
    {n : Nat}
    (hBody :
      ∀ i, i < n → (body i).run (s i) = .ok () (s (i + 1))) :
    (upTo body n).run (s 0) = .ok () (s n) := by
  induction n with
  | zero => rfl
  | succ n ih =>
      have hLoop := ih (by
        intro i hi
        exact hBody i (by omega))
      rw [upTo, bind_of_ok hLoop]
      exact hBody n (by omega)

end EStateM
