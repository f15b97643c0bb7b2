/-
  Programs, by what they do to one flag of the processor.

  Main declarations:
    * `FlagCode`, `FlagCode.Exec`
    * `FlagCode.Keeps`, `Exec.eq_of_keeps`
    * `FlagCode.exec_total`
-/

------------------------------------------------------------
-- Syntax and Semantics
------------------------------------------------------------

/-
  `plain` has no instruction for the flag, and `saved` runs
  its body between saving and restoring the flags.
-/
inductive FlagCode where
| plain
| clear
| set
| saved (body : FlagCode)
| seq (first second : FlagCode)
| loop (body : FlagCode)
deriving DecidableEq, Repr

namespace FlagCode

/- From one value of the flag to another. -/
inductive Exec : FlagCode → Bool → Bool → Prop where
| plain (b : Bool) : Exec plain b b
| clear (b : Bool) : Exec clear b false
| set (b : Bool) : Exec set b true
| saved
    {body : FlagCode}
    {b c : Bool}
    (hBody : Exec body b c) :
    Exec (saved body) b b
| seq
    {first second : FlagCode}
    {b c d : Bool}
    (hFirst : Exec first b c)
    (hSecond : Exec second c d) :
    Exec (seq first second) b d
| done (body : FlagCode) (b : Bool) : Exec (loop body) b b
| again
    {body : FlagCode}
    {b c d : Bool}
    (hBody : Exec body b c)
    (hRest : Exec (loop body) c d) :
    Exec (loop body) b d

/- Changes of the flag are undone. -/
def Keeps : FlagCode → Prop
| plain => True
| clear => False
| set => False
| saved _ => True
| seq first second => first.Keeps ∧ second.Keeps
| loop body => body.Keeps

------------------------------------------------------------
-- Runs
------------------------------------------------------------

variable {code : FlagCode}
variable {b c : Bool}

theorem Exec.eq_of_keeps
    (hExec : Exec code b c)
    (hKeeps : code.Keeps) :
    c = b := by
  induction hExec with
  | plain => rfl
  | clear => exact hKeeps.elim
  | set => exact hKeeps.elim
  | saved => rfl
  | seq hFirst hSecond ihFirst ihSecond =>
      exact (ihSecond hKeeps.2).trans (ihFirst hKeeps.1)
  | done => rfl
  | again hBody hRest ihBody ihRest =>
      exact (ihRest hKeeps).trans (ihBody hKeeps)

/- Every program has a run. -/
theorem exec_total (code : FlagCode) (b : Bool) :
    ∃ c, Exec code b c := by
  induction code generalizing b with
  | plain => exact ⟨b, .plain b⟩
  | clear => exact ⟨false, .clear b⟩
  | set => exact ⟨true, .set b⟩
  | saved body ih =>
      rcases ih b with ⟨c, hBody⟩
      exact ⟨b, .saved hBody⟩
  | seq first second ihFirst ihSecond =>
      rcases ihFirst b with ⟨c, hFirst⟩
      rcases ihSecond c with ⟨d, hSecond⟩
      exact ⟨d, .seq hFirst hSecond⟩
  | loop body ih => exact ⟨b, .done body b⟩

theorem exec_of_keeps
    (b : Bool)
    (hKeeps : code.Keeps) :
    Exec code b b := by
  rcases exec_total code b with ⟨c, hExec⟩
  have hSame := hExec.eq_of_keeps hKeeps
  exact hSame ▸ hExec

end FlagCode
