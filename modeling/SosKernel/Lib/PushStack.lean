import SosKernel.Lib.ByteMemory
import Mathlib.Data.List.GetD

/-
  Words that are pushed on a stack that grows downwards.

  Main declarations:
    * `ByteMemory.pushes`: memory after several pushes
    * `sameOn_pushes`: what lies elsewhere
    * `read32_pushes`: what has been pushed
    * `read32_pushes_reverse`: from the top of the stack
-/

------------------------------------------------------------
-- Pushing
------------------------------------------------------------

namespace ByteMemory

variable {e i : Nat}
variable {vs ws : List Nat}

/- The words are pushed in their order, from `e` down. -/
def pushes (mem : ByteMemory) : Nat → List Nat → ByteMemory
| _, [] => mem
| e, v :: vs => pushes (mem.write32 (e - 4) v) (e - 4) vs

/- Bytes above the stack pointer, and below the last word. -/
theorem pushes_apply
    {x : Nat}
    (mem : ByteMemory)
    (hRoom : 4 * vs.length ≤ e)
    (hx : x < e - 4 * vs.length ∨ e ≤ x) :
    mem.pushes e vs x = mem x := by
  induction vs generalizing mem e with
  | nil => rfl
  | cons v vs ih =>
      rw [List.length_cons] at hRoom hx
      rw [pushes, ih _ (by omega) (by omega)]
      exact write32_apply_of_apart mem v (by omega)

theorem sameOn_pushes
    {lo hi : Nat}
    (mem : ByteMemory)
    (hRoom : 4 * vs.length ≤ e)
    (hOff : hi ≤ e - 4 * vs.length ∨ e ≤ lo) :
    mem.SameOn lo hi (mem.pushes e vs) :=
  fun _ _ _ => pushes_apply mem hRoom (by omega)

/- Each word is where it was pushed. -/
theorem read32_pushes
    (mem : ByteMemory)
    (hRoom : 4 * vs.length ≤ e)
    (hWords : ∀ v ∈ vs, v < 2 ^ 32)
    (hi : i < vs.length) :
    (mem.pushes e vs).read32 (e - 4 * (i + 1)) = vs[i] := by
  induction vs generalizing mem e i with
  | nil => exact absurd hi (Nat.not_lt_zero i)
  | cons v vs ih =>
      have hLen : i < vs.length + 1 := hi
      rw [List.length_cons] at hRoom
      rw [pushes]
      cases i with
      | zero =>
          have hSame :
              (mem.write32 (e - 4) v).SameOn (e - 4)
                (e - 4 + 4)
                ((mem.write32 (e - 4) v).pushes (e - 4) vs) :=
            sameOn_pushes _ (by omega) (.inr (le_refl _))
          rw [hSame.read32 (by omega) (by omega)]
          exact read32_write32_self mem (e - 4)
            (hWords v List.mem_cons_self)
      | succ i =>
          have hRest :=
            ih (e := e - 4) (i := i) (mem.write32 (e - 4) v)
              (by omega)
              (fun w hw => hWords w (List.mem_cons_of_mem v hw))
              (by omega)
          have hAddr :
              e - 4 * (i + 1 + 1) = e - 4 - 4 * (i + 1) := by
            omega
          rw [hAddr]
          exact hRest

/- The words from the top of the stack, the last one first. -/
theorem read32_pushes_reverse
    (mem : ByteMemory)
    (e : Nat)
    (vs : List Nat)
    (hRoom : 4 * vs.length ≤ e)
    (hWords : ∀ v ∈ vs, v < 2 ^ 32)
    (hi : i < vs.length) :
    (mem.pushes e vs).read32 (e - 4 * vs.length + 4 * i) =
      vs.reverse.getD i 0 := by
  have hRev : i < vs.reverse.length := by
    rw [List.length_reverse]
    exact hi
  have hAddr :
      e - 4 * vs.length + 4 * i =
        e - 4 * (vs.length - 1 - i + 1) := by
    omega
  rw [hAddr, read32_pushes mem hRoom hWords (by omega),
    List.getD_eq_getElem _ _ hRev, List.getElem_reverse]

end ByteMemory
