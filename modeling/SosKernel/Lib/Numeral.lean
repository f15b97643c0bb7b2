import Mathlib.Data.List.Basic
import Mathlib.Data.List.Induction
import Mathlib.Algebra.Order.Ring.Nat
import Mathlib.Data.Nat.Digits.Defs

/-
  Numerals in the base `base`.  The digits are the first
  `base` entries of a list, which has no entry twice.

  Main declarations:
    * `IsNumeral`, `value`: what a numeral is, and what it
      reads as
    * `Writes`: numerals by repeated division
    * `Writes.shortest`: no numeral of that number is shorter
    * `Writes.eq_map_digits`: the digits it has
-/

------------------------------------------------------------
-- Numerals
------------------------------------------------------------

namespace SosKernel

namespace Numeral

variable {α : Type*}
variable {digits : List α}
variable {base n : Nat}
variable {s : List α}

def IsNumeral
    (digits : List α)
    (base : Nat)
    (s : List α) : Prop :=
  s ≠ [] ∧ ∀ c ∈ s, c ∈ digits.take base

------------------------------------------------------------
-- Repeated Division
------------------------------------------------------------

/- The last digit is the remainder. -/
inductive Writes
    (digits : List α)
    (base : Nat) : Nat → List α → Prop
| last {n : Nat} {c : α} :
    n < base →
      digits[n]? = some c →
        Writes digits base n [c]
| more {n : Nat} {c : α} {s : List α} :
    base ≤ n →
      Writes digits base (n / base) s →
        digits[n % base]? = some c →
          Writes digits base n (s ++ [c])

theorem mem_take_of_getElem?
    {c : α}
    (hc : digits[n]? = some c)
    (hn : n < base) :
    c ∈ digits.take base := by
  apply List.mem_of_getElem?
  rw [List.getElem?_take_of_lt hn]
  exact hc

namespace Writes

theorem isNumeral
    (hBase : 0 < base)
    (hWrites : Writes digits base n s) :
    IsNumeral digits base s := by
  induction hWrites with
  | last hn hc =>
      refine ⟨List.cons_ne_nil _ _, ?_⟩
      intro d hd
      rw [List.mem_singleton.mp hd]
      exact mem_take_of_getElem? hc hn
  | @more n c s hn hRest hc ih =>
      refine ⟨List.append_ne_nil_of_right_ne_nil _
        (List.cons_ne_nil _ _), ?_⟩
      intro d hd
      rcases List.mem_append.mp hd with hd | hd
      · exact ih.2 d hd
      · rw [List.mem_singleton.mp hd]
        exact mem_take_of_getElem? hc
          (Nat.mod_lt n hBase)

/- A numeral of more digits has a first digit above 0. -/
theorem pow_le
    (hBase : 0 < base)
    (hWrites : Writes digits base n s) :
    s.length = 1 ∨
      0 < s.length ∧ base ^ (s.length - 1) ≤ n := by
  induction hWrites with
  | last hn hc => exact Or.inl rfl
  | @more n c s hn hRest hc ih =>
      right
      rw [List.length_append, List.length_singleton,
        Nat.add_sub_cancel]
      refine ⟨Nat.succ_pos _, ?_⟩
      rcases ih with hOne | ⟨hPos, hPow⟩
      · rw [hOne, Nat.pow_one]
        exact hn
      · have hLength : s.length = s.length - 1 + 1 := by
          omega
        rw [hLength, Nat.pow_succ]
        exact (Nat.le_div_iff_mul_le hBase).mp hPow

theorem length_le
    {k : Nat}
    (hBase : 2 ≤ base)
    (hk : 0 < k)
    (hn : n < 2 ^ k)
    (hWrites : Writes digits base n s) :
    s.length ≤ k := by
  rcases hWrites.pow_le (by omega) with hOne | ⟨-, hPow⟩
  · omega
  · have hLt : 2 ^ (s.length - 1) < 2 ^ k :=
      Nat.lt_of_le_of_lt
        (Nat.pow_le_pow_left hBase _)
        (Nat.lt_of_le_of_lt hPow hn)
    have hExp :=
      (Nat.pow_lt_pow_iff_right (Nat.lt_succ_self 1)).mp hLt
    omega

/- The digits are the remainders, as `Nat.digits` has them. -/
theorem eq_map_digits
    [Inhabited α]
    (hBase : 1 < base)
    (hn : n ≠ 0)
    (hWrites : Writes digits base n s) :
    s = (Nat.digits base n).reverse.map
      fun d => digits[d]! := by
  induction hWrites with
  | @last n c hLt hc =>
      rw [Nat.digits_of_lt base n hn hLt, List.reverse_singleton,
        List.map_singleton, List.getElem!_of_getElem? hc]
  | @more n c s hLe _ hc ih =>
      have hQuotient : n / base ≠ 0 :=
        Nat.ne_of_gt (Nat.div_pos hLe (by omega))
      rw [Nat.digits_def' hBase (by omega), List.reverse_cons,
        List.map_append, List.map_singleton, ← ih hQuotient,
        List.getElem!_of_getElem? hc]

end Writes

------------------------------------------------------------
-- Reading
------------------------------------------------------------

variable [DecidableEq α]

/- A numeral is read from its first digit on. -/
def value
    (digits : List α)
    (base : Nat)
    (s : List α) : Nat :=
  s.foldl (fun n c => n * base + digits.idxOf c) 0

/- A numeral of `n` as short as any. -/
structure Shortest
    (digits : List α)
    (base n : Nat)
    (s : List α) : Prop where
  isNumeral : IsNumeral digits base s
  value_eq : value digits base s = n
  length_le : ∀ t : List α,
    IsNumeral digits base t →
      value digits base t = n →
        s.length ≤ t.length

@[simp] theorem value_nil : value digits base [] = 0 := rfl

@[simp] theorem value_concat
    (s : List α)
    (c : α) :
    value digits base (s ++ [c]) =
      value digits base s * base + digits.idxOf c := by
  unfold value
  rw [List.foldl_append]
  rfl

theorem idxOf_lt_base
    {c : α}
    (hc : c ∈ digits.take base) :
    digits.idxOf c < base := by
  have hTake : digits.idxOf c = (digits.take base).idxOf c := by
    conv_lhs => rw [← List.take_append_drop base digits]
    exact List.idxOf_append_of_mem hc
  have hLt := List.idxOf_lt_length_of_mem hc
  rw [List.length_take] at hLt
  omega

/- A numeral of `k` digits is below the power `k`. -/
theorem value_lt
    (s : List α)
    (hs : ∀ c ∈ s, c ∈ digits.take base) :
    value digits base s < base ^ s.length := by
  induction s using List.reverseRecOn with
  | nil => exact Nat.one_pos
  | append_singleton s c ih =>
      have hLast : digits.idxOf c < base :=
        idxOf_lt_base (hs c (by simp))
      have hInit : value digits base s < base ^ s.length :=
        ih fun d hd => hs d (by simp [hd])
      rw [value_concat, List.length_append,
        List.length_singleton, Nat.pow_succ]
      calc
        value digits base s * base + digits.idxOf c
            < value digits base s * base + base :=
              Nat.add_lt_add_left hLast _
        _ = (value digits base s + 1) * base :=
              (Nat.succ_mul _ _).symm
        _ ≤ base ^ s.length * base :=
              Nat.mul_le_mul_right base hInit

theorem idxOf_of_getElem?
    {c : α}
    (hNodup : digits.Nodup)
    (hc : digits[n]? = some c) :
    digits.idxOf c = n := by
  rcases List.getElem?_eq_some_iff.mp hc with ⟨hn, rfl⟩
  exact hNodup.idxOf_getElem n hn

namespace Writes

theorem value_eq
    (hNodup : digits.Nodup)
    (hWrites : Writes digits base n s) :
    value digits base s = n := by
  induction hWrites with
  | last hn hc =>
      have hIdx := idxOf_of_getElem? hNodup hc
      simp [value, hIdx]
  | more hn hRest hc ih =>
      rw [value_concat, ih, idxOf_of_getElem? hNodup hc,
        Nat.mul_comm]
      exact Nat.div_add_mod _ _

/- Division writes a numeral as short as any. -/
theorem shortest
    (hNodup : digits.Nodup)
    (hBase : 2 ≤ base)
    (hWrites : Writes digits base n s) :
    Shortest digits base n s := by
  have hPos : 0 < base := by omega
  refine ⟨hWrites.isNumeral hPos,
    hWrites.value_eq hNodup, ?_⟩
  intro t hNumeral hValue
  have hNonempty : 0 < t.length :=
    List.length_pos_of_ne_nil hNumeral.1
  rcases hWrites.pow_le hPos with hOne | ⟨-, hPow⟩
  · omega
  · have hLt : base ^ (s.length - 1) < base ^ t.length := by
      calc
        base ^ (s.length - 1) ≤ n := hPow
        _ = value digits base t := hValue.symm
        _ < base ^ t.length := value_lt t hNumeral.2
    have hExp := (Nat.pow_lt_pow_iff_right hBase).mp hLt
    omega

end Writes

end Numeral

end SosKernel
