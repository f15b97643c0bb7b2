import Mathlib.Data.List.Range
import Mathlib.Data.Nat.ModEq
import Mathlib.Logic.Function.Basic

/-
  The contents of a circular buffer of `n` places.

  Main declarations:
    * `ring`
    * `ring_succ`: what is taken from the front
    * `ring_update`: what is put at the back
-/

------------------------------------------------------------
-- Circular Buffers
------------------------------------------------------------

variable {α : Type*}

/- The `len` elements from the place `start` on, and round. -/
def ring
    (n : Nat)
    (buffer : Nat → α)
    (start len : Nat) : List α :=
  (List.range len).map fun i => buffer ((start + i) % n)

@[simp] theorem ring_zero
    (n : Nat)
    (buffer : Nat → α)
    (start : Nat) :
    ring n buffer start 0 = [] := rfl

@[simp] theorem length_ring
    (n : Nat)
    (buffer : Nat → α)
    (start len : Nat) :
    (ring n buffer start len).length = len := by
  simp [ring]

theorem ring_succ
    (n : Nat)
    (buffer : Nat → α)
    (start len : Nat) :
    ring n buffer start (len + 1) =
      buffer (start % n) ::
        ring n buffer ((start + 1) % n) len := by
  simp only [ring, List.range_succ_eq_map, List.map_cons,
    List.map_map, Nat.add_zero]
  congr 1
  apply List.map_congr_left
  intro i _
  have hIndex : start + i.succ = start + 1 + i := by omega
  rw [Function.comp, hIndex, Nat.mod_add_mod]

/- Two places less than a round apart are different. -/
theorem add_mod_ne
    {n start i len : Nat}
    (hi : i < len)
    (hLen : len < n) :
    (start + i) % n ≠ (start + len) % n := by
  intro hSame
  have hMod : i % n = len % n :=
    Nat.ModEq.add_left_cancel' start hSame
  rw [Nat.mod_eq_of_lt (hi.trans hLen),
    Nat.mod_eq_of_lt hLen] at hMod
  omega

theorem ring_update
    {n start len : Nat}
    (buffer : Nat → α)
    (a : α)
    (hLen : len < n) :
    ring n
        (Function.update buffer ((start + len) % n) a)
        start (len + 1) =
      ring n buffer start len ++ [a] := by
  simp only [ring, List.range_succ, List.map_append,
    List.map_cons, List.map_nil, Function.update_self]
  congr 1
  apply List.map_congr_left
  intro i hi
  rw [List.mem_range] at hi
  exact Function.update_of_ne (add_mod_ne hi hLen) _ _
