import Mathlib.Data.List.Rotate

/-
  A list, and after it another one over and over.

  Main declarations:
    * `List.endless`
    * `List.endless_append`: the list that is repeated can
      be turned
    * `List.Advances`: one entry is taken off
    * `List.perm_of_endless`: a block of the length of the
      list that is repeated holds its elements
-/

------------------------------------------------------------
-- Repeated Lists
------------------------------------------------------------

namespace List

variable {α : Type*}

/- The entry `i` of `rest`, `round`, `round`, ... -/
def endless (rest round : List α) (i : Nat) : Option α :=
  if i < rest.length then
    rest[i]?
  else
    round[(i - rest.length) % round.length]?

@[simp] theorem endless_cons_zero
    (a : α)
    (rest round : List α) :
    endless (a :: rest) round 0 = some a := by
  rw [endless, if_pos (by rw [length_cons]; omega)]
  rfl

@[simp] theorem endless_cons_succ
    (a : α)
    (rest round : List α)
    (i : Nat) :
    endless (a :: rest) round (i + 1) =
      endless rest round i := by
  simp only [endless, length_cons, Nat.add_lt_add_iff_right,
    Nat.add_sub_add_right, getElem?_cons_succ]

/-
  When the list that is repeated ends with `rest`, all
  entries are entries of it.
-/
theorem endless_of_suffix
    (before rest : List α)
    (i : Nat) :
    endless rest (before ++ rest) i =
      (before ++ rest)[
        (i + before.length) % (before ++ rest).length]? := by
  unfold endless
  rw [length_append]
  split
  · rename_i hi
    rw [Nat.mod_eq_of_lt (by omega),
      getElem?_append_right (by omega), Nat.add_sub_cancel]
  · rename_i hi
    have hSplit :
        i + before.length =
          i - rest.length +
            (before.length + rest.length) := by
      omega
    rw [hSplit, Nat.add_mod_right]

/- The parts of the list that is repeated change places. -/
theorem endless_append
    (first second : List α)
    (i : Nat) :
    endless [] (first ++ second) i =
      endless first (second ++ first) i := by
  have hNil :
      endless [] (first ++ second) i =
        (first ++ second)[i % (first ++ second).length]? :=
    if_neg (Nat.not_lt_zero i)
  have hTurn :
      second ++ first = (first ++ second).rotate first.length :=
    (rotate_append_length_eq first second).symm
  have hLength :
      (second ++ first).length = (first ++ second).length := by
    rw [length_append, length_append, Nat.add_comm]
  rw [hNil, endless_of_suffix, hLength]
  by_cases hEmpty : (first ++ second).length = 0
  · rw [getElem?_eq_none (by omega),
      getElem?_eq_none (by omega)]
  · have hLt := Nat.mod_lt (i + second.length)
      (Nat.pos_of_ne_zero hEmpty)
    have hIndex :
        i + second.length + first.length =
          i + (first ++ second).length := by
      rw [length_append]
      omega
    rw [hTurn, getElem?_rotate hLt, Nat.mod_add_mod, hIndex,
      Nat.add_mod_right]

/-
  The entry `a` is taken off.  At the end of the first list,
  it begins the list that is repeated, and is put behind it
  with those that follow.
-/
def Advances
    (rest round : List α)
    (a : α)
    (rest' round' : List α) : Prop :=
  (rest = a :: rest' ∧ round' = round) ∨
    (rest = [] ∧
      ∃ others,
        round = a :: rest' ++ others ∧
          round' = others ++ a :: rest')

theorem Advances.endless
    {rest round rest' round' : List α}
    {a : α}
    (hAdvances : Advances rest round a rest' round') :
    rest.endless round 0 = some a ∧
      ∀ i, rest.endless round (i + 1) =
        rest'.endless round' i := by
  rcases hAdvances with ⟨rfl, rfl⟩ | ⟨rfl, others, rfl, rfl⟩
  · exact ⟨endless_cons_zero a _ _, endless_cons_succ a _ _⟩
  · constructor
    · rw [endless_append]
      exact endless_cons_zero a _ _
    · intro i
      rw [endless_append]
      exact endless_cons_succ a _ _ i

/-
  Entries that are consecutive, as many as the list that is
  repeated has, are its elements.
-/
theorem perm_of_endless
    {rest round block : List α}
    {k : Nat}
    (hStart : rest <:+ round ∨ rest.length ≤ k)
    (hLength : block.length = round.length)
    (hBlock :
      ∀ i, i < block.length →
        block[i]? = endless rest round (k + i)) :
    block.Perm round := by
  have hRotate :
      ∃ n, ∀ i,
        endless rest round (k + i) =
          round[(i + n) % round.length]? := by
    rcases hStart with ⟨before, rfl⟩ | hPast
    · refine ⟨k + before.length, ?_⟩
      intro i
      rw [endless_of_suffix]
      congr 2
      omega
    · refine ⟨k - rest.length, ?_⟩
      intro i
      rw [endless, if_neg (by omega)]
      congr 2
      omega
  rcases hRotate with ⟨n, hRotate⟩
  have hEq : block = round.rotate n := by
    apply ext_getElem?
    intro i
    by_cases hi : i < block.length
    · rw [hBlock i hi, hRotate,
        getElem?_rotate (hLength ▸ hi)]
    · rw [getElem?_eq_none (by omega),
        getElem?_eq_none (by rw [length_rotate]; omega)]
  rw [hEq]
  exact rotate_perm round n

end List
