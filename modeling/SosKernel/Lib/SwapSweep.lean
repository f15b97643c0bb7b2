import Mathlib.Data.List.Perm.Basic
import Mathlib.Data.List.Induction

/-
  Sweeps that delete by moving the last element into the
  place of the deleted one.

  Main declarations:
    * `List.lastToFront`
    * `List.sweep`: the elements a sweep keeps, in the order
      it meets them
    * `List.sweep_append_of_forall`, `List.sweep_congr`
    * `List.sweepHead`
-/

------------------------------------------------------------
-- Moving the Last Element to the Front
------------------------------------------------------------

namespace List

variable {α : Type*}

/- The last element first, then the others. -/
def lastToFront (xs : List α) : List α :=
  match xs.getLast? with
  | none => []
  | some last => last :: xs.dropLast

@[simp] theorem lastToFront_nil :
    lastToFront ([] : List α) = [] := rfl

@[simp] theorem lastToFront_concat
    (xs : List α)
    (x : α) :
    lastToFront (xs ++ [x]) = x :: xs := by
  simp [lastToFront]

theorem lastToFront_perm (xs : List α) :
    (lastToFront xs).Perm xs := by
  induction xs using List.reverseRecOn with
  | nil => simp
  | append_singleton xs x =>
      rw [lastToFront_concat]
      exact (List.perm_append_singleton x xs).symm

@[simp] theorem length_lastToFront (xs : List α) :
    (lastToFront xs).length = xs.length :=
  (lastToFront_perm xs).length_eq

@[simp] theorem mem_lastToFront
    {xs : List α}
    {x : α} :
    x ∈ lastToFront xs ↔ x ∈ xs :=
  (lastToFront_perm xs).mem_iff

theorem lastToFront_append_concat
    (xs ys : List α)
    (y : α) :
    lastToFront (xs ++ (ys ++ [y])) = y :: (xs ++ ys) := by
  rw [← List.append_assoc, lastToFront_concat]

------------------------------------------------------------
-- Sweeps
------------------------------------------------------------

/-
  Sweep a list from its front.  An element that satisfies
  `p` is deleted, and the last element takes its place; the
  others are kept and passed.
-/
def sweep (p : α → Bool) : List α → List α
| [] => []
| x :: xs =>
    if p x then
      sweep p (lastToFront xs)
    else
      x :: sweep p xs
termination_by xs => xs.length
decreasing_by all_goals simp

@[simp] theorem sweep_nil (p : α → Bool) :
    sweep p ([] : List α) = [] := by
  rw [sweep]

theorem sweep_cons_of_pos
    {p : α → Bool}
    {x : α}
    {xs : List α}
    (hx : p x = true) :
    sweep p (x :: xs) = sweep p (lastToFront xs) := by
  rw [sweep, if_pos hx]

theorem sweep_cons_of_neg
    {p : α → Bool}
    {x : α}
    {xs : List α}
    (hx : p x = false) :
    sweep p (x :: xs) = x :: sweep p xs := by
  rw [sweep, if_neg (by simp [hx])]

/- A sweep keeps exactly the elements outside `p`. -/
theorem sweep_perm_filter
    (p : α → Bool)
    (xs : List α) :
    (sweep p xs).Perm (xs.filter fun x => !p x) := by
  induction xs using sweep.induct p with
  | case1 => simp
  | case2 x xs hx ih =>
      rw [sweep_cons_of_pos hx,
        List.filter_cons_of_neg (by simp [hx])]
      exact ih.trans ((lastToFront_perm xs).filter _)
  | case3 x xs hx ih =>
      have hNot : p x = false := by simpa using hx
      rw [sweep_cons_of_neg hNot,
        List.filter_cons_of_pos (by simp [hNot])]
      exact ih.cons x

theorem mem_sweep
    {p : α → Bool}
    {xs : List α}
    {x : α} :
    x ∈ sweep p xs ↔ x ∈ xs ∧ p x = false := by
  rw [(sweep_perm_filter p xs).mem_iff]
  simp

theorem sweep_eq_nil_iff
    {p : α → Bool}
    {xs : List α} :
    sweep p xs = [] ↔ ∀ x ∈ xs, p x = true := by
  rw [List.eq_nil_iff_forall_not_mem]
  simp [mem_sweep]

/- A sweep looks only at the elements of its list. -/
theorem sweep_congr
    {p q : α → Bool}
    {xs : List α}
    (hSame : ∀ x ∈ xs, p x = q x) :
    sweep p xs = sweep q xs := by
  induction xs using sweep.induct p with
  | case1 => rw [sweep_nil, sweep_nil]
  | case2 x xs hx ih =>
      have hq : q x = true := by
        rw [← hSame x (by simp)]
        exact hx
      rw [sweep_cons_of_pos hx, sweep_cons_of_pos hq]
      apply ih
      intro y hy
      rw [mem_lastToFront] at hy
      exact hSame y (by simp [hy])
  | case3 x xs hx ih =>
      have hp : p x = false := by simpa using hx
      have hq : q x = false := by
        rw [← hSame x (by simp)]
        exact hp
      rw [sweep_cons_of_neg hp, sweep_cons_of_neg hq, ih]
      intro y hy
      exact hSame y (by simp [hy])

/- Deleted elements at the end do not change a sweep. -/
theorem sweep_append_of_forall
    {p : α → Bool}
    (xs ys : List α)
    (hys : ∀ y ∈ ys, p y = true) :
    sweep p (xs ++ ys) = sweep p xs := by
  induction hLen : (xs ++ ys).length using
      Nat.strongRecOn generalizing xs ys with
  | ind n ih =>
  subst hLen
  match xs with
  | [] =>
      rw [List.nil_append, sweep_nil, sweep_eq_nil_iff]
      exact hys
  | x :: xs =>
      cases hx : p x with
      | false =>
          rw [List.cons_append, sweep_cons_of_neg hx,
            sweep_cons_of_neg hx,
            ih _ (by simp) xs ys hys rfl]
      | true =>
          rw [List.cons_append, sweep_cons_of_pos hx,
            sweep_cons_of_pos hx]
          induction ys using List.reverseRecOn with
          | nil => rw [List.append_nil]
          | append_singleton ys y _ =>
              have hy : p y = true := hys y (by simp)
              have hRest : ∀ z ∈ ys, p z = true := by
                intro z hz
                exact hys z (by simp [hz])
              -- the moved `y` is itself deleted next
              have hShort :
                  sweep p (lastToFront (xs ++ ys)) =
                    sweep p (lastToFront xs) := by
                have h :=
                  ih (x :: xs ++ ys).length (by simp)
                    (x :: xs) ys hRest rfl
                rwa [List.cons_append,
                  sweep_cons_of_pos hx,
                  sweep_cons_of_pos hx] at h
              rw [lastToFront_append_concat,
                sweep_cons_of_pos hy, hShort]

/- The first element a sweep keeps. -/
def sweepHead (p : α → Bool) (xs : List α) : Option α :=
  (sweep p xs).head?

theorem sweepHead_congr
    {p q : α → Bool}
    {xs : List α}
    (hSame : ∀ x ∈ xs, p x = q x) :
    sweepHead p xs = sweepHead q xs := by
  rw [sweepHead, sweepHead, sweep_congr hSame]

theorem sweepHead_cons_of_pos
    {p : α → Bool}
    {x : α}
    {xs : List α}
    (hx : p x = true) :
    sweepHead p (x :: xs) = sweepHead p (lastToFront xs) := by
  rw [sweepHead, sweepHead, sweep_cons_of_pos hx]

theorem sweepHead_cons_of_neg
    {p : α → Bool}
    {x : α}
    {xs : List α}
    (hx : p x = false) :
    sweepHead p (x :: xs) = some x := by
  rw [sweepHead, sweep_cons_of_neg hx, List.head?_cons]

theorem sweepHead_append_of_forall
    {p : α → Bool}
    (xs ys : List α)
    (hys : ∀ y ∈ ys, p y = true) :
    sweepHead p (xs ++ ys) = sweepHead p xs := by
  rw [sweepHead, sweepHead, sweep_append_of_forall xs ys hys]

theorem mem_of_sweepHead
    {p : α → Bool}
    {x : α}
    {xs : List α}
    (hHead : sweepHead p xs = some x) :
    x ∈ xs :=
  (mem_sweep.mp (List.mem_of_head? hHead)).1

theorem eq_false_of_sweepHead
    {p : α → Bool}
    {x : α}
    {xs : List α}
    (hHead : sweepHead p xs = some x) :
    p x = false :=
  (mem_sweep.mp (List.mem_of_head? hHead)).2

theorem sweepHead_eq_none_iff
    {p : α → Bool}
    {xs : List α} :
    sweepHead p xs = none ↔ ∀ x ∈ xs, p x = true := by
  rw [sweepHead, List.head?_eq_none_iff, sweep_eq_nil_iff]

------------------------------------------------------------
-- First Results
------------------------------------------------------------

theorem findSome?_congr_of_mem
    {β : Type*}
    {f g : α → Option β}
    {xs : List α}
    (hSame : ∀ x ∈ xs, f x = g x) :
    xs.findSome? f = xs.findSome? g := by
  induction xs with
  | nil => rfl
  | cons x xs ih =>
      rw [List.findSome?_cons, List.findSome?_cons,
        hSame x (by simp), ih]
      intro y hy
      exact hSame y (by simp [hy])

end List
