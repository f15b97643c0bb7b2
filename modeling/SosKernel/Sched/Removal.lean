import SosKernel.Sched.Storage

/-
  The loop over a list that removes some of its elements, as
  `schedule` and `destroy_task` write it.

  Main declarations:
    * `Stored.contents`
    * `Stored.sweepFrom`, `Stored.sweep`: the loop, with the
      elements it examined
    * `sweepFrom_eq_some`
    * `sweep_examines_each_once`
-/

------------------------------------------------------------
-- The Loop
------------------------------------------------------------

namespace SosKernel

namespace Sched

namespace Stored

/- The elements below the size, in order. -/
def contents (list : Stored) : List Nat :=
  (List.range list.size).map list.elems

/-
  Until the end of the list, remove the current element if
  `P` holds of it and pass it otherwise.  `none` if the fuel
  runs out, and else the elements that `P` was asked about.
-/
def sweepFrom
    (P : Nat → Bool) :
    Nat → Stored → Option (List Nat × Stored)
| 0, _ => none
| fuel + 1, list =>
    if listIsEnd list then
      some ([], list)
    else
      let (ptr, list) := listCurrent list
      let list :=
        if P ptr then
          listRemove list
        else
          (listNext list).2
      match sweepFrom P fuel list with
      | none => none
      | some (examined, list) =>
          some (ptr :: examined, list)

def sweep
    (P : Nat → Bool)
    (fuel : Nat)
    (list : Stored) : Option (List Nat × Stored) :=
  sweepFrom P fuel (listRewind list)

------------------------------------------------------------
-- One Round
------------------------------------------------------------

variable {list : Stored}
variable {P : Nat → Bool}
variable {ptr : Nat}
variable {rest : List Nat}

/- What the scheduler's view of the list says of its cursor. -/
def visited (list : Stored) : List Nat :=
  (list.view 0 0).visited

def pending (list : Stored) : List Nat :=
  (list.view 0 0).pending

theorem visited_append_pending :
    list.visited ++ list.pending = list.contents :=
  (list.view 0 0).visited_append_pending

theorem length_contents :
    list.contents.length = list.size := by
  unfold contents
  rw [List.length_map, List.length_range]

theorem listIsEnd_iff_pending :
    listIsEnd list = true ↔ list.pending = [] := by
  have hView :
      Sched.listIsEnd (list.view 0 0) = listIsEnd list :=
    listIsEnd_view
  rw [← hView]
  exact Sched.listIsEnd_iff

theorem curr_lt_size
    (hPending : list.pending = ptr :: rest) :
    list.curr < list.size := by
  have hLt := ListT.curr_lt_of_pending hPending
  have hView : (list.view 0 0).elems.length = list.size :=
    size_view
  rw [hView] at hLt
  exact hLt

/- The two differ only in what was accessed. -/
structure Same (list list' : Stored) : Prop where
  elems : list'.elems = list.elems
  size : list'.size = list.size
  curr : list'.curr = list.curr

theorem Same.view
    {list' : Stored}
    (hSame : Same list list') :
    list'.visited = list.visited ∧
      list'.pending = list.pending := by
  unfold visited pending ListT.visited ListT.pending
  unfold Stored.view
  rw [hSame.elems, hSame.size, hSame.curr]
  exact ⟨rfl, rfl⟩

theorem listCurrent_of_pending
    (hPending : list.pending = ptr :: rest) :
    (listCurrent list).1 = ptr ∧
      Same list (listCurrent list).2 := by
  have hPtr := Sched.listCurrent_of_pending hPending
  rw [listCurrent_view] at hPtr
  refine ⟨hPtr, ?_⟩
  unfold listCurrent
  rw [if_pos (curr_lt_size hPending)]
  exact ⟨rfl, rfl, rfl⟩

/- Passing the current element. -/
theorem pass
    (hSize : list.size < 2 ^ 32)
    (hPending : list.pending = ptr :: rest) :
    (listNext list).2.visited = list.visited ++ [ptr] ∧
      (listNext list).2.pending = rest := by
  have hCurr := curr_lt_size hPending
  unfold visited pending
  rw [listNext_view (by omega)]
  exact ⟨visited_listNext hPending,
    pending_listNext hPending⟩

/- Removing the current element brings the last one here. -/
theorem drop
    (hSize : list.size < 2 ^ 32)
    (hPending : list.pending = ptr :: rest) :
    (listRemove list).visited = list.visited ∧
      (listRemove list).pending = rest.lastToFront := by
  unfold visited pending
  rw [listRemove_view hSize]
  exact ⟨visited_listRemove hPending,
    pending_listRemove hPending⟩

theorem size_listNext :
    (listNext list).2.size = list.size := by
  unfold listNext listCurrent
  split <;> rfl

theorem size_listRemove_le
    (hSize : list.size < 2 ^ 32) :
    (listRemove list).size ≤ list.size := by
  by_cases hEnd : listIsEnd list = true
  · rw [listRemove, if_pos hEnd]
  · have hLt : list.curr < list.size := by
      unfold listIsEnd at hEnd
      rw [decide_eq_true_iff] at hEnd
      omega
    rcases listRemove_of_lt hLt hSize with ⟨_, hRemove⟩
    rw [hRemove]
    exact Nat.sub_le list.size 1

/- The round with `ptr` under the cursor. -/
theorem sweepFrom_succ
    (fuel : Nat)
    (hPending : list.pending = ptr :: rest) :
    ∃ list',
      Same list list' ∧
        sweepFrom P (fuel + 1) list =
          (sweepFrom P fuel
            (if P ptr then
              listRemove list'
            else
              (listNext list').2)).map
            fun result => (ptr :: result.1, result.2) := by
  rcases listCurrent_of_pending hPending with ⟨hPtr, hSame⟩
  have hEnd : ¬ listIsEnd list = true := by
    rw [listIsEnd_iff_pending, hPending]
    exact List.cons_ne_nil ptr rest
  refine ⟨(listCurrent list).2, hSame, ?_⟩
  rw [sweepFrom, if_neg hEnd]
  dsimp only
  rw [hPtr]
  generalize sweepFrom P fuel _ = result
  cases result with
  | none => rfl
  | some result => rfl

/- More fuel does not change what the loop returns. -/
theorem sweepFrom_mono
    {fuel more : Nat}
    {result : List Nat × Stored}
    (hRun : sweepFrom P fuel list = some result)
    (hLe : fuel ≤ more) :
    sweepFrom P more list = some result := by
  induction fuel generalizing list more result with
  | zero => cases hRun
  | succ fuel ih =>
      cases more with
      | zero => omega
      | succ more =>
          cases hPending : list.pending with
          | nil =>
              have hEnd := listIsEnd_iff_pending.mpr hPending
              rw [sweepFrom, if_pos hEnd] at hRun ⊢
              exact hRun
          | cons ptr rest =>
              have hEnd : ¬ listIsEnd list = true := by
                rw [listIsEnd_iff_pending, hPending]
                exact List.cons_ne_nil ptr rest
              rw [sweepFrom, if_neg hEnd] at hRun ⊢
              dsimp only at hRun ⊢
              generalize hNext :
                (if P (listCurrent list).1 = true then
                  (listCurrent list).2.listRemove
                else
                  (listCurrent list).2.listNext.2) =
                    next at hRun ⊢
              cases hRest : sweepFrom P fuel next with
              | none =>
                  rw [hRest] at hRun
                  cases hRun
              | some result' =>
                  rw [hRest] at hRun
                  rw [ih hRest (by omega)]
                  exact hRun

------------------------------------------------------------
-- The Whole Sweep
------------------------------------------------------------

/-
  The loop is over when it has met what is pending once, and
  it keeps what `List.sweep` keeps.
-/
theorem sweepFrom_eq_some
    (fuel : Nat)
    (hSize : list.size < 2 ^ 32)
    (hFuel : list.pending.length < fuel) :
    ∃ examined list',
      sweepFrom P fuel list = some (examined, list') ∧
        examined.Perm list.pending ∧
        list'.contents =
          list.visited ++ list.pending.sweep P := by
  induction fuel generalizing list with
  | zero => omega
  | succ fuel ih =>
      cases hPending : list.pending with
      | nil =>
          have hEnd := listIsEnd_iff_pending.mpr hPending
          refine ⟨[], list, ?_, List.Perm.refl [], ?_⟩
          · rw [sweepFrom, if_pos hEnd]
          · rw [List.sweep_nil, ← hPending,
              visited_append_pending]
      | cons ptr rest =>
          rw [hPending, List.length_cons] at hFuel
          rcases sweepFrom_succ (P := P) fuel hPending with
            ⟨read, hSame, hRound⟩
          rcases hSame.view with ⟨hVisited, hRead⟩
          rw [hPending] at hRead
          have hReadSize : read.size < 2 ^ 32 :=
            hSame.size.trans_lt hSize
          rw [hRound]
          by_cases hP : P ptr = true
          · rcases drop hReadSize hRead with ⟨hPast, hRest⟩
            have hShort :
                (listRemove read).pending.length < fuel := by
              rw [hRest, List.length_lastToFront]
              omega
            rcases ih
              ((size_listRemove_le hReadSize).trans_lt hReadSize)
              hShort with
              ⟨examined, list', hRun, hPerm, hContents⟩
            refine ⟨ptr :: examined, list', ?_, ?_, ?_⟩
            · rw [if_pos hP, hRun]
              rfl
            · rw [hRest] at hPerm
              exact
                (hPerm.trans (List.lastToFront_perm rest)).cons
                  ptr
            · rw [hContents, hPast, hRest, hVisited,
                List.sweep_cons_of_pos hP]
          · rcases pass hReadSize hRead with ⟨hPast, hRest⟩
            have hShort :
                (listNext read).2.pending.length < fuel := by
              rw [hRest]
              omega
            rcases ih (size_listNext.trans_lt hReadSize)
              hShort with
              ⟨examined, list', hRun, hPerm, hContents⟩
            have hNot : P ptr = false := by
              rwa [Bool.not_eq_true] at hP
            refine ⟨ptr :: examined, list', ?_, ?_, ?_⟩
            · rw [if_neg hP, hRun]
              rfl
            · rw [hRest] at hPerm
              exact hPerm.cons ptr
            · rw [hContents, hPast, hRest, hVisited,
                List.sweep_cons_of_neg hNot,
                List.append_assoc]
              rfl

/-
  The sweep ends, it examines each element once, and those
  outside `P` are left.
-/
theorem sweep_examines_each_once
    (P : Nat → Bool)
    (list : Stored)
    (hSize : list.size < 2 ^ 32) :
    ∃ examined list',
      (∀ fuel, list.size < fuel →
        sweep P fuel list = some (examined, list')) ∧
        examined.Perm list.contents ∧
        list'.contents.Perm
          (list.contents.filter fun ptr => !P ptr) := by
  have hPending :
      (listRewind list).pending = list.contents :=
    pending_listRewind (list.view 0 0)
  have hFuel :
      (listRewind list).pending.length < list.size + 1 := by
    rw [hPending, length_contents]
    omega
  have hRewound : (listRewind list).size < 2 ^ 32 := hSize
  rcases sweepFrom_eq_some (P := P) (list.size + 1)
    hRewound hFuel with
    ⟨examined, list', hRun, hPerm, hContents⟩
  rw [hPending] at hPerm hContents
  refine ⟨examined, list', ?_, hPerm, ?_⟩
  · intro fuel hLt
    exact sweepFrom_mono hRun hLt
  · rw [hContents]
    exact List.sweep_perm_filter P list.contents

/- A list with 5 twice and 6, and the sweep for 5. -/
def twice5 : Stored :=
  listPushBack
    (listPushBack
      (listPushBack (Stored.listNew fun _ => 0) 5) 6) 5

theorem twice5_swept :
    ∃ examined list',
      (∀ fuel, 3 < fuel →
        sweep (· == 5) fuel twice5 = some (examined, list')) ∧
        examined.Perm [5, 6, 5] ∧
        list'.contents.Perm [6] :=
  sweep_examines_each_once (· == 5) twice5 (by decide)

end Stored

end Sched

end SosKernel
