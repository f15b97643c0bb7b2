import SosKernel.Lib.SwapSweep

/-
  The pointer list of `lib/list.c`.

  Main declarations:
    * `ListT` and its operations
    * `ListT.visited`, `ListT.pending`
    * `pending_listRemove`, `pending_listNext`

  Only the elements below `size` are kept, so `size` is the
  length of `elems`.  Storage is unbounded here.
-/

------------------------------------------------------------
-- The List Object
------------------------------------------------------------

namespace SosKernel

namespace Sched

/-
  A `list_t`: the addresses of the object and of its pointer
  array, the elements below `size`, and the cursor.
-/
structure ListT where
  addr : Nat
  storage : Nat
  elems : List Nat
  capacity : Nat
  curr : Nat
deriving DecidableEq, Repr

def INITIAL_CAPACITY : Nat := 8

/- The `size` field. -/
def ListT.size (list : ListT) : Nat :=
  list.elems.length

/- A new list over freshly allocated memory. -/
def listNew (addr storage : Nat) : ListT where
  addr := addr
  storage := storage
  elems := []
  capacity := INITIAL_CAPACITY
  curr := 0

def listIsEmpty (list : ListT) : Bool :=
  list.size == 0

def listIsEnd (list : ListT) : Bool :=
  decide (list.size ≤ list.curr)

/- The element under the cursor, or null at the end. -/
def listCurrent (list : ListT) : Nat :=
  if list.curr < list.size then
    list.elems.getD list.curr 0
  else
    0

/- Advance the cursor and read the element it meets. -/
def listNext (list : ListT) : Nat × ListT :=
  let list := { list with curr := list.curr + 1 }
  (listCurrent list, list)

def listRewind (list : ListT) : ListT :=
  { list with curr := 0 }

def listPushBack (list : ListT) (ptr : Nat) : ListT :=
  { list with elems := list.elems ++ [ptr] }

/-
  Swap the current element with the last one and drop the
  last one.  The cursor stays where it is.
-/
def listRemove (list : ListT) : ListT :=
  if listIsEnd list then
    list
  else
    let last := list.elems.getD (list.size - 1) 0
    let current := list.elems.getD list.curr 0
    { list with
      elems :=
        ((list.elems.set (list.size - 1) current).set
          list.curr last).dropLast }

------------------------------------------------------------
-- The Cursor's View
------------------------------------------------------------

/- The elements before the cursor. -/
def ListT.visited (list : ListT) : List Nat :=
  list.elems.take list.curr

/- The elements from the cursor on. -/
def ListT.pending (list : ListT) : List Nat :=
  list.elems.drop list.curr

theorem ListT.visited_append_pending (list : ListT) :
    list.visited ++ list.pending = list.elems :=
  List.take_append_drop _ _

theorem ListT.mem_elems_iff
    {list : ListT}
    {p : Nat} :
    p ∈ list.elems ↔
      p ∈ list.visited ∨ p ∈ list.pending := by
  rw [← list.visited_append_pending, List.mem_append]

theorem listIsEmpty_iff {list : ListT} :
    listIsEmpty list = true ↔ list.elems = [] := by
  simp [listIsEmpty, ListT.size]

theorem listIsEnd_iff {list : ListT} :
    listIsEnd list = true ↔ list.pending = [] := by
  rw [listIsEnd, decide_eq_true_iff, ListT.pending,
    List.drop_eq_nil_iff, ListT.size]

theorem listIsEnd_eq_false_of_pending
    {list : ListT}
    {p : Nat}
    {rest : List Nat}
    (hPending : list.pending = p :: rest) :
    listIsEnd list = false := by
  rw [Bool.eq_false_iff]
  intro hEnd
  rw [listIsEnd_iff, hPending] at hEnd
  cases hEnd

theorem ListT.curr_lt_of_pending
    {list : ListT}
    {p : Nat}
    {rest : List Nat}
    (hPending : list.pending = p :: rest) :
    list.curr < list.elems.length := by
  have hLength := congrArg List.length hPending
  simp only [ListT.pending, List.length_drop,
    List.length_cons] at hLength
  omega

theorem listCurrent_of_pending
    {list : ListT}
    {p : Nat}
    {rest : List Nat}
    (hPending : list.pending = p :: rest) :
    listCurrent list = p := by
  have hLt := ListT.curr_lt_of_pending hPending
  have hHead : list.elems[list.curr]? = some p := by
    rw [← List.head?_drop]
    have hDrop : list.elems.drop list.curr = p :: rest :=
      hPending
    rw [hDrop, List.head?_cons]
  rw [listCurrent, ListT.size, if_pos hLt,
    List.getD_eq_getElem?_getD, hHead, Option.getD_some]

@[simp] theorem elems_listRewind (list : ListT) :
    (listRewind list).elems = list.elems := rfl

@[simp] theorem curr_listRewind (list : ListT) :
    (listRewind list).curr = 0 := rfl

@[simp] theorem visited_listRewind (list : ListT) :
    (listRewind list).visited = [] := rfl

@[simp] theorem pending_listRewind (list : ListT) :
    (listRewind list).pending = list.elems := rfl

@[simp] theorem elems_listNext (list : ListT) :
    (listNext list).2.elems = list.elems := rfl

@[simp] theorem curr_listNext (list : ListT) :
    (listNext list).2.curr = list.curr + 1 := rfl

theorem visited_listNext
    {list : ListT}
    {p : Nat}
    {rest : List Nat}
    (hPending : list.pending = p :: rest) :
    (listNext list).2.visited = list.visited ++ [p] := by
  have hHead : list.elems[list.curr]? = some p := by
    rw [← List.head?_drop]
    have hDrop : list.elems.drop list.curr = p :: rest :=
      hPending
    rw [hDrop, List.head?_cons]
  simp [ListT.visited, List.take_add_one, hHead]

theorem pending_listNext
    {list : ListT}
    {p : Nat}
    {rest : List Nat}
    (hPending : list.pending = p :: rest) :
    (listNext list).2.pending = rest := by
  have hDrop : list.elems.drop list.curr = p :: rest :=
    hPending
  simp only [ListT.pending, elems_listNext, curr_listNext]
  rw [← List.tail_drop, hDrop, List.tail_cons]

@[simp] theorem elems_listPushBack
    (list : ListT)
    (p : Nat) :
    (listPushBack list p).elems = list.elems ++ [p] := rfl

@[simp] theorem curr_listPushBack
    (list : ListT)
    (p : Nat) :
    (listPushBack list p).curr = list.curr := rfl

theorem visited_listPushBack
    {list : ListT}
    (p : Nat)
    (hCurr : list.curr ≤ list.elems.length) :
    (listPushBack list p).visited = list.visited := by
  simp [ListT.visited, List.take_append_of_le_length hCurr]

/-
  Removal keeps what the cursor has passed and moves the
  last element under the cursor.
-/
theorem elems_listRemove
    {list : ListT}
    {p : Nat}
    {rest : List Nat}
    (hPending : list.pending = p :: rest) :
    (listRemove list).elems =
      list.visited ++ rest.lastToFront := by
  have hNotEnd := listIsEnd_eq_false_of_pending hPending
  have hLt := ListT.curr_lt_of_pending hPending
  have hElems : list.elems = list.visited ++ p :: rest := by
    rw [← hPending, list.visited_append_pending]
  have hCurr : list.curr = list.visited.length := by
    simp only [ListT.visited, List.length_take]
    omega
  rw [listRemove, if_neg (by simp [hNotEnd])]
  simp only [ListT.size]
  generalize list.visited = visited at hElems hCurr
  rw [hElems, hCurr]
  induction rest using List.reverseRecOn with
  | nil => simp
  | append_singleton rest last _ =>
      have hLast :
          (visited ++ p :: (rest ++ [last])).length - 1 =
            (visited ++ p :: rest).length := by
        simp only [List.length_append, List.length_cons,
          List.length_nil]
        omega
      have hSplit :
          visited ++ p :: (rest ++ [last]) =
            (visited ++ p :: rest) ++ [last] := by
        simp
      rw [hLast, hSplit]
      simp only [List.getD_eq_getElem?_getD,
        List.length_append, List.length_cons,
        List.set_append, List.getElem?_append]
      simp [List.dropLast_cons_of_ne_nil]

@[simp] theorem curr_listRemove (list : ListT) :
    (listRemove list).curr = list.curr := by
  rw [listRemove]
  split <;> rfl

theorem visited_listRemove
    {list : ListT}
    {p : Nat}
    {rest : List Nat}
    (hPending : list.pending = p :: rest) :
    (listRemove list).visited = list.visited := by
  have hLt := ListT.curr_lt_of_pending hPending
  have hCurr : list.visited.length = list.curr := by
    simp only [ListT.visited, List.length_take]
    omega
  rw [ListT.visited, elems_listRemove hPending,
    curr_listRemove, ← hCurr, List.take_left]

theorem pending_listRemove
    {list : ListT}
    {p : Nat}
    {rest : List Nat}
    (hPending : list.pending = p :: rest) :
    (listRemove list).pending = rest.lastToFront := by
  have hLt := ListT.curr_lt_of_pending hPending
  have hCurr : list.visited.length = list.curr := by
    simp only [ListT.visited, List.length_take]
    omega
  rw [ListT.pending, elems_listRemove hPending,
    curr_listRemove, ← hCurr, List.drop_left]

end Sched

end SosKernel
