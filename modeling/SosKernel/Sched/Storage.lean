import SosKernel.Layout
import SosKernel.Lib.Prefix
import SosKernel.Sched.Dying

/-
  The pointer array of a list, with the indices that the
  operations of `lib/list.c` read and write.

  Main declarations:
    * `Stored` and its operations
    * `Stored.view`: the list that the scheduler sees
    * `ListOp`, `Stored.runAll`
    * `inBounds_iff_pushesFit`
    * `Stored.listRemove_view` and the other views
    * `seventh_thread_past_storage`
-/

------------------------------------------------------------
-- The List Object in Memory
------------------------------------------------------------

namespace SosKernel

namespace Sched

/-
  A `list_t` with the memory behind its `elems` pointer.

  `elems i` is the word at `elems[i]`, whether it was
  allocated or not, and `allocated` is the number of
  pointers that `list_new` asked `kmalloc` for.  `accessed`
  has the indices that were read or written, last first.
-/
structure Stored where
  elems : Nat → Nat
  allocated : Nat
  capacity : Nat
  size : Nat
  curr : Nat
  accessed : List Nat

namespace Stored

/- Read `elems[i]`. -/
def load (list : Stored) (i : Nat) : Nat × Stored :=
  (list.elems i,
    { list with accessed := i :: list.accessed })

/- Write `elems[i]`. -/
def store (list : Stored) (i v : Nat) : Stored :=
  { list with
    elems := Function.update list.elems i v
    accessed := i :: list.accessed }

/-
  `list_new` over memory with arbitrary contents.  It asks
  for six pointers and records a capacity of eight.
-/
def listNew (elems : Nat → Nat) : Stored where
  elems := elems
  allocated := 6
  capacity := INITIAL_CAPACITY
  size := 0
  curr := 0
  accessed := []

def listIsEmpty (list : Stored) : Bool :=
  list.size == 0

def listIsEnd (list : Stored) : Bool :=
  decide (list.size ≤ list.curr)

def listCurrent (list : Stored) : Nat × Stored :=
  if list.curr < list.size then
    list.load list.curr
  else
    (0, list)

def listNext (list : Stored) : Nat × Stored :=
  listCurrent { list with curr := add32 list.curr 1 }

def listRewind (list : Stored) : Stored :=
  { list with curr := 0 }

def listCycNext (list : Stored) : Nat × Stored :=
  listNext (if listIsEnd list then listRewind list else list)

def listPushBack (list : Stored) (ptr : Nat) : Stored :=
  { list.store list.size ptr with
    size := add32 list.size 1 }

def listRemove (list : Stored) : Stored :=
  if listIsEnd list then
    list
  else
    let (tmp, list) := list.load (sub32 list.size 1)
    let (current, list) := list.load list.curr
    let list := list.store (sub32 list.size 1) current
    let list := list.store list.curr tmp
    { list with size := sub32 list.size 1 }

end Stored

------------------------------------------------------------
-- Runs
------------------------------------------------------------

/- The operations on a list that `list_new` has made. -/
inductive ListOp where
| isEmpty
| isEnd
| current
| next
| cycNext
| rewind
| pushBack (ptr : Nat)
| remove
deriving DecidableEq, Repr

/- The list after an operation. -/
def ListOp.run (list : Stored) : ListOp → Stored
| .isEmpty => list
| .isEnd => list
| .current => (Stored.listCurrent list).2
| .next => (Stored.listNext list).2
| .cycNext => (Stored.listCycNext list).2
| .rewind => Stored.listRewind list
| .pushBack ptr => Stored.listPushBack list ptr
| .remove => Stored.listRemove list

def Stored.runAll (list : Stored) (ops : List ListOp) :
    Stored :=
  ops.foldl ListOp.run list

/-
  Every index accessed so far was allocated, and the size is
  within the recorded capacity.
-/
structure Stored.InBounds (list : Stored) : Prop where
  accessed : ∀ i ∈ list.accessed, i < list.allocated
  size : list.size ≤ list.capacity

/- The operation does not push onto six elements or more. -/
def ListOp.Fits (list : Stored) : ListOp → Prop
| .pushBack _ => list.size < 6
| _ => True

/- Every operation of the run fits when its turn comes. -/
def PushesFit (list : Stored) (ops : List ListOp) : Prop :=
  AllFit ListOp.run ListOp.Fits list ops

------------------------------------------------------------
-- Bounds
------------------------------------------------------------

/- What every run keeps while its pushes fit. -/
structure Stored.Kept (list : Stored) : Prop where
  allocated : list.allocated = 6
  capacity : list.capacity = 8
  size : list.size ≤ 6
  accessed : ∀ i ∈ list.accessed, i < 6

variable {list : Stored}

theorem Stored.Kept.inBounds (hKept : list.Kept) :
    list.InBounds where
  accessed := by
    rw [hKept.allocated]
    exact hKept.accessed
  size := by
    rw [hKept.capacity]
    exact hKept.size.trans (by decide)

theorem Stored.kept_listNew (elems : Nat → Nat) :
    (Stored.listNew elems).Kept where
  allocated := rfl
  capacity := rfl
  size := Nat.zero_le 6
  accessed _ hi := absurd hi List.not_mem_nil

theorem Stored.Kept.withCurr
    (hKept : list.Kept)
    (curr : Nat) :
    Stored.Kept { list with curr := curr } :=
  ⟨hKept.allocated, hKept.capacity, hKept.size,
    hKept.accessed⟩

/- Reading under the cursor stays below the size. -/
theorem Stored.Kept.listCurrent (hKept : list.Kept) :
    (Stored.listCurrent list).2.Kept := by
  have hSize := hKept.size
  unfold Stored.listCurrent
  split
  · rename_i hCurr
    refine ⟨hKept.allocated, hKept.capacity, hSize, ?_⟩
    intro i hi
    rcases List.mem_cons.mp hi with rfl | hi
    · omega
    · exact hKept.accessed i hi
  · exact hKept

theorem Stored.Kept.listNext (hKept : list.Kept) :
    (Stored.listNext list).2.Kept :=
  (hKept.withCurr _).listCurrent

/- The removal reads and writes below the size. -/
theorem Stored.Kept.listRemove (hKept : list.Kept) :
    (Stored.listRemove list).Kept := by
  have hSize := hKept.size
  unfold Stored.listRemove
  split
  · exact hKept
  · rename_i hEnd
    simp only [Stored.listIsEnd, decide_eq_true_iff,
      not_le] at hEnd
    have hLast : sub32 list.size 1 = list.size - 1 :=
      sub32_of_le (by omega) (by omega)
    refine ⟨hKept.allocated, hKept.capacity, ?_, ?_⟩
    · simp only [Stored.store, Stored.load, hLast]
      omega
    · simp only [Stored.store, Stored.load, hLast,
        List.mem_cons]
      rintro i (rfl | rfl | rfl | rfl | hi)
      · exact hEnd.trans_le hSize
      · omega
      · exact hEnd.trans_le hSize
      · omega
      · exact hKept.accessed i hi

/- A push that fits writes into the allocation. -/
theorem Stored.Kept.listPushBack
    (hKept : list.Kept)
    (hFits : list.size < 6)
    (ptr : Nat) :
    (Stored.listPushBack list ptr).Kept := by
  have hSize : add32 list.size 1 = list.size + 1 :=
    add32_of_lt (by omega)
  refine ⟨hKept.allocated, hKept.capacity, ?_, ?_⟩
  · simp only [Stored.listPushBack, Stored.store, hSize]
    omega
  · intro i hi
    rcases List.mem_cons.mp hi with rfl | hi
    · exact hFits
    · exact hKept.accessed i hi

/- Every operation that fits keeps the invariant. -/
theorem Stored.Kept.run
    {op : ListOp}
    (hKept : list.Kept)
    (hFits : op.Fits list) :
    (op.run list).Kept := by
  cases op with
  | isEmpty => exact hKept
  | isEnd => exact hKept
  | current => exact hKept.listCurrent
  | next => exact hKept.listNext
  | cycNext =>
      rw [ListOp.run, Stored.listCycNext]
      split
      · exact (hKept.withCurr 0).listNext
      · exact hKept.listNext
  | rewind => exact hKept.withCurr 0
  | pushBack ptr => exact hKept.listPushBack hFits ptr
  | remove => exact hKept.listRemove

/- An operation that does not fit leaves the allocation. -/
theorem Stored.Kept.fits_of_inBounds
    {op : ListOp}
    (hKept : list.Kept)
    (hAfter : (op.run list).InBounds) :
    op.Fits list := by
  cases op with
  | pushBack ptr =>
      have hIndex :
          list.size < (Stored.listPushBack list ptr).allocated :=
        hAfter.accessed list.size (by
          simp [ListOp.run, Stored.listPushBack, Stored.store])
      have hSame :
          (Stored.listPushBack list ptr).allocated = 6 :=
        hKept.allocated
      rwa [hSame] at hIndex
  | _ => trivial

/-
  A run stays within the six allocated pointers and within
  the recorded capacity, in every state it goes through, if
  and only if each of its pushes finds less than six
  elements.
-/
theorem inBounds_iff_pushesFit
    (elems : Nat → Nat)
    (ops : List ListOp) :
    (∀ before, before <+: ops →
      ((Stored.listNew elems).runAll before).InBounds) ↔
      PushesFit (Stored.listNew elems) ops :=
  forall_prefix_iff_allFit
    (fun _ hKept => hKept.inBounds)
    (fun _ _ hKept hFits => hKept.run hFits)
    (fun _ _ hKept hAfter => hKept.fits_of_inBounds hAfter)
    (Stored.kept_listNew elems) ops

------------------------------------------------------------
-- The Scheduler's View
------------------------------------------------------------

/-
  The list as `sched/` sees it: the elements below the size
  of the object at `addr`, whose array is at `storage`.
-/
def Stored.view
    (list : Stored)
    (addr storage : Nat) : ListT where
  addr := addr
  storage := storage
  elems := (List.range list.size).map list.elems
  capacity := list.capacity
  curr := list.curr

variable {addr storage : Nat}

@[simp] theorem Stored.size_view :
    (list.view addr storage).size = list.size := by
  simp [Stored.view, ListT.size]

theorem Stored.elems_view_getD
    {i : Nat}
    (hi : i < list.size) :
    (list.view addr storage).elems.getD i 0 =
      list.elems i := by
  simp [Stored.view, List.getD_eq_getElem?_getD, hi]

theorem Stored.view_listNew (elems : Nat → Nat) :
    (Stored.listNew elems).view addr storage =
      Sched.listNew addr storage := rfl

theorem Stored.listIsEmpty_view :
    Sched.listIsEmpty (list.view addr storage) =
      Stored.listIsEmpty list := by
  rw [Sched.listIsEmpty, Stored.size_view,
    Stored.listIsEmpty]

theorem Stored.listIsEnd_view :
    Sched.listIsEnd (list.view addr storage) =
      Stored.listIsEnd list := by
  rw [Sched.listIsEnd, Stored.size_view, Stored.listIsEnd]
  rfl

theorem Stored.listCurrent_view :
    Sched.listCurrent (list.view addr storage) =
      (Stored.listCurrent list).1 := by
  have hCurr :
      (list.view addr storage).curr = list.curr := rfl
  rw [Sched.listCurrent, Stored.size_view, hCurr,
    Stored.listCurrent]
  split
  · rename_i hLt
    rw [Stored.elems_view_getD hLt]
    rfl
  · rfl

/- The cursor moves the same while it does not wrap. -/
theorem Stored.listNext_view
    (hCurr : list.curr + 1 < 2 ^ 32) :
    (Stored.listNext list).2.view addr storage =
      (Sched.listNext (list.view addr storage)).2 := by
  rw [Stored.listNext, Stored.listCurrent,
    add32_of_lt hCurr]
  split <;> rfl

theorem Stored.listPushBack_view
    (hSize : list.size + 1 < 2 ^ 32)
    (ptr : Nat) :
    (Stored.listPushBack list ptr).view addr storage =
      Sched.listPushBack (list.view addr storage) ptr := by
  have hElems :
      (List.range list.size).map
          (Function.update list.elems list.size ptr) =
        (List.range list.size).map list.elems := by
    apply List.map_congr_left
    intro i hi
    rw [List.mem_range] at hi
    exact Function.update_of_ne (by omega) _ _
  simp [Stored.view, Stored.listPushBack, Stored.store,
    Sched.listPushBack, add32_of_lt hSize,
    List.range_succ, hElems]

/- The removal, with the index of the last element worked out. -/
theorem Stored.listRemove_of_lt
    (hCurr : list.curr < list.size)
    (hSize : list.size < 2 ^ 32) :
    ∃ accessed, Stored.listRemove list =
      { list with
        elems :=
          Function.update
            (Function.update list.elems (list.size - 1)
              (list.elems list.curr))
            list.curr (list.elems (list.size - 1))
        size := list.size - 1
        accessed := accessed } := by
  have hLast : sub32 list.size 1 = list.size - 1 :=
    sub32_of_le (by omega) hSize
  have hEnd : ¬ Stored.listIsEnd list = true := by
    simp only [Stored.listIsEnd, decide_eq_true_iff]
    omega
  rw [Stored.listRemove, if_neg hEnd]
  simp only [Stored.load, Stored.store, hLast]
  exact ⟨_, rfl⟩

/- Swapping with the last element, seen from the scheduler. -/
theorem Stored.listRemove_view
    (hSize : list.size < 2 ^ 32) :
    (Stored.listRemove list).view addr storage =
      Sched.listRemove (list.view addr storage) := by
  by_cases hEnd : Stored.listIsEnd list = true
  · rw [Stored.listRemove, if_pos hEnd, Sched.listRemove,
      Stored.listIsEnd_view, if_pos hEnd]
  · have hLt : list.curr < list.size := by
      simp only [Stored.listIsEnd, decide_eq_true_iff,
        not_le] at hEnd
      exact hEnd
    have hCurr :
        (list.view addr storage).curr = list.curr := rfl
    rcases Stored.listRemove_of_lt hLt hSize with ⟨_, hRemove⟩
    rw [hRemove, Sched.listRemove, Stored.listIsEnd_view,
      if_neg hEnd, Stored.size_view, hCurr,
      Stored.elems_view_getD (by omega),
      Stored.elems_view_getD hLt]
    simp only [Stored.view, ListT.mk.injEq, true_and,
      and_true]
    apply List.ext_getElem
    · simp
    · intro i hi _
      simp only [List.length_map, List.length_range] at hi
      simp only [List.getElem_map, List.getElem_range,
        List.getElem_dropLast, List.getElem_set,
        Function.update_apply]
      by_cases hSame : list.curr = i
      · simp [hSame]
      · have hBelow : list.size - 1 ≠ i := by omega
        simp [hSame, hBelow, Ne.symm hSame, hBelow.symm]

------------------------------------------------------------
-- Any Number of Threads
------------------------------------------------------------

/- A heap that has room for the record starts the thread. -/
theorem exists_run_execThread
    (s : State)
    {task : Task}
    {p : Nat}
    {rest : List Nat}
    (stack : Nat)
    (hKmallocs : s.kmallocs = p :: rest)
    (hNonnull : p ≠ 0)
    (hFresh : s.threadAt p = none)
    (hTask : s.taskAt s.currentTask = some task) :
    ∃ s', (Call.run 0 (.execThread stack)).run s =
      .ok () s' := by
  have hUsable :
      ¬ (p = 0 ∨ (s.threadAt p).isSome = true) := by
    simp [hNonnull, hFresh]
  refine ⟨_, EStateM.run_endState ?_⟩
  simp [Call.run, execThread, createThread, kmallocThread,
    kmalloc, writeThread, taskAddThread, readTask,
    writeTaskList, writeTask, hKmallocs, hUsable, hTask,
    EStateM.Result.isOk]

/-
  Whatever `n` is, the scheduler reaches a state in which
  the list of the current task has `n + 1` threads.
-/
theorem reachable_crowd (n : Nat) :
    ∃ s task, Reachable Booted (Step AnyCall) s ∧
      s.taskAt s.currentTask = some task ∧
      task.threads.elems.length = n + 1 := by
  -- all addresses from `top` on are free for new records
  have hCrowd :
      ∃ s task top, Reachable Booted (Step AnyCall) s ∧
        s.taskAt s.currentTask = some task ∧
        task.threads.elems.length = n + 1 ∧
        top ≠ 0 ∧
        ∀ q, top ≤ q → s.threadAt q = none := by
    induction n with
    | zero =>
        rcases booted_startedState.exists with
          ⟨p, t, thread, task, tasks, hNonnull, -, -, -,
            hElems, -, -, -, hThreadAt, hTaskAt, -, -,
            hCurrent, -⟩
        refine ⟨startedState, task, p + 1,
          .start booted_startedState, ?_, ?_, by omega, ?_⟩
        · rw [hTaskAt, hCurrent, if_pos rfl]
        · rw [hElems]
          rfl
        · intro q hq
          rw [hThreadAt, if_neg (by omega)]
    | succ n ih =>
        rcases ih with ⟨s, task, top, hReach, hTask, hLength,
          hTop, hFree⟩
        have hSupply :
            Reachable Booted (Step AnyCall)
              { s with kmallocs := [top] } :=
          .step hReach (.supply s.regs [top] s.frames)
        rcases exists_run_execThread
          { s with kmallocs := [top] } 0x8000 rfl hTop
          (hFree top (Nat.le_refl top)) hTask with
          ⟨s', hRun⟩
        have hExec := hRun
        rw [Call.run, EStateM.bind_eq_ok_iff] at hExec
        rcases hExec with ⟨_, sExec, hExec, hEnd⟩
        rcases eq_of_run_pure hEnd with rfl
        rcases execThread_ok hExec with
          ⟨p, thread, owner, _, _, _, hOwner, hSame⟩
        have hOwner : owner = task := by
          rw [hTask] at hOwner
          exact (Option.some.inj hOwner).symm
        subst hOwner
        refine ⟨_, { owner with
            threads := listPushBack owner.threads p },
          max top (p + 1),
          .step hSupply (.call _ 0 trivial hRun), ?_, ?_,
          by omega, ?_⟩
        · rw [hSame.taskAt, hSame.currentTask]
          exact Function.update_self _ _ _
        · simp [hLength]
        · intro q hq
          rw [hSame.threadAt]
          exact (Function.update_of_ne (by omega) _ _).trans
            (hFree q (by omega))
  rcases hCrowd with ⟨s, task, _, hReach, hTask, hLength, _⟩
  exact ⟨s, task, hReach, hTask, hLength⟩

/-
  The scheduler reaches a state in which a task has seven
  threads.  The last of the seven pushes that build such a
  list writes `elems[6]`, past the six pointers that were
  allocated.
-/
theorem seventh_thread_past_storage :
    let pushes :=
      .pushBack 1 :: .next ::
        [2, 3, 4, 5, 6, 7].map ListOp.pushBack
    let list := (Stored.listNew fun _ => 0).runAll pushes
    (∃ s task, Reachable Booted (Step AnyCall) s ∧
      s.taskAt s.currentTask = some task ∧
      task.threads.elems.length = 7) ∧
    list.size = 7 ∧ 6 ∈ list.accessed ∧
    list.allocated = 6 ∧ ¬ list.InBounds := by
  refine ⟨reachable_crowd 6, by decide, by decide, rfl, ?_⟩
  intro hBounds
  have hIndex := hBounds.accessed 6 (by decide)
  exact absurd hIndex (by decide)

end Sched

end SosKernel
