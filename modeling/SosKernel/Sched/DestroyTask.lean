import SosKernel.Sched.Safety

/-
  The calls of `kfree` that `destroy_task` makes.

  Main declarations:
    * `taskFrees`, `FreesTask`: what should be freed
    * `destroyThreads_fails`
    * `destroyTask_frees_iff`
    * `destroyTask_frees_null`
-/

------------------------------------------------------------
-- The Property
------------------------------------------------------------

namespace SosKernel

namespace Sched

/- What `destroy_directory` gives to `kfree`. -/
def directoryFrees : DirPtr → List Nat
| .kernelDirectory => []
| .heap d => [d]

/-
  The thread records of the list, its storage, the list, the
  directory and the task.
-/
def taskFrees (p : Nat) (task : Task) : List Nat :=
  task.threads.elems ++
    [task.threads.storage, task.threads.addr] ++
      directoryFrees task.pageDirectory ++ [p]

/- The call frees these records, each once, and no others. -/
def FreesTask (s : State) (p : Nat) (task : Task) : Prop :=
  ∃ freed,
    (EStateM.endState (destroyTask p) s).kfrees =
        freed ++ s.kfrees ∧
      freed.Perm (taskFrees p task)

------------------------------------------------------------
-- The Loop
------------------------------------------------------------

variable {s : State}
variable {p : Nat}
variable {task : Task}
variable {list : ListT}

/- A pointer that is no record is given to `kfree` too. -/
theorem run_destroyThread_none
    (hThread : s.threadAt p = none) :
    (destroyThread p).run s =
      .error (.badPointer p)
        { s with kfrees := p :: s.kfrees } := by
  simp [destroyThread, kfree, readThread, hThread]

/- The cursor past the last element reads null. -/
theorem listNext_of_pending
    {q : Nat}
    {rest : List Nat}
    (hPending : list.pending = q :: rest) :
    (listNext list).1 = rest.headD 0 ∧
      (listNext list).2.pending = rest := by
  have hRest := pending_listNext hPending
  refine ⟨?_, hRest⟩
  change listCurrent (listNext list).2 = _
  cases hCons : rest with
  | nil =>
      have hLength := congrArg List.length hRest
      simp only [ListT.pending, List.length_drop, hCons,
        List.length_nil] at hLength
      rw [listCurrent, if_neg]
      · rfl
      · rw [ListT.size]
        omega
  | cons r rs =>
      rw [hCons] at hRest
      exact listCurrent_of_pending hRest

/-
  From a list that is not at its end, the loop ends with a
  pointer that is no record: null, if not before.
-/
theorem destroyThreads_fails
    (fuel : Nat)
    (hNull : s.threadAt 0 = none)
    (hPending : list.pending ≠ []) :
    ∃ e s' freed,
      (destroyThreads fuel list).run s = .error e s' ∧
        s'.kfrees = freed ++ s.kfrees ∧
        freed.length ≤ list.pending.length := by
  induction fuel generalizing s list with
  | zero => exact ⟨_, s, [], rfl, rfl, Nat.zero_le _⟩
  | succ fuel ih =>
      cases hCons : list.pending with
      | nil => exact absurd hCons hPending
      | cons q rest =>
          have hNotEnd := listIsEnd_eq_false_of_pending hCons
          rcases listNext_of_pending hCons with
            ⟨hNext, hRest⟩
          unfold destroyThreads
          simp only [hNotEnd, Bool.false_eq_true, if_false,
            hNext]
          cases hThread : s.threadAt (rest.headD 0) with
          | none =>
              rw [EStateM.bind_of_error
                (run_destroyThread_none hThread)]
              refine ⟨_, _, [rest.headD 0], rfl, rfl, ?_⟩
              rw [List.length_singleton, List.length_cons]
              omega
          | some thread =>
              have hMore : rest ≠ [] := by
                rintro rfl
                rw [List.headD_nil, hNull] at hThread
                cases hThread
              have hNull' :
                  (s.reap (rest.headD 0)).threadAt 0 =
                    none := by
                change
                  Function.update s.threadAt _ none 0 = none
                rw [Function.update_apply]
                split
                · rfl
                · exact hNull
              rw [EStateM.bind_of_ok
                (run_destroyThread hThread)]
              rcases ih hNull' (hRest ▸ hMore) with
                ⟨e, s', freed, hRun, hFrees, hLength⟩
              refine ⟨e, s', freed ++ [rest.headD 0], hRun,
                ?_, ?_⟩
              · rw [hFrees, List.append_assoc]
                rfl
              · rw [hRest] at hLength
                rw [List.length_append,
                  List.length_singleton, List.length_cons]
                omega

------------------------------------------------------------
-- The Call
------------------------------------------------------------

/- A list with threads is not freed completely. -/
theorem not_freesTask
    (hTask : s.taskAt p = some task)
    (hNull : s.threadAt 0 = none)
    (hThreads : task.threads.elems ≠ []) :
    ¬ FreesTask s p task := by
  rintro ⟨freed, hFrees, hPerm⟩
  have hPending : (listRewind task.threads).pending ≠ [] :=
    hThreads
  have hLoop :=
    destroyThreads_fails ((listRewind task.threads).size + 1)
      hNull hPending
  rcases hLoop with ⟨e, s', freed', hRun, hFrees', hLength⟩
  have hEnd : EStateM.endState (destroyTask p) s = s' := by
    rw [EStateM.endState, destroyTask,
      EStateM.bind_of_ok (run_readTask hTask),
      EStateM.bind_of_error hRun]
  rw [hEnd, hFrees', List.append_cancel_right_eq] at hFrees
  have hSame := hPerm.length_eq
  rw [← hFrees, taskFrees, List.length_append,
    List.length_append, List.length_append] at hSame
  rw [pending_listRewind] at hLength
  simp only [List.length_cons, List.length_nil] at hSame
  omega

/- An empty list is, with the task and its directory. -/
theorem freesTask_heap
    {d : Nat}
    (hTask : s.taskAt p = some task)
    (hEmpty : task.threads.elems = [])
    (hDir : task.pageDirectory = .heap d) :
    FreesTask s p task := by
  refine
    ⟨[p, d, task.threads.addr, task.threads.storage], ?_, ?_⟩
  · rw [EStateM.endState,
      run_destroyTask_empty hTask hEmpty hDir]
    rfl
  · rw [taskFrees, hEmpty, hDir]
    exact (List.reverse_perm _).symm

/- The panic for the kernel's directory leaves the task. -/
theorem not_freesTask_kernel
    (hTask : s.taskAt p = some task)
    (hEmpty : task.threads.elems = [])
    (hDir : task.pageDirectory = .kernelDirectory) :
    ¬ FreesTask s p task := by
  rintro ⟨freed, hFrees, hPerm⟩
  have hEnd :
      (EStateM.endState (destroyTask p) s).kfrees =
        [task.threads.addr, task.threads.storage] ++
          s.kfrees := by
    rw [EStateM.endState, destroyTask,
      EStateM.bind_of_ok (run_readTask hTask)]
    simp [destroyThreads, listIsEnd, ListT.size, hEmpty,
      destroyDirectory, hDir, kfree, listRewind]
  rw [hEnd, List.append_cancel_right_eq] at hFrees
  have hSame := hPerm.length_eq
  rw [← hFrees, taskFrees, hEmpty, hDir] at hSame
  change 2 = 3 at hSame
  exact absurd hSame (by decide)

/-
  `destroy_task` frees what it should if and only if the
  task has no threads, and a directory of its own.
-/
theorem destroyTask_frees_iff
    (hTask : s.taskAt p = some task)
    (hNull : s.threadAt 0 = none) :
    FreesTask s p task ↔
      task.threads.elems = [] ∧
        task.pageDirectory ≠ .kernelDirectory := by
  constructor
  · intro hFrees
    have hEmpty : task.threads.elems = [] := by
      by_contra hThreads
      exact not_freesTask hTask hNull hThreads hFrees
    exact ⟨hEmpty, fun hDir =>
      not_freesTask_kernel hTask hEmpty hDir hFrees⟩
  · rintro ⟨hEmpty, hOwn⟩
    cases hDir : task.pageDirectory with
    | heap d => exact freesTask_heap hTask hEmpty hDir
    | kernelDirectory => exact absurd hDir hOwn

/- A task at 0x400, whose threads are running. -/
def soleTask (threads : List Nat) : Task where
  pageDirectory := .heap 0x300
  pid := 1
  threads :=
    { addr := 0x100
      storage := 0x200
      elems := threads
      capacity := INITIAL_CAPACITY
      curr := 0 }

def soleTaskState (threads : List Nat) : State :=
  { bareState [] [] with
    taskAt := fun p =>
      if p = 0x400 then some (soleTask threads) else none
    threadAt := fun p =>
      if p ∈ threads then
        some
          { saved := zeroContext
            esp0 := 0
            tid := 1
            stackSize := THREAD_STACK_SIZE
            state := .running }
      else
        none }

theorem soleTask_frees_iff :
    FreesTask (soleTaskState []) 0x400 (soleTask []) ↔
      (soleTask []).threads.elems = [] ∧
        (soleTask []).pageDirectory ≠ .kernelDirectory :=
  destroyTask_frees_iff rfl rfl

/-
  Of a task with one thread, null is given to `kfree` in
  place of the thread's record.
-/
theorem destroyTask_frees_null :
    let s := soleTaskState [0x500]
    s.taskAt 0x400 = some (soleTask [0x500]) ∧
      (s.threadAt 0x500).isSome ∧ s.threadAt 0 = none ∧
      (EStateM.endState (destroyTask 0x400) s).kfrees = [0] ∧
      ¬ FreesTask s 0x400 (soleTask [0x500]) := by
  intro s
  have hTask : s.taskAt 0x400 = some (soleTask [0x500]) := rfl
  have hNull : s.threadAt 0 = none := rfl
  exact ⟨hTask, rfl, hNull, rfl,
    not_freesTask hTask hNull (List.cons_ne_nil _ _)⟩

end Sched

end SosKernel
