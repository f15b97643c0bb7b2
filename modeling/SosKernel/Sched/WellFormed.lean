import SosKernel.Sched.Steps

/-
  The structural invariant of the scheduler's lists, and how
  each update of `schedule` keeps it.

  Main declarations:
    * `Wf`
    * `Wf.withList_of_elems_eq`, `Wf.withTasks_of_elems_eq`
    * `Wf.reap`, `Wf.bury`
-/

------------------------------------------------------------
-- The Invariant
------------------------------------------------------------

namespace SosKernel

namespace Sched

/- The thread `p` is in the list of the task at `t`. -/
def State.Holds (s : State) (t p : Nat) : Prop :=
  ∃ task, s.taskAt t = some task ∧ p ∈ task.threads.elems

/-
  The records and the lists agree: the task list holds the
  live tasks, each once, the kernel task first; the thread
  lists hold the live threads, each once; every task has a
  live directory of its own.
-/
structure Wf (s : State) (tasks : ListT) : Prop where
  tasksEq : s.tasks = some tasks
  tasksCurr : tasks.curr ≤ tasks.elems.length
  tasksNodup : tasks.elems.Nodup
  tasksHead : tasks.elems.head? = some s.kernelTask
  taskLive : ∀ t, t ∈ tasks.elems ↔ (s.taskAt t).isSome
  taskNonnull : s.taskAt 0 = none
  threadNonnull : s.threadAt 0 = none
  listCurr :
    ∀ t task, s.taskAt t = some task →
      task.threads.curr ≤ task.threads.elems.length
  listNodup :
    ∀ t task, s.taskAt t = some task →
      task.threads.elems.Nodup
  threadLive :
    ∀ p, (s.threadAt p).isSome ↔ ∃ t, s.Holds t p
  holdsUnique :
    ∀ t t' p, s.Holds t p → s.Holds t' p → t = t'
  kernelDir :
    ∀ t task, s.taskAt t = some task →
      (task.pageDirectory = .kernelDirectory ↔
        t = s.kernelTask)
  dirLive :
    ∀ t task, s.taskAt t = some task →
      (s.dirAt task.pageDirectory).isSome
  dirUnique :
    ∀ t t' task task', s.taskAt t = some task →
      s.taskAt t' = some task' →
      task.pageDirectory = task'.pageDirectory → t = t'

namespace Wf

variable {s : State}
variable {tasks : ListT}

/- A task of the list has a record. -/
theorem exists_task
    (hWf : Wf s tasks)
    {t : Nat}
    (ht : t ∈ tasks.elems) :
    ∃ task, s.taskAt t = some task :=
  Option.isSome_iff_exists.mp ((hWf.taskLive t).mp ht)

/- A thread of a list has a record. -/
theorem exists_thread
    (hWf : Wf s tasks)
    {t p : Nat}
    (hHolds : s.Holds t p) :
    ∃ thread, s.threadAt p = some thread :=
  Option.isSome_iff_exists.mp
    ((hWf.threadLive p).mpr ⟨t, hHolds⟩)

theorem mem_tasks
    (hWf : Wf s tasks)
    {t : Nat}
    {task : Task}
    (hTask : s.taskAt t = some task) :
    t ∈ tasks.elems := by
  rw [hWf.taskLive, hTask]
  rfl

theorem ne_zero_of_task
    (hWf : Wf s tasks)
    {t : Nat}
    {task : Task}
    (hTask : s.taskAt t = some task) :
    t ≠ 0 := by
  rintro rfl
  rw [hWf.taskNonnull] at hTask
  cases hTask

theorem kernelTask_mem (hWf : Wf s tasks) :
    s.kernelTask ∈ tasks.elems :=
  List.mem_of_head? hWf.tasksHead

theorem tasks_ne_nil (hWf : Wf s tasks) :
    tasks.elems ≠ [] :=
  List.ne_nil_of_mem hWf.kernelTask_mem

/- Every task but the kernel one has a heap directory. -/
theorem exists_heapDir
    (hWf : Wf s tasks)
    {t : Nat}
    {task : Task}
    (hTask : s.taskAt t = some task)
    (hNotKernel : t ≠ s.kernelTask) :
    ∃ d, task.pageDirectory = .heap d := by
  cases hDir : task.pageDirectory with
  | kernelDirectory =>
      exact absurd ((hWf.kernelDir t task hTask).mp hDir)
        hNotKernel
  | heap d => exact ⟨d, rfl⟩

end Wf

------------------------------------------------------------
-- Cursor Moves
------------------------------------------------------------

@[simp] theorem withList_taskAt
    (s : State)
    (t : Nat)
    (task : Task)
    (list : ListT) :
    (s.withList t task list).taskAt =
      Function.update s.taskAt t
        (some { task with threads := list }) := rfl

theorem withList_taskAt_self
    (s : State)
    (t : Nat)
    (task : Task)
    (list : ListT) :
    (s.withList t task list).taskAt t =
      some { task with threads := list } := by
  simp

/- A list update with the same elements is not observed. -/
theorem holds_withList_of_elems_eq
    {s : State}
    {t : Nat}
    {task : Task}
    {list : ListT}
    (hTask : s.taskAt t = some task)
    (hElems : list.elems = task.threads.elems)
    (u p : Nat) :
    (s.withList t task list).Holds u p ↔ s.Holds u p := by
  unfold State.Holds
  by_cases hu : u = t
  · subst u
    simp [hTask, hElems]
  · simp [hu]

/-
  The record of any task after a list update: the same
  record, or the updated one.
-/
theorem exists_of_withList_taskAt
    {s : State}
    {t u : Nat}
    {task task' : Task}
    {list : ListT}
    (hTask : s.taskAt t = some task)
    (hAfter : (s.withList t task list).taskAt u = some task') :
    ∃ before, s.taskAt u = some before ∧
      task'.pageDirectory = before.pageDirectory ∧
      task'.pid = before.pid ∧
      (u = t ∧ task'.threads = list ∨
        u ≠ t ∧ task' = before) := by
  by_cases hu : u = t
  · subst u
    rw [withList_taskAt_self] at hAfter
    cases hAfter
    exact ⟨task, hTask, rfl, rfl, .inl ⟨rfl, rfl⟩⟩
  · rw [withList_taskAt, Function.update_of_ne hu] at hAfter
    exact ⟨task', hAfter, rfl, rfl, .inr ⟨hu, rfl⟩⟩

theorem isSome_withList_taskAt
    {s : State}
    {t : Nat}
    {task : Task}
    (list : ListT)
    (hTask : s.taskAt t = some task)
    (u : Nat) :
    ((s.withList t task list).taskAt u).isSome =
      (s.taskAt u).isSome := by
  by_cases hu : u = t
  · subst u
    simp [hTask]
  · simp [hu]

/- Moving a thread cursor keeps the invariant. -/
theorem Wf.withList_of_elems_eq
    {s : State}
    {tasks list : ListT}
    {t : Nat}
    {task : Task}
    (hWf : Wf s tasks)
    (hTask : s.taskAt t = some task)
    (hElems : list.elems = task.threads.elems)
    (hCurr : list.curr ≤ list.elems.length) :
    Wf (s.withList t task list) tasks where
  tasksEq := hWf.tasksEq
  tasksCurr := hWf.tasksCurr
  tasksNodup := hWf.tasksNodup
  tasksHead := hWf.tasksHead
  taskLive u := by
    rw [isSome_withList_taskAt list hTask]
    exact hWf.taskLive u
  taskNonnull := by
    have hNone := isSome_withList_taskAt list hTask 0
    rw [hWf.taskNonnull] at hNone
    simpa using hNone
  threadNonnull := hWf.threadNonnull
  listCurr u task' hAfter := by
    rcases exists_of_withList_taskAt hTask hAfter with
      ⟨before, hBefore, _, _, hCase⟩
    rcases hCase with ⟨_, hList⟩ | ⟨_, rfl⟩
    · rw [hList]
      exact hCurr
    · exact hWf.listCurr u _ hBefore
  listNodup u task' hAfter := by
    rcases exists_of_withList_taskAt hTask hAfter with
      ⟨before, hBefore, _, _, hCase⟩
    rcases hCase with ⟨rfl, hList⟩ | ⟨_, rfl⟩
    · rw [hList, hElems]
      exact hWf.listNodup u task hTask
    · exact hWf.listNodup u _ hBefore
  threadLive p := by
    simp only [holds_withList_of_elems_eq hTask hElems]
    exact hWf.threadLive p
  holdsUnique u u' p := by
    simp only [holds_withList_of_elems_eq hTask hElems]
    exact hWf.holdsUnique u u' p
  kernelDir u task' hAfter := by
    rcases exists_of_withList_taskAt hTask hAfter with
      ⟨before, hBefore, hDir, _, _⟩
    rw [hDir]
    exact hWf.kernelDir u before hBefore
  dirLive u task' hAfter := by
    rcases exists_of_withList_taskAt hTask hAfter with
      ⟨before, hBefore, hDir, _, _⟩
    rw [hDir]
    exact hWf.dirLive u before hBefore
  dirUnique u u' task₁ task₂ h₁ h₂ hEq := by
    rcases exists_of_withList_taskAt hTask h₁ with
      ⟨before₁, hBefore₁, hDir₁, _, _⟩
    rcases exists_of_withList_taskAt hTask h₂ with
      ⟨before₂, hBefore₂, hDir₂, _, _⟩
    rw [hDir₁, hDir₂] at hEq
    exact hWf.dirUnique u u' _ _ hBefore₁ hBefore₂ hEq

/- Moving the task cursor keeps the invariant. -/
theorem Wf.withTasks_of_elems_eq
    {s : State}
    {tasks tasks' : ListT}
    (hWf : Wf s tasks)
    (hElems : tasks'.elems = tasks.elems)
    (hCurr : tasks'.curr ≤ tasks'.elems.length) :
    Wf (s.withTasks tasks') tasks' where
  tasksEq := rfl
  tasksCurr := hCurr
  tasksNodup := by
    rw [hElems]
    exact hWf.tasksNodup
  tasksHead := by
    rw [hElems]
    exact hWf.tasksHead
  taskLive u := by
    rw [hElems]
    exact hWf.taskLive u
  taskNonnull := hWf.taskNonnull
  threadNonnull := hWf.threadNonnull
  listCurr := hWf.listCurr
  listNodup := hWf.listNodup
  threadLive := hWf.threadLive
  holdsUnique := hWf.holdsUnique
  kernelDir := hWf.kernelDir
  dirLive := hWf.dirLive
  dirUnique := hWf.dirUnique

/- The static list pointer is not part of the invariant. -/
theorem Wf.withThreads
    {s : State}
    {tasks : ListT}
    (hWf : Wf s tasks)
    (t : Nat) :
    Wf { s with threads := t } tasks :=
  { hWf with }

------------------------------------------------------------
-- Destroying a Dying Thread
------------------------------------------------------------

/-
  What the lists hold after the thread under a cursor has
  been removed.
-/
theorem holds_reap_iff
    {s : State}
    {tasks : ListT}
    {t p : Nat}
    {task : Task}
    {rest : List Nat}
    (hWf : Wf s tasks)
    (hTask : s.taskAt t = some task)
    (hPending : task.threads.pending = p :: rest)
    (u q : Nat) :
    ((s.withList t task (listRemove task.threads)).reap
        p).Holds u q ↔
      s.Holds u q ∧ q ≠ p := by
  have hElems : task.threads.elems =
      task.threads.visited ++ p :: rest := by
    rw [← hPending, task.threads.visited_append_pending]
  have hNodup := hWf.listNodup t task hTask
  rw [hElems] at hNodup
  have hFresh :
      p ∉ task.threads.visited ∧ p ∉ rest := by
    simp only [List.nodup_append, List.nodup_cons] at hNodup
    refine ⟨?_, hNodup.2.1.1⟩
    intro hp
    exact hNodup.2.2 p hp p (by simp) rfl
  unfold State.Holds State.reap
  by_cases hu : u = t
  · subst u
    simp only [withList_taskAt, Function.update_self,
      Option.some.injEq, exists_eq_left', hTask,
      elems_listRemove hPending, hElems,
      List.mem_append, List.mem_cons,
      List.mem_lastToFront]
    constructor
    · rintro (hq | hq)
      · exact ⟨.inl hq, fun h => hFresh.1 (h ▸ hq)⟩
      · exact ⟨.inr (.inr hq), fun h => hFresh.2 (h ▸ hq)⟩
    · rintro ⟨hq | hq | hq, hNe⟩
      · exact .inl hq
      · exact absurd hq hNe
      · exact .inr hq
  · simp only [withList_taskAt, Function.update_of_ne hu]
    constructor
    · rintro ⟨task', hTask', hq⟩
      refine ⟨⟨task', hTask', hq⟩, ?_⟩
      rintro rfl
      exact hu (hWf.holdsUnique u t q ⟨task', hTask', hq⟩
        ⟨task, hTask, by simp [hElems]⟩)
    · rintro ⟨hHolds, _⟩
      exact hHolds

/- Destroying the thread under a cursor keeps the lists. -/
theorem Wf.reap
    {s : State}
    {tasks : ListT}
    {t p : Nat}
    {task : Task}
    {rest : List Nat}
    (hWf : Wf s tasks)
    (hTask : s.taskAt t = some task)
    (hPending : task.threads.pending = p :: rest) :
    Wf ((s.withList t task
        (listRemove task.threads)).reap p) tasks where
  tasksEq := hWf.tasksEq
  tasksCurr := hWf.tasksCurr
  tasksNodup := hWf.tasksNodup
  tasksHead := hWf.tasksHead
  taskLive u := by
    have hSome := isSome_withList_taskAt
      (listRemove task.threads) hTask u
    exact (hWf.taskLive u).trans (by rw [← hSome]; rfl)
  taskNonnull := by
    have hNone := isSome_withList_taskAt
      (listRemove task.threads) hTask 0
    rw [hWf.taskNonnull] at hNone
    simpa [State.reap] using hNone
  threadNonnull := by
    simp only [State.reap, State.withList,
      Function.update_apply]
    split
    · rfl
    · exact hWf.threadNonnull
  listCurr u task' hAfter := by
    rcases exists_of_withList_taskAt hTask hAfter with
      ⟨before, hBefore, _, _, hCase⟩
    rcases hCase with ⟨_, hList⟩ | ⟨_, rfl⟩
    · have hLt := ListT.curr_lt_of_pending hPending
      have hVisited :
          task.threads.visited.length =
            task.threads.curr := by
        simp only [ListT.visited, List.length_take]
        omega
      rw [hList, elems_listRemove hPending,
        curr_listRemove, List.length_append, hVisited]
      omega
    · exact hWf.listCurr u _ hBefore
  listNodup u task' hAfter := by
    rcases exists_of_withList_taskAt hTask hAfter with
      ⟨before, hBefore, _, _, hCase⟩
    rcases hCase with ⟨_, hList⟩ | ⟨_, rfl⟩
    · have hNodup := hWf.listNodup t task hTask
      rw [← task.threads.visited_append_pending,
        hPending] at hNodup
      rw [hList, elems_listRemove hPending]
      have hPerm :
          (task.threads.visited ++ rest.lastToFront).Perm
            (task.threads.visited ++ rest) :=
        (List.lastToFront_perm rest).append_left _
      rw [hPerm.nodup_iff]
      exact hNodup.sublist
        ((List.sublist_cons_self p rest).append_left _)
    · exact hWf.listNodup u _ hBefore
  threadLive q := by
    simp only [holds_reap_iff hWf hTask hPending]
    by_cases hq : q = p
    · subst q
      simp [State.reap]
    · simp only [State.reap, State.withList, ne_eq, hq,
        not_false_eq_true, Function.update_of_ne,
        and_true]
      exact hWf.threadLive q
  holdsUnique u u' q := by
    simp only [holds_reap_iff hWf hTask hPending]
    rintro ⟨hu, _⟩ ⟨hu', _⟩
    exact hWf.holdsUnique u u' q hu hu'
  kernelDir u task' hAfter := by
    rcases exists_of_withList_taskAt hTask hAfter with
      ⟨before, hBefore, hDir, _, _⟩
    rw [hDir]
    exact hWf.kernelDir u before hBefore
  dirLive u task' hAfter := by
    rcases exists_of_withList_taskAt hTask hAfter with
      ⟨before, hBefore, hDir, _, _⟩
    rw [hDir]
    exact hWf.dirLive u before hBefore
  dirUnique u u' task₁ task₂ h₁ h₂ hEq := by
    rcases exists_of_withList_taskAt hTask h₁ with
      ⟨before₁, hBefore₁, hDir₁, _, _⟩
    rcases exists_of_withList_taskAt hTask h₂ with
      ⟨before₂, hBefore₂, hDir₂, _, _⟩
    rw [hDir₁, hDir₂] at hEq
    exact hWf.dirUnique u u' _ _ hBefore₁ hBefore₂ hEq

------------------------------------------------------------
-- Destroying an Empty Task
------------------------------------------------------------

/-
  The records after an empty task has been destroyed: its
  own is gone, the others are as before.
-/
theorem taskAt_bury_iff
    {s : State}
    {t d u : Nat}
    {task task' : Task}
    {tasks : ListT} :
    ((s.withTasks tasks).bury t task d).taskAt u =
        some task' ↔
      u ≠ t ∧ s.taskAt u = some task' := by
  simp only [State.bury, State.withTasks,
    Function.update_apply]
  by_cases hu : u = t
  · simp [hu]
  · simp [hu]

/- Destroying the empty task under the cursor. -/
theorem Wf.bury
    {s : State}
    {tasks : ListT}
    {t d : Nat}
    {task : Task}
    {rest : List Nat}
    (hWf : Wf s tasks)
    (hPending : tasks.pending = t :: rest)
    (hTask : s.taskAt t = some task)
    (hEmpty : task.threads.elems = [])
    (hDir : task.pageDirectory = .heap d) :
    Wf ((s.withTasks (listRemove tasks)).bury t task d)
      (listRemove tasks) := by
  have hElems : tasks.elems =
      tasks.visited ++ t :: rest := by
    rw [← hPending, tasks.visited_append_pending]
  have hNotKernel : t ≠ s.kernelTask := by
    intro hKernel
    rw [(hWf.kernelDir t task hTask).mpr hKernel] at hDir
    cases hDir
  have hNodup := hWf.tasksNodup
  rw [hElems] at hNodup
  have hPerm :
      (tasks.visited ++ rest.lastToFront).Perm
        (tasks.visited ++ rest) :=
    (List.lastToFront_perm rest).append_left _
  have hFresh : t ∉ tasks.visited ++ rest := by
    simp only [List.nodup_append, List.nodup_cons] at hNodup
    intro ht
    rcases List.mem_append.mp ht with ht | ht
    · exact hNodup.2.2 t ht t (by simp) rfl
    · exact hNodup.2.1.1 ht
  have hHolds :
      ∀ u p,
        ((s.withTasks (listRemove tasks)).bury t task
            d).Holds u p ↔
          s.Holds u p := by
    intro u p
    unfold State.Holds
    simp only [taskAt_bury_iff]
    constructor
    · rintro ⟨task', ⟨_, hTask'⟩, hp⟩
      exact ⟨task', hTask', hp⟩
    · rintro ⟨task', hTask', hp⟩
      refine ⟨task', ⟨?_, hTask'⟩, hp⟩
      rintro rfl
      rw [hTask] at hTask'
      cases hTask'
      rw [hEmpty] at hp
      cases hp
  refine
    { tasksEq := rfl
      tasksCurr := ?_
      tasksNodup := ?_
      tasksHead := ?_
      taskLive := ?_
      taskNonnull := ?_
      threadNonnull := hWf.threadNonnull
      listCurr := ?_
      listNodup := ?_
      threadLive := ?_
      holdsUnique := ?_
      kernelDir := ?_
      dirLive := ?_
      dirUnique := ?_ }
  · have hLt := ListT.curr_lt_of_pending hPending
    have hVisited : tasks.visited.length = tasks.curr := by
      simp only [ListT.visited, List.length_take]
      omega
    rw [elems_listRemove hPending, curr_listRemove,
      List.length_append, hVisited]
    omega
  · rw [elems_listRemove hPending, hPerm.nodup_iff]
    exact hNodup.sublist
      ((List.sublist_cons_self t rest).append_left _)
  · have hHead := hWf.tasksHead
    rw [hElems] at hHead
    rw [elems_listRemove hPending]
    cases hVisited : tasks.visited with
    | nil =>
        rw [hVisited] at hHead
        simp only [List.nil_append, List.head?_cons,
          Option.some.injEq] at hHead
        exact absurd hHead hNotKernel
    | cons x xs =>
        rw [hVisited] at hHead
        exact hHead
  · intro u
    rw [elems_listRemove hPending, hPerm.mem_iff,
      Option.isSome_iff_exists]
    simp only [taskAt_bury_iff]
    have hLive := hWf.taskLive u
    rw [hElems, Option.isSome_iff_exists] at hLive
    constructor
    · intro hu
      have hNe : u ≠ t := by
        rintro rfl
        exact hFresh hu
      have hOld : u ∈ tasks.visited ++ t :: rest := by
        simp only [List.mem_append, List.mem_cons] at hu ⊢
        tauto
      rcases hLive.mp hOld with ⟨task', hTask'⟩
      exact ⟨task', hNe, hTask'⟩
    · rintro ⟨task', hNe, hTask'⟩
      have hOld := hLive.mpr ⟨task', hTask'⟩
      simp only [List.mem_append, List.mem_cons] at hOld ⊢
      tauto
  · rw [Option.eq_none_iff_forall_ne_some]
    intro task' hTask'
    have hOld := (taskAt_bury_iff.mp hTask').2
    rw [hWf.taskNonnull] at hOld
    cases hOld
  · intro u task' hTask'
    exact hWf.listCurr u task' (taskAt_bury_iff.mp hTask').2
  · intro u task' hTask'
    exact hWf.listNodup u task' (taskAt_bury_iff.mp hTask').2
  · intro p
    simp only [hHolds]
    exact hWf.threadLive p
  · intro u u' p
    simp only [hHolds]
    exact hWf.holdsUnique u u' p
  · intro u task' hTask'
    exact hWf.kernelDir u task' (taskAt_bury_iff.mp hTask').2
  · intro u task' hTask'
    rcases taskAt_bury_iff.mp hTask' with ⟨hNe, hOld⟩
    have hOther : task'.pageDirectory ≠ .heap d := by
      intro hSame
      exact hNe (hWf.dirUnique u t task' task hOld hTask
        (hSame.trans hDir.symm))
    simp only [State.bury, State.withTasks]
    rw [Function.update_of_ne hOther]
    exact hWf.dirLive u task' hOld
  · intro u u' task₁ task₂ h₁ h₂
    exact hWf.dirUnique u u' task₁ task₂
      (taskAt_bury_iff.mp h₁).2 (taskAt_bury_iff.mp h₂).2

end Sched

end SosKernel
