import SosKernel.Lib.Program
import SosKernel.Sched.Schedule

/-
  What one iteration of each loop of `schedule` does, as
  equations between runs.

  Main declarations:
    * `State.withList`, `State.reap`, `State.bury`
    * `run_pickTask_empty`, `run_pickTask_found`
    * `run_chooseTask_end`, `run_chooseTask_inside`
    * `run_pickThread_dying`, `run_pickThread_waiting`,
      `run_pickThread_running`
-/

------------------------------------------------------------
-- State Updates
------------------------------------------------------------

namespace SosKernel

namespace Sched

/- The task at `t` has become `task` with another list. -/
def State.withList
    (s : State)
    (t : Nat)
    (task : Task)
    (list : ListT) : State :=
  { s with
    taskAt :=
      Function.update s.taskAt t
        (some { task with threads := list }) }

/- The static task list has changed. -/
def State.withTasks (s : State) (tasks : ListT) : State :=
  { s with tasks := some tasks }

/- The thread record at `p` has been freed. -/
def State.reap (s : State) (p : Nat) : State :=
  { s with
    threadAt := Function.update s.threadAt p none
    kfrees := p :: s.kfrees }

/-
  The task at `t`, which had no threads, has been destroyed
  with its list and its directory `d`.
-/
def State.bury
    (s : State)
    (t : Nat)
    (task : Task)
    (d : Nat) : State :=
  { s with
    taskAt := Function.update s.taskAt t none
    dirAt := Function.update s.dirAt (.heap d) none
    kfrees :=
      t :: d :: task.threads.addr :: task.threads.storage ::
        s.kfrees }

------------------------------------------------------------
-- Record Access
------------------------------------------------------------

variable {s : State}

theorem run_readThread
    {p : Nat}
    {thread : Thread}
    (hThread : s.threadAt p = some thread) :
    (readThread p).run s = .ok thread s := by
  simp [readThread, hThread]

theorem run_readTask
    {t : Nat}
    {task : Task}
    (hTask : s.taskAt t = some task) :
    (readTask t).run s = .ok task s := by
  simp [readTask, hTask]

theorem run_readTasks
    {tasks : ListT}
    (hTasks : s.tasks = some tasks) :
    readTasks.run s = .ok tasks s := by
  simp [readTasks, hTasks]

@[simp] theorem run_writeTasks (tasks : ListT) :
    (writeTasks tasks).run s =
      .ok () (s.withTasks tasks) := rfl

theorem run_writeTaskList
    {t : Nat}
    {task : Task}
    (list : ListT)
    (hTask : s.taskAt t = some task) :
    (writeTaskList t list).run s =
      .ok () (s.withList t task list) := by
  rw [writeTaskList,
    EStateM.bind_of_ok (run_readTask hTask)]
  rfl

theorem run_destroyThread
    {p : Nat}
    {thread : Thread}
    (hThread : s.threadAt p = some thread) :
    (destroyThread p).run s = .ok () (s.reap p) := by
  simp [destroyThread, kfree, readThread, hThread,
    State.reap]

theorem run_destroyTask_empty
    {t d : Nat}
    {task : Task}
    (hTask : s.taskAt t = some task)
    (hEmpty : task.threads.elems = [])
    (hDir : task.pageDirectory = .heap d) :
    (destroyTask t).run s = .ok () (s.bury t task d) := by
  rw [destroyTask,
    EStateM.bind_of_ok (run_readTask hTask)]
  simp [destroyThreads, listIsEnd, ListT.size, hEmpty,
    destroyDirectory, hDir, kfree, State.bury,
    listRewind]

------------------------------------------------------------
-- The Inner Loop
------------------------------------------------------------

/- An empty task under the cursor is destroyed. -/
theorem run_pickTask_empty
    {fuel t d : Nat}
    {rest : List Nat}
    {tasks : ListT}
    {task : Task}
    (hTasks : s.tasks = some tasks)
    (hPending : tasks.pending = t :: rest)
    (hTask : s.taskAt t = some task)
    (hEmpty : task.threads.elems = [])
    (hDir : task.pageDirectory = .heap d) :
    (pickTask (fuel + 1)).run s =
      (pickTask fuel).run
        ((s.withTasks (listRemove tasks)).bury
          t task d) := by
  have hNotEnd := listIsEnd_eq_false_of_pending hPending
  have hBury :
      (destroyTask t).run
          (s.withTasks (listRemove tasks)) =
        .ok () ((s.withTasks (listRemove tasks)).bury
          t task d) :=
    run_destroyTask_empty hTask hEmpty hDir
  have hIsEmpty : listIsEmpty task.threads = true :=
    listIsEmpty_iff.mpr hEmpty
  rw [pickTask, EStateM.bind_of_ok (run_readTasks hTasks)]
  simp only [hNotEnd, Bool.false_eq_true, if_false]
  rw [EStateM.bind_of_ok (run_readTasks hTasks)]
  simp only [listCurrent_of_pending hPending]
  rw [EStateM.bind_of_ok (run_readTask hTask)]
  simp only [hIsEmpty, if_true]
  rw [EStateM.bind_of_ok (run_writeTasks _),
    EStateM.bind_of_ok hBury]

/- Destroying the kernel task's directory is refused. -/
theorem run_pickTask_kernel
    {t : Nat}
    {rest : List Nat}
    {tasks : ListT}
    {task : Task}
    (hTasks : s.tasks = some tasks)
    (hPending : tasks.pending = t :: rest)
    (hTask : s.taskAt t = some task)
    (fuel : Nat)
    (hEmpty : task.threads.elems = [])
    (hDir : task.pageDirectory = .kernelDirectory) :
    ∃ s', (pickTask (fuel + 1)).run s =
      .error (.panic
        "VMM: deleting kernel (reference) directory.")
        s' := by
  have hNotEnd := listIsEnd_eq_false_of_pending hPending
  have hIsEmpty : listIsEmpty task.threads = true :=
    listIsEmpty_iff.mpr hEmpty
  have hTask' :
      (s.withTasks (listRemove tasks)).taskAt t =
        some task := hTask
  rw [pickTask, EStateM.bind_of_ok (run_readTasks hTasks)]
  simp only [hNotEnd, Bool.false_eq_true, if_false]
  rw [EStateM.bind_of_ok (run_readTasks hTasks)]
  simp only [listCurrent_of_pending hPending]
  rw [EStateM.bind_of_ok (run_readTask hTask)]
  simp only [hIsEmpty, if_true]
  rw [EStateM.bind_of_ok (run_writeTasks _), destroyTask]
  simp [readTask, hTask', destroyThreads, listIsEnd,
    ListT.size, hEmpty, destroyDirectory, hDir, kfree,
    listRewind]

/- A task with threads is picked and passed. -/
theorem run_pickTask_found
    {fuel t : Nat}
    {rest : List Nat}
    {tasks : ListT}
    {task : Task}
    (hTasks : s.tasks = some tasks)
    (hPending : tasks.pending = t :: rest)
    (hTask : s.taskAt t = some task)
    (hThreads : task.threads.elems ≠ []) :
    (pickTask (fuel + 1)).run s =
      .ok t (s.withTasks (listNext tasks).2) := by
  have hNotEnd := listIsEnd_eq_false_of_pending hPending
  have hNotEmpty : listIsEmpty task.threads = false := by
    rw [Bool.eq_false_iff]
    intro hEmpty
    exact hThreads (listIsEmpty_iff.mp hEmpty)
  rw [pickTask, EStateM.bind_of_ok (run_readTasks hTasks)]
  simp only [hNotEnd, Bool.false_eq_true, if_false]
  rw [EStateM.bind_of_ok (run_readTasks hTasks)]
  simp only [listCurrent_of_pending hPending]
  rw [EStateM.bind_of_ok (run_readTask hTask)]
  simp only [hNotEmpty, Bool.false_eq_true, if_false]
  rw [EStateM.bind_of_ok (run_writeTasks _)]
  rfl

/- At the end of a nonempty task list the cursor wraps. -/
theorem run_pickTask_wrap
    {fuel : Nat}
    {tasks : ListT}
    (hTasks : s.tasks = some tasks)
    (hPending : tasks.pending = [])
    (hElems : tasks.elems ≠ []) :
    (pickTask (fuel + 1)).run s =
      (pickTask (fuel + 1)).run
        (s.withTasks (listRewind tasks)) := by
  have hEnd : listIsEnd tasks = true :=
    listIsEnd_iff.mpr hPending
  have hNotEnd :
      listIsEnd (listRewind tasks) = false := by
    rw [Bool.eq_false_iff]
    intro hRewound
    exact hElems (listIsEnd_iff.mp hRewound)
  have hRewound :
      (s.withTasks (listRewind tasks)).tasks =
        some (listRewind tasks) := rfl
  rw [pickTask, EStateM.bind_of_ok (run_readTasks hTasks),
    EStateM.bind_of_ok (run_readTasks hRewound)]
  simp only [hEnd, hNotEnd, Bool.false_eq_true, if_true,
    if_false]
  rw [EStateM.bind_of_ok (run_writeTasks _)]

------------------------------------------------------------
-- The Outer Loop
------------------------------------------------------------

/- Inside a list no task is chosen. -/
theorem run_chooseTask_inside
    {bound newTask p : Nat}
    {rest : List Nat}
    {owner : Task}
    (hOwner : s.taskAt s.threads = some owner)
    (hPending : owner.threads.pending = p :: rest) :
    (chooseTask bound newTask).run s =
      .ok newTask s := by
  have hNotEnd := listIsEnd_eq_false_of_pending hPending
  simp [chooseTask, readTask, hOwner, hNotEnd]

/- The value of `new_task` after `t` has been chosen. -/
def switchTarget (s : State) (t : Nat) : Nat :=
  if t = s.currentTask then 0 else t

/- The list of `t` has become the current one, rewound. -/
def State.enter
    (s : State)
    (t : Nat)
    (task : Task) : State :=
  { s.withList t task (listRewind task.threads) with
    threads := t }

/- At the end of a list the next task is entered. -/
theorem run_chooseTask_end
    {bound t : Nat}
    {owner task : Task}
    {sPick : State}
    (newTask : Nat)
    (hOwner : s.taskAt s.threads = some owner)
    (hPending : owner.threads.pending = [])
    (hPick :
      (pickTask bound).run
          (s.withList s.threads owner
            (listRewind owner.threads)) =
        .ok t sPick)
    (hTask : sPick.taskAt t = some task) :
    (chooseTask bound newTask).run s =
      .ok (switchTarget sPick t) (sPick.enter t task) := by
  have hEnd : listIsEnd owner.threads = true :=
    listIsEnd_iff.mpr hPending
  have hEntered :
      ({ sPick with threads := t } : State).taskAt t =
        some task := hTask
  rw [chooseTask, EStateM.bind_of_ok (EStateM.run_get s),
    EStateM.bind_of_ok (run_readTask hOwner)]
  simp only [hEnd, if_true]
  rw [EStateM.bind_of_ok (run_writeTaskList _ hOwner),
    EStateM.bind_of_ok hPick,
    EStateM.bind_of_ok (EStateM.run_modify _ _),
    EStateM.bind_of_ok (run_readTask hEntered),
    EStateM.bind_of_ok (run_writeTaskList _ hEntered),
    EStateM.bind_of_ok (EStateM.run_get _)]
  by_cases hSame : t = sPick.currentTask
  · rw [switchTarget, if_pos hSame]
    exact congrFun (if_pos hSame) _
  · rw [switchTarget, if_neg hSame]
    exact congrFun (if_neg hSame) _

/- A choice that stops, stops the outer loop's iteration. -/
theorem run_chooseTask_end_error
    {bound newTask : Nat}
    {owner : Task}
    {e : Stop}
    {sPick : State}
    (hOwner : s.taskAt s.threads = some owner)
    (hPending : owner.threads.pending = [])
    (hPick :
      (pickTask bound).run
          (s.withList s.threads owner
            (listRewind owner.threads)) =
        .error e sPick) :
    (chooseTask bound newTask).run s = .error e sPick := by
  have hEnd : listIsEnd owner.threads = true :=
    listIsEnd_iff.mpr hPending
  rw [chooseTask, EStateM.bind_of_ok (EStateM.run_get s),
    EStateM.bind_of_ok (run_readTask hOwner)]
  simp only [hEnd, if_true]
  rw [EStateM.bind_of_ok (run_writeTaskList _ hOwner),
    EStateM.bind_of_error hPick]

section Examine

variable {bound fuel newTask chosen p : Nat}
variable {rest : List Nat}
variable {sRead : State}
variable {owner : Task}
variable {thread : Thread}

/-
  What the outer loop meets: the choice made, the list it is
  in and the thread under the cursor.
-/
structure Meets
    (bound newTask : Nat)
    (s : State)
    (chosen : Nat)
    (sRead : State)
    (owner : Task)
    (p : Nat)
    (rest : List Nat)
    (thread : Thread) : Prop where
  chose :
    (chooseTask bound newTask).run s = .ok chosen sRead
  atOwner : sRead.taskAt sRead.threads = some owner
  atPending : owner.threads.pending = p :: rest
  atThread : sRead.threadAt p = some thread

/- A dying thread is removed and destroyed. -/
theorem run_pickThread_dying
    (hMeets :
      Meets bound newTask s chosen sRead owner p rest
        thread)
    (hState : thread.state = .dying) :
    (pickThread bound (fuel + 1) newTask).run s =
      (pickThread bound fuel chosen).run
        ((sRead.withList sRead.threads owner
          (listRemove owner.threads)).reap p) := by
  have hReap :
      (destroyThread p).run
          (sRead.withList sRead.threads owner
            (listRemove owner.threads)) =
        .ok () ((sRead.withList sRead.threads owner
          (listRemove owner.threads)).reap p) :=
    run_destroyThread hMeets.atThread
  rw [pickThread, EStateM.bind_of_ok hMeets.chose,
    EStateM.bind_of_ok (EStateM.run_get _),
    EStateM.bind_of_ok (run_readTask hMeets.atOwner)]
  simp only [listCurrent_of_pending hMeets.atPending]
  rw [EStateM.bind_of_ok (run_readThread hMeets.atThread)]
  simp only [hState]
  rw [EStateM.bind_of_ok
      (run_writeTaskList _ hMeets.atOwner),
    EStateM.bind_of_ok hReap]

/- A waiting thread is met again in the next iteration. -/
theorem run_pickThread_waiting
    (hMeets :
      Meets bound newTask s chosen sRead owner p rest
        thread)
    (hState : thread.state = .waiting) :
    (pickThread bound (fuel + 1) newTask).run s =
      (pickThread bound fuel chosen).run sRead := by
  rw [pickThread, EStateM.bind_of_ok hMeets.chose,
    EStateM.bind_of_ok (EStateM.run_get _),
    EStateM.bind_of_ok (run_readTask hMeets.atOwner)]
  simp only [listCurrent_of_pending hMeets.atPending]
  rw [EStateM.bind_of_ok (run_readThread hMeets.atThread)]
  simp only [hState]

/- A running thread is picked and passed. -/
theorem run_pickThread_running
    (hMeets :
      Meets bound newTask s chosen sRead owner p rest
        thread)
    (hState : thread.state = .running) :
    (pickThread bound (fuel + 1) newTask).run s =
      .ok (p, chosen)
        (sRead.withList sRead.threads owner
          (listNext owner.threads).2) := by
  rw [pickThread, EStateM.bind_of_ok hMeets.chose,
    EStateM.bind_of_ok (EStateM.run_get _),
    EStateM.bind_of_ok (run_readTask hMeets.atOwner)]
  simp only [listCurrent_of_pending hMeets.atPending]
  rw [EStateM.bind_of_ok (run_readThread hMeets.atThread)]
  simp only [hState]
  rw [EStateM.bind_of_ok
    (run_writeTaskList _ hMeets.atOwner)]
  rfl

/-
  Once a waiting thread is under the cursor, the outer loop
  uses up every bound.
-/
theorem run_pickThread_stuck
    (hOwner : s.taskAt s.threads = some owner)
    (hPending : owner.threads.pending = p :: rest)
    (hThread : s.threadAt p = some thread)
    (hState : thread.state = .waiting) :
    (pickThread bound fuel newTask).run s =
      .error .hang s := by
  induction fuel with
  | zero => rfl
  | succ fuel ih =>
      have hMeets :
          Meets bound newTask s newTask s owner p rest
            thread :=
        ⟨run_chooseTask_inside hOwner hPending, hOwner,
          hPending, hThread⟩
      rw [run_pickThread_waiting hMeets hState, ih]

end Examine

end Sched

end SosKernel
