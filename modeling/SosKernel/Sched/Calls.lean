import SosKernel.Sched.WellFormed

/-
  What the calls that start, stop and wake threads have done
  when they return.

  Main declarations:
    * `State.spawn`, `State.launch`
    * `setThreadState_ok`
    * `execThread_ok`, `execElf_ok`, `fork_ok`
    * `Wf.spawn`, `Wf.launch`
-/

------------------------------------------------------------
-- State Updates
------------------------------------------------------------

namespace SosKernel

namespace Sched

/- The record at `p` has changed. -/
def State.withThread
    (s : State)
    (p : Nat)
    (thread : Thread) : State :=
  { s with
    threadAt :=
      Function.update s.threadAt p (some thread) }

theorem withThread_threadAt_self
    (s : State)
    (p : Nat)
    (thread : Thread) :
    (s.withThread p thread).threadAt p = some thread := by
  simp [State.withThread]

theorem withThread_threadAt_of_ne
    {s : State}
    {p q : Nat}
    (thread : Thread)
    (hq : q ≠ p) :
    (s.withThread p thread).threadAt q = s.threadAt q := by
  simp [State.withThread, hq]

/- A new thread record at `p`, appended to the list of `t`. -/
def State.spawn
    (s : State)
    (p : Nat)
    (thread : Thread)
    (t : Nat)
    (task : Task) : State :=
  { s with
    threadAt := Function.update s.threadAt p (some thread)
    taskAt :=
      Function.update s.taskAt t
        (some
          { task with
            threads := listPushBack task.threads p }) }

/-
  A new task at `t` whose only thread is the new record at
  `p`, with the new directory `d`, appended to the tasks.
-/
def State.launch
    (s : State)
    (p : Nat)
    (thread : Thread)
    (t : Nat)
    (task : Task)
    (d physical : Nat)
    (tasks : ListT) : State :=
  { s with
    threadAt := Function.update s.threadAt p (some thread)
    taskAt := Function.update s.taskAt t (some task)
    dirAt :=
      Function.update s.dirAt (.heap d) (some physical)
    tasks := some (listPushBack tasks t) }

/-
  The states agree on everything but the registers, the
  counters and the answers of the allocators.
-/
structure SameLists (s s' : State) : Prop where
  threadAt : s'.threadAt = s.threadAt
  taskAt : s'.taskAt = s.taskAt
  dirAt : s'.dirAt = s.dirAt
  tasks : s'.tasks = s.tasks
  threads : s'.threads = s.threads
  currentTask : s'.currentTask = s.currentTask
  kernelTask : s'.kernelTask = s.kernelTask
  currentThread : s'.currentThread = s.currentThread
  kernelThread : s'.kernelThread = s.kernelThread
  currentDirectory :
    s'.currentDirectory = s.currentDirectory
  cr3 : s'.cr3 = s.cr3

------------------------------------------------------------
-- Allocation
------------------------------------------------------------

variable {s s' : State}

theorem kmalloc_ok
    {p : Nat}
    (hRun : kmalloc.run s = .ok p s') :
    ∃ rest, s' = { s with kmallocs := rest } := by
  rw [kmalloc, EStateM.bind_of_ok (EStateM.run_get s)]
    at hRun
  split at hRun
  · cases hRun
  · cases hRun
    exact ⟨_, rfl⟩

theorem pmmAllocPage_ok
    {frame : Nat}
    (hRun : pmmAllocPage.run s = .ok frame s') :
    ∃ rest, s' = { s with frames := rest } := by
  rw [pmmAllocPage, EStateM.bind_of_ok (EStateM.run_get s)]
    at hRun
  split at hRun
  · cases hRun
  · cases hRun
    exact ⟨_, rfl⟩

theorem readThread_ok
    {p : Nat}
    {thread : Thread}
    (hRun : (readThread p).run s = .ok thread s') :
    s.threadAt p = some thread ∧ s' = s := by
  rw [readThread, EStateM.bind_of_ok (EStateM.run_get s)]
    at hRun
  split at hRun
  · cases hRun
  · rename_i hThread
    cases hRun
    exact ⟨hThread, rfl⟩

theorem readTask_ok
    {t : Nat}
    {task : Task}
    (hRun : (readTask t).run s = .ok task s') :
    s.taskAt t = some task ∧ s' = s := by
  rw [readTask, EStateM.bind_of_ok (EStateM.run_get s)]
    at hRun
  split at hRun
  · cases hRun
  · rename_i hTask
    cases hRun
    exact ⟨hTask, rfl⟩

theorem readTasks_ok
    {tasks : ListT}
    (hRun : readTasks.run s = .ok tasks s') :
    s.tasks = some tasks ∧ s' = s := by
  rw [readTasks, EStateM.bind_of_ok (EStateM.run_get s)]
    at hRun
  split at hRun
  · cases hRun
  · rename_i hTasks
    cases hRun
    exact ⟨hTasks, rfl⟩

theorem kmallocThread_ok
    {thread : Thread}
    {p : Nat}
    (hRun : (kmallocThread thread).run s = .ok p s') :
    p ≠ 0 ∧ s.threadAt p = none ∧
      ∃ rest, s' =
        { s with
          kmallocs := rest
          threadAt :=
            Function.update s.threadAt p (some thread) } := by
  rw [kmallocThread, EStateM.bind_eq_ok_iff] at hRun
  rcases hRun with ⟨q, sHeap, hHeap, hRun⟩
  rcases kmalloc_ok hHeap with ⟨rest, rfl⟩
  rw [EStateM.bind_of_ok (EStateM.run_get _)] at hRun
  split at hRun
  · cases hRun
  · rename_i hFresh
    cases hRun
    push Not at hFresh
    exact ⟨hFresh.1, by simpa using hFresh.2, rest, rfl⟩

theorem kmallocTask_ok
    {task : Task}
    {t : Nat}
    (hRun : (kmallocTask task).run s = .ok t s') :
    t ≠ 0 ∧ s.taskAt t = none ∧
      ∃ rest, s' =
        { s with
          kmallocs := rest
          taskAt :=
            Function.update s.taskAt t (some task) } := by
  rw [kmallocTask, EStateM.bind_eq_ok_iff] at hRun
  rcases hRun with ⟨q, sHeap, hHeap, hRun⟩
  rcases kmalloc_ok hHeap with ⟨rest, rfl⟩
  rw [EStateM.bind_of_ok (EStateM.run_get _)] at hRun
  split at hRun
  · cases hRun
  · rename_i hFresh
    cases hRun
    push Not at hFresh
    exact ⟨hFresh.1, by simpa using hFresh.2, rest, rfl⟩

theorem kmallocList_ok
    {list : ListT}
    (hRun : kmallocList.run s = .ok list s') :
    list.elems = [] ∧ list.curr = 0 ∧
      ∃ rest, s' = { s with kmallocs := rest } := by
  rw [kmallocList, EStateM.bind_eq_ok_iff] at hRun
  rcases hRun with ⟨addr, sAddr, hAddr, hRun⟩
  rcases kmalloc_ok hAddr with ⟨_, rfl⟩
  rw [EStateM.bind_eq_ok_iff] at hRun
  rcases hRun with ⟨storage, sStorage, hStorage, hRun⟩
  rcases kmalloc_ok hStorage with ⟨rest, rfl⟩
  cases hRun
  exact ⟨rfl, rfl, rest, rfl⟩

theorem cloneDirectory_ok
    {dir : DirPtr}
    (hRun : cloneDirectory.run s = .ok dir s') :
    ∃ d physical kmallocs frames, dir = .heap d ∧
      s.dirAt (.heap d) = none ∧
      s' =
        { s with
          kmallocs := kmallocs
          frames := frames
          dirAt :=
            Function.update s.dirAt (.heap d)
              (some physical) } := by
  rw [cloneDirectory, EStateM.bind_eq_ok_iff] at hRun
  rcases hRun with ⟨d, sHeap, hHeap, hRun⟩
  rcases kmalloc_ok hHeap with ⟨kmallocs, rfl⟩
  rw [EStateM.bind_of_ok (EStateM.run_get _)] at hRun
  split at hRun
  · cases hRun
  · rename_i hFresh
    dsimp only at hRun
    rw [EStateM.bind_eq_ok_iff] at hRun
    rcases hRun with ⟨physical, sFrame, hFrame, hRun⟩
    rcases pmmAllocPage_ok hFrame with ⟨frames, rfl⟩
    cases hRun
    exact ⟨d, physical, kmallocs, frames, rfl,
      by simpa using hFresh, rfl⟩

theorem switchPageDirectory_ok
    {dir : DirPtr}
    (hRun : (switchPageDirectory dir).run s = .ok () s') :
    ∃ physical, s.dirAt dir = some physical ∧
      s' =
        { s with
          currentDirectory := dir
          cr3 := physical } := by
  rw [switchPageDirectory,
    EStateM.bind_of_ok (EStateM.run_get s)] at hRun
  split at hRun
  · cases hRun
  · rename_i physical hDir
    cases hRun
    exact ⟨physical, hDir, rfl⟩

------------------------------------------------------------
-- Records
------------------------------------------------------------

theorem setThreadState_ok
    {p : Nat}
    {state : ThreadState}
    (hRun : (setThreadState p state).run s = .ok () s') :
    ∃ thread, s.threadAt p = some thread ∧
      s' =
        s.withThread p { thread with state := state } := by
  rw [setThreadState, EStateM.bind_eq_ok_iff] at hRun
  rcases hRun with ⟨thread, sRead, hRead, hRun⟩
  rcases readThread_ok hRead with ⟨hThread, rfl⟩
  cases hRun
  exact ⟨thread, hThread, rfl⟩

theorem createThread_ok
    {stack stackSize p : Nat}
    (hRun : (createThread stack stackSize).run s = .ok p s') :
    p ≠ 0 ∧ s.threadAt p = none ∧
      ∃ thread nextTid kmallocs,
        thread.state = .running ∧
        s' =
          { s with
            kmallocs := kmallocs
            nextTid := nextTid
            threadAt :=
              Function.update s.threadAt p
                (some thread) } := by
  rw [createThread, EStateM.bind_of_ok (EStateM.run_get s),
    EStateM.bind_eq_ok_iff] at hRun
  rcases hRun with ⟨q, sAlloc, hAlloc, hRun⟩
  rcases kmallocThread_ok hAlloc with ⟨hNonnull, hFresh, kmallocs, rfl⟩
  cases hRun
  exact ⟨hNonnull, hFresh, _, _, kmallocs, rfl, rfl⟩

theorem createTask_ok
    {p t : Nat}
    {dir : DirPtr}
    (hRun : (createTask p dir).run s = .ok t s') :
    t ≠ 0 ∧ s.taskAt t = none ∧
      ∃ task nextPid kmallocs,
        task.pageDirectory = dir ∧
        task.threads.elems = [p] ∧
        task.threads.curr = 0 ∧
        s' =
          { s with
            kmallocs := kmallocs
            nextPid := nextPid
            taskAt :=
              Function.update s.taskAt t (some task) } := by
  rw [createTask, EStateM.bind_of_ok (EStateM.run_get s),
    EStateM.bind_eq_ok_iff] at hRun
  rcases hRun with ⟨t', sAlloc, hAlloc, hRun⟩
  rcases kmallocTask_ok hAlloc with ⟨hNonnull, hFresh, _, rfl⟩
  rw [EStateM.bind_of_ok (EStateM.run_modify _ _),
    EStateM.bind_eq_ok_iff] at hRun
  rcases hRun with ⟨list, sList, hList, hRun⟩
  rcases kmallocList_ok hList with ⟨hElems, hCurr, kmallocs, rfl⟩
  rw [EStateM.bind_eq_ok_iff] at hRun
  rcases hRun with ⟨_, sWrite, hWrite, hRun⟩
  rw [run_writeTaskList _
    (Function.update_self t' _ s.taskAt)] at hWrite
  cases hWrite
  cases hRun
  refine ⟨hNonnull, hFresh,
    { pageDirectory := dir
      pid := s.nextPid
      threads := listPushBack list p },
    succ32 s.nextPid, kmallocs, rfl, ?_, hCurr, ?_⟩
  · rw [elems_listPushBack, hElems]
    rfl
  · simp [State.withList]

------------------------------------------------------------
-- New Threads and Tasks
------------------------------------------------------------

theorem execThread_ok
    {stack tid : Nat}
    (hRun : (execThread stack).run s = .ok tid s') :
    ∃ p thread task,
      p ≠ 0 ∧ s.threadAt p = none ∧
      thread.state = .running ∧
      s.taskAt s.currentTask = some task ∧
      SameLists (s.spawn p thread s.currentTask task)
        s' := by
  rw [execThread, EStateM.bind_eq_ok_iff] at hRun
  rcases hRun with ⟨p, sThread, hThread, hRun⟩
  rcases createThread_ok hThread with
    ⟨hNonnull, hFresh, thread, nextTid, kmallocs, hRunning, rfl⟩
  rw [EStateM.bind_of_ok (EStateM.run_get _),
    EStateM.bind_eq_ok_iff] at hRun
  rcases hRun with ⟨_, sTask, hTask, hRun⟩
  rw [taskAddThread, EStateM.bind_eq_ok_iff] at hTask
  rcases hTask with ⟨task, sRead, hRead, hWrite⟩
  rcases readTask_ok hRead with ⟨hOwner, rfl⟩
  rw [run_writeTaskList _ hOwner] at hWrite
  cases hWrite
  rw [EStateM.bind_of_ok (EStateM.run_get _)] at hRun
  split at hRun
  · cases hRun
  · cases hRun
    refine ⟨p, thread, task, hNonnull, hFresh, hRunning,
      hOwner, ?_⟩
    constructor <;> rfl

/- The registers after `cli`. -/
def Context.masked (c : Context) : Context :=
  { c with eflags := c.eflags - (c.eflags &&& IF_FLAG) }

theorem cli_run :
    cli.run s =
      .ok () { s with regs := s.regs.masked } := rfl

theorem sti_run :
    sti.run s =
      .ok () { s with
        regs :=
          { s.regs with
            eflags := s.regs.eflags ||| IF_FLAG } } := rfl

theorem eq_of_run_pure
    {α : Type}
    {a b : α}
    (hRun :
      (pure a : SchedM α).run s = .ok b s') :
    s' = s := by
  cases hRun
  rfl

theorem eq_of_run_modify
    {f : State → State}
    {u : Unit}
    (hRun :
      (modify f : SchedM Unit).run s = .ok u s') :
    s' = f s := by
  cases hRun
  rfl

theorem scheduleAddTask_ok
    {t : Nat}
    (hRun : (scheduleAddTask t).run s = .ok () s') :
    ∃ tasks, s.tasks = some tasks ∧
      s' = { s with tasks := some (listPushBack tasks t) } := by
  rw [scheduleAddTask, EStateM.bind_eq_ok_iff] at hRun
  rcases hRun with ⟨tasks, sRead, hRead, hRun⟩
  rcases readTasks_ok hRead with ⟨hTasks, rfl⟩
  cases hRun
  exact ⟨tasks, hTasks, rfl⟩

/-
  What `exec_elf` and `fork` have in common: a new thread in
  a new task with a new directory.
-/
structure Launched
    (s s' : State)
    (p : Nat)
    (thread : Thread)
    (t : Nat)
    (task : Task)
    (d physical : Nat)
    (tasks : ListT) : Prop where
  threadNonnull : p ≠ 0
  threadFresh : s.threadAt p = none
  running : thread.state = .running
  taskNonnull : t ≠ 0
  taskFresh : s.taskAt t = none
  directory : task.pageDirectory = .heap d
  elems : task.threads.elems = [p]
  curr : task.threads.curr = 0
  dirFresh : s.dirAt (.heap d) = none
  tasksEq : s.tasks = some tasks
  after :
    SameLists (s.launch p thread t task d physical tasks) s'

theorem execElf_ok
    {stack pid : Nat}
    (hRun : (execElf stack).run s = .ok pid s')
    (hLoaded : s.dirAt s.currentDirectory = some s.cr3) :
    ∃ p thread t task d physical tasks,
      Launched s s' p thread t task d physical tasks := by
  rw [execElf, EStateM.bind_of_ok cli_run,
    EStateM.bind_of_ok (EStateM.run_get _),
    EStateM.bind_eq_ok_iff] at hRun
  rcases hRun with ⟨dir, sClone, hClone, hRun⟩
  rcases cloneDirectory_ok hClone with
    ⟨d, physical, _, _, rfl, hFreshDir, hClone⟩
  rw [EStateM.bind_eq_ok_iff] at hRun
  rcases hRun with ⟨_, sSwitch, hSwitch, hRun⟩
  rcases switchPageDirectory_ok hSwitch with ⟨_, _, hSwitch⟩
  rw [EStateM.bind_eq_ok_iff] at hRun
  rcases hRun with ⟨p, sThread, hThread, hRun⟩
  rcases createThread_ok hThread with
    ⟨hNonnull, hFresh, thread, _, _, hRunning, hThread⟩
  rw [EStateM.bind_eq_ok_iff] at hRun
  rcases hRun with ⟨t, sTask, hTask, hRun⟩
  rcases createTask_ok hTask with
    ⟨hTaskNonnull, hTaskFresh, task, _, _, hDir, hElems, hCurr, hTask⟩
  rw [EStateM.bind_eq_ok_iff] at hRun
  rcases hRun with ⟨_, sAdd, hAdd, hRun⟩
  rcases scheduleAddTask_ok hAdd with ⟨tasks, hTasks, hAdd⟩
  rw [EStateM.bind_eq_ok_iff] at hRun
  rcases hRun with ⟨_, sBack, hBack, hRun⟩
  rcases switchPageDirectory_ok hBack with ⟨cr3, hCr3, hBack⟩
  rw [EStateM.bind_of_ok sti_run,
    EStateM.bind_eq_ok_iff] at hRun
  rcases hRun with ⟨_, sRead, hRead, hRun⟩
  rcases readTask_ok hRead with ⟨_, hRead⟩
  rcases eq_of_run_pure hRun with rfl
  -- the parent's directory is not the new one
  have hOther : s.currentDirectory ≠ .heap d := by
    intro hSame
    rw [hSame] at hLoaded
    have hFree : s.dirAt (.heap d) = none := hFreshDir
    rw [hLoaded] at hFree
    cases hFree
  have hSame : cr3 = s.cr3 := by
    rw [hAdd, hTask, hThread, hSwitch, hClone] at hCr3
    have hOld := Function.update_of_ne hOther
      (some physical) s.dirAt
    exact Option.some.inj (hCr3.symm.trans
      (hOld.trans hLoaded))
  refine ⟨p, thread, t, task, d, physical, tasks, ?_⟩
  refine
    { threadNonnull := hNonnull
      threadFresh := ?_
      running := hRunning
      taskNonnull := hTaskNonnull
      taskFresh := ?_
      directory := hDir
      elems := hElems
      curr := hCurr
      dirFresh := hFreshDir
      tasksEq := ?_
      after := ?_ }
  · rw [hSwitch, hClone] at hFresh
    exact hFresh
  · rw [hThread, hSwitch, hClone] at hTaskFresh
    exact hTaskFresh
  · rw [hTask, hThread, hSwitch, hClone] at hTasks
    exact hTasks
  · rw [hRead, hBack, hAdd, hTask, hThread, hSwitch, hClone,
      hSame]
    constructor <;> rfl

/-
  What both passes of `fork` do after `clone_directory`: a
  task is added for the thread `p`, and the registers go into
  its record.  The parent also sets the interrupt flag.
-/
theorem forkCloned_ok
    {p value : Nat}
    {dir : DirPtr}
    (hRun : (forkCloned p dir).run s = .ok value s') :
    ∃ t task tasks nextPid kmallocs regs,
      t ≠ 0 ∧ s.taskAt t = none ∧
      task.pageDirectory = dir ∧
      task.threads.elems = [p] ∧
      task.threads.curr = 0 ∧
      s.tasks = some tasks ∧
      (s.currentThread = p → value = 0) ∧
      s' =
        { s with
          regs := regs
          kmallocs := kmallocs
          nextPid := nextPid
          threadAt :=
            Function.update s.threadAt p
              ((s.threadAt p).map fun thread =>
                { thread with saved := s.regs })
          taskAt := Function.update s.taskAt t (some task)
          tasks := some (listPushBack tasks t) } := by
  rw [forkCloned, EStateM.bind_eq_ok_iff] at hRun
  rcases hRun with ⟨t, sTask, hTask, hRun⟩
  rcases createTask_ok hTask with
    ⟨hNonnull, hFresh, task, nextPid, kmallocs, hDir, hElems,
      hCurr, hTask⟩
  rw [EStateM.bind_eq_ok_iff] at hRun
  rcases hRun with ⟨_, sAdd, hAdd, hRun⟩
  rcases scheduleAddTask_ok hAdd with ⟨tasks, hTasks, hAdd⟩
  rw [EStateM.bind_eq_ok_iff] at hRun
  rcases hRun with ⟨_, sSave, hSave, hRun⟩
  have hSave := eq_of_run_modify hSave
  rw [EStateM.bind_of_ok (EStateM.run_get _)] at hRun
  have hCurrent : sSave.currentThread = s.currentThread := by
    rw [hSave, hAdd, hTask]
  rw [hTask] at hTasks
  rw [hCurrent] at hRun
  split at hRun
  · cases hRun
    refine ⟨t, task, tasks, nextPid, kmallocs, s.regs,
      hNonnull, hFresh, hDir, hElems, hCurr, hTasks,
      fun _ => rfl, ?_⟩
    rw [hSave, hAdd, hTask]
  · rename_i hNe
    rw [EStateM.bind_of_ok sti_run,
      EStateM.bind_eq_ok_iff] at hRun
    rcases hRun with ⟨_, sRead, hRead, hRun⟩
    rcases readTask_ok hRead with ⟨_, hRead⟩
    rcases eq_of_run_pure hRun with rfl
    refine ⟨t, task, tasks, nextPid, kmallocs,
      { s.regs with eflags := s.regs.eflags ||| IF_FLAG },
      hNonnull, hFresh, hDir, hElems, hCurr, hTasks,
      fun hEq => absurd hEq hNe, ?_⟩
    rw [hRead, hSave, hAdd, hTask]

/- The child has the registers of its parent, after `cli`. -/
theorem fork_launches
    {pid : Nat}
    (hRun : fork.run s = .ok pid s') :
    ∃ p thread t task d physical tasks,
      Launched s s' p thread t task d physical tasks ∧
        thread.saved = s.regs.masked ∧
        thread.copied = true := by
  rw [fork, EStateM.bind_of_ok (EStateM.run_get s),
    EStateM.bind_of_ok (EStateM.run_get s)] at hRun
  split at hRun
  · cases hRun
  dsimp only at hRun
  rw [EStateM.bind_of_ok cli_run,
    EStateM.bind_of_ok (EStateM.run_get _),
    EStateM.bind_eq_ok_iff] at hRun
  rcases hRun with ⟨parent, sParent, hParent, hRun⟩
  rcases readThread_ok hParent with ⟨-, hParent⟩
  rw [EStateM.bind_of_ok (EStateM.run_get _),
    EStateM.bind_eq_ok_iff] at hRun
  rcases hRun with ⟨p, sThread, hThread, hRun⟩
  rcases kmallocThread_ok hThread with
    ⟨hNonnull, hFresh, _, hThread⟩
  rw [EStateM.bind_eq_ok_iff] at hRun
  rcases hRun with ⟨_, sTid, hTid, hRun⟩
  rcases eq_of_run_modify hTid with rfl
  rw [EStateM.bind_eq_ok_iff] at hRun
  rcases hRun with ⟨dir, sClone, hClone, hRun⟩
  rcases cloneDirectory_ok hClone with
    ⟨d, physical, _, _, rfl, hFreshDir, hClone⟩
  rcases forkCloned_ok hRun with
    ⟨t, task, tasks, _, _, _, hTaskNonnull, hTaskFresh, hDir,
      hElems, hCurr, hTasks, -, hAfter⟩
  have hSaved : sClone.regs = s.regs.masked := by
    rw [hClone, hThread, hParent]
  refine ⟨p,
    { saved := sClone.regs
      esp0 := parent.esp0
      tid := s.nextTid
      stackSize := parent.stackSize
      state := .running
      copied := true },
    t, task, d, physical, tasks, ?_, hSaved, rfl⟩
  refine
    { threadNonnull := hNonnull
      threadFresh := ?_
      running := rfl
      taskNonnull := hTaskNonnull
      taskFresh := ?_
      directory := hDir
      elems := hElems
      curr := hCurr
      dirFresh := ?_
      tasksEq := ?_
      after := ?_ }
  · rw [hParent] at hFresh
    exact hFresh
  · rw [hClone, hThread, hParent] at hTaskFresh
    exact hTaskFresh
  · rw [hThread, hParent] at hFreshDir
    exact hFreshDir
  · rw [hClone, hThread, hParent] at hTasks
    exact hTasks
  · rw [hAfter, hClone, hThread, hParent]
    constructor
    · simp [State.launch]
    all_goals rfl

theorem fork_ok
    {pid : Nat}
    (hRun : fork.run s = .ok pid s') :
    ∃ p thread t task d physical tasks,
      Launched s s' p thread t task d physical tasks := by
  rcases fork_launches hRun with
    ⟨p, thread, t, task, d, physical, tasks, hNew, -⟩
  exact ⟨p, thread, t, task, d, physical, tasks, hNew⟩

------------------------------------------------------------
-- The Invariant
------------------------------------------------------------

/- What the lists hold after a thread has been added. -/
theorem holds_spawn_iff
    {p t : Nat}
    {thread : Thread}
    {task : Task}
    (hTask : s.taskAt t = some task)
    (u q : Nat) :
    (s.spawn p thread t task).Holds u q ↔
      s.Holds u q ∨ u = t ∧ q = p := by
  unfold State.Holds State.spawn
  by_cases hu : u = t
  · subst u
    simp [hTask]
  · simp [hu]

theorem Wf.spawn
    {tasks : ListT}
    {p t : Nat}
    {thread : Thread}
    {task : Task}
    (hWf : Wf s tasks)
    (hNonnull : p ≠ 0)
    (hFresh : s.threadAt p = none)
    (hTask : s.taskAt t = some task) :
    Wf (s.spawn p thread t task) tasks := by
  have hNowhere : ∀ u, ¬ s.Holds u p := by
    intro u hHolds
    have hLive := (hWf.threadLive p).mpr ⟨u, hHolds⟩
    rw [hFresh] at hLive
    cases hLive
  have hBefore :
      ∀ u task', (s.spawn p thread t task).taskAt u =
          some task' →
        ∃ before, s.taskAt u = some before ∧
          task'.pageDirectory = before.pageDirectory ∧
          (task'.threads = listPushBack before.threads p ∨
            task'.threads = before.threads) := by
    intro u task' hAfter
    simp only [State.spawn, Function.update_apply] at hAfter
    split at hAfter
    · rename_i hu
      cases hAfter
      exact ⟨task, hu ▸ hTask, rfl, .inl rfl⟩
    · exact ⟨task', hAfter, rfl, .inr rfl⟩
  have hLive :
      ∀ u, ((s.spawn p thread t task).taskAt u).isSome =
        (s.taskAt u).isSome := by
    intro u
    simp only [State.spawn, Function.update_apply]
    split
    · rename_i hu
      rw [hu, hTask]
      rfl
    · rfl
  refine
    { tasksEq := hWf.tasksEq
      tasksCurr := hWf.tasksCurr
      tasksNodup := hWf.tasksNodup
      tasksHead := hWf.tasksHead
      taskLive := ?_
      taskNonnull := ?_
      threadNonnull := ?_
      listCurr := ?_
      listNodup := ?_
      threadLive := ?_
      holdsUnique := ?_
      kernelDir := ?_
      dirLive := ?_
      dirUnique := ?_ }
  · intro u
    rw [hLive]
    exact hWf.taskLive u
  · have hNull := hLive 0
    rw [hWf.taskNonnull] at hNull
    simpa using hNull
  · simp only [State.spawn]
    rw [Function.update_of_ne hNonnull.symm]
    exact hWf.threadNonnull
  · intro u task' hAfter
    rcases hBefore u task' hAfter with ⟨before, hAt, _, hList | hList⟩
    · have hCurr := hWf.listCurr u before hAt
      rw [hList, elems_listPushBack, curr_listPushBack,
        List.length_append]
      omega
    · rw [hList]
      exact hWf.listCurr u before hAt
  · intro u task' hAfter
    rcases hBefore u task' hAfter with ⟨before, hAt, _, hList | hList⟩
    · rw [hList, elems_listPushBack,
        (List.perm_append_singleton p _).nodup_iff,
        List.nodup_cons]
      exact ⟨fun hp => hNowhere u ⟨before, hAt, hp⟩,
        hWf.listNodup u before hAt⟩
    · rw [hList]
      exact hWf.listNodup u before hAt
  · intro q
    simp only [holds_spawn_iff hTask]
    by_cases hq : q = p
    · subst q
      simp [State.spawn]
    · simp only [State.spawn, ne_eq, hq, not_false_eq_true,
        Function.update_of_ne, and_false, or_false]
      exact hWf.threadLive q
  · intro u u' q
    simp only [holds_spawn_iff hTask]
    rintro (hu | ⟨rfl, rfl⟩) (hu' | ⟨rfl, hq⟩)
    · exact hWf.holdsUnique u u' q hu hu'
    · exact absurd (hq ▸ hu) (hNowhere u)
    · exact absurd hu' (hNowhere u')
    · rfl
  · intro u task' hAfter
    rcases hBefore u task' hAfter with ⟨before, hAt, hDir, _⟩
    rw [hDir]
    exact hWf.kernelDir u before hAt
  · intro u task' hAfter
    rcases hBefore u task' hAfter with ⟨before, hAt, hDir, _⟩
    rw [hDir]
    exact hWf.dirLive u before hAt
  · intro u u' task₁ task₂ h₁ h₂ hEq
    rcases hBefore u task₁ h₁ with ⟨before₁, hAt₁, hDir₁, _⟩
    rcases hBefore u' task₂ h₂ with ⟨before₂, hAt₂, hDir₂, _⟩
    rw [hDir₁, hDir₂] at hEq
    exact hWf.dirUnique u u' _ _ hAt₁ hAt₂ hEq

/- What the lists hold after a task has been launched. -/
theorem Launched.holds_iff
    {p t d physical : Nat}
    {thread : Thread}
    {task : Task}
    {tasks : ListT}
    (hNew : Launched s s' p thread t task d physical tasks)
    (u q : Nat) :
    (s.launch p thread t task d physical tasks).Holds u q ↔
      s.Holds u q ∨ u = t ∧ q = p := by
  unfold State.Holds State.launch
  by_cases hu : u = t
  · subst u
    simp [hNew.taskFresh, hNew.elems]
  · simp [hu]

theorem Wf.launch
    {p t d physical : Nat}
    {thread : Thread}
    {task : Task}
    {tasks : ListT}
    (hWf : Wf s tasks)
    (hNew :
      Launched s s' p thread t task d physical tasks) :
    Wf (s.launch p thread t task d physical tasks)
      (listPushBack tasks t) := by
  have hNowhere : ∀ u, ¬ s.Holds u p := by
    intro u hHolds
    have hLive := (hWf.threadLive p).mpr ⟨u, hHolds⟩
    rw [hNew.threadFresh] at hLive
    cases hLive
  have hAbsent : t ∉ tasks.elems := by
    rw [hWf.taskLive, hNew.taskFresh]
    simp
  have hNotKernel : t ≠ s.kernelTask := by
    rintro rfl
    exact hAbsent hWf.kernelTask_mem
  have hCase :
      ∀ u task',
        (s.launch p thread t task d physical
            tasks).taskAt u = some task' →
          u = t ∧ task' = task ∨
            u ≠ t ∧ s.taskAt u = some task' := by
    intro u task' hAfter
    simp only [State.launch, Function.update_apply]
      at hAfter
    split at hAfter
    · rename_i hu
      cases hAfter
      exact .inl ⟨hu, rfl⟩
    · rename_i hu
      exact .inr ⟨hu, hAfter⟩
  -- the directories of the other tasks are older
  have hOld :
      ∀ u before, s.taskAt u = some before →
        before.pageDirectory ≠ .heap d := by
    intro u before hAt hSame
    have hLive := hWf.dirLive u before hAt
    rw [hSame, hNew.dirFresh] at hLive
    cases hLive
  refine
    { tasksEq := rfl
      tasksCurr := ?_
      tasksNodup := ?_
      tasksHead := ?_
      taskLive := ?_
      taskNonnull := ?_
      threadNonnull := ?_
      listCurr := ?_
      listNodup := ?_
      threadLive := ?_
      holdsUnique := ?_
      kernelDir := ?_
      dirLive := ?_
      dirUnique := ?_ }
  · have hCurr := hWf.tasksCurr
    rw [elems_listPushBack, curr_listPushBack,
      List.length_append]
    omega
  · rw [elems_listPushBack,
      (List.perm_append_singleton t _).nodup_iff,
      List.nodup_cons]
    exact ⟨hAbsent, hWf.tasksNodup⟩
  · rw [elems_listPushBack]
    rw [List.head?_append, hWf.tasksHead]
    rfl
  · intro u
    rw [elems_listPushBack, List.mem_append,
      List.mem_singleton, hWf.taskLive]
    by_cases hu : u = t
    · simp [State.launch, hu]
    · simp [State.launch, hu]
  · simp only [State.launch]
    rw [Function.update_of_ne hNew.taskNonnull.symm]
    exact hWf.taskNonnull
  · simp only [State.launch]
    rw [Function.update_of_ne hNew.threadNonnull.symm]
    exact hWf.threadNonnull
  · intro u task' hAfter
    rcases hCase u task' hAfter with ⟨_, rfl⟩ | ⟨_, hAt⟩
    · rw [hNew.curr]
      exact Nat.zero_le _
    · exact hWf.listCurr u task' hAt
  · intro u task' hAfter
    rcases hCase u task' hAfter with ⟨_, rfl⟩ | ⟨_, hAt⟩
    · rw [hNew.elems]
      simp
    · exact hWf.listNodup u task' hAt
  · intro q
    simp only [hNew.holds_iff]
    by_cases hq : q = p
    · subst q
      simp [State.launch]
    · simp only [State.launch, ne_eq, hq, not_false_eq_true,
        Function.update_of_ne, and_false, or_false]
      exact hWf.threadLive q
  · intro u u' q
    simp only [hNew.holds_iff]
    rintro (hu | ⟨rfl, rfl⟩) (hu' | ⟨rfl, hq⟩)
    · exact hWf.holdsUnique u u' q hu hu'
    · exact absurd (hq ▸ hu) (hNowhere u)
    · exact absurd hu' (hNowhere u')
    · rfl
  · intro u task' hAfter
    rcases hCase u task' hAfter with
      ⟨rfl, rfl⟩ | ⟨_, hAt⟩
    · rw [hNew.directory]
      constructor
      · intro hKernel
        cases hKernel
      · intro hKernel
        exact absurd hKernel hNotKernel
    · exact hWf.kernelDir u task' hAt
  · intro u task' hAfter
    rcases hCase u task' hAfter with ⟨_, rfl⟩ | ⟨_, hAt⟩
    · rw [hNew.directory]
      simp [State.launch]
    · simp only [State.launch]
      rw [Function.update_of_ne (hOld u task' hAt)]
      exact hWf.dirLive u task' hAt
  · intro u u' task₁ task₂ h₁ h₂ hEq
    rcases hCase u task₁ h₁ with
      ⟨rfl, rfl⟩ | ⟨_, hAt₁⟩ <;>
    rcases hCase u' task₂ h₂ with
      ⟨rfl, rfl⟩ | ⟨_, hAt₂⟩
    · rfl
    · rw [hNew.directory] at hEq
      exact absurd hEq.symm (hOld u' task₂ hAt₂)
    · rw [hNew.directory] at hEq
      exact absurd hEq (hOld u task₁ hAt₁)
    · exact hWf.dirUnique u u' task₁ task₂ hAt₁ hAt₂ hEq

/- Only the lists and the records matter. -/
theorem Wf.of_sameLists
    {tasks : ListT}
    (hWf : Wf s tasks)
    (hSame : SameLists s s') :
    Wf s' tasks := by
  rcases hSame with ⟨threadAt, taskAt, dirAt, hTasks, _, _, hKernel⟩
  cases s'
  subst threadAt taskAt dirAt hTasks hKernel
  exact { hWf with }

/- Changing the contents of a live thread record. -/
theorem Wf.withThread
    {tasks : ListT}
    {p : Nat}
    {thread thread' : Thread}
    (hWf : Wf s tasks)
    (hThread : s.threadAt p = some thread) :
    Wf (s.withThread p thread') tasks where
  tasksEq := hWf.tasksEq
  tasksCurr := hWf.tasksCurr
  tasksNodup := hWf.tasksNodup
  tasksHead := hWf.tasksHead
  taskLive := hWf.taskLive
  taskNonnull := hWf.taskNonnull
  threadNonnull := by
    have hNe : (0 : Nat) ≠ p := by
      rintro rfl
      rw [hWf.threadNonnull] at hThread
      cases hThread
    rw [withThread_threadAt_of_ne _ hNe]
    exact hWf.threadNonnull
  listCurr := hWf.listCurr
  listNodup := hWf.listNodup
  threadLive q := by
    by_cases hq : q = p
    · subst q
      have hLive := hWf.threadLive p
      rw [hThread] at hLive
      rw [withThread_threadAt_self]
      exact hLive
    · rw [withThread_threadAt_of_ne _ hq]
      exact hWf.threadLive q
  holdsUnique := hWf.holdsUnique
  kernelDir := hWf.kernelDir
  dirLive := hWf.dirLive
  dirUnique := hWf.dirUnique

end Sched

end SosKernel
