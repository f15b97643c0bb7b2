import SosKernel.Lib.Reachable
import SosKernel.Sched.AtRest

/-
  Runs of the scheduler: the calls, the start, and the
  states that are reached.

  Main declarations:
    * `Call`, `Step`, `Booted`
    * `Booted.atRest`, `Step.atRest`
    * `reachable_atRest`
-/

------------------------------------------------------------
-- Calls and Steps
------------------------------------------------------------

namespace SosKernel

namespace Sched

inductive Call where
| schedule
| sleep
| threadExit
| wakeup (thread : Nat)
| kill (thread : Nat)
| execThread (stack : Nat)
| execElf (stack : Nat)
| fork
deriving DecidableEq, Repr

/- A call, with the bound on the loops of `schedule`. -/
def Call.run (bound : Nat) : Call → SchedM Unit
| .schedule => Sched.schedule bound
| .sleep => Sched.sleep bound
| .threadExit => Sched.threadExit
| .wakeup thread => Sched.wakeup thread
| .kill thread => Sched.kill thread
| .execThread stack => do
    let _ ← Sched.execThread stack
| .execElf stack => do
    let _ ← Sched.execElf stack
| .fork => do
    let _ ← Sched.fork

/-
  One step of a run: a call that returned, or the passing of
  time, in which the running thread changes the registers
  and the allocators change what they will answer.
-/
inductive Step (allowed : State → Call → Prop) :
    State → State → Prop where
| call
    {s s' : State}
    (c : Call)
    (bound : Nat)
    (hAllowed : allowed s c)
    (hRun : (c.run bound).run s = .ok () s') :
    Step allowed s s'
| supply
    {s : State}
    (regs : Context)
    (kmallocs frames : List Nat) :
    Step allowed s
      { s with
        regs := regs, kmallocs := kmallocs, frames := frames }

/- Every call is allowed. -/
def AnyCall (_ : State) (_ : Call) : Prop := True

/-
  The kernel thread stays up: it does not sleep or exit, and
  no other thread kills it.
-/
def KeepsKernel (s : State) : Call → Prop
| .sleep => s.currentThread ≠ s.kernelThread
| .threadExit => s.currentThread ≠ s.kernelThread
| .kill thread =>
    thread = s.kernelThread → thread = s.currentThread
| _ => True

/- The start of the scheduler in `kmain`. -/
def boot (stackTop stackBottom : Nat) : SchedM Unit := do
  let kernelThread ← initThreading stackTop stackBottom
  let kernelTask ← initTasking kernelThread
  initScheduler kernelTask

/-
  Before the scheduler starts there are no threads and no
  tasks, and the kernel directory is loaded.
-/
structure Fresh (s : State) : Prop where
  threadAt : ∀ p, s.threadAt p = none
  taskAt : ∀ t, s.taskAt t = none
  directory : s.currentDirectory = .kernelDirectory
  loaded : s.dirAt s.currentDirectory = some s.cr3

def Booted (s : State) : Prop :=
  ∃ s₀ stackTop stackBottom, Fresh s₀ ∧
    (boot stackTop stackBottom).run s₀ = .ok () s

------------------------------------------------------------
-- The Start
------------------------------------------------------------

variable {up : Prop}
variable {s s' : State}
variable {tasks : ListT}

theorem initThreading_ok
    {stackTop stackBottom p : Nat}
    (hRun :
      (initThreading stackTop stackBottom).run s =
        .ok p s') :
    ∃ thread nextTid kmallocs, p ≠ 0 ∧
      thread.state = .running ∧
      s' =
        { s with
          kmallocs := kmallocs
          nextTid := nextTid
          currentThread := p
          kernelThread := p
          threadAt :=
            Function.update s.threadAt p (some thread) } := by
  rw [initThreading, EStateM.bind_of_ok (EStateM.run_get s),
    EStateM.bind_eq_ok_iff] at hRun
  rcases hRun with ⟨q, sAlloc, hAlloc, hRun⟩
  rcases kmallocThread_ok hAlloc with ⟨hNonnull, _, kmallocs, rfl⟩
  cases hRun
  exact ⟨_, _, kmallocs, hNonnull, rfl, rfl⟩

theorem initTasking_ok
    {p t : Nat}
    (hRun : (initTasking p).run s = .ok t s') :
    ∃ task nextPid kmallocs, t ≠ 0 ∧
      task.pageDirectory = s.currentDirectory ∧
      task.threads.elems = [p] ∧
      task.threads.curr = 0 ∧
      s' =
        { s with
          kmallocs := kmallocs
          nextPid := nextPid
          currentTask := t
          kernelTask := t
          taskAt :=
            Function.update s.taskAt t (some task) } := by
  rw [initTasking, EStateM.bind_of_ok (EStateM.run_get s),
    EStateM.bind_eq_ok_iff] at hRun
  rcases hRun with ⟨u, sTask, hTask, hRun⟩
  rcases createTask_ok hTask with
    ⟨hNonnull, _, task, nextPid, kmallocs, hDir, hElems, hCurr, rfl⟩
  cases hRun
  exact ⟨task, nextPid, kmallocs, hNonnull, hDir, hElems,
    hCurr, rfl⟩

theorem initScheduler_ok
    {t : Nat}
    (hRun : (initScheduler t).run s = .ok () s') :
    ∃ tasks task kmallocs, tasks.elems = [t] ∧
      tasks.curr = 0 ∧ s.taskAt t = some task ∧
      s' =
        { s with
          kmallocs := kmallocs
          tasks := some tasks
          threads := t
          taskAt :=
            Function.update s.taskAt t
              (some
                { task with
                  threads := (listNext task.threads).2 }) } :=
    by
  rw [initScheduler, EStateM.bind_eq_ok_iff] at hRun
  rcases hRun with ⟨tasks, sList, hList, hRun⟩
  rcases kmallocList_ok hList with ⟨hElems, hCurr, kmallocs, rfl⟩
  rw [EStateM.bind_of_ok (run_writeTasks _),
    EStateM.bind_eq_ok_iff] at hRun
  rcases hRun with ⟨task, sRead, hRead, hRun⟩
  rcases readTask_ok hRead with ⟨hTask, hRead⟩
  rw [EStateM.bind_eq_ok_iff] at hRun
  rcases hRun with ⟨_, sThreads, hThreads, hRun⟩
  have hThreads := eq_of_run_modify hThreads
  have hTask' : sThreads.taskAt t = some task := by
    rw [hThreads, hRead]
    exact hTask
  rw [run_writeTaskList _ hTask', hThreads, hRead] at hRun
  cases hRun
  refine ⟨listPushBack tasks t, task, kmallocs, ?_, hCurr,
    hTask, rfl⟩
  rw [elems_listPushBack, hElems]
  rfl

/-
  The kernel task and its thread, right after the start.
-/
theorem Booted.exists
    (hBooted : Booted s) :
    ∃ p t thread task tasks,
      p ≠ 0 ∧ t ≠ 0 ∧
      thread.state = .running ∧
      task.pageDirectory = .kernelDirectory ∧
      task.threads.elems = [p] ∧ task.threads.curr = 1 ∧
      tasks.elems = [t] ∧ tasks.curr = 0 ∧
      (∀ q, s.threadAt q = if q = p then some thread else none) ∧
      (∀ u, s.taskAt u = if u = t then some task else none) ∧
      s.tasks = some tasks ∧
      s.threads = t ∧ s.currentTask = t ∧
      s.kernelTask = t ∧
      s.currentThread = p ∧ s.kernelThread = p ∧
      s.currentDirectory = .kernelDirectory ∧
      s.dirAt .kernelDirectory = some s.cr3 := by
  rcases hBooted with ⟨s₀, stackTop, stackBottom, hFresh, hRun⟩
  rw [boot, EStateM.bind_eq_ok_iff] at hRun
  rcases hRun with ⟨p, sThread, hThread, hRun⟩
  rcases initThreading_ok hThread with
    ⟨thread, _, _, hThreadNonnull, hRunning, hThread⟩
  rw [EStateM.bind_eq_ok_iff] at hRun
  rcases hRun with ⟨t, sTask, hTask, hRun⟩
  rcases initTasking_ok hTask with
    ⟨task, _, _, hTaskNonnull, hDir, hElems, hCurr, hTask⟩
  rcases initScheduler_ok hRun with
    ⟨tasks, task', _, hTasks, hTasksCurr, hAt, hEnd⟩
  have hSame : task' = task := by
    rw [hTask] at hAt
    simpa using hAt.symm
  subst hSame
  have hDirectory :
      sThread.currentDirectory = .kernelDirectory := by
    rw [hThread]
    exact hFresh.directory
  refine ⟨p, t, thread,
    { task' with threads := (listNext task'.threads).2 },
    tasks, hThreadNonnull, hTaskNonnull, hRunning,
    hDir.trans hDirectory, hElems, ?_, hTasks, hTasksCurr,
    ?_, ?_, ?_⟩
  · exact congrArg (· + 1) hCurr
  · intro q
    rw [hEnd, hTask, hThread]
    simp [Function.update_apply, hFresh.threadAt]
  · intro u
    rw [hEnd, hTask, hThread]
    simp only [Function.update_apply, hFresh.taskAt]
    split <;> rfl
  · rw [hEnd, hTask, hThread]
    have hLoaded := hFresh.loaded
    rw [hFresh.directory] at hLoaded
    exact ⟨rfl, rfl, rfl, rfl, rfl, rfl, hFresh.directory,
      hLoaded⟩

/- The start leaves the scheduler at rest. -/
theorem Booted.atRest
    (hBooted : Booted s) :
    ∃ tasks, AtRest True s tasks := by
  rcases hBooted.exists with
    ⟨p, t, thread, task, tasks, hThreadNonnull, hTaskNonnull, hRunning,
      hDir, hElems, hCurr, hTasks, hTasksCurr, hThreadAt, hTaskAt,
      hTasksEq, hThreads, hCurrentTask, hKernelTask, hCurrentThread,
      hKernelThread, hDirectory, hLoaded⟩
  have hTask : s.taskAt t = some task := by
    rw [hTaskAt, if_pos rfl]
  have hThread : s.threadAt p = some thread := by
    rw [hThreadAt, if_pos rfl]
  have hOnly :
      ∀ u task', s.taskAt u = some task' →
        u = t ∧ task' = task := by
    intro u task' hAt
    rw [hTaskAt] at hAt
    split at hAt
    · rename_i hu
      cases hAt
      exact ⟨hu, rfl⟩
    · cases hAt
  have hHolds :
      ∀ u q, s.Holds u q ↔ u = t ∧ q = p := by
    intro u q
    constructor
    · rintro ⟨task', hAt, hq⟩
      rcases hOnly u task' hAt with ⟨rfl, rfl⟩
      rw [hElems, List.mem_singleton] at hq
      exact ⟨rfl, hq⟩
    · rintro ⟨rfl, rfl⟩
      exact ⟨task, hTask, by simp [hElems]⟩
  have hWf : Wf s tasks :=
    { tasksEq := hTasksEq
      tasksCurr := by
        rw [hTasksCurr]
        exact Nat.zero_le _
      tasksNodup := by simp [hTasks]
      tasksHead := by simp [hTasks, hKernelTask]
      taskLive := by
        intro u
        rw [hTasks, List.mem_singleton, hTaskAt]
        by_cases hu : u = t <;> simp [hu]
      taskNonnull := by
        rw [hTaskAt, if_neg hTaskNonnull.symm]
      threadNonnull := by
        rw [hThreadAt, if_neg hThreadNonnull.symm]
      listCurr := by
        intro u task' hAt
        rcases hOnly u task' hAt with ⟨_, rfl⟩
        simp [hElems, hCurr]
      listNodup := by
        intro u task' hAt
        rcases hOnly u task' hAt with ⟨_, rfl⟩
        simp [hElems]
      threadLive := by
        intro q
        simp only [hHolds, hThreadAt]
        by_cases hq : q = p <;> simp [hq]
      holdsUnique := by
        intro u u' q hu hu'
        rw [hHolds] at hu hu'
        exact hu.1.trans hu'.1.symm
      kernelDir := by
        intro u task' hAt
        rcases hOnly u task' hAt with ⟨rfl, rfl⟩
        simp [hDir, hKernelTask]
      dirLive := by
        intro u task' hAt
        rcases hOnly u task' hAt with ⟨_, rfl⟩
        rw [hDir, hLoaded]
        rfl
      dirUnique := by
        intro u u' task₁ task₂ h₁ h₂ _
        exact (hOnly u task₁ h₁).1.trans
          (hOnly u' task₂ h₂).1.symm }
  refine ⟨tasks, ?_⟩
  refine
    { wf := hWf
      threads := hThreads.trans hCurrentTask.symm
      owner := ⟨task, ?_, ?_, ?_⟩
      loaded := ?_
      passed := .inr ⟨hTasksCurr, ?_⟩
      kernel := fun _ => ⟨⟨task, ?_, ?_⟩, thread, ?_,
        hRunning⟩ }
  · rw [hCurrentTask]
    exact hTask
  · rw [hCurrentThread]
    simp [ListT.visited, hElems, hCurr]
  · rw [hDir, hDirectory]
  · rw [hDirectory]
    exact hLoaded
  · rw [hCurrentTask, hKernelTask]
  · rw [hKernelTask]
    exact hTask
  · rw [hElems, hKernelThread]
    rfl
  · rw [hKernelThread]
    exact hThread

------------------------------------------------------------
-- Every Call
------------------------------------------------------------

/- Every call that returns keeps the scheduler at rest. -/
theorem Call.atRest
    {bound : Nat}
    {c : Call}
    (hRest : AtRest up s tasks)
    (hKeeps : up → KeepsKernel s c)
    (hRun : (c.run bound).run s = .ok () s') :
    ∃ tasks', AtRest up s' tasks' := by
  cases c with
  | schedule =>
      have hSat := schedule_sat bound hRest
      rw [Call.run] at hRun
      rw [hRun] at hSat
      exact hSat.rest
  | sleep =>
      rcases Option.isSome_iff_exists.mp hRest.current_live with
        ⟨thread, hThread⟩
      have hSat := schedule_sat bound
        (hRest.withThread .waiting hThread
          (fun hu hSame => absurd hSame (hKeeps hu)))
      rw [Call.run, run_sleep bound hThread] at hRun
      rw [hRun] at hSat
      exact hSat.rest
  | threadExit =>
      rw [Call.run, Sched.threadExit,
        EStateM.bind_of_ok (EStateM.run_get s)] at hRun
      rcases setThreadState_ok hRun with ⟨thread, hThread, rfl⟩
      exact ⟨tasks, hRest.withThread .dying hThread
        (fun hu hSame => absurd hSame (hKeeps hu))⟩
  | wakeup p =>
      rw [Call.run, Sched.wakeup] at hRun
      rcases setThreadState_ok hRun with ⟨thread, hThread, rfl⟩
      exact ⟨tasks,
        hRest.withThread .running hThread
          (fun _ _ => rfl)⟩
  | kill p =>
      rw [Call.run, Sched.kill,
        EStateM.bind_of_ok (EStateM.run_get s)] at hRun
      split at hRun
      · rename_i hOther
        rcases setThreadState_ok hRun with ⟨thread, hThread, rfl⟩
        exact ⟨tasks, hRest.withThread .dying hThread
          (fun hu hSame => absurd (hKeeps hu hSame) hOther)⟩
      · cases hRun
        exact ⟨tasks, hRest⟩
  | execThread stack =>
      rw [Call.run, EStateM.bind_eq_ok_iff] at hRun
      rcases hRun with ⟨_, sExec, hExec, hRun⟩
      rcases eq_of_run_pure hRun with rfl
      rcases execThread_ok hExec with
        ⟨p, thread, task, hNonnull, hFresh, _, hTask, hSame⟩
      exact ⟨tasks,
        (hRest.spawn hNonnull hFresh hTask).of_sameLists
          hSame⟩
  | execElf stack =>
      rw [Call.run, EStateM.bind_eq_ok_iff] at hRun
      rcases hRun with ⟨_, sExec, hExec, hRun⟩
      rcases eq_of_run_pure hRun with rfl
      rcases execElf_ok hExec hRest.loaded with
        ⟨p, thread, t, task, d, physical, tasks₀, hNew⟩
      have hTasks : tasks₀ = tasks := by
        have hBefore := hNew.tasksEq
        rw [hRest.wf.tasksEq] at hBefore
        exact (Option.some.inj hBefore).symm
      subst hTasks
      exact ⟨_, (hRest.launch hNew).of_sameLists
        hNew.after⟩
  | fork =>
      rw [Call.run, EStateM.bind_eq_ok_iff] at hRun
      rcases hRun with ⟨_, sFork, hFork, hRun⟩
      rcases eq_of_run_pure hRun with rfl
      rcases fork_ok hFork with
        ⟨p, thread, t, task, d, physical, tasks₀, hNew⟩
      have hTasks : tasks₀ = tasks := by
        have hBefore := hNew.tasksEq
        rw [hRest.wf.tasksEq] at hBefore
        exact (Option.some.inj hBefore).symm
      subst hTasks
      exact ⟨_, (hRest.launch hNew).of_sameLists
        hNew.after⟩

/- Every step keeps the scheduler at rest. -/
theorem Step.atRest
    {allowed : State → Call → Prop}
    (hRest : AtRest up s tasks)
    (hKeeps : up → ∀ s c, allowed s c → KeepsKernel s c)
    (hStep : Step allowed s s') :
    ∃ tasks', AtRest up s' tasks' := by
  cases hStep with
  | call c bound hAllowed hRun =>
      exact Call.atRest hRest
        (fun hu => hKeeps hu s c hAllowed) hRun
  | supply regs kmallocs frames =>
      refine ⟨tasks, hRest.of_sameLists ?_⟩
      constructor <;> rfl

/- The states of runs that keep the kernel thread up. -/
theorem reachable_atRest_up
    (hReach : Reachable Booted (Step KeepsKernel) s) :
    ∃ tasks, AtRest True s tasks := by
  apply hReach.invariant
  · intro s hBooted
    exact hBooted.atRest
  · intro s s' _ hRest hStep
    rcases hRest with ⟨tasks, hRest⟩
    exact hStep.atRest hRest (fun _ _ _ h => h)

/- The states of all runs. -/
theorem reachable_atRest
    (hReach : Reachable Booted (Step AnyCall) s) :
    ∃ tasks, AtRest False s tasks := by
  apply hReach.invariant
  · intro s hBooted
    rcases hBooted.atRest with ⟨tasks, hRest⟩
    exact ⟨tasks, { hRest with kernel := False.elim }⟩
  · intro s s' _ hRest hStep
    rcases hRest with ⟨tasks, hRest⟩
    exact hStep.atRest hRest False.elim

end Sched

end SosKernel
