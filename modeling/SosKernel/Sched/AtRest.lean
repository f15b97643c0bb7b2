import SosKernel.Sched.Calls
import SosKernel.Sched.Sweep

/-
  The invariant between two calls of the scheduler, and what
  a call of `schedule` makes of it.

  Main declarations:
    * `AtRest`: the invariant between calls
    * `AtRest.sweeping`
    * `AtRest.spawn`, `AtRest.launch`
    * `schedule_sat`
-/

------------------------------------------------------------
-- Between Two Calls
------------------------------------------------------------

namespace SosKernel

namespace Sched

/-
  Between two calls the list that is swept is that of the
  current task, the current thread is the last one its
  cursor has passed, and the current task is the last one
  that the cursor of the task list has passed.
-/
structure AtRest
    (up : Prop)
    (s : State)
    (tasks : ListT) : Prop where
  wf : Wf s tasks
  threads : s.threads = s.currentTask
  owner :
    ∃ owner, s.taskAt s.currentTask = some owner ∧
      owner.threads.visited.getLast? =
        some s.currentThread ∧
      owner.pageDirectory = s.currentDirectory
  loaded : s.dirAt s.currentDirectory = some s.cr3
  passed :
    tasks.visited.getLast? = some s.currentTask ∨
      (tasks.curr = 0 ∧ s.currentTask = s.kernelTask)
  kernel : up → KernelUp s

variable {up : Prop}
variable {s s' : State}
variable {tasks : ListT}

/- The current thread is in the current task's list. -/
theorem AtRest.holds_current
    (hRest : AtRest up s tasks) :
    s.Holds s.currentTask s.currentThread := by
  rcases hRest.owner with ⟨owner, hOwner, hLast, _⟩
  refine ⟨owner, hOwner, ?_⟩
  rw [ListT.mem_elems_iff]
  exact .inl (List.mem_of_getLast? hLast)

theorem AtRest.current_live
    (hRest : AtRest up s tasks) :
    (s.threadAt s.currentThread).isSome :=
  (hRest.wf.threadLive _).mpr ⟨_, hRest.holds_current⟩

/- An element that the cursor has passed is not pending. -/
theorem ListT.not_mem_pending_of_getLast?
    {list : ListT}
    {p : Nat}
    (hNodup : list.elems.Nodup)
    (hLast : list.visited.getLast? = some p) :
    p ∉ list.pending := by
  intro hPending
  rw [← list.visited_append_pending,
    List.nodup_append] at hNodup
  exact hNodup.2.2 p (List.mem_of_getLast? hLast) p
    hPending rfl

/- `schedule` starts from a state that can be swept. -/
theorem AtRest.sweeping (hRest : AtRest up s tasks) :
    Sweeping up s tasks 0 := by
  rcases hRest.owner with ⟨owner, hOwner, hLast, _⟩
  refine
    { wf := hRest.wf
      target := ?_
      current := fun _ => hRest.holds_current
      passed := ?_
      owner := ?_
      kernel := hRest.kernel
      live := fun _ => hRest.current_live
      phase := fun _ => .inr ⟨?_, ?_⟩ }
  · rw [switchTarget, if_pos hRest.threads]
  · rw [hRest.threads]
    exact hRest.passed
  · rw [hRest.threads]
    exact ⟨owner, hOwner⟩
  · intro u hu hCurrent
    rcases hRest.passed with hPassed | ⟨_, hKernel⟩
    · subst u
      exact absurd hu
        (ListT.not_mem_pending_of_getLast?
          hRest.wf.tasksNodup hPassed)
    · exact hCurrent.trans hKernel
  · intro owner' hOwner'
    rw [hRest.threads, hOwner] at hOwner'
    cases hOwner'
    exact ListT.not_mem_pending_of_getLast?
      (hRest.wf.listNodup _ owner hOwner) hLast

theorem KernelUp.of_sameLists
    (hUp : KernelUp s)
    (hSame : SameLists s s') :
    KernelUp s' := by
  constructor
  · rw [hSame.taskAt, hSame.kernelTask, hSame.kernelThread]
    exact hUp.heads
  · rw [hSame.threadAt, hSame.kernelThread]
    exact hUp.runs

theorem AtRest.of_sameLists
    (hRest : AtRest up s tasks)
    (hSame : SameLists s s') :
    AtRest up s' tasks where
  wf := hRest.wf.of_sameLists hSame
  threads := by
    rw [hSame.threads, hSame.currentTask]
    exact hRest.threads
  owner := by
    rw [hSame.taskAt, hSame.currentTask,
      hSame.currentThread, hSame.currentDirectory]
    exact hRest.owner
  loaded := by
    rw [hSame.dirAt, hSame.currentDirectory, hSame.cr3]
    exact hRest.loaded
  passed := by
    rw [hSame.currentTask, hSame.kernelTask]
    exact hRest.passed
  kernel hu := (hRest.kernel hu).of_sameLists hSame

------------------------------------------------------------
-- Thread States
------------------------------------------------------------

/-
  Setting the state of a live thread, which is not the
  kernel thread unless it is set running.
-/
theorem AtRest.withThread
    {p : Nat}
    {thread : Thread}
    (state : ThreadState)
    (hRest : AtRest up s tasks)
    (hThread : s.threadAt p = some thread)
    (hKernel :
      up → p = s.kernelThread → state = .running) :
    AtRest up
      (s.withThread p { thread with state := state })
      tasks where
  wf := hRest.wf.withThread hThread
  threads := hRest.threads
  owner := hRest.owner
  loaded := hRest.loaded
  passed := hRest.passed
  kernel hu := by
    refine ⟨(hRest.kernel hu).heads, ?_⟩
    by_cases hp : p = s.kernelThread
    · subst hp
      exact ⟨_, withThread_threadAt_self _ _ _,
        hKernel hu rfl⟩
    · rcases (hRest.kernel hu).runs with ⟨kernel, hAt, hRuns⟩
      refine ⟨kernel, ?_, hRuns⟩
      exact (withThread_threadAt_of_ne _
        (Ne.symm hp)).trans hAt

theorem run_setThreadState
    {p : Nat}
    {thread : Thread}
    (state : ThreadState)
    (hThread : s.threadAt p = some thread) :
    (setThreadState p state).run s =
      .ok ()
        (s.withThread p { thread with state := state }) := by
  rw [setThreadState,
    EStateM.bind_of_ok (run_readThread hThread)]
  rfl

/- `sleep` is `schedule` with the current thread waiting. -/
theorem run_sleep
    {thread : Thread}
    (bound : Nat)
    (hThread : s.threadAt s.currentThread = some thread) :
    (sleep bound).run s =
      (schedule bound).run
        (s.withThread s.currentThread
          { thread with state := .waiting }) := by
  rw [sleep, EStateM.bind_of_ok (EStateM.run_get s),
    EStateM.bind_of_ok
      (run_setThreadState .waiting hThread), preempt]

------------------------------------------------------------
-- New Threads and Tasks
------------------------------------------------------------

theorem AtRest.spawn
    {p : Nat}
    {thread : Thread}
    {task : Task}
    (hRest : AtRest up s tasks)
    (hNonnull : p ≠ 0)
    (hFresh : s.threadAt p = none)
    (hTask : s.taskAt s.currentTask = some task) :
    AtRest up (s.spawn p thread s.currentTask task)
      tasks where
  wf := hRest.wf.spawn hNonnull hFresh hTask
  threads := hRest.threads
  owner := by
    rcases hRest.owner with ⟨owner, hOwner, hLast, hDir⟩
    rw [hTask] at hOwner
    cases hOwner
    refine ⟨{ task with
      threads := listPushBack task.threads p }, ?_, ?_,
      hDir⟩
    · simp [State.spawn]
    · rw [visited_listPushBack p
        (hRest.wf.listCurr _ task hTask)]
      exact hLast
  loaded := hRest.loaded
  passed := hRest.passed
  kernel hu := by
    rcases (hRest.kernel hu).heads with ⟨kernel, hKernel, hHead⟩
    rcases (hRest.kernel hu).runs with ⟨running, hRunning, hRuns⟩
    constructor
    · by_cases hSame : s.kernelTask = s.currentTask
      · rw [hSame, hTask] at hKernel
        cases hKernel
        refine ⟨{ task with
          threads := listPushBack task.threads p },
          ?_, ?_⟩
        · simp [State.spawn, hSame]
        · rw [elems_listPushBack, List.head?_append, hHead]
          rfl
      · refine ⟨kernel, ?_, hHead⟩
        simp [State.spawn, hSame, hKernel]
    · have hOther : s.kernelThread ≠ p := by
        rintro rfl
        rw [hFresh] at hRunning
        cases hRunning
      refine ⟨running, ?_, hRuns⟩
      simp [State.spawn, hOther, hRunning]

theorem AtRest.launch
    {p t d physical : Nat}
    {thread : Thread}
    {task : Task}
    (hRest : AtRest up s tasks)
    (hNew :
      Launched s s' p thread t task d physical tasks) :
    AtRest up (s.launch p thread t task d physical tasks)
      (listPushBack tasks t) where
  wf := hRest.wf.launch hNew
  threads := hRest.threads
  owner := by
    rcases hRest.owner with ⟨owner, hOwner, hLast, hDir⟩
    have hOther : s.currentTask ≠ t := by
      rintro rfl
      rw [hNew.taskFresh] at hOwner
      cases hOwner
    refine ⟨owner, ?_, hLast, hDir⟩
    simp [State.launch, hOther, hOwner]
  loaded := by
    have hOther : s.currentDirectory ≠ .heap d := by
      intro hSame
      have hLoaded := hRest.loaded
      rw [hSame, hNew.dirFresh] at hLoaded
      cases hLoaded
    simp only [State.launch]
    rw [Function.update_of_ne hOther]
    exact hRest.loaded
  passed := by
    rw [visited_listPushBack t hRest.wf.tasksCurr,
      curr_listPushBack]
    exact hRest.passed
  kernel hu := by
    rcases (hRest.kernel hu).heads with ⟨kernel, hKernel, hHead⟩
    rcases (hRest.kernel hu).runs with ⟨running, hRunning, hRuns⟩
    have hTask : s.kernelTask ≠ t := by
      rintro rfl
      rw [hNew.taskFresh] at hKernel
      cases hKernel
    have hThread : s.kernelThread ≠ p := by
      rintro rfl
      rw [hNew.threadFresh] at hRunning
      cases hRunning
    refine ⟨⟨kernel, ?_, hHead⟩, running, ?_, hRuns⟩
    · simp [State.launch, hTask, hKernel]
    · simp [State.launch, hThread, hRunning]

------------------------------------------------------------
-- The Context Switch
------------------------------------------------------------

/- The registers have been stored into the record at `p`. -/
def State.save (s : State) (p : Nat) : State :=
  { s with
    threadAt :=
      Function.update s.threadAt p
        ((s.threadAt p).map fun thread =>
          { thread with saved := s.regs }) }

theorem run_saveRegisters (p : Nat) :
    (saveRegisters p).run s = .ok () (s.save p) := rfl

theorem save_threadAt_of_ne
    {p q : Nat}
    (hq : q ≠ p) :
    (s.save p).threadAt q = s.threadAt q := by
  simp [State.save, hq]

/-
  The thread at `p` has become the current one; the old
  one's registers are in its record.
-/
def State.turn
    (s : State)
    (p : Nat)
    (regs : Context) : State :=
  { s.save s.currentThread with
    currentThread := p
    regs := regs }

/- The task at `t` and its address space have been loaded. -/
def State.load
    (s : State)
    (t : Nat)
    (dir : DirPtr)
    (physical : Nat) : State :=
  { s with
    currentTask := t
    currentDirectory := dir
    cr3 := physical }

/- The current thread's pointer is set after the save. -/
theorem run_turn (p : Nat) :
    (modify fun s : State =>
      { s with currentThread := p } :
        SchedM Unit).run (s.save s.currentThread) =
      .ok () (s.turn p s.regs) := rfl

theorem run_loadRegisters
    {p : Nat}
    {thread : Thread}
    (hThread : s.threadAt p = some thread) :
    (loadRegisters p).run s =
      .ok () { s with regs := thread.saved } := by
  rw [loadRegisters,
    EStateM.bind_of_ok (run_readThread hThread)]
  rfl

theorem run_switchPageDirectory
    {dir : DirPtr}
    {physical : Nat}
    (hDir : s.dirAt dir = some physical) :
    (switchPageDirectory dir).run s =
      .ok () (s.load s.currentTask dir physical) := by
  rw [switchPageDirectory,
    EStateM.bind_of_ok (EStateM.run_get s)]
  simp only [hDir]
  rfl

/- A switch that stays in the current task. -/
theorem run_switchContext_stay
    {p : Nat}
    {thread : Thread}
    (hThread : s.threadAt p = some thread)
    (hOther : p ≠ s.currentThread) :
    (switchContext p 0).run s =
      .ok () (s.turn p thread.saved) := by
  have hAt :
      (s.turn p s.regs).threadAt p = some thread :=
    (save_threadAt_of_ne hOther).trans hThread
  rw [switchContext, EStateM.bind_of_ok (EStateM.run_get s),
    EStateM.bind_of_ok (run_saveRegisters _),
    EStateM.bind_of_ok (run_turn p)]
  simp only [ne_eq, not_true_eq_false, if_false]
  exact run_loadRegisters hAt

/- A switch to another task and its address space. -/
theorem run_switchContext_task
    {p t physical : Nat}
    {thread : Thread}
    {task : Task}
    (hThread : s.threadAt p = some thread)
    (hOther : p ≠ s.currentThread)
    (hNonnull : t ≠ 0)
    (hTask : s.taskAt t = some task)
    (hDir : s.dirAt task.pageDirectory = some physical) :
    (switchContext p t).run s =
      .ok ()
        ((s.turn p thread.saved).load t task.pageDirectory
          physical) := by
  have hAtTask :
      ({ s.turn p s.regs with
        currentTask := t } : State).taskAt t =
        some task := hTask
  have hAtDir :
      ({ s.turn p s.regs with
        currentTask := t } : State).dirAt
          task.pageDirectory = some physical := hDir
  have hAt :
      ((s.turn p s.regs).load t task.pageDirectory
        physical).threadAt p = some thread :=
    (save_threadAt_of_ne hOther).trans hThread
  have hAdopt :
      (modify fun s : State =>
        { s with currentTask := t } :
          SchedM Unit).run (s.turn p s.regs) =
        .ok () { s.turn p s.regs with currentTask := t } :=
    rfl
  rw [switchContext, EStateM.bind_of_ok (EStateM.run_get s),
    EStateM.bind_of_ok (run_saveRegisters _),
    EStateM.bind_of_ok (run_turn p)]
  simp only [ne_eq, hNonnull, not_false_eq_true, if_true]
  rw [EStateM.bind_of_ok hAdopt,
    EStateM.bind_of_ok (run_readTask hAtTask),
    EStateM.bind_of_ok (run_switchPageDirectory hAtDir)]
  exact run_loadRegisters hAt

/- Storing registers is not observed by the lists. -/
theorem Wf.save
    (hWf : Wf s tasks)
    (p : Nat) :
    Wf (s.save p) tasks := by
  cases hThread : s.threadAt p with
  | none =>
      have hSame : s.save p = s := by
        simp only [State.save, hThread, Option.map_none]
        rw [← hThread, Function.update_eq_self]
      rw [hSame]
      exact hWf
  | some thread =>
      have hSame : s.save p =
          s.withThread p
            { thread with saved := s.regs } := by
        simp [State.save, State.withThread, hThread]
      rw [hSame]
      exact hWf.withThread hThread

theorem KernelUp.save
    (hUp : KernelUp s)
    (p : Nat) :
    KernelUp (s.save p) := by
  refine ⟨hUp.heads, ?_⟩
  rcases hUp.runs with ⟨running, hRunning, hRuns⟩
  by_cases hSame : s.kernelThread = p
  · subst hSame
    refine ⟨{ running with saved := s.regs }, ?_, hRuns⟩
    simp [State.save, hRunning]
  · exact ⟨running,
      (save_threadAt_of_ne hSame).trans hRunning, hRuns⟩

theorem isSome_save
    (p q : Nat) :
    ((s.save p).threadAt q).isSome =
      (s.threadAt q).isSome := by
  by_cases hq : q = p
  · subst hq
    simp [State.save]
  · rw [save_threadAt_of_ne hq]

------------------------------------------------------------
-- Scheduling
------------------------------------------------------------

/-
  What a call of `schedule` that returned has done: the
  state is at rest again, with a running current thread, and
  while the kernel thread is up the old current thread and
  task are still there.
-/
structure Scheduled
    (up : Prop)
    (s s' : State) : Prop where
  rest : ∃ tasks, AtRest up s' tasks
  running :
    ∃ thread, s'.threadAt s'.currentThread = some thread ∧
      thread.state = .running
  spared :
    up → (s'.threadAt s.currentThread).isSome ∧
      (s'.taskAt s.currentTask).isSome

/- The old current thread and task after the loops. -/
theorem Chosen.spared
    {p newTask : Nat}
    (hChosen : Chosen up s s' p newTask)
    (hu : up) :
    (s'.threadAt s.currentThread).isSome ∧
      (s'.taskAt s.currentTask).isSome := by
  have hLive := hChosen.live hu
  rcases hChosen.current hLive with ⟨task, hTask, _⟩
  rw [hChosen.frame.currentThread] at hLive
  rw [hChosen.frame.currentTask] at hTask
  exact ⟨hLive, by rw [hTask]; rfl⟩

/-
  The directory that is loaded is that of the current task,
  when the loops have left that task alone.
-/
theorem AtRest.directory_of_frame
    {task : Task}
    (hRest : AtRest up s tasks)
    (hFrame : Frame s s')
    (hTask : s'.taskAt s.currentTask = some task) :
    task.pageDirectory = s.currentDirectory ∧
      s'.dirAt s.currentDirectory = some s.cr3 := by
  rcases hRest.owner with ⟨owner, hOwner, _, hDir⟩
  rcases hFrame.task _ task hTask with ⟨before, hBefore, hSame, hAt⟩
  rw [hOwner] at hBefore
  cases hBefore
  rw [hDir] at hSame hAt
  exact ⟨hSame, hAt.trans hRest.loaded⟩

/- After the loops, the switch brings the state to rest. -/
theorem AtRest.settle
    {sPick : State}
    {p newTask : Nat}
    (hRest : AtRest up s tasks)
    (hChosen : Chosen up s sPick p newTask) :
    ∃ s',
      (if sPick.currentThread ≠ p then
          switchContext p newTask
        else
          pure ()).run sPick = .ok () s' ∧
      Scheduled up s s' := by
  rcases hChosen.tasks with ⟨tasks', hWf, hPassed⟩
  rcases hChosen.picked with
    ⟨owner, thread, hOwner, hLast, hThread, hState⟩
  have hFrame := hChosen.frame
  have hHolds : sPick.Holds sPick.threads p := by
    refine ⟨owner, hOwner, ?_⟩
    rw [ListT.mem_elems_iff]
    exact .inl (List.mem_of_getLast? hLast)
  -- what is loaded, when the swept list is the current one
  have hStay :
      sPick.threads = sPick.currentTask →
        owner.pageDirectory = sPick.currentDirectory ∧
        sPick.dirAt sPick.currentDirectory =
          some sPick.cr3 := by
    intro hSame
    rw [hFrame.currentDirectory, hFrame.cr3]
    apply hRest.directory_of_frame hFrame
    rw [← hFrame.currentTask, ← hSame]
    exact hOwner
  by_cases hCurrent : sPick.currentThread = p
  · -- the current thread goes on
    have hSame : sPick.threads = sPick.currentTask := by
      apply hWf.holdsUnique _ _ p hHolds
      rw [← hCurrent]
      apply hChosen.current
      rw [hCurrent, hThread]
      rfl
    rcases hStay hSame with ⟨hDir, hLoaded⟩
    refine ⟨sPick, by simp [hCurrent], ?_⟩
    refine
      { rest := ⟨tasks', ?_⟩
        running := ⟨thread, ?_, hState⟩
        spared := hChosen.spared }
    · refine
        { wf := hWf
          threads := hSame
          owner := ⟨owner, ?_, ?_, hDir⟩
          loaded := hLoaded
          passed := ?_
          kernel := hChosen.kernel }
      · rw [← hSame]
        exact hOwner
      · rw [hCurrent]
        exact hLast
      · rw [← hSame]
        exact hPassed
    · rw [hCurrent]
      exact hThread
  · rw [if_pos hCurrent]
    have hOther : p ≠ sPick.currentThread :=
      Ne.symm hCurrent
    have hSpared : ∀ s' : State, up →
        s'.threadAt =
          (sPick.save sPick.currentThread).threadAt →
        s'.taskAt = sPick.taskAt →
          (s'.threadAt s.currentThread).isSome ∧
            (s'.taskAt s.currentTask).isSome := by
      intro s' hu hThreadAt hTaskAt
      rw [hThreadAt, hTaskAt, isSome_save]
      exact hChosen.spared hu
    have hSaved :
        (sPick.save sPick.currentThread).threadAt p =
          some thread :=
      (save_threadAt_of_ne hOther).trans hThread
    have hWfSave := hWf.save sPick.currentThread
    have hNonnull := hWf.ne_zero_of_task hOwner
    have hTarget := hChosen.target
    by_cases hSame : sPick.threads = sPick.currentTask
    · -- another thread of the current task
      rcases hStay hSame with ⟨hDir, hLoaded⟩
      rw [switchTarget, if_pos hSame] at hTarget
      subst hTarget
      refine ⟨_, run_switchContext_stay hThread hOther, ?_⟩
      refine
        { rest := ⟨tasks', ?_⟩
          running := ⟨thread, hSaved, hState⟩
          spared := fun hu => hSpared _ hu rfl rfl }
      exact
        { wf := { hWfSave with }
          threads := hSame
          owner :=
            ⟨owner, (congrArg _ hSame.symm).trans hOwner,
              hLast, hDir⟩
          loaded := hLoaded
          passed := by
            rw [hSame] at hPassed
            exact hPassed
          kernel := fun hu =>
            let hUp :=
              (hChosen.kernel hu).save sPick.currentThread
            ⟨hUp.heads, hUp.runs⟩ }
    · -- a thread of another task
      rw [switchTarget, if_neg hSame] at hTarget
      subst hTarget
      rcases Option.isSome_iff_exists.mp
          (hWf.dirLive _ owner hOwner) with
        ⟨physical, hDir⟩
      refine ⟨_, run_switchContext_task hThread hOther
        hNonnull hOwner hDir, ?_⟩
      refine
        { rest := ⟨tasks', ?_⟩
          running := ⟨thread, hSaved, hState⟩
          spared := fun hu => hSpared _ hu rfl rfl }
      exact
        { wf := { hWfSave with }
          threads := rfl
          owner := ⟨owner, hOwner, hLast, rfl⟩
          loaded := hDir
          passed := hPassed
          kernel := fun hu =>
            let hUp :=
              (hChosen.kernel hu).save sPick.currentThread
            ⟨hUp.heads, hUp.runs⟩ }

/-
  A call of `schedule` between two calls returns with the
  state at rest, or stops; while the kernel thread is up it
  stops only when its bound is used up.
-/
theorem schedule_sat
    (bound : Nat)
    (hRest : AtRest up s tasks) :
    ((schedule bound).run s).Sat
      (fun _ s' => Scheduled up s s')
      (fun e s' => up → e = .hang ∧ Interrupted s s') := by
  have hPick := pickThread_sat bound bound hRest.sweeping
  have hSome : s.tasks.isNone = false := by
    rw [hRest.wf.tasksEq]
    rfl
  rw [schedule, EStateM.bind_of_ok (EStateM.run_get s)]
  simp only [hSome, Bool.false_eq_true, if_false]
  cases hRun : (pickThread bound bound 0).run s with
  | error e sPick =>
      rw [hRun] at hPick
      rw [EStateM.bind_of_error hRun]
      exact hPick
  | ok picked sPick =>
      rw [hRun] at hPick
      rcases picked with ⟨p, newTask⟩
      rw [EStateM.bind_of_ok hRun,
        EStateM.bind_of_ok (EStateM.run_get _)]
      rcases hRest.settle hPick with ⟨s', hSwitch, hDone⟩
      rw [hSwitch]
      exact hDone

end Sched

end SosKernel
