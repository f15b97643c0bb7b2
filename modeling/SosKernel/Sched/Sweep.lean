import SosKernel.Sched.WellFormed

/-
  The loops of `schedule`: what they destroy, what they pick
  and what they leave alone.  The parts that rest on the
  kernel thread staying up are stated under a proposition
  `up`, so that they can be left out.

  Main declarations:
    * `Frame`: what no loop of `schedule` touches
    * `KernelUp`: the kernel thread heads its task's list
    * `Sweeping`: the invariant of the outer loop
    * `pickTask_sat`, `pickThread_sat`
-/

------------------------------------------------------------
-- What the Loops Leave Alone
------------------------------------------------------------

namespace SosKernel

namespace Sched

/-
  From `s` to `s'` the current and the kernel thread and
  task stay, and the records that are left have kept their
  contents, apart from the lists of tasks.
-/
structure Frame (s s' : State) : Prop where
  currentTask : s'.currentTask = s.currentTask
  currentThread : s'.currentThread = s.currentThread
  kernelTask : s'.kernelTask = s.kernelTask
  kernelThread : s'.kernelThread = s.kernelThread
  currentDirectory :
    s'.currentDirectory = s.currentDirectory
  cr3 : s'.cr3 = s.cr3
  thread :
    ∀ p thread, s'.threadAt p = some thread →
      s.threadAt p = some thread
  task :
    ∀ t task', s'.taskAt t = some task' →
      ∃ task, s.taskAt t = some task ∧
        task'.pageDirectory = task.pageDirectory ∧
        s'.dirAt task.pageDirectory =
          s.dirAt task.pageDirectory

theorem Frame.refl (s : State) : Frame s s where
  currentTask := rfl
  currentThread := rfl
  kernelTask := rfl
  kernelThread := rfl
  currentDirectory := rfl
  cr3 := rfl
  thread _ _ h := h
  task _ task' h := ⟨task', h, rfl, rfl⟩

theorem Frame.trans
    {s₁ s₂ s₃ : State}
    (h₁₂ : Frame s₁ s₂)
    (h₂₃ : Frame s₂ s₃) :
    Frame s₁ s₃ where
  currentTask := h₂₃.currentTask.trans h₁₂.currentTask
  currentThread :=
    h₂₃.currentThread.trans h₁₂.currentThread
  kernelTask := h₂₃.kernelTask.trans h₁₂.kernelTask
  kernelThread := h₂₃.kernelThread.trans h₁₂.kernelThread
  currentDirectory :=
    h₂₃.currentDirectory.trans h₁₂.currentDirectory
  cr3 := h₂₃.cr3.trans h₁₂.cr3
  thread p thread h :=
    h₁₂.thread p thread (h₂₃.thread p thread h)
  task t task₃ h := by
    rcases h₂₃.task t task₃ h with ⟨task₂, hTask₂, hDir₂, hAt₂⟩
    rcases h₁₂.task t task₂ hTask₂ with ⟨task₁, hTask₁, hDir₁, hAt₁⟩
    refine ⟨task₁, hTask₁, hDir₂.trans hDir₁, ?_⟩
    rw [← hAt₁, ← hDir₁, hAt₂]

theorem Frame.withList
    {s : State}
    {t : Nat}
    {task : Task}
    (list : ListT)
    (hTask : s.taskAt t = some task) :
    Frame s (s.withList t task list) where
  currentTask := rfl
  currentThread := rfl
  kernelTask := rfl
  kernelThread := rfl
  currentDirectory := rfl
  cr3 := rfl
  thread _ _ h := h
  task u task' h := by
    rcases exists_of_withList_taskAt hTask h with
      ⟨before, hBefore, hDir, _, _⟩
    exact ⟨before, hBefore, hDir, rfl⟩

theorem Frame.reap (s : State) (p : Nat) :
    Frame s (s.reap p) where
  currentTask := rfl
  currentThread := rfl
  kernelTask := rfl
  kernelThread := rfl
  currentDirectory := rfl
  cr3 := rfl
  thread q thread h := by
    simp only [State.reap, Function.update_apply] at h
    split at h
    · cases h
    · exact h
  task t task' h := ⟨task', h, rfl, rfl⟩

theorem Frame.withTasks (s : State) (tasks : ListT) :
    Frame s (s.withTasks tasks) where
  currentTask := rfl
  currentThread := rfl
  kernelTask := rfl
  kernelThread := rfl
  currentDirectory := rfl
  cr3 := rfl
  thread _ _ h := h
  task _ task' h := ⟨task', h, rfl, rfl⟩

theorem Frame.withThreads (s : State) (t : Nat) :
    Frame s { s with threads := t } where
  currentTask := rfl
  currentThread := rfl
  kernelTask := rfl
  kernelThread := rfl
  currentDirectory := rfl
  cr3 := rfl
  thread _ _ h := h
  task _ task' h := ⟨task', h, rfl, rfl⟩

theorem Frame.bury
    {s : State}
    {tasks tasks' : ListT}
    {t d : Nat}
    {task : Task}
    (hWf : Wf s tasks)
    (hTask : s.taskAt t = some task)
    (hDir : task.pageDirectory = .heap d) :
    Frame s ((s.withTasks tasks').bury t task d) where
  currentTask := rfl
  currentThread := rfl
  kernelTask := rfl
  kernelThread := rfl
  currentDirectory := rfl
  cr3 := rfl
  thread _ _ h := h
  task u task' h := by
    rcases taskAt_bury_iff.mp h with ⟨hNe, hOld⟩
    have hOther : task'.pageDirectory ≠ .heap d := by
      intro hSame
      exact hNe (hWf.dirUnique u t task' task hOld hTask
        (hSame.trans hDir.symm))
    refine ⟨task', hOld, rfl, ?_⟩
    simp only [State.bury, State.withTasks]
    rw [Function.update_of_ne hOther]

------------------------------------------------------------
-- The Kernel Thread
------------------------------------------------------------

/-
  The kernel thread is running and is the first thread of
  the kernel task.
-/
structure KernelUp (s : State) : Prop where
  heads :
    ∃ task, s.taskAt s.kernelTask = some task ∧
      task.threads.elems.head? = some s.kernelThread
  runs :
    ∃ thread, s.threadAt s.kernelThread = some thread ∧
      thread.state = .running

/- A task list keeps its records through the inner loop. -/
structure PickFrame (s s' : State) : Prop where
  frame : Frame s s'
  threads : s'.threads = s.threads
  threadAt : s'.threadAt = s.threadAt
  kept :
    ∀ u task, s.taskAt u = some task →
      task.threads.elems ≠ [] → s'.taskAt u = some task
  old :
    ∀ u task, s'.taskAt u = some task →
      s.taskAt u = some task

theorem PickFrame.refl (s : State) : PickFrame s s where
  frame := Frame.refl s
  threads := rfl
  threadAt := rfl
  kept _ _ h _ := h
  old _ _ h := h

theorem PickFrame.trans
    {s₁ s₂ s₃ : State}
    (h₁₂ : PickFrame s₁ s₂)
    (h₂₃ : PickFrame s₂ s₃) :
    PickFrame s₁ s₃ where
  frame := h₁₂.frame.trans h₂₃.frame
  threads := h₂₃.threads.trans h₁₂.threads
  threadAt := h₂₃.threadAt.trans h₁₂.threadAt
  kept u task h hNe :=
    h₂₃.kept u task (h₁₂.kept u task h hNe) hNe
  old u task h := h₁₂.old u task (h₂₃.old u task h)

theorem PickFrame.withTasks (s : State) (tasks : ListT) :
    PickFrame s (s.withTasks tasks) where
  frame := Frame.withTasks s tasks
  threads := rfl
  threadAt := rfl
  kept _ _ h _ := h
  old _ _ h := h

theorem PickFrame.bury
    {s : State}
    {tasks : ListT}
    {t d : Nat}
    {task : Task}
    (tasks' : ListT)
    (hWf : Wf s tasks)
    (hTask : s.taskAt t = some task)
    (hEmpty : task.threads.elems = [])
    (hDir : task.pageDirectory = .heap d) :
    PickFrame s ((s.withTasks tasks').bury t task d) where
  frame := Frame.bury hWf hTask hDir
  threads := rfl
  threadAt := rfl
  kept u task' h hNe := by
    apply taskAt_bury_iff.mpr
    refine ⟨?_, h⟩
    rintro rfl
    rw [hTask] at h
    cases h
    exact hNe hEmpty
  old u task' h := (taskAt_bury_iff.mp h).2

theorem KernelUp.of_pickFrame
    {s s' : State}
    (hUp : KernelUp s)
    (hFrame : PickFrame s s') :
    KernelUp s' := by
  rcases hUp.heads with ⟨task, hTask, hHead⟩
  constructor
  · refine ⟨task, ?_, ?_⟩
    · rw [hFrame.frame.kernelTask]
      apply hFrame.kept _ _ hTask
      intro hNil
      rw [hNil] at hHead
      cases hHead
    · rw [hFrame.frame.kernelThread]
      exact hHead
  · rw [hFrame.frame.kernelThread, hFrame.threadAt]
    exact hUp.runs

------------------------------------------------------------
-- The Inner Loop
------------------------------------------------------------

variable {up : Prop}

/-
  What the inner loop has picked: a task with threads, which
  is the last one its cursor has passed.  It is the current
  task only if that is the kernel task, and otherwise the
  current task is still behind the cursor.
-/
structure Picked
    (up : Prop)
    (s : State)
    (t : Nat)
    (s' : State) : Prop where
  frame : PickFrame s s'
  found :
    ∃ task, s'.taskAt t = some task ∧
      task.threads.elems ≠ []
  tasks :
    ∃ tasks', Wf s' tasks' ∧
      tasks'.visited.getLast? = some t ∧
      (up → t = s.kernelTask ∨
        t ≠ s.currentTask ∧
          ∀ u ∈ tasks'.pending, u = s.currentTask →
            u = s.kernelTask)

theorem Picked.of_pickFrame
    {s₁ s₂ s₃ : State}
    {t : Nat}
    (hFrame : PickFrame s₁ s₂)
    (hPicked : Picked up s₂ t s₃) :
    Picked up s₁ t s₃ where
  frame := hFrame.trans hPicked.frame
  found := hPicked.found
  tasks := by
    rw [← hFrame.frame.kernelTask,
      ← hFrame.frame.currentTask]
    exact hPicked.tasks

/- The task under the cursor, which has threads, is picked. -/
theorem picked_of_found
    {s : State}
    {tasks : ListT}
    {t : Nat}
    {rest : List Nat}
    {task : Task}
    (hWf : Wf s tasks)
    (hPending : tasks.pending = t :: rest)
    (hTask : s.taskAt t = some task)
    (hThreads : task.threads.elems ≠ [])
    (hAhead :
      up → t = s.kernelTask ∨
        t ≠ s.currentTask ∧
          ∀ u ∈ rest, u = s.currentTask →
            u = s.kernelTask) :
    Picked up s t (s.withTasks (listNext tasks).2) where
  frame := PickFrame.withTasks s _
  found := ⟨task, hTask, hThreads⟩
  tasks := by
    refine ⟨(listNext tasks).2, ?_, ?_, ?_⟩
    · apply hWf.withTasks_of_elems_eq
        (elems_listNext tasks)
      exact ListT.curr_lt_of_pending hPending
    · rw [visited_listNext hPending]
      simp
    · rw [pending_listNext hPending]
      exact hAhead

/-
  The inner loop with a task under its cursor, given what it
  does in the iterations that follow.
-/
theorem pickTask_sat_of_pending
    {s : State}
    {tasks : ListT}
    {t : Nat}
    {rest : List Nat}
    (fuel : Nat)
    (hWf : Wf s tasks)
    (hUp : up → KernelUp s)
    (hPending : tasks.pending = t :: rest)
    (hAhead :
      up → t = s.kernelTask ∨
        t ≠ s.currentTask ∧
          ∀ u ∈ rest, u = s.currentTask →
            u = s.kernelTask)
    (hNext :
      ∀ s' tasks', PickFrame s s' → Wf s' tasks' →
        (up → ∀ u ∈ tasks'.pending, u ∈ rest) →
        t ≠ s.kernelTask →
        ((pickTask fuel).run s').Sat
          (fun t s'' => Picked up s' t s'')
          (fun e s'' =>
            up → e = .hang ∧ PickFrame s' s'')) :
    ((pickTask (fuel + 1)).run s).Sat
      (fun t s' => Picked up s t s')
      (fun e s' => up → e = .hang ∧ PickFrame s s') := by
  have ht : t ∈ tasks.elems := by
    rw [ListT.mem_elems_iff, hPending]
    simp
  rcases hWf.exists_task ht with ⟨task, hTask⟩
  by_cases hEmpty : task.threads.elems = []
  · by_cases hKernel : t = s.kernelTask
    · have hDir :=
        (hWf.kernelDir t task hTask).mpr hKernel
      rcases run_pickTask_kernel hWf.tasksEq hPending hTask fuel hEmpty
          hDir with
        ⟨s', hPanic⟩
      rw [hPanic]
      intro hu
      rcases (hUp hu).heads with ⟨kernel, hAt, hHead⟩
      rw [← hKernel, hTask] at hAt
      cases hAt
      rw [hEmpty] at hHead
      cases hHead
    · rcases hWf.exists_heapDir hTask hKernel with ⟨d, hDir⟩
      rw [run_pickTask_empty hWf.tasksEq hPending hTask
        hEmpty hDir]
      have hFrame :=
        PickFrame.bury (listRemove tasks) hWf hTask hEmpty
          hDir
      have hRec := hNext _ _ hFrame
        (hWf.bury hPending hTask hEmpty hDir)
        (by
          intro _ u hu
          rwa [pending_listRemove hPending,
            List.mem_lastToFront] at hu)
        hKernel
      exact hRec.imp
        (fun _ _ h => Picked.of_pickFrame hFrame h)
        (fun _ _ h hu =>
          ⟨(h hu).1, hFrame.trans (h hu).2⟩)
  · rw [run_pickTask_found hWf.tasksEq hPending hTask
      hEmpty]
    exact picked_of_found hWf hPending hTask hEmpty hAhead

/-
  The inner loop picks a task with threads or stops; with
  the kernel thread up it stops only when its bound is used
  up, and it destroys only tasks without threads.
-/
theorem pickTask_sat
    {s : State}
    {tasks : ListT}
    (fuel : Nat)
    (hWf : Wf s tasks)
    (hUp : up → KernelUp s)
    (hAhead :
      up → ∀ u ∈ tasks.pending, u = s.currentTask →
        u = s.kernelTask) :
    ((pickTask fuel).run s).Sat
      (fun t s' => Picked up s t s')
      (fun e s' => up → e = .hang ∧ PickFrame s s') := by
  induction fuel generalizing s tasks with
  | zero =>
      intro _
      exact ⟨rfl, PickFrame.refl s⟩
  | succ fuel ih =>
      cases hPending : tasks.pending with
      | nil =>
          -- wrapped, the cursor meets the kernel task first
          rw [run_pickTask_wrap hWf.tasksEq hPending
            hWf.tasks_ne_nil]
          have hWf' := hWf.withTasks_of_elems_eq
            (elems_listRewind tasks) (Nat.zero_le _)
          have hFrame :=
            PickFrame.withTasks s (listRewind tasks)
          rcases List.exists_cons_of_ne_nil hWf.tasks_ne_nil with
            ⟨t, rest, hElems⟩
          have ht : t = s.kernelTask := by
            have hFirst := hWf.tasksHead
            rw [hElems] at hFirst
            exact Option.some.inj hFirst
          have hRec :=
            pickTask_sat_of_pending fuel hWf'
              (fun hu => (hUp hu).of_pickFrame hFrame)
              hElems (fun _ => .inl ht)
              (fun _ _ _ _ _ hNe => absurd ht hNe)
          exact hRec.imp
            (fun _ _ h => Picked.of_pickFrame hFrame h)
            (fun _ _ h hu =>
              ⟨(h hu).1, hFrame.trans (h hu).2⟩)
      | cons t rest =>
          rw [hPending] at hAhead
          have hRest :
              up → ∀ u ∈ rest, u = s.currentTask →
                u = s.kernelTask :=
            fun hu u h => hAhead hu u
              (List.mem_cons_of_mem _ h)
          apply pickTask_sat_of_pending fuel hWf hUp hPending
          · intro hu
            by_cases hCurrent : t = s.currentTask
            · exact .inl (hAhead hu t (by simp) hCurrent)
            · exact .inr ⟨hCurrent, hRest hu⟩
          · intro s' tasks' hFrame hWf' hSub _
            apply ih hWf'
              (fun hu => (hUp hu).of_pickFrame hFrame)
            intro hu u h
            rw [hFrame.frame.currentTask,
              hFrame.frame.kernelTask]
            exact hRest hu u (hSub hu u h)

------------------------------------------------------------
-- The Outer Loop
------------------------------------------------------------

/-
  The invariant of the outer loop.  While the kernel thread
  is up, either the cursor is at the head of the kernel
  task's list, so that the kernel thread is met next, or the
  current thread is in the part of the lists that has been
  passed.
-/
structure Sweeping
    (up : Prop)
    (s : State)
    (tasks : ListT)
    (newTask : Nat) : Prop where
  wf : Wf s tasks
  target : newTask = switchTarget s s.threads
  current :
    (s.threadAt s.currentThread).isSome →
      s.Holds s.currentTask s.currentThread
  passed :
    tasks.visited.getLast? = some s.threads ∨
      (tasks.curr = 0 ∧ s.threads = s.kernelTask)
  owner : ∃ owner, s.taskAt s.threads = some owner
  kernel : up → KernelUp s
  live : up → (s.threadAt s.currentThread).isSome
  phase :
    up →
      (s.threads = s.kernelTask ∧
        ∀ owner, s.taskAt s.threads = some owner →
          owner.threads.visited = []) ∨
      ((∀ u ∈ tasks.pending, u = s.currentTask →
          u = s.kernelTask) ∧
        ∀ owner, s.taskAt s.threads = some owner →
          s.currentThread ∉ owner.threads.pending)

/- What the outer loop returns. -/
structure Chosen
    (up : Prop)
    (s s' : State)
    (p newTask : Nat) : Prop where
  frame : Frame s s'
  target : newTask = switchTarget s' s'.threads
  current :
    (s'.threadAt s'.currentThread).isSome →
      s'.Holds s'.currentTask s'.currentThread
  tasks :
    ∃ tasks', Wf s' tasks' ∧
      (tasks'.visited.getLast? = some s'.threads ∨
        (tasks'.curr = 0 ∧ s'.threads = s'.kernelTask))
  picked :
    ∃ owner thread, s'.taskAt s'.threads = some owner ∧
      owner.threads.visited.getLast? = some p ∧
      s'.threadAt p = some thread ∧
      thread.state = .running
  kernel : up → KernelUp s'
  live : up → (s'.threadAt s'.currentThread).isSome

/- What holds when a loop of `schedule` has stopped. -/
structure Interrupted (s s' : State) : Prop where
  frame : Frame s s'
  currentThread : (s'.threadAt s.currentThread).isSome
  currentTask : (s'.taskAt s.currentTask).isSome

theorem interrupted_of_holds
    {s s' : State}
    {tasks : ListT}
    (hFrame : Frame s s')
    (hWf : Wf s' tasks)
    (hCurrent : s'.Holds s.currentTask s.currentThread) :
    Interrupted s s' where
  frame := hFrame
  currentThread := (hWf.threadLive _).mpr ⟨_, hCurrent⟩
  currentTask := by
    rcases hCurrent with ⟨task, hTask, _⟩
    rw [hTask]
    rfl

/- Rewinding the list of a task keeps the kernel thread. -/
theorem KernelUp.withList
    {s : State}
    {t : Nat}
    {task : Task}
    {list : ListT}
    (hUp : KernelUp s)
    (hTask : s.taskAt t = some task)
    (hHead : list.elems.head? = task.threads.elems.head?) :
    KernelUp (s.withList t task list) := by
  refine ⟨?_, hUp.runs⟩
  rcases hUp.heads with ⟨kernel, hKernel, hFirst⟩
  by_cases hSame : s.kernelTask = t
  · rw [hSame, hTask] at hKernel
    cases hKernel
    refine ⟨{ task with threads := list }, ?_, ?_⟩
    · exact (congrArg _ hSame).trans
        (withList_taskAt_self s t task list)
    · exact hHead.trans hFirst
  · refine ⟨kernel, ?_, hFirst⟩
    simp [State.withList, hSame, hKernel]

/-
  One choice of the outer loop: it stays inside its list, or
  enters the next task with threads.
-/
theorem chooseTask_sat
    {s : State}
    {tasks : ListT}
    {newTask : Nat}
    (bound : Nat)
    (hSweep : Sweeping up s tasks newTask) :
    ((chooseTask bound newTask).run s).Sat
      (fun chosen s' =>
        Frame s s' ∧
        (∃ tasks', Sweeping up s' tasks' chosen) ∧
        ∃ owner p rest, s'.taskAt s'.threads = some owner ∧
          owner.threads.pending = p :: rest)
      (fun e s' => up → e = .hang ∧ Interrupted s s') := by
  rcases hSweep.owner with ⟨owner, hOwner⟩
  cases hPending : owner.threads.pending with
  | cons p rest =>
      rw [run_chooseTask_inside hOwner hPending]
      exact ⟨Frame.refl s, ⟨tasks, hSweep⟩, owner, p, rest,
        hOwner, hPending⟩
  | nil =>
      set sRewound :=
        s.withList s.threads owner
          (listRewind owner.threads)
      have hWf : Wf sRewound tasks :=
        hSweep.wf.withList_of_elems_eq hOwner
          (elems_listRewind _) (Nat.zero_le _)
      have hHolds :=
        holds_withList_of_elems_eq hOwner
          (elems_listRewind owner.threads)
      have hUp : up → KernelUp sRewound :=
        fun hu => (hSweep.kernel hu).withList hOwner rfl
      -- the cursor has reached the end of a nonempty list,
      -- so the kernel thread is not the one to come
      have hAhead :
          up → ∀ u ∈ tasks.pending, u = s.currentTask →
            u = s.kernelTask := by
        intro hu
        rcases hSweep.phase hu with
          ⟨hKernel, hFresh⟩ | ⟨h, _⟩
        · exfalso
          rcases (hSweep.kernel hu).heads with ⟨kernel, hTask, hHead⟩
          rw [← hKernel, hOwner] at hTask
          cases hTask
          have hElems :=
            owner.threads.visited_append_pending
          rw [hFresh owner hOwner, hPending] at hElems
          rw [← hElems] at hHead
          cases hHead
        · exact h
      have hPick := pickTask_sat bound hWf hUp hAhead
      have hFrame : Frame s sRewound :=
        Frame.withList _ hOwner
      have hCurrentRewound :
          (s.threadAt s.currentThread).isSome →
            sRewound.Holds s.currentTask
              s.currentThread :=
        fun h => (hHolds _ _).mpr (hSweep.current h)
      cases hRun : (pickTask bound).run sRewound with
      | error e sPick =>
          rw [hRun] at hPick
          rw [run_chooseTask_end_error hOwner hPending hRun]
          intro hu
          rcases hPick hu with ⟨rfl, hPickFrame⟩
          rcases hCurrentRewound (hSweep.live hu) with
            ⟨task, hTask, hMem⟩
          have hKept := hPickFrame.kept _ _ hTask
            (List.ne_nil_of_mem hMem)
          refine ⟨rfl, hFrame.trans hPickFrame.frame, ?_, ?_⟩
          · rw [hPickFrame.threadAt]
            exact hSweep.live hu
          · rw [hKept]
            rfl
      | ok t sPick =>
          rw [hRun] at hPick
          rcases hPick.found with ⟨task, hTask, hThreads⟩
          rcases hPick.tasks with ⟨tasks', hWf', hLast, hPhase⟩
          rw [run_chooseTask_end _ hOwner hPending hRun hTask]
          have hEnterWf : Wf (sPick.enter t task) tasks' :=
            (hWf'.withList_of_elems_eq hTask
              (elems_listRewind _)
              (Nat.zero_le _)).withThreads t
          have hEnterHolds :=
            holds_withList_of_elems_eq hTask
              (elems_listRewind task.threads)
          have hEntered :
              (sPick.enter t task).taskAt t =
                some { task with
                  threads := listRewind task.threads } :=
            withList_taskAt_self _ _ _ _
          have hTotal : Frame s (sPick.enter t task) :=
            (hFrame.trans hPick.frame.frame).trans
              ((Frame.withList _ hTask).trans
                (Frame.withThreads _ t))
          have hThreadAt :
              (sPick.enter t task).threadAt = s.threadAt :=
            hPick.frame.threadAt
          have hCurrent :
              (s.threadAt s.currentThread).isSome →
                (sPick.enter t task).Holds s.currentTask
                  s.currentThread := by
            intro hLive
            rcases hCurrentRewound hLive with ⟨held, hHeld, hMem⟩
            exact (hEnterHolds _ _).mpr
              ⟨held,
                hPick.frame.kept _ _ hHeld
                  (List.ne_nil_of_mem hMem),
                hMem⟩
          rcases List.exists_cons_of_ne_nil hThreads with
            ⟨p, rest, hElems⟩
          have hUpPick : up → KernelUp sPick :=
            fun hu => (hUp hu).of_pickFrame hPick.frame
          have hUpEnter :
              up → KernelUp (sPick.enter t task) := by
            intro hu
            have hList :=
              (hUpPick hu).withList hTask
                (congrArg List.head?
                  (elems_listRewind task.threads))
            exact ⟨hList.heads, hList.runs⟩
          refine ⟨hTotal, ⟨tasks', ?_⟩, _, p, rest,
            hEntered, hElems⟩
          refine
            { wf := hEnterWf
              target := rfl
              current := ?_
              passed := .inl hLast
              owner := ⟨_, hEntered⟩
              kernel := hUpEnter
              live := ?_
              phase := ?_ }
          · rw [hTotal.currentTask, hTotal.currentThread,
              hThreadAt]
            exact hCurrent
          · rw [hTotal.currentThread, hThreadAt]
            exact hSweep.live
          · intro hu
            rcases hPhase hu with hKernel | ⟨hOther, hRest⟩
            · refine .inl ⟨?_, ?_⟩
              · rw [hTotal.kernelTask]
                exact hKernel
              · intro owner' hOwner'
                rw [show (sPick.enter t task).threads = t
                  from rfl, hEntered] at hOwner'
                cases hOwner'
                rfl
            · refine .inr ⟨?_, ?_⟩
              · rw [hTotal.kernelTask, hTotal.currentTask]
                exact hRest
              · intro owner' hOwner' hMem
                rw [show (sPick.enter t task).threads = t
                  from rfl] at hOwner'
                rw [hTotal.currentThread] at hMem
                apply hOther
                have hIn :
                    (sPick.enter t task).Holds t
                      s.currentThread :=
                  ⟨owner', hOwner',
                    ListT.mem_elems_iff.mpr (.inr hMem)⟩
                exact hEnterWf.holdsUnique _ _ _ hIn
                  (hCurrent (hSweep.live hu))

/-
  While the kernel thread is up, a dying thread under the
  cursor is neither the kernel thread nor the current one.
-/
theorem Sweeping.dying_ne
    {s : State}
    {tasks : ListT}
    {newTask p : Nat}
    {owner : Task}
    {rest : List Nat}
    {thread : Thread}
    (hSweep : Sweeping up s tasks newTask)
    (hOwner : s.taskAt s.threads = some owner)
    (hPending : owner.threads.pending = p :: rest)
    (hThread : s.threadAt p = some thread)
    (hState : thread.state = .dying)
    (hu : up) :
    p ≠ s.kernelThread ∧ p ≠ s.currentThread ∧
      (s.threads = s.kernelTask →
        owner.threads.visited ≠ []) ∧
      (∀ u ∈ tasks.pending, u = s.currentTask →
        u = s.kernelTask) ∧
      s.currentThread ∉ owner.threads.pending := by
  rcases (hSweep.kernel hu).heads with ⟨kernel, hKernel, hHead⟩
  have hElems : owner.threads.elems =
      owner.threads.visited ++ p :: rest := by
    rw [← hPending, owner.threads.visited_append_pending]
  have hNotKernel : p ≠ s.kernelThread := by
    rintro rfl
    rcases (hSweep.kernel hu).runs with ⟨running, hRunning, hRuns⟩
    rw [hThread] at hRunning
    cases hRunning
    rw [hState] at hRuns
    cases hRuns
  -- the head of the kernel list is the kernel thread
  have hVisited :
      s.threads = s.kernelTask →
        owner.threads.visited ≠ [] := by
    intro hSame hNil
    rw [← hSame, hOwner] at hKernel
    cases hKernel
    rw [hElems, hNil] at hHead
    exact hNotKernel (Option.some.inj hHead)
  have hClear :
      (∀ u ∈ tasks.pending, u = s.currentTask →
        u = s.kernelTask) ∧
      s.currentThread ∉ owner.threads.pending := by
    rcases hSweep.phase hu with
      ⟨hSame, hFresh⟩ | ⟨h, hNot⟩
    · exact absurd (hFresh owner hOwner) (hVisited hSame)
    · exact ⟨h, hNot owner hOwner⟩
  refine ⟨hNotKernel, ?_, hVisited, hClear⟩
  rintro rfl
  exact hClear.2 (by rw [hPending]; simp)

/- The invariant survives the removal of a dying thread. -/
theorem Sweeping.reap
    {s : State}
    {tasks : ListT}
    {newTask p : Nat}
    {owner : Task}
    {rest : List Nat}
    {thread : Thread}
    (hSweep : Sweeping up s tasks newTask)
    (hOwner : s.taskAt s.threads = some owner)
    (hPending : owner.threads.pending = p :: rest)
    (hThread : s.threadAt p = some thread)
    (hState : thread.state = .dying) :
    Sweeping up
      ((s.withList s.threads owner
        (listRemove owner.threads)).reap p)
      tasks newTask := by
  have hNe :=
    hSweep.dying_ne hOwner hPending hThread hState
  have hAfter :
      ((s.withList s.threads owner
        (listRemove owner.threads)).reap p).taskAt
          s.threads =
        some { owner with
          threads := listRemove owner.threads } :=
    withList_taskAt_self _ _ _ _
  have hLive : ∀ q,
      (((s.withList s.threads owner
        (listRemove owner.threads)).reap p).threadAt
          q).isSome ↔
        (s.threadAt q).isSome ∧ q ≠ p := by
    intro q
    by_cases hq : q = p
    · simp [State.reap, hq]
    · simp [State.reap, State.withList, hq]
  refine
    { wf := hSweep.wf.reap hOwner hPending
      target := hSweep.target
      current := ?_
      passed := hSweep.passed
      owner := ⟨_, hAfter⟩
      kernel := ?_
      live := ?_
      phase := ?_ }
  · intro hSome
    rcases (hLive _).mp hSome with ⟨hOld, hNot⟩
    exact (holds_reap_iff hSweep.wf hOwner hPending _ _).mpr
      ⟨hSweep.current hOld, hNot⟩
  · intro hu
    rcases hNe hu with ⟨hNotKernel, _, hVisited, _⟩
    rcases (hSweep.kernel hu).heads with ⟨kernel, hKernel, hHead⟩
    have hElems : owner.threads.elems =
        owner.threads.visited ++ p :: rest := by
      rw [← hPending,
        owner.threads.visited_append_pending]
    constructor
    · by_cases hSame : s.kernelTask = s.threads
      · refine ⟨{ owner with
          threads := listRemove owner.threads }, ?_, ?_⟩
        · exact (congrArg _ hSame).trans hAfter
        · rw [hSame, hOwner] at hKernel
          cases hKernel
          show (listRemove owner.threads).elems.head? = _
          rw [hElems] at hHead
          rw [elems_listRemove hPending]
          rcases List.exists_cons_of_ne_nil (hVisited hSame.symm) with
            ⟨x, xs, hCase⟩
          rw [hCase] at hHead ⊢
          exact hHead
      · refine ⟨kernel, ?_, hHead⟩
        simp [State.reap, State.withList, hSame, hKernel]
    · rcases (hSweep.kernel hu).runs with ⟨running, hRunning, hRuns⟩
      refine ⟨running, ?_, hRuns⟩
      simp [State.reap, State.withList, hNotKernel.symm,
        hRunning]
  · intro hu
    exact (hLive _).mpr
      ⟨hSweep.live hu, (hNe hu).2.1.symm⟩
  · intro hu
    rcases hNe hu with ⟨_, _, _, hTasks, hNot⟩
    refine .inr ⟨hTasks, ?_⟩
    intro owner' hOwner' hMem
    rw [show ((s.withList s.threads owner
      (listRemove owner.threads)).reap p).threads =
        s.threads from rfl, hAfter] at hOwner'
    cases hOwner'
    have hMem' :
        s.currentThread ∈
          (listRemove owner.threads).pending := hMem
    rw [pending_listRemove hPending,
      List.mem_lastToFront] at hMem'
    exact hNot (by rw [hPending]; simp [hMem'])

/- A running thread under the cursor is a proper choice. -/
theorem Sweeping.chosen
    {s : State}
    {tasks : ListT}
    {newTask p : Nat}
    {owner : Task}
    {rest : List Nat}
    {thread : Thread}
    (hSweep : Sweeping up s tasks newTask)
    (hOwner : s.taskAt s.threads = some owner)
    (hPending : owner.threads.pending = p :: rest)
    (hThread : s.threadAt p = some thread)
    (hState : thread.state = .running) :
    Chosen up s
      (s.withList s.threads owner
        (listNext owner.threads).2)
      p newTask := by
  have hHolds :=
    holds_withList_of_elems_eq hOwner
      (elems_listNext owner.threads)
  have hAfter :
      (s.withList s.threads owner
        (listNext owner.threads).2).taskAt s.threads =
        some { owner with
          threads := (listNext owner.threads).2 } :=
    withList_taskAt_self _ _ _ _
  refine
    { frame := Frame.withList _ hOwner
      target := hSweep.target
      current := fun h =>
        (hHolds _ _).mpr (hSweep.current h)
      tasks := ⟨tasks, ?_, hSweep.passed⟩
      picked := ⟨_, thread, hAfter, ?_, hThread, hState⟩
      kernel := fun hu =>
        (hSweep.kernel hu).withList hOwner rfl
      live := hSweep.live }
  · apply hSweep.wf.withList_of_elems_eq hOwner
      (elems_listNext _)
    exact ListT.curr_lt_of_pending hPending
  · show (listNext owner.threads).2.visited.getLast? = _
    rw [visited_listNext hPending]
    simp

theorem Chosen.of_frame
    {s₁ s₂ s₃ : State}
    {p newTask : Nat}
    (hFrame : Frame s₁ s₂)
    (hChosen : Chosen up s₂ s₃ p newTask) :
    Chosen up s₁ s₃ p newTask :=
  { hChosen with frame := hFrame.trans hChosen.frame }

theorem Interrupted.of_frame
    {s₁ s₂ s₃ : State}
    (hFrame : Frame s₁ s₂)
    (hInterrupted : Interrupted s₂ s₃) :
    Interrupted s₁ s₃ where
  frame := hFrame.trans hInterrupted.frame
  currentThread := by
    rw [← hFrame.currentThread]
    exact hInterrupted.currentThread
  currentTask := by
    rw [← hFrame.currentTask]
    exact hInterrupted.currentTask

/-
  The outer loop returns a running thread or stops.  With
  the kernel thread up it stops only when its bound is used
  up, and the current thread and task survive.
-/
theorem pickThread_sat
    {s : State}
    {tasks : ListT}
    {newTask : Nat}
    (bound fuel : Nat)
    (hSweep : Sweeping up s tasks newTask) :
    ((pickThread bound fuel newTask).run s).Sat
      (fun picked s' => Chosen up s s' picked.1 picked.2)
      (fun e s' => up → e = .hang ∧ Interrupted s s') := by
  induction fuel generalizing s tasks newTask with
  | zero =>
      intro hu
      exact ⟨rfl,
        interrupted_of_holds (Frame.refl s) hSweep.wf
          (hSweep.current (hSweep.live hu))⟩
  | succ fuel ih =>
      have hChoice := chooseTask_sat bound hSweep
      cases hRun : (chooseTask bound newTask).run s with
      | error e sErr =>
          rw [hRun] at hChoice
          rw [pickThread, EStateM.bind_of_error hRun]
          exact hChoice
      | ok chosen sRead =>
          rw [hRun] at hChoice
          rcases hChoice with
            ⟨hFrame, ⟨tasks', hSweep'⟩, owner, p, rest, hOwner,
              hPending⟩
          have hHolds :
              sRead.Holds sRead.threads p := by
            refine ⟨owner, hOwner, ?_⟩
            rw [ListT.mem_elems_iff, hPending]
            simp
          rcases hSweep'.wf.exists_thread hHolds with ⟨thread, hThread⟩
          have hMeets :
              Meets bound newTask s chosen sRead owner p
                rest thread :=
            ⟨hRun, hOwner, hPending, hThread⟩
          cases hState : thread.state with
          | dying =>
              rw [run_pickThread_dying hMeets hState]
              have hStep : Frame s
                  ((sRead.withList sRead.threads owner
                    (listRemove owner.threads)).reap p) :=
                (hFrame.trans
                  (Frame.withList _ hOwner)).trans
                    (Frame.reap _ p)
              exact (ih (hSweep'.reap hOwner hPending
                hThread hState)).imp
                (fun _ _ h => h.of_frame hStep)
                (fun _ _ h hu =>
                  ⟨(h hu).1, (h hu).2.of_frame hStep⟩)
          | waiting =>
              rw [run_pickThread_waiting hMeets hState]
              exact (ih hSweep').imp
                (fun _ _ h => h.of_frame hFrame)
                (fun _ _ h hu =>
                  ⟨(h hu).1, (h hu).2.of_frame hFrame⟩)
          | running =>
              rw [run_pickThread_running hMeets hState]
              exact (hSweep'.chosen hOwner hPending hThread
                hState).of_frame hFrame

end Sched

end SosKernel
