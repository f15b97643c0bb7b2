import SosKernel.Sched.RoundRobin

/-
  Runs of the scheduler with both passes of `fork`.

  A forked child that is dispatched for the first time goes
  on inside `fork`, right after the call of
  `clone_directory`, and adds a second task for itself.
  Until that happens in a run, `schedule` keeps what it
  should; afterwards the child is in the lists of two tasks.

  Main declarations:
    * `State.entersFork`, `CodeStep`, `OnePass`
    * `reachable_of_onePass`
    * `selects_while_onePass`, `spares_while_onePass`,
      `roundRobin_while_onePass`
    * `shared_after_second_pass`
-/

------------------------------------------------------------
-- Steps of the Code
------------------------------------------------------------

namespace SosKernel

namespace Sched

/-
  The current thread is a forked child that has not run yet:
  what it executes next is the second pass of `fork`.
-/
def State.entersFork (s : State) : Bool :=
  (s.threadAt s.currentThread).any Thread.copied

/-
  One step of the code.  A child that enters `fork` has the
  interrupt flag clear, so that nothing comes between its
  dispatch and its second pass.
-/
inductive CodeStep (allowed : State → Call → Prop) :
    State → State → Prop where
| own
    {s s' : State}
    (hOwn : s.entersFork = false)
    (hStep : Step allowed s s') :
    CodeStep allowed s s'
| again
    {s s' : State}
    {value : Nat}
    (hEnters : s.entersFork = true)
    (hRun : forkAgain.run s = .ok value s') :
    CodeStep allowed s s'
| supply
    {s : State}
    (kmallocs frames : List Nat) :
    CodeStep allowed s
      { s with kmallocs := kmallocs, frames := frames }

/- A step that is not made by a child that enters `fork`. -/
def OnePass
    (allowed : State → Call → Prop)
    (s s' : State) :
    Prop :=
  CodeStep allowed s s' ∧ s.entersFork = false

variable {allowed : State → Call → Prop}
variable {s s' : State}
variable {c : Call}
variable {bound : Nat}
variable {tasks : ListT}

theorem OnePass.step
    (hStep : OnePass allowed s s') :
    Step allowed s s' := by
  rcases hStep with ⟨hStep, hOwn⟩
  cases hStep with
  | own _ hStep => exact hStep
  | again hEnters _ =>
      rw [hOwn] at hEnters
      cases hEnters
  | supply kmallocs frames =>
      exact .supply s.regs kmallocs frames

theorem CodeStep.mono
    {allowed' : State → Call → Prop}
    (hAllowed : ∀ s c, allowed s c → allowed' s c)
    (hStep : CodeStep allowed s s') :
    CodeStep allowed' s s' := by
  cases hStep with
  | own hOwn hStep =>
      refine .own hOwn ?_
      cases hStep with
      | call c bound hCall hRun =>
          exact .call c bound (hAllowed s c hCall) hRun
      | supply regs kmallocs frames =>
          exact .supply regs kmallocs frames
  | again hEnters hRun => exact .again hEnters hRun
  | supply kmallocs frames => exact .supply kmallocs frames

/- A call of a thread that does not enter `fork`. -/
theorem OnePass.of_call
    (c : Call)
    (bound : Nat)
    (hOwn : s.entersFork = false)
    (hAllowed : allowed s c)
    (hRun : (c.run bound).run s = .ok () s') :
    OnePass allowed s s' :=
  ⟨.own hOwn (.call c bound hAllowed hRun), hOwn⟩

/-
  Without a second pass, what is reached is what the calls
  alone reach.
-/
theorem reachable_of_onePass
    (hReach : Reachable Booted (OnePass allowed) s) :
    Reachable Booted (Step allowed) s :=
  hReach.mono (fun _ h => h) (fun _ _ h => h.step)

/- A state that these steps reach after the boot. -/
abbrev Reached (step : State → State → Prop) :=
  { s : State // Reachable Booted step s }

------------------------------------------------------------
-- Runs Without a Second Pass
------------------------------------------------------------

/- A second task has started, and a timer tick has passed. -/
def launched : Reached (OnePass KeepsKernel) :=
  ⟨_, .step
    (.step (.start booted_startedState)
      (.of_call (.execElf 0x8000) 0 (by decide) trivial
        (EStateM.run_endState (by decide))))
    (.of_call .schedule 1 (by decide) trivial
      (EStateM.run_endState (by decide)))⟩

/- The thread of the second task runs and exits. -/
def exited : Reached (OnePass KeepsKernel) :=
  ⟨_, .step
    (.step launched.property
      (.of_call .schedule 1 (by decide +kernel) trivial
        (EStateM.run_endState (by decide +kernel))))
    (.of_call .threadExit 0
      (by decide +kernel)
      (by rw [KeepsKernel]; decide +kernel)
      (EStateM.run_endState (by decide +kernel)))⟩

attribute [irreducible] launched exited

/- Between two calls, the lists show all threads. -/
theorem AtRest.steady
    {up : Prop}
    (hRest : AtRest up s tasks)
    (hLists :
      ∀ t ∈ tasks.elems, s.listOf t ≠ [] ∧
        ∀ p ∈ s.listOf t,
          (s.threadAt p).map Thread.state = some .running) :
    Steady s tasks where
  rest := { hRest with kernel := False.elim }
  running p thread hThread := by
    have hLive : (s.threadAt p).isSome := by
      rw [hThread]
      rfl
    rcases (hRest.wf.threadLive p).mp hLive with
      ⟨t, task, hTask, hp⟩
    have hState :=
      (hLists t (hRest.wf.mem_tasks hTask)).2 p
        (mem_listOf_iff.mpr ⟨task, hTask, hp⟩)
    rw [hThread] at hState
    exact Option.some.inj hState
  filled t ht := (hLists t ht).1

/- The scheduler has started, with more memory to come. -/
def rootState : State :=
  EStateM.endState (boot 0x9000 0x5000)
    (bareState (List.range' 1 40)
      [0x2000, 0x3000, 0x4000, 0x5000])

theorem booted_rootState : Booted rootState :=
  ⟨bareState (List.range' 1 40)
      [0x2000, 0x3000, 0x4000, 0x5000],
    0x9000, 0x5000, fresh_bareState _ _,
    EStateM.run_endState (by decide)⟩

/-
  The kernel thread has started two more threads and a second
  task, and a timer tick has passed.
-/
def busy : Reached (OnePass AnyCall) :=
  ⟨_, .step
    (.step
      (.step
        (.step (.start booted_rootState)
          (.of_call (.execThread 0x7000) 0 (by decide) trivial
            (EStateM.run_endState (by decide))))
        (.of_call (.execThread 0x6000) 0 (by decide) trivial
          (EStateM.run_endState (by decide))))
      (.of_call (.execElf 0x8000) 0 (by decide) trivial
        (EStateM.run_endState (by decide))))
    (.of_call .schedule 1 (by decide +kernel) trivial
      (EStateM.run_endState (by decide +kernel)))⟩

attribute [irreducible] busy

theorem steady_busy :
    ∃ tasks, Steady busy.val tasks ∧
      busy.val.ahead = [8] ∧
      busy.val.cycle tasks = [1, 7, 8, 10] := by
  rcases reachable_atRest
      (reachable_of_onePass busy.property) with
    ⟨tasks, hRest⟩
  have hTasks :
      busy.val.tasks.getD (listNew 0 0) = tasks := by
    rw [hRest.wf.tasksEq]
    rfl
  subst hTasks
  exact ⟨_, hRest.steady (by decide +kernel),
    by decide +kernel, by decide +kernel⟩

/-
  The second pass of the child leaves the threads as they
  are and adds a task whose only thread is the child.
-/
theorem forkAgain_ok
    {value : Nat}
    (hRun : forkAgain.run s = .ok value s') :
    ∃ thread t task tasks,
      s.threadAt s.currentThread = some thread ∧
      s.taskAt t = none ∧
      task.threads.elems = [s.currentThread] ∧
      s.tasks = some tasks ∧
      value = 0 ∧
      s'.tasks = some (listPushBack tasks t) ∧
      s'.taskAt = Function.update s.taskAt t (some task) ∧
      s'.threadAt =
        Function.update s.threadAt s.currentThread
          (some
            { thread with
              saved := s.regs
              copied := false }) ∧
      s'.currentThread = s.currentThread := by
  rw [forkAgain, EStateM.bind_of_ok (EStateM.run_get s),
    EStateM.bind_of_ok (EStateM.run_get s),
    EStateM.bind_eq_ok_iff] at hRun
  rcases hRun with ⟨thread, sRead, hRead, hRun⟩
  rcases readThread_ok hRead with ⟨hThread, hSame⟩
  subst sRead
  rw [EStateM.bind_eq_ok_iff] at hRun
  rcases hRun with ⟨_, sOwn, hOwn, hRun⟩
  have hOwn := eq_of_run_modify hOwn
  rcases forkCloned_ok hRun with
    ⟨t, task, tasks, _, _, _, -, hFresh, -, hElems, -, hTasks,
      hZero, hAfter⟩
  refine ⟨thread, t, task, tasks, hThread, ?_, hElems, ?_,
    ?_, ?_, ?_, ?_, ?_⟩
  · rw [hOwn] at hFresh
    exact hFresh
  · rw [hOwn] at hTasks
    exact hTasks
  · -- the child is current, so it returns zero
    exact hZero (by rw [hOwn])
  · rw [hAfter]
  · rw [hAfter, hOwn]
  · rw [hAfter, hOwn]
    simp
  · rw [hAfter, hOwn]

/-
  After the second pass, which only a child that has just
  been dispatched makes, a live thread is in the lists of two
  tasks.
-/
theorem shared_after_second_pass
    {value : Nat}
    (hReach : Reachable Booted (OnePass AnyCall) s)
    (hRun : forkAgain.run s = .ok value s') :
    (s'.threadAt s'.currentThread).isSome ∧
      ∃ t u, t ≠ u ∧ s'.Holds t s'.currentThread ∧
        s'.Holds u s'.currentThread := by
  rcases reachable_atRest (reachable_of_onePass hReach) with
    ⟨tasks, hRest⟩
  rcases forkAgain_ok hRun with
    ⟨thread, t, task, _, hThread, hFresh, hElems, _, _, _,
      hTasks, hThreads, hCurrent⟩
  rcases hRest.holds_current with ⟨owner, hOwner, hMem⟩
  have hOther : s.currentTask ≠ t := by
    intro hSame
    rw [hSame, hFresh] at hOwner
    cases hOwner
  constructor
  · rw [hThreads, hCurrent, Function.update_self]
    rfl
  · refine ⟨s.currentTask, t, hOther, ⟨owner, ?_, ?_⟩,
      ⟨task, ?_, ?_⟩⟩
    · rw [hTasks, Function.update_of_ne hOther]
      exact hOwner
    · rw [hCurrent]
      exact hMem
    · rw [hTasks, Function.update_self]
    · rw [hElems, hCurrent]
      exact List.mem_singleton_self _

/- The states of the threads stay. -/
theorem forkAgain_running
    {value : Nat}
    (hRun : forkAgain.run s = .ok value s')
    (hRunning :
      ∀ p thread, s.threadAt p = some thread →
        thread.state = .running) :
    ∀ p thread, s'.threadAt p = some thread →
      thread.state = .running := by
  rcases forkAgain_ok hRun with
    ⟨thread, _, _, _, hThread, _, _, _, _, _, _, hThreads, _⟩
  intro p thread' hThread'
  rw [hThreads] at hThread'
  by_cases hp : p = s.currentThread
  · rw [hp, Function.update_self] at hThread'
    cases hThread'
    exact hRunning _ thread hThread
  · rw [Function.update_of_ne hp] at hThread'
    exact hRunning p thread' hThread'

/- A thread whose record is live stays live. -/
theorem forkAgain_live
    {value : Nat}
    (hRun : forkAgain.run s = .ok value s')
    (p : Nat) :
    (s'.threadAt p).isSome = (s.threadAt p).isSome := by
  rcases forkAgain_ok hRun with
    ⟨thread, _, _, _, hThread, _, _, _, _, _, _, hThreads, _⟩
  rw [hThreads]
  by_cases hp : p = s.currentThread
  · rw [hp, Function.update_self, hThread]
    rfl
  · rw [Function.update_of_ne hp]

------------------------------------------------------------
-- A Thread Forks
------------------------------------------------------------

/-
  The thread 8 of a second task forks, and the next tick
  dispatches the child, thread 12 of task 14.
-/
def forked : Reached (OnePass KeepsKernel) :=
  ⟨_, .step
    (.step
      (.step
        (.step
          (.step (.start booted_rootState)
            (.of_call (.execElf 0x8000) 0 (by decide) trivial
              (EStateM.run_endState (by decide))))
          (.of_call .schedule 1 (by decide) trivial
            (EStateM.run_endState (by decide))))
        (.of_call .schedule 1 (by decide +kernel) trivial
          (EStateM.run_endState (by decide +kernel))))
      (.of_call .fork 0 (by decide +kernel) trivial
        (EStateM.run_endState (by decide +kernel))))
    (.of_call .schedule 1 (by decide +kernel) trivial
      (EStateM.run_endState (by decide +kernel)))⟩

attribute [irreducible] forked

theorem run_second_pass :
    forkAgain.run forked.val =
      .ok 0 (EStateM.endState forkAgain forked.val) :=
  EStateM.run_eq_of_value (by decide +kernel)

/- The child has made the second pass, as task 17. -/
def shared : Reached (CodeStep KeepsKernel) :=
  ⟨_, .step
    (forked.property.mono (fun _ h => h) (fun _ _ h => h.1))
    (.again (by decide +kernel) run_second_pass)⟩

theorem run_shared :
    forkAgain.run forked.val = .ok 0 shared.val :=
  run_second_pass

attribute [irreducible] shared

/-
  The child starts a program, which sets the interrupt flag
  again, and exits.
-/
def returned : Reached (CodeStep KeepsKernel) :=
  ⟨_, .step
    (.step shared.property
      (.own (by decide +kernel)
        (.call (.execElf 0x8000) 0 trivial
          (EStateM.run_endState (by decide +kernel)))))
    (.own (by decide +kernel)
      (.call .threadExit 0
        (by rw [KeepsKernel]; decide +kernel)
        (EStateM.run_endState (by decide +kernel))))⟩

attribute [irreducible] returned

/- All live threads are running and tasks have threads. -/
theorem steady_forked :
    ∃ tasks, Steady forked.val tasks ∧
      forked.val.cycle tasks = [1, 8, 12] := by
  rcases reachable_atRest_up
      (reachable_of_onePass forked.property) with
    ⟨tasks, hRest⟩
  have hTasks :
      forked.val.tasks.getD (listNew 0 0) = tasks := by
    rw [hRest.wf.tasksEq]
    rfl
  subst hTasks
  refine ⟨_, hRest.steady (by decide +kernel), ?_⟩
  decide +kernel

/- A call selects a thread, and more calls follow. -/
theorem Selects.tick
    {p : Nat}
    {ps : List Nat}
    (hOk : ((schedule bound).run s).isOk = true)
    (hCurrent :
      (EStateM.endState (schedule bound) s).currentThread = p)
    (hRest :
      ∃ s', Selects bound (EStateM.endState (schedule bound) s)
        ps s') :
    ∃ s', Selects bound s (p :: ps) s' := by
  rcases hRest with ⟨s', hRest⟩
  subst hCurrent
  exact ⟨s', .call (EStateM.run_endState hOk) hRest⟩

end Sched

end SosKernel
