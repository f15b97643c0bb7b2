import SosKernel.Sched.Progress
import SosKernel.Sched.Safety

/-
  When a call of `schedule` terminates.

  Main declarations:
    * `Scheduling`, `Terminates`
    * `AtRest.exists_nextLive`
    * `schedule_terminates_iff`
    * `schedule_hangs_on_waiting`
-/

------------------------------------------------------------
-- Calls of `schedule`
------------------------------------------------------------

namespace SosKernel

namespace Sched

/-
  The states in which a run calls `schedule`: between two
  calls, and within `sleep`.
-/
inductive Scheduling : State → Prop where
| tick
    {s : State}
    (hReach : Reachable Booted (Step AnyCall) s) :
    Scheduling s
| sleep
    {s : State}
    {thread : Thread}
    (hReach : Reachable Booted (Step AnyCall) s)
    (hThread : s.threadAt s.currentThread = some thread) :
    Scheduling
      (s.withThread s.currentThread
        { thread with state := .waiting })

/- For some bound, `schedule` returns. -/
def Terminates (s : State) : Prop :=
  ∃ bound s', (schedule bound).run s = .ok () s'

/- The record at `p` is that of a running thread. -/
def State.Runs (s : State) (p : Nat) : Prop :=
  ∃ thread, s.threadAt p = some thread ∧
    thread.state = .running

variable {s s' : State}
variable {tasks : ListT}
variable {p : Nat}

theorem Scheduling.atRest
    (hCall : Scheduling s) :
    ∃ tasks, AtRest False s tasks := by
  cases hCall with
  | tick hReach => exact reachable_atRest hReach
  | sleep hReach hThread =>
      rcases reachable_atRest hReach with ⟨tasks, hRest⟩
      exact ⟨tasks,
        hRest.withThread .waiting hThread False.elim⟩

------------------------------------------------------------
-- The First Live Thread
------------------------------------------------------------

/- A running thread makes some thread the first live one. -/
theorem AtRest.exists_nextLive
    (hRest : AtRest False s tasks)
    (hRuns : s.Runs p) :
    ∃ q, s.nextLive = some q := by
  rcases hRuns with ⟨thread, hThread, hState⟩
  rcases hRest.sweeping.owner with ⟨owner, hOwner⟩
  rw [← Option.isSome_iff_exists]
  simp only [State.nextLive, hRest.wf.tasksEq, hOwner]
  rw [Option.isSome_or, Bool.or_eq_true]
  refine .inr ?_
  rw [List.findSome?_isSome_iff]
  have hNotDying : s.dying p = false := by
    rw [State.dying, hThread]
    simp [hState]
  have hLive : (s.threadAt p).isSome := by
    rw [hThread]
    rfl
  rcases (hRest.wf.threadLive p).mp hLive with ⟨t, hHolds⟩
  have hMem : p ∈ s.listOf t := mem_listOf_iff.mpr hHolds
  refine ⟨t, ?_, ?_⟩
  · -- the task of a thread is not vacant
    have hOccupied : s.vacant t = false :=
      vacant_eq_false_iff.mpr (List.ne_nil_of_mem hMem)
    rcases hHolds with ⟨task, hTask, _⟩
    have ht := hRest.wf.mem_tasks hTask
    rw [ListT.mem_elems_iff] at ht
    rw [State.round, List.mem_append, List.mem_sweep,
      List.mem_sweep]
    tauto
  · rw [State.firstIn, Option.isSome_iff_ne_none, ne_eq,
      List.sweepHead_eq_none_iff]
    intro hAll
    rw [hAll p hMem] at hNotDying
    cases hNotDying

/- A first live thread that does not run is waiting. -/
theorem AtRest.waiting_of_nextLive
    (hRest : AtRest False s tasks)
    (hNext : s.nextLive = some p)
    (hNot : ¬ s.Runs p) :
    ∃ thread, s.threadAt p = some thread ∧
      thread.state = .waiting := by
  rcases hRest.sweeping.owner with ⟨owner, hOwner⟩
  simp only [State.nextLive, hRest.wf.tasksEq, hOwner]
    at hNext
  have hFound :
      s.dying p = false ∧ ∃ t, s.Holds t p := by
    rw [Option.or_eq_some_iff] at hNext
    rcases hNext with hHead | ⟨_, hNext⟩
    · refine ⟨List.eq_false_of_sweepHead hHead,
        s.threads, owner, hOwner, ?_⟩
      rw [ListT.mem_elems_iff]
      exact .inr (List.mem_of_sweepHead hHead)
    · rcases List.exists_of_findSome?_eq_some hNext with ⟨t, _, hHead⟩
      exact ⟨List.eq_false_of_sweepHead hHead, t,
        mem_listOf_iff.mp (List.mem_of_sweepHead hHead)⟩
  rcases hFound with ⟨hNotDying, t, hHolds⟩
  rcases hRest.wf.exists_thread hHolds with ⟨thread, hThread⟩
  refine ⟨thread, hThread, ?_⟩
  cases hState : thread.state with
  | waiting => rfl
  | running => exact absurd ⟨thread, hThread, hState⟩ hNot
  | dying =>
      rw [State.dying, hThread] at hNotDying
      simp [hState] at hNotDying

------------------------------------------------------------
-- Termination
------------------------------------------------------------

/- What `schedule` does when its outer loop does not return. -/
theorem schedule_ne_ok_of_pickThread
    {bound : Nat}
    (hTasks : s.tasks = some tasks)
    (hPick :
      ∀ picked sPick,
        (pickThread bound bound 0).run s ≠
          .ok picked sPick) :
    (schedule bound).run s ≠ .ok () s' := by
  rw [schedule, EStateM.bind_of_ok (EStateM.run_get s)]
  simp only [hTasks, Option.isNone_some, Bool.false_eq_true,
    if_false]
  rw [ne_eq, EStateM.bind_eq_ok_iff]
  rintro ⟨picked, sPick, hRun, _⟩
  exact hPick picked sPick hRun

/- When the outer loop returns, so does `schedule`. -/
theorem schedule_ok_of_pickThread
    {bound : Nat}
    {picked : Nat × Nat}
    {sPick : State}
    (hRest : AtRest False s tasks)
    (hPick :
      (pickThread bound bound 0).run s =
        .ok picked sPick) :
    Terminates s := by
  have hSat := pickThread_sat bound bound hRest.sweeping
  rw [hPick] at hSat
  rcases hRest.settle hSat with ⟨s', hSwitch, _⟩
  refine ⟨bound, s', ?_⟩
  rw [schedule, EStateM.bind_of_ok (EStateM.run_get s)]
  simp only [hRest.wf.tasksEq, Option.isNone_some,
    Bool.false_eq_true, if_false]
  rw [EStateM.bind_of_ok hPick,
    EStateM.bind_of_ok (EStateM.run_get _)]
  exact hSwitch

/- A waiting thread under the cursor is never passed. -/
theorem not_terminates_of_waiting
    {newTask : Nat}
    {thread : Thread}
    (hTasks : s.tasks = some tasks)
    (hLeads : Leads s 0 s' newTask)
    (hUnder : s'.UnderCursor p)
    (hThread : s'.threadAt p = some thread)
    (hState : thread.state = .waiting) :
    ¬ Terminates s := by
  rintro ⟨bound, sEnd, hRun⟩
  rcases hLeads with ⟨least, used, hLeads⟩
  rcases hUnder with ⟨owner, rest, hOwner, hPending⟩
  -- a larger bound that reaches the waiting thread
  have hLarge := schedule_extends
    (show bound ≤ max bound least + 1 + used by omega)
    s () sEnd hRun
  refine schedule_ne_ok_of_pickThread hTasks ?_ hLarge
  intro picked sPick
  rw [hLeads _ (max bound least) (by omega),
    run_pickThread_stuck hOwner hPending hThread hState]
  intro hAbsurd
  cases hAbsurd

/-
  With a running thread and a kernel task that has threads,
  `schedule` terminates exactly when the first thread met
  that is not dying is a running one.
-/
theorem schedule_terminates_iff
    (hCall : Scheduling s)
    (hRuns : ∃ p, s.Runs p)
    (hKernel : ∃ p, s.Holds s.kernelTask p) :
    Terminates s ↔
      ∃ p, s.nextLive = some p ∧ s.Runs p := by
  rcases hCall.atRest with ⟨tasks, hRest⟩
  rcases hRuns with ⟨q, hRunning⟩
  rcases hRest.exists_nextLive hRunning with ⟨p, hNext⟩
  have hOccupied : s.vacant s.kernelTask = false := by
    rcases hKernel with ⟨k, hHolds⟩
    exact vacant_eq_false_iff.mpr
      (List.ne_nil_of_mem (mem_listOf_iff.mpr hHolds))
  rcases hRest.leads_nextLive hOccupied hNext with
    ⟨s', newTask, hLeads, hUnder, hSame⟩
  constructor
  · intro hTerminates
    refine ⟨p, hNext, ?_⟩
    by_contra hNot
    rcases hRest.waiting_of_nextLive hNext hNot with
      ⟨thread, hThread, hState⟩
    exact not_terminates_of_waiting hRest.wf.tasksEq hLeads
      hUnder (hSame.trans hThread) hState hTerminates
  · rintro ⟨p', hNext', thread, hThread, hState⟩
    rw [hNext] at hNext'
    cases hNext'
    rcases hLeads with ⟨least, used, hLeads⟩
    rcases hUnder with ⟨owner, rest, hOwner, hPending⟩
    have hMeets : ∀ bound,
        Meets bound newTask s' newTask s' owner p rest
          thread :=
      fun bound =>
        ⟨run_chooseTask_inside hOwner hPending, hOwner,
          hPending, hSame.trans hThread⟩
    have hPick :
        (pickThread (least + 1 + used) (least + 1 + used)
            0).run s =
          .ok (p, newTask)
            (s'.withList s'.threads owner
              (listNext owner.threads).2) := by
      rw [hLeads _ least (by omega),
        run_pickThread_running (hMeets _) hState]
    exact schedule_ok_of_pickThread hRest hPick

------------------------------------------------------------
-- A Waiting Thread at the Cursor
------------------------------------------------------------

/-
  The kernel thread starts a second thread, which is
  scheduled and sleeps, so that the kernel thread runs on.
-/
def sleptState : State :=
  EStateM.endState (sleep 1)
    (EStateM.endState (schedule 1)
      (EStateM.endState (Call.run 0 (.execThread 0x8000))
        startedState))

theorem reachable_sleptState :
    Reachable Booted (Step AnyCall) sleptState :=
  .step
    (.step
      (.step (.start booted_startedState)
        (.call (.execThread 0x8000) 0 trivial
          (EStateM.run_endState (by decide))))
      (.call .schedule 1 trivial
        (EStateM.run_endState (by decide))))
    (.call .sleep 1 trivial
      (EStateM.run_endState (by decide)))

/- The records and the cursor after the second thread slept. -/
theorem sleptState_facts :
    (sleptState.threadAt 1).map Thread.state =
        some .running ∧
      (sleptState.threadAt 7).map Thread.state =
        some .waiting ∧
      sleptState.tasks.isSome ∧
      sleptState.kernelTask = 2 ∧
      sleptState.threads = 2 ∧
      (sleptState.taskAt 2).map
          (fun task => task.threads.elems) = some [1, 7] ∧
      (sleptState.taskAt 2).map
          (fun task => task.threads.pending) = some [7] := by
  decide

attribute [irreducible] sleptState

theorem sleptState_runs : sleptState.Runs 1 := by
  rcases sleptState_facts with ⟨hRunning, _⟩
  rcases Option.map_eq_some_iff.mp hRunning with
    ⟨thread, hThread, hState⟩
  exact ⟨thread, hThread, hState⟩

theorem sleptState_kernel :
    sleptState.Holds sleptState.kernelTask 1 := by
  rcases sleptState_facts with ⟨_, _, _, hKernel, _, hElems, _⟩
  rcases Option.map_eq_some_iff.mp hElems with ⟨task, hTask, hList⟩
  rw [hKernel]
  exact ⟨task, hTask, by rw [hList]; simp⟩

/- The exact condition, where it fails. -/
theorem schedule_terminates_iff_slept :
    Terminates sleptState ↔
      ∃ p, sleptState.nextLive = some p ∧
        sleptState.Runs p :=
  schedule_terminates_iff (.tick reachable_sleptState)
    ⟨1, sleptState_runs⟩ ⟨1, sleptState_kernel⟩

/-
  The kernel thread is running and the kernel task has
  threads, but the waiting thread is under the cursor and
  `schedule` never returns.
-/
theorem schedule_hangs_on_waiting :
    Scheduling sleptState ∧
      (∃ p, sleptState.Runs p) ∧
      (∃ p, sleptState.Holds sleptState.kernelTask p) ∧
      ¬ Terminates sleptState := by
  refine ⟨.tick reachable_sleptState, ⟨1, sleptState_runs⟩,
    ⟨1, sleptState_kernel⟩, ?_⟩
  rcases sleptState_facts with
    ⟨_, hWaiting, hTasks, _, hThreads, _, hPending⟩
  rcases Option.isSome_iff_exists.mp hTasks with ⟨tasks, hTasks⟩
  rcases Option.map_eq_some_iff.mp hWaiting with
    ⟨thread, hThread, hState⟩
  rcases Option.map_eq_some_iff.mp hPending with ⟨task, hTask, hList⟩
  refine not_terminates_of_waiting hTasks
    (Leads.refl sleptState 0) ⟨task, [], ?_, hList⟩ hThread
    hState
  rw [hThreads]
  exact hTask

end Sched

end SosKernel
