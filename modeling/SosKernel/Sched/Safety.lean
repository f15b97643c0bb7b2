import SosKernel.Sched.Run

/-
  What `schedule` guarantees in every run that keeps the
  kernel thread up.

  Main declarations:
    * `schedule_selects_running`
    * `schedule_spares_current`
-/

------------------------------------------------------------
-- Calls of `schedule`
------------------------------------------------------------

namespace SosKernel

namespace Sched

/- The calls in which `schedule` runs. -/
def Call.Schedules (c : Call) : Prop :=
  c = .schedule ∨ c = .sleep

/-
  The records of the thread and of the task that are current
  in `s` have not been destroyed in `s'`.
-/
structure Spared (s s' : State) : Prop where
  thread : (s'.threadAt s.currentThread).isSome
  task : (s'.taskAt s.currentTask).isSome

variable {s s' : State}
variable {c : Call}

/-
  A call in which `schedule` runs comes to rest on a running
  thread, or uses up its bound.  Either way the old current
  thread and task are spared.
-/
theorem Call.Schedules.sat
    (hCalls : c.Schedules)
    (bound : Nat)
    (hReach : Reachable Booted (Step KeepsKernel) s)
    (hAllowed : KeepsKernel s c) :
    ((c.run bound).run s).Sat
      (fun _ s' => Scheduled True s s')
      (fun e s' => e = .hang ∧ Spared s s') := by
  rcases reachable_atRest_up hReach with ⟨tasks, hRest⟩
  rcases hCalls with rfl | rfl
  · exact (schedule_sat bound hRest).imp
      (fun _ _ h => h)
      (fun _ _ h => ⟨(h trivial).1,
        (h trivial).2.currentThread,
        (h trivial).2.currentTask⟩)
  · rcases Option.isSome_iff_exists.mp hRest.current_live with
      ⟨thread, hThread⟩
    have hAsleep := hRest.withThread .waiting hThread
      (fun _ hSame => absurd hSame hAllowed)
    rw [Call.run, run_sleep bound hThread]
    exact (schedule_sat bound hAsleep).imp
      (fun _ _ h => ⟨h.rest, h.running, h.spared⟩)
      (fun _ _ h => ⟨(h trivial).1,
        (h trivial).2.currentThread,
        (h trivial).2.currentTask⟩)

------------------------------------------------------------
-- The Thread That Runs Next
------------------------------------------------------------

/-
  Whenever `schedule` returns, the current thread is running
  and in the list of the current task, that list is the one
  swept next, the task's address space is loaded, and every
  live thread is in the list of one task.
-/
theorem schedule_selects_running
    {bound : Nat}
    (hCalls : c.Schedules)
    (hReach : Reachable Booted (Step KeepsKernel) s)
    (hAllowed : KeepsKernel s c)
    (hRun : (c.run bound).run s = .ok () s') :
    (∃ thread, s'.threadAt s'.currentThread = some thread ∧
      thread.state = .running) ∧
    s'.Holds s'.currentTask s'.currentThread ∧
    s'.threads = s'.currentTask ∧
    (∃ task, s'.taskAt s'.currentTask = some task ∧
      s'.currentDirectory = task.pageDirectory ∧
      s'.dirAt task.pageDirectory = some s'.cr3) ∧
    ∀ p, (s'.threadAt p).isSome → ∃! t, s'.Holds t p := by
  have hSat := hCalls.sat bound hReach hAllowed
  rw [hRun] at hSat
  rcases hSat.rest with ⟨tasks, hRest⟩
  rcases hRest.owner with ⟨owner, hOwner, _, hDir⟩
  refine ⟨hSat.running, hRest.holds_current, hRest.threads,
    ⟨owner, hOwner, hDir.symm, ?_⟩, ?_⟩
  · rw [hDir]
    exact hRest.loaded
  · intro p hLive
    rcases (hRest.wf.threadLive p).mp hLive with ⟨t, ht⟩
    refine ⟨t, ht, ?_⟩
    intro u hu
    exact hRest.wf.holdsUnique u t p hu ht

------------------------------------------------------------
-- What Is Destroyed
------------------------------------------------------------

/-
  Whatever bound its loops are given, `schedule` returns or
  uses the bound up: it never destroys a record that is not
  live, as a second destruction would, and it never destroys
  the current thread or the current task.
-/
theorem schedule_spares_current
    (bound : Nat)
    (hCalls : c.Schedules)
    (hReach : Reachable Booted (Step KeepsKernel) s)
    (hAllowed : KeepsKernel s c) :
    ((c.run bound).run s).Sat
      (fun _ s' => Spared s s')
      (fun e s' => e = .hang ∧ Spared s s') :=
  (hCalls.sat bound hReach hAllowed).imp
    (fun _ _ h => ⟨(h.spared trivial).1,
      (h.spared trivial).2⟩)
    (fun _ _ h => h)

------------------------------------------------------------
-- A Start
------------------------------------------------------------

/-
  Before the start: nothing has been allocated, and the
  kernel directory is loaded.
-/
def bareState (kmallocs frames : List Nat) : State where
  threadAt _ := none
  taskAt _ := none
  dirAt dir :=
    if dir = .kernelDirectory then some 0x1000 else none
  tasks := none
  threads := 0
  currentTask := 0
  kernelTask := 0
  currentThread := 0
  kernelThread := 0
  currentDirectory := .kernelDirectory
  cr3 := 0x1000
  nextPid := 0
  nextTid := 0
  regs := zeroContext
  kmallocs := kmallocs
  frames := frames
  kfrees := []

theorem fresh_bareState (kmallocs frames : List Nat) :
    Fresh (bareState kmallocs frames) :=
  ⟨fun _ => rfl, fun _ => rfl, rfl, rfl⟩

/- The scheduler has started. -/
def startedState : State :=
  EStateM.endState (boot 0x9000 0x5000)
    (bareState [1, 2, 3, 4, 5, 6, 7, 8, 9, 10, 11] [0x2000])

theorem booted_startedState : Booted startedState :=
  ⟨bareState [1, 2, 3, 4, 5, 6, 7, 8, 9, 10, 11] [0x2000],
    0x9000, 0x5000, fresh_bareState _ _,
    EStateM.run_endState (by decide)⟩

end Sched

end SosKernel
