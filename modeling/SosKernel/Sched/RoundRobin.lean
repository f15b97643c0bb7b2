import SosKernel.Lib.Cycle
import SosKernel.Sched.Progress
import SosKernel.Sched.Safety

/-
  While all threads are running, `schedule` goes round.

  Main declarations:
    * `State.ahead`, `State.cycle`
    * `Steady`, `Steady.schedule`: one call
    * `Selects`: calls one after the other
    * `RoundRobin`, `schedule_round_robin`
-/

------------------------------------------------------------
-- The Order
------------------------------------------------------------

namespace SosKernel

namespace Sched

/- The rest of the current list, from its cursor. -/
def State.ahead (s : State) : List Nat :=
  match s.taskAt s.threads with
  | none => []
  | some owner => owner.threads.pending

/- The lists of all tasks, from the cursor of the task list. -/
def State.cycle (s : State) (tasks : ListT) : List Nat :=
  (tasks.pending ++ tasks.visited).flatMap s.listOf

/-
  Calls of `schedule` with nothing but the passing of time
  between them, and the threads that they select.
-/
inductive Selects (bound : Nat) :
    State → List Nat → State → Prop where
| done (s : State) : Selects bound s [] s
| call
    {s s₁ s₂ : State}
    {ps : List Nat}
    (hRun : (schedule bound).run s = .ok () s₁)
    (hRest : Selects bound s₁ ps s₂) :
    Selects bound s (s₁.currentThread :: ps) s₂
| time
    {s s₂ : State}
    {ps : List Nat}
    (regs : Context)
    (kmallocs frames : List Nat)
    (hRest :
      Selects bound
        { s with
          regs := regs, kmallocs := kmallocs, frames := frames }
        ps s₂) :
    Selects bound s ps s₂

/- The list holds each thread once, and nothing else. -/
def EachOnce (s : State) (ps : List Nat) : Prop :=
  ps.Nodup ∧ ∀ p, p ∈ ps ↔ (s.threadAt p).isSome

/-
  The threads `ps` are the first ones of the order.  Once a
  task has been picked, as many of them in a row as there
  are threads are all the threads.
-/
structure RoundRobin
    (s : State)
    (tasks : ListT)
    (ps : List Nat) : Prop where
  order :
    ∀ i (hi : i < ps.length),
      s.ahead.endless (s.cycle tasks) i = some ps[i]
  cycle : EachOnce s (s.cycle tasks)
  blocks :
    ∀ before block after,
      ps = before ++ block ++ after →
        block.length = (s.cycle tasks).length →
        0 < tasks.curr ∨ s.ahead.length ≤ before.length →
        EachOnce s block

/-
  A state between two calls, in which all threads are
  running and every task has a thread.
-/
structure Steady (s : State) (tasks : ListT) : Prop where
  rest : AtRest False s tasks
  running :
    ∀ p thread, s.threadAt p = some thread →
      thread.state = .running
  filled : ∀ t ∈ tasks.elems, s.listOf t ≠ []

variable {s s' : State}
variable {tasks tasks' : ListT}
variable {p newTask t : Nat}
variable {rest : List Nat}
variable {ps : List Nat}
variable {owner : Task}

------------------------------------------------------------
-- The Context Switch
------------------------------------------------------------

/-
  The lists and the states of the threads are the same, and
  `p` is the current thread.
-/
structure Switched (s : State) (p : Nat) (s' : State) :
    Prop where
  taskAt : s'.taskAt = s.taskAt
  tasks : s'.tasks = s.tasks
  threads : s'.threads = s.threads
  current : s'.currentThread = p
  states :
    ∀ q thread', s'.threadAt q = some thread' →
      ∃ thread, s.threadAt q = some thread ∧
        thread'.state = thread.state

theorem states_save
    {q r : Nat}
    {thread' : Thread}
    (hAfter : (s.save r).threadAt q = some thread') :
    ∃ thread, s.threadAt q = some thread ∧
      thread'.state = thread.state := by
  by_cases hq : q = r
  · subst hq
    rw [State.save] at hAfter
    simp only [Function.update_self] at hAfter
    rcases Option.map_eq_some_iff.mp hAfter with
      ⟨thread, hThread, rfl⟩
    exact ⟨thread, hThread, rfl⟩
  · rw [save_threadAt_of_ne hq] at hAfter
    exact ⟨thread', hAfter, rfl⟩

/- The record of a live thread is read, and nothing else. -/
theorem loadRegisters_ok
    (hRun : (loadRegisters p).run s = .ok () s') :
    ∃ thread, s.threadAt p = some thread ∧
      s' = { s with regs := thread.saved } := by
  rw [loadRegisters, EStateM.bind_eq_ok_iff] at hRun
  rcases hRun with ⟨thread, sRead, hRead, hRun⟩
  rcases readThread_ok hRead with ⟨hThread, rfl⟩
  cases hRun
  exact ⟨thread, hThread, rfl⟩

theorem switched_turn (s : State) (p : Nat) :
    Switched s p (s.turn p s.regs) where
  taskAt := rfl
  tasks := rfl
  threads := rfl
  current := rfl
  states _ _ hAfter := states_save hAfter

/- A switch that returns has loaded the record of `p`. -/
theorem switchContext_ok
    (hRun : (switchContext p t).run s = .ok () s') :
    ∃ thread, (s.turn p s.regs).threadAt p = some thread ∧
      (s' = s.turn p thread.saved ∨
        ∃ dir physical,
          s' = (s.turn p thread.saved).load t dir physical) := by
  rw [switchContext, EStateM.bind_of_ok (EStateM.run_get s),
    EStateM.bind_of_ok (run_saveRegisters _),
    EStateM.bind_of_ok (run_turn p)] at hRun
  by_cases hStay : t = 0
  · simp only [hStay, ne_eq, not_true_eq_false, if_false]
      at hRun
    rcases loadRegisters_ok hRun with ⟨thread, hThread, rfl⟩
    exact ⟨thread, hThread, .inl rfl⟩
  · simp only [ne_eq, hStay, not_false_eq_true, if_true]
      at hRun
    rw [EStateM.bind_eq_ok_iff] at hRun
    rcases hRun with ⟨_, sAdopt, hAdopt, hRun⟩
    cases hAdopt
    rw [EStateM.bind_eq_ok_iff] at hRun
    rcases hRun with ⟨task, sRead, hRead, hRun⟩
    rcases readTask_ok hRead with ⟨-, rfl⟩
    rw [EStateM.bind_eq_ok_iff] at hRun
    rcases hRun with ⟨_, sLoad, hLoad, hRun⟩
    rcases switchPageDirectory_ok hLoad with
      ⟨physical, -, rfl⟩
    rcases loadRegisters_ok hRun with ⟨thread, hThread, rfl⟩
    exact ⟨thread, hThread, .inr ⟨_, physical, rfl⟩⟩

theorem switched_of_run
    (hRun : (switchContext p t).run s = .ok () s') :
    Switched s p s' := by
  have hTurn := switched_turn s p
  rcases switchContext_ok hRun with
    ⟨thread, -, rfl | ⟨dir, physical, rfl⟩⟩
  · exact { hTurn with }
  · exact { hTurn with }

/- After the loops, the switch makes `p` current. -/
theorem AtRest.run_schedule
    {bound : Nat}
    {sPick : State}
    (hRest : AtRest False s tasks)
    (hPick :
      (pickThread bound bound 0).run s =
        .ok (p, newTask) sPick) :
    ∃ s',
      (schedule bound).run s = .ok () s' ∧
        Switched sPick p s' ∧
        ∃ tasks', AtRest False s' tasks' := by
  have hSat := pickThread_sat bound bound hRest.sweeping
  rw [hPick] at hSat
  rcases hRest.settle hSat with ⟨s', hSwitch, hDone⟩
  have hSome : s.tasks.isNone = false := by
    rw [hRest.wf.tasksEq]
    rfl
  refine ⟨s', ?_, ?_, hDone.rest⟩
  · rw [schedule, EStateM.bind_of_ok (EStateM.run_get s)]
    simp only [hSome, Bool.false_eq_true, if_false]
    rw [EStateM.bind_of_ok hPick,
      EStateM.bind_of_ok (EStateM.run_get _)]
    exact hSwitch
  · by_cases hOther : sPick.currentThread ≠ p
    · rw [if_pos hOther] at hSwitch
      exact switched_of_run hSwitch
    · rw [if_neg hOther] at hSwitch
      cases hSwitch
      exact
        { taskAt := rfl
          tasks := rfl
          threads := rfl
          current := not_not.mp hOther
          states := fun _ thread' hAfter =>
            ⟨thread', hAfter, rfl⟩ }

------------------------------------------------------------
-- The Loops
------------------------------------------------------------

/- What the loops do to the lists when `p` is picked. -/
structure Picks
    (s : State)
    (tasks : ListT)
    (p : Nat)
    (sPick : State)
    (tasks' : ListT) : Prop where
  tasksEq : sPick.tasks = some tasks'
  elems : tasks'.elems = tasks.elems
  threadAt : sPick.threadAt = s.threadAt
  listOf : ∀ t, sPick.listOf t = s.listOf t
  advances :
    List.Advances s.ahead (s.cycle tasks) p sPick.ahead
      (sPick.cycle tasks')

theorem ahead_of_owner
    (hOwner : s.taskAt s.threads = some owner) :
    s.ahead = owner.threads.pending := by
  rw [State.ahead, hOwner]

theorem cycle_congr
    (hLists : ∀ t, s'.listOf t = s.listOf t)
    (tasks : ListT) :
    s'.cycle tasks = s.cycle tasks := by
  have hSame : s'.listOf = s.listOf := funext hLists
  rw [State.cycle, State.cycle, hSame]

/- In the current list, the thread under the cursor. -/
theorem Steady.picks_inside
    (hSteady : Steady s tasks)
    (bound fuel : Nat)
    (hOwner : s.taskAt s.threads = some owner)
    (hPending : owner.threads.pending = p :: rest) :
    ∃ sPick,
      (pickThread bound (fuel + 1) 0).run s =
          .ok (p, 0) sPick ∧
        Picks s tasks p sPick tasks := by
  have hWf := hSteady.rest.wf
  have hHolds : s.Holds s.threads p := by
    refine ⟨owner, hOwner, ?_⟩
    rw [ListT.mem_elems_iff, hPending]
    exact .inr List.mem_cons_self
  rcases hWf.exists_thread hHolds with ⟨thread, hThread⟩
  have hMeets : Meets bound 0 s 0 s owner p rest thread :=
    ⟨run_chooseTask_inside hOwner hPending, hOwner,
      hPending, hThread⟩
  refine ⟨_, run_pickThread_running hMeets
    (hSteady.running p thread hThread), ?_⟩
  have hLists :=
    listOf_withList_of_elems_eq hOwner
      (elems_listNext owner.threads)
  refine ⟨hWf.tasksEq, rfl, rfl, hLists, .inl ⟨?_, ?_⟩⟩
  · rw [ahead_of_owner hOwner, hPending,
      ahead_of_owner (withList_taskAt_self _ _ _ _),
      pending_listNext hPending]
  · exact cycle_congr hLists tasks

/-
  The task under the cursor, which a cursor at the end goes
  back for, is picked.
-/
theorem run_pickTask_next
    (bound : Nat)
    (hTasks : s.tasks = some tasks)
    (hNonempty : tasks.elems ≠ [])
    (hFilled :
      ∀ t ∈ tasks.elems,
        ∃ task, s.taskAt t = some task ∧
          task.threads.elems ≠ []) :
    ∃ t ts tasks',
      (pickTask (bound + 1)).run s =
          .ok t (s.withTasks tasks') ∧
        tasks'.elems = tasks.elems ∧
        tasks.pending ++ tasks.visited = t :: ts ∧
        tasks'.pending ++ tasks'.visited = ts ++ [t] := by
  cases hPending : tasks.pending with
  | cons t rest =>
      have hMem : t ∈ tasks.elems := by
        rw [ListT.mem_elems_iff, hPending]
        exact .inr List.mem_cons_self
      rcases hFilled t hMem with ⟨task, hTask, hThreads⟩
      refine ⟨t, rest ++ tasks.visited, (listNext tasks).2,
        run_pickTask_found hTasks hPending hTask hThreads,
        elems_listNext tasks, rfl, ?_⟩
      rw [pending_listNext hPending,
        visited_listNext hPending, List.append_assoc]
  | nil =>
      rcases List.exists_cons_of_ne_nil hNonempty with
        ⟨t, rest, hElems⟩
      have hRewound : (listRewind tasks).pending = t :: rest :=
        hElems
      rcases hFilled t (by rw [hElems]; exact List.mem_cons_self)
        with ⟨task, hTask, hThreads⟩
      have hAll : tasks.visited = t :: rest := by
        rw [← hElems, ← tasks.visited_append_pending,
          hPending, List.append_nil]
      refine ⟨t, rest, (listNext (listRewind tasks)).2, ?_,
        rfl, hAll, ?_⟩
      · rw [run_pickTask_wrap hTasks hPending hNonempty]
        exact run_pickTask_found rfl hRewound hTask hThreads
      · rw [pending_listNext hRewound,
          visited_listNext hRewound]
        rfl

/- At the end of the current list, the next task's first. -/
theorem Steady.picks_end
    (hSteady : Steady s tasks)
    (bound : Nat)
    (hOwner : s.taskAt s.threads = some owner)
    (hPending : owner.threads.pending = []) :
    ∃ p newTask sPick tasks',
      (pickThread (bound + 1) (bound + 1) 0).run s =
          .ok (p, newTask) sPick ∧
        Picks s tasks p sPick tasks' := by
  have hWf := hSteady.rest.wf
  -- the loop rewinds the current list before it picks
  have hLists :=
    listOf_withList_of_elems_eq hOwner
      (elems_listRewind owner.threads)
  have hFilled :
      ∀ t ∈ tasks.elems,
        ∃ task,
          (s.withList s.threads owner
            (listRewind owner.threads)).taskAt t =
              some task ∧
            task.threads.elems ≠ [] := by
    intro t ht
    have hLive := (hWf.taskLive t).mp ht
    rw [← isSome_withList_taskAt
      (listRewind owner.threads) hOwner] at hLive
    rcases Option.isSome_iff_exists.mp hLive with
      ⟨task, hTask⟩
    refine ⟨task, hTask, ?_⟩
    rw [← listOf_of_taskAt hTask, hLists]
    exact hSteady.filled t ht
  rcases run_pickTask_next bound
      (s := s.withList s.threads owner
        (listRewind owner.threads))
      hWf.tasksEq hWf.tasks_ne_nil hFilled with
    ⟨t, ts, tasks', hPick, hElems, hBefore, hAfter⟩
  have hMem : t ∈ tasks.elems := by
    have hIn : t ∈ tasks.pending ++ tasks.visited := by
      rw [hBefore]
      exact List.mem_cons_self
    rw [ListT.mem_elems_iff]
    exact (List.mem_append.mp hIn).symm
  rcases hFilled t hMem with ⟨task, hTask, hThreads⟩
  have hTask' :
      ((s.withList s.threads owner
          (listRewind owner.threads)).withTasks
        tasks').taskAt t = some task := hTask
  have hChoose :=
    run_chooseTask_end 0 hOwner hPending hPick hTask'
  generalize hEnter :
    ((s.withList s.threads owner
      (listRewind owner.threads)).withTasks tasks').enter t
        task = sRead at hChoose
  have hAt :
      ∃ entered,
        sRead.taskAt sRead.threads = some entered ∧
          entered.threads = listRewind task.threads := by
    rw [← hEnter]
    exact ⟨_, withList_taskAt_self _ _ _ _, rfl⟩
  rcases hAt with ⟨entered, hAt, hRewound⟩
  have hListsRead : ∀ u, sRead.listOf u = s.listOf u := by
    intro u
    rw [← hEnter, ← hLists u]
    exact listOf_withList_of_elems_eq hTask'
      (elems_listRewind task.threads) u
  rcases List.exists_cons_of_ne_nil hThreads with
    ⟨p, rest, hCons⟩
  have hList : s.listOf t = p :: rest := by
    rw [← hLists, listOf_of_taskAt hTask, hCons]
  have hHolds : s.Holds t p := by
    rw [← mem_listOf_iff, hList]
    exact List.mem_cons_self
  rcases hWf.exists_thread hHolds with ⟨thread, hThread⟩
  have hThreadAt : sRead.threadAt = s.threadAt := by
    rw [← hEnter]
    rfl
  have hFirst : entered.threads.pending = p :: rest := by
    rw [hRewound]
    exact hCons
  have hMeets :
      Meets (bound + 1) 0 s _ sRead entered p rest thread :=
    ⟨hChoose, hAt, hFirst, by rw [hThreadAt, hThread]⟩
  have hListsPick :
      ∀ u,
        (sRead.withList sRead.threads entered
          (listNext entered.threads).2).listOf u =
            s.listOf u := by
    intro u
    rw [← hListsRead u]
    exact listOf_withList_of_elems_eq hAt
      (elems_listNext entered.threads) u
  refine ⟨p, _, _, tasks',
    run_pickThread_running hMeets
      (hSteady.running p thread hThread), ?_⟩
  refine ⟨?_, hElems, hThreadAt, hListsPick, .inr ⟨?_, ?_⟩⟩
  · rw [← hEnter]
    rfl
  · rw [ahead_of_owner hOwner, hPending]
  · have hAhead :
        (sRead.withList sRead.threads entered
          (listNext entered.threads).2).ahead = rest := by
      rw [ahead_of_owner (withList_taskAt_self _ _ _ _)]
      exact pending_listNext hFirst
    refine ⟨ts.flatMap s.listOf, ?_, ?_⟩
    · rw [hAhead, State.cycle, hBefore, List.flatMap_cons,
        hList]
    · rw [hAhead, cycle_congr hListsPick, State.cycle, hAfter,
        List.flatMap_append, List.flatMap_singleton, hList]

------------------------------------------------------------
-- Calls
------------------------------------------------------------

/- A call selects the next thread of the order. -/
theorem Steady.schedule
    {bound : Nat}
    (hSteady : Steady s tasks)
    (hBound : 0 < bound) :
    ∃ s' tasks',
      (Sched.schedule bound).run s = .ok () s' ∧
        Steady s' tasks' ∧
        List.Advances s.ahead (s.cycle tasks)
          s'.currentThread s'.ahead (s'.cycle tasks') := by
  rcases Nat.exists_eq_succ_of_ne_zero
    (Nat.ne_of_gt hBound) with ⟨bound, rfl⟩
  have hPicks :
      ∃ p newTask sPick tasks',
        (pickThread (bound + 1) (bound + 1) 0).run s =
            .ok (p, newTask) sPick ∧
          Picks s tasks p sPick tasks' := by
    rcases hSteady.rest.sweeping.owner with ⟨owner, hOwner⟩
    cases hPending : owner.threads.pending with
    | nil => exact hSteady.picks_end bound hOwner hPending
    | cons p rest =>
        rcases hSteady.picks_inside (bound + 1) bound hOwner
          hPending with ⟨sPick, hPicks⟩
        exact ⟨p, 0, sPick, tasks, hPicks⟩
  rcases hPicks with ⟨p, newTask, sPick, tasks', hRun, hPicks⟩
  rcases hSteady.rest.run_schedule hRun with
    ⟨s', hSchedule, hSwitched, tasks₁, hRest⟩
  have hTasks : tasks₁ = tasks' := by
    have hEq := hRest.wf.tasksEq
    rw [hSwitched.tasks, hPicks.tasksEq] at hEq
    exact (Option.some.inj hEq).symm
  subst hTasks
  have hLists : ∀ t, s'.listOf t = sPick.listOf t := by
    intro t
    rw [State.listOf, State.listOf, hSwitched.taskAt]
  refine ⟨s', tasks₁, hSchedule, ⟨hRest, ?_, ?_⟩, ?_⟩
  · intro q thread' hThread'
    rcases hSwitched.states q thread' hThread' with
      ⟨thread, hThread, hState⟩
    rw [hPicks.threadAt] at hThread
    rw [hState]
    exact hSteady.running q thread hThread
  · intro t ht
    rw [hPicks.elems] at ht
    rw [hLists, hPicks.listOf]
    exact hSteady.filled t ht
  · have hAhead : s'.ahead = sPick.ahead := by
      rw [State.ahead, State.ahead, hSwitched.taskAt,
        hSwitched.threads]
    rw [hSwitched.current, hAhead,
      cycle_congr hLists]
    exact hPicks.advances

theorem Steady.time
    (hSteady : Steady s tasks)
    (regs : Context)
    (kmallocs frames : List Nat) :
    Steady
      { s with
        regs := regs, kmallocs := kmallocs, frames := frames }
      tasks where
  rest := hSteady.rest.of_sameLists (by constructor <;> rfl)
  running := hSteady.running
  filled := hSteady.filled

/- Calls select the threads in order. -/
theorem Steady.selects
    {bound : Nat}
    (hSteady : Steady s tasks)
    (hBound : 0 < bound)
    (hSelects : Selects bound s ps s') :
    (∃ tasks', Steady s' tasks') ∧
      ∀ i (hi : i < ps.length),
        s.ahead.endless (s.cycle tasks) i = some ps[i] := by
  induction hSelects generalizing tasks with
  | done s =>
      exact ⟨⟨tasks, hSteady⟩,
        fun i hi => absurd hi (Nat.not_lt_zero i)⟩
  | call hRun hRest ih =>
      rcases hSteady.schedule hBound with
        ⟨s₁, tasks₁, hRun', hSteady₁, hAdvances⟩
      rw [hRun] at hRun'
      cases hRun'
      rcases ih hSteady₁ with ⟨hEnd, hOrder⟩
      rcases hAdvances.endless with ⟨hFirst, hNext⟩
      refine ⟨hEnd, ?_⟩
      intro i hi
      cases i with
      | zero => exact hFirst
      | succ i =>
          rw [hNext i]
          exact hOrder i (Nat.lt_of_succ_lt_succ hi)
  | time regs kmallocs frames hRest ih =>
      exact ih (hSteady.time regs kmallocs frames)

/- Any number of calls can be made. -/
theorem Steady.exists_selects
    {bound : Nat}
    (hSteady : Steady s tasks)
    (hBound : 0 < bound)
    (n : Nat) :
    ∃ ps s', ps.length = n ∧ Selects bound s ps s' := by
  induction n generalizing s tasks with
  | zero => exact ⟨[], s, rfl, .done s⟩
  | succ n ih =>
      rcases hSteady.schedule hBound with
        ⟨s₁, tasks₁, hRun, hSteady₁, -⟩
      rcases ih hSteady₁ with ⟨ps, s₂, hLength, hSelects⟩
      refine ⟨s₁.currentThread :: ps, s₂, ?_,
        .call hRun hSelects⟩
      rw [List.length_cons, hLength]

------------------------------------------------------------
-- Blocks
------------------------------------------------------------

/- The lists of all tasks are all threads. -/
theorem Wf.eachOnce_cycle
    (hWf : Wf s tasks) :
    EachOnce s (s.cycle tasks) := by
  have hPerm :
      (tasks.pending ++ tasks.visited).Perm tasks.elems := by
    rw [← tasks.visited_append_pending]
    exact List.perm_append_comm
  have hNodup := hPerm.nodup_iff.mpr hWf.tasksNodup
  constructor
  · rw [State.cycle, List.nodup_flatMap]
    constructor
    · intro t _
      cases hTask : s.taskAt t with
      | none =>
          rw [State.listOf, hTask]
          exact List.nodup_nil
      | some task =>
          rw [listOf_of_taskAt hTask]
          exact hWf.listNodup t task hTask
    · apply hNodup.imp
      intro t u hNe p ht hu
      exact hNe (hWf.holdsUnique t u p (mem_listOf_iff.mp ht)
        (mem_listOf_iff.mp hu))
  · intro p
    rw [State.cycle, List.mem_flatMap, hWf.threadLive]
    constructor
    · rintro ⟨t, -, hp⟩
      exact ⟨t, mem_listOf_iff.mp hp⟩
    · rintro ⟨t, hHolds⟩
      rcases hHolds with ⟨task, hTask, hp⟩
      refine ⟨t, ?_, mem_listOf_iff.mpr ⟨task, hTask, hp⟩⟩
      exact hPerm.mem_iff.mpr (hWf.mem_tasks hTask)

/- Once a task is picked, its list is the end of the round. -/
theorem AtRest.ahead_suffix
    (hRest : AtRest False s tasks)
    (hPicked : 0 < tasks.curr) :
    s.ahead <:+ s.cycle tasks := by
  have hLast :=
    hRest.passed.resolve_right
      (fun hStart => Nat.ne_of_gt hPicked hStart.1)
  rcases List.getLast?_eq_some_iff.mp hLast with
    ⟨before, hVisited⟩
  rcases hRest.owner with ⟨owner, hOwner, -⟩
  have hAhead : s.ahead = owner.threads.pending := by
    apply ahead_of_owner
    rw [hRest.threads]
    exact hOwner
  have hCycle :
      s.cycle tasks =
        (tasks.pending ++ before).flatMap s.listOf ++
          owner.threads.elems := by
    rw [State.cycle, hVisited, ← List.append_assoc,
      List.flatMap_append, List.flatMap_singleton,
      listOf_of_taskAt hOwner]
  refine ⟨(tasks.pending ++ before).flatMap s.listOf ++
    owner.threads.visited, ?_⟩
  rw [hAhead, hCycle, List.append_assoc,
    owner.threads.visited_append_pending]

theorem EachOnce.of_perm
    {ps' : List Nat}
    (hOnce : EachOnce s ps)
    (hPerm : ps'.Perm ps) :
    EachOnce s ps' :=
  ⟨hPerm.nodup_iff.mpr hOnce.1,
    fun p => hPerm.mem_iff.trans (hOnce.2 p)⟩

theorem Steady.roundRobin
    {bound : Nat}
    (hSteady : Steady s tasks)
    (hBound : 0 < bound)
    (hSelects : Selects bound s ps s') :
    RoundRobin s tasks ps := by
  have hOrder := (hSteady.selects hBound hSelects).2
  have hOnce := hSteady.rest.wf.eachOnce_cycle
  refine ⟨hOrder, hOnce, ?_⟩
  rintro before block after rfl hLength hStart
  refine hOnce.of_perm
    (List.perm_of_endless (k := before.length)
      (hStart.imp_left hSteady.rest.ahead_suffix) hLength ?_)
  intro i hi
  have hIn :
      before.length + i < (before ++ block ++ after).length := by
    rw [List.length_append, List.length_append]
    omega
  rw [hOrder _ hIn, ← List.getElem?_eq_getElem hIn,
    List.append_assoc, List.getElem?_append_right (by omega),
    Nat.add_sub_cancel_left, List.getElem?_append_left hi]

/-
  In every reachable state in which all threads are running
  and every task has one, any number of calls of `schedule`
  can be made, and they select the threads in order.
-/
theorem schedule_round_robin
    {bound : Nat}
    (hReach : Reachable Booted (Step AnyCall) s)
    (hTasks : s.tasks = some tasks)
    (hRunning :
      ∀ p thread, s.threadAt p = some thread →
        thread.state = .running)
    (hFilled : ∀ t ∈ tasks.elems, s.listOf t ≠ [])
    (hBound : 0 < bound) :
    (∀ n, ∃ ps s', ps.length = n ∧ Selects bound s ps s') ∧
      ∀ ps s', Selects bound s ps s' →
        RoundRobin s tasks ps := by
  rcases reachable_atRest hReach with ⟨tasks', hRest⟩
  have hSame : tasks' = tasks := by
    have hEq := hRest.wf.tasksEq
    rw [hTasks] at hEq
    exact (Option.some.inj hEq).symm
  subst hSame
  have hSteady : Steady s tasks' := ⟨hRest, hRunning, hFilled⟩
  exact ⟨hSteady.exists_selects hBound,
    fun ps s' hSelects => hSteady.roundRobin hBound hSelects⟩

end Sched

end SosKernel
