import SosKernel.Sched.Run

/-
  Where the loops of `schedule` end up: the first thread
  that is not dying, in the order in which the two cursors
  meet the threads.

  Main declarations:
    * `State.nextLive`
    * `schedule_extends`: larger bounds change no result
    * `AtRest.leads_nextLive`
-/

------------------------------------------------------------
-- The Order of the Cursors
------------------------------------------------------------

namespace SosKernel

namespace Sched

/- The thread at `p` is to be destroyed when it is met. -/
def State.dying (s : State) (p : Nat) : Bool :=
  match s.threadAt p with
  | none => false
  | some thread => thread.state = .dying

/- The threads of the task at `t`. -/
def State.listOf (s : State) (t : Nat) : List Nat :=
  match s.taskAt t with
  | none => []
  | some task => task.threads.elems

/- The task at `t` is to be destroyed when it is met. -/
def State.vacant (s : State) (t : Nat) : Bool :=
  (s.listOf t).isEmpty

/- The first thread of a task that is not dying. -/
def State.firstIn (s : State) (t : Nat) : Option Nat :=
  (s.listOf t).sweepHead s.dying

/-
  The tasks with threads in the order in which they are
  picked: those from the cursor on, then the others.
-/
def State.round (s : State) (tasks : ListT) : List Nat :=
  tasks.pending.sweep s.vacant ++
    tasks.visited.sweep s.vacant

/-
  The first thread met that is not dying: in the rest of the
  current list, or else in the lists of the tasks in turn.
-/
def State.nextLive (s : State) : Option Nat :=
  match s.tasks, s.taskAt s.threads with
  | some tasks, some owner =>
      (owner.threads.pending.sweepHead s.dying).or
        ((s.round tasks).findSome? s.firstIn)
  | _, _ => none

------------------------------------------------------------
-- Larger Bounds
------------------------------------------------------------

theorem pickTask_extends
    {fuel fuel' : Nat}
    (hLe : fuel ≤ fuel') :
    EStateM.Extends (pickTask fuel) (pickTask fuel') := by
  induction fuel generalizing fuel' with
  | zero => exact EStateM.Extends.throw _ _
  | succ fuel ih =>
      obtain ⟨fuel', rfl⟩ : ∃ k, fuel' = k + 1 :=
        ⟨fuel' - 1, by omega⟩
      have hRec := ih (show fuel ≤ fuel' by omega)
      have hPick : ∀ (tasks : ListT) newTask (task : Task),
          EStateM.Extends
            (if listIsEmpty task.threads then do
              writeTasks (listRemove tasks)
              destroyTask newTask
              pickTask fuel
            else do
              writeTasks (listNext tasks).2
              return newTask)
            (if listIsEmpty task.threads then do
              writeTasks (listRemove tasks)
              destroyTask newTask
              pickTask fuel'
            else do
              writeTasks (listNext tasks).2
              return newTask) := by
        intro tasks newTask task
        exact .ite
          (.bind_right _ fun _ => .bind_right _ fun _ => hRec)
          (.refl _)
      rw [pickTask, pickTask]
      refine .bind_right _ fun tasks => ?_
      dsimp only
      refine .ite (.bind_right _ fun _ => ?_) ?_
      · exact .bind_right _ fun tasks =>
          .bind_right _ fun task => hPick _ _ _
      · exact .bind_right _ fun tasks =>
          .bind_right _ fun task => hPick _ _ _

theorem chooseTask_extends
    {bound bound' : Nat}
    (newTask : Nat)
    (hLe : bound ≤ bound') :
    EStateM.Extends
      (chooseTask bound newTask)
      (chooseTask bound' newTask) := by
  rw [chooseTask, chooseTask]
  refine .bind_right _ fun s => .bind_right _ fun owner => ?_
  refine .ite (.bind_right _ fun _ => ?_) (.refl _)
  exact (pickTask_extends hLe).bind fun _ => .refl _

theorem pickThread_extends
    {bound bound' fuel fuel' : Nat}
    (newTask : Nat)
    (hBound : bound ≤ bound')
    (hFuel : fuel ≤ fuel') :
    EStateM.Extends
      (pickThread bound fuel newTask)
      (pickThread bound' fuel' newTask) := by
  induction fuel generalizing fuel' newTask with
  | zero => exact EStateM.Extends.throw _ _
  | succ fuel ih =>
      obtain ⟨fuel', rfl⟩ : ∃ k, fuel' = k + 1 :=
        ⟨fuel' - 1, by omega⟩
      have hRec := fun chosen =>
        ih chosen (show fuel ≤ fuel' by omega)
      rw [pickThread, pickThread]
      refine (chooseTask_extends newTask hBound).bind
        fun chosen => ?_
      refine .bind_right _ fun s =>
        .bind_right _ fun owner =>
          .bind_right _ fun thread => ?_
      cases thread.state with
      | running => exact .refl _
      | waiting => exact hRec chosen
      | dying =>
          exact .bind_right _ fun _ =>
            .bind_right _ fun _ => hRec chosen

/- A larger bound changes no result of `schedule`. -/
theorem schedule_extends
    {bound bound' : Nat}
    (hLe : bound ≤ bound') :
    EStateM.Extends (schedule bound) (schedule bound') := by
  rw [schedule, schedule]
  refine .bind_right _ fun s => ?_
  dsimp only
  refine .ite (.refl _) ?_
  exact (pickThread_extends 0 hLe hLe).bind fun _ => .refl _

------------------------------------------------------------
-- What a Sweep Leaves
------------------------------------------------------------

variable {s s' s₁ s₂ s₃ : State}
variable {tasks tasks' : ListT}
variable {newTask newTask' : Nat}

theorem mem_listOf_iff
    {t p : Nat} :
    p ∈ s.listOf t ↔ s.Holds t p := by
  unfold State.listOf State.Holds
  cases hTask : s.taskAt t with
  | none => simp
  | some task => simp

theorem listOf_of_taskAt
    {t : Nat}
    {task : Task}
    (hTask : s.taskAt t = some task) :
    s.listOf t = task.threads.elems := by
  rw [State.listOf, hTask]

theorem vacant_iff
    {t : Nat} :
    s.vacant t = true ↔ s.listOf t = [] := by
  rw [State.vacant, List.isEmpty_iff]

theorem vacant_eq_false_iff
    {t : Nat} :
    s.vacant t = false ↔ s.listOf t ≠ [] := by
  rw [← Bool.not_eq_true, vacant_iff]

theorem dying_congr
    {p : Nat}
    (hSame : s'.threadAt p = s.threadAt p) :
    s'.dying p = s.dying p := by
  rw [State.dying, State.dying, hSame]

/-
  From `s` to `s'` the lists of all tasks but `t` have kept
  their elements, and the records in them their contents.
-/
structure Untouched
    (t : Nat)
    (s s' : State) : Prop where
  list : ∀ u, u ≠ t → s'.listOf u = s.listOf u
  thread :
    ∀ u p, u ≠ t → p ∈ s.listOf u →
      s'.threadAt p = s.threadAt p

theorem Untouched.trans
    {t : Nat}
    (h₁₂ : Untouched t s₁ s₂)
    (h₂₃ : Untouched t s₂ s₃) :
    Untouched t s₁ s₃ where
  list u hu := (h₂₃.list u hu).trans (h₁₂.list u hu)
  thread u p hu hp := by
    have hp₂ : p ∈ s₂.listOf u := by
      rw [h₁₂.list u hu]
      exact hp
    exact (h₂₃.thread u p hu hp₂).trans
      (h₁₂.thread u p hu hp)

theorem Untouched.vacant
    {t u : Nat}
    (hUntouched : Untouched t s s')
    (hu : u ≠ t) :
    s'.vacant u = s.vacant u := by
  rw [State.vacant, State.vacant, hUntouched.list u hu]

theorem Untouched.firstIn
    {t u : Nat}
    (hUntouched : Untouched t s s')
    (hu : u ≠ t) :
    s'.firstIn u = s.firstIn u := by
  rw [State.firstIn, State.firstIn, hUntouched.list u hu]
  apply List.sweepHead_congr
  intro p hp
  exact dying_congr (hUntouched.thread u p hu hp)

/- The inner loop changes no list that has threads. -/
theorem PickFrame.listOf
    (hFrame : PickFrame s s')
    (u : Nat) :
    s'.listOf u = s.listOf u := by
  cases hTask : s.taskAt u with
  | none =>
      cases hTask' : s'.taskAt u with
      | none => rw [State.listOf, State.listOf, hTask, hTask']
      | some task =>
          have hOld := hFrame.old u task hTask'
          rw [hTask] at hOld
          cases hOld
  | some task =>
      by_cases hEmpty : task.threads.elems = []
      · rw [listOf_of_taskAt hTask, hEmpty]
        cases hTask' : s'.taskAt u with
        | none => rw [State.listOf, hTask']
        | some task' =>
            have hOld := hFrame.old u task' hTask'
            rw [hTask] at hOld
            cases hOld
            rw [listOf_of_taskAt hTask', hEmpty]
      · rw [listOf_of_taskAt hTask,
          listOf_of_taskAt (hFrame.kept u task hTask hEmpty)]

theorem PickFrame.vacant
    (hFrame : PickFrame s s')
    (u : Nat) :
    s'.vacant u = s.vacant u := by
  rw [State.vacant, State.vacant, hFrame.listOf u]

theorem listOf_withList_of_elems_eq
    {t : Nat}
    {task : Task}
    {list : ListT}
    (hTask : s.taskAt t = some task)
    (hElems : list.elems = task.threads.elems)
    (u : Nat) :
    (s.withList t task list).listOf u = s.listOf u := by
  unfold State.listOf
  by_cases hu : u = t
  · subst hu
    simp [hTask, hElems]
  · simp [hu]

------------------------------------------------------------
-- Iterations
------------------------------------------------------------

/-
  For every inner bound that is large enough, the outer loop
  from `s` goes on as it does from `s'`.
-/
def Leads
    (s : State)
    (newTask : Nat)
    (s' : State)
    (newTask' : Nat) : Prop :=
  ∃ least used, ∀ bound fuel, least ≤ bound →
    (pickThread bound (fuel + 1 + used) newTask).run s =
      (pickThread bound (fuel + 1) newTask').run s'

theorem Leads.refl (s : State) (newTask : Nat) :
    Leads s newTask s newTask :=
  ⟨0, 0, fun _ _ _ => rfl⟩

theorem Leads.trans
    {n₁ n₂ n₃ : Nat}
    (h₁₂ : Leads s₁ n₁ s₂ n₂)
    (h₂₃ : Leads s₂ n₂ s₃ n₃) :
    Leads s₁ n₁ s₃ n₃ := by
  rcases h₁₂ with ⟨least, used, hRun⟩
  rcases h₂₃ with ⟨least', used', hRun'⟩
  refine ⟨max least least', used' + used, ?_⟩
  intro bound fuel hBound
  have hFirst :=
    hRun bound (fuel + used') (by omega)
  have hSecond := hRun' bound fuel (by omega)
  rw [show fuel + 1 + (used' + used) =
    fuel + used' + 1 + used by omega, hFirst,
    show fuel + used' + 1 = fuel + 1 + used' by omega,
    hSecond]

/- Removing a dying thread under the cursor. -/
theorem leads_reap
    {p : Nat}
    {owner : Task}
    {rest : List Nat}
    {thread : Thread}
    (newTask : Nat)
    (hOwner : s.taskAt s.threads = some owner)
    (hPending : owner.threads.pending = p :: rest)
    (hThread : s.threadAt p = some thread)
    (hState : thread.state = .dying) :
    Leads s newTask
      ((s.withList s.threads owner
        (listRemove owner.threads)).reap p) newTask := by
  refine ⟨0, 1, ?_⟩
  intro bound fuel _
  exact run_pickThread_dying
    ⟨run_chooseTask_inside hOwner hPending, hOwner,
      hPending, hThread⟩ hState

/-
  The outer loop goes on with the list that it enters at the
  end of another.
-/
theorem leads_enter
    {t least : Nat}
    {owner task : Task}
    {sPick : State}
    (newTask : Nat)
    (hOwner : s.taskAt s.threads = some owner)
    (hPending : owner.threads.pending = [])
    (hPick :
      ∀ bound, least ≤ bound →
        (pickTask bound).run
            (s.withList s.threads owner
              (listRewind owner.threads)) =
          .ok t sPick)
    (hTask : sPick.taskAt t = some task)
    (hThreads : task.threads.elems ≠ []) :
    Leads s newTask (sPick.enter t task)
      (switchTarget sPick t) := by
  refine ⟨least, 0, ?_⟩
  intro bound fuel hBound
  rcases List.exists_cons_of_ne_nil hThreads with ⟨p, rest, hElems⟩
  have hEntered :
      (sPick.enter t task).taskAt t =
        some { task with
          threads := listRewind task.threads } :=
    withList_taskAt_self _ _ _ _
  have hEnd :
      (chooseTask bound newTask).run s =
        .ok (switchTarget sPick t) (sPick.enter t task) :=
    run_chooseTask_end newTask hOwner hPending
      (hPick bound hBound) hTask
  have hInside :
      (chooseTask bound (switchTarget sPick t)).run
          (sPick.enter t task) =
        .ok (switchTarget sPick t)
          (sPick.enter t task) :=
    run_chooseTask_inside hEntered hElems
  rw [Nat.add_zero, pickThread, EStateM.bind_of_ok hEnd,
    pickThread, EStateM.bind_of_ok hInside]

------------------------------------------------------------
-- The Rest of a List
------------------------------------------------------------

/-
  What the outer loop leaves of the list it is in: the dying
  threads from the cursor on are removed until one that is
  not dying is under the cursor.
-/
structure Advanced
    (s : State)
    (owner : Task)
    (s' : State)
    (owner' : Task) : Prop where
  threads : s'.threads = s.threads
  tasks : s'.tasks = s.tasks
  kernelTask : s'.kernelTask = s.kernelTask
  atOwner : s'.taskAt s'.threads = some owner'
  visited : owner'.threads.visited = owner.threads.visited
  head :
    owner'.threads.pending.head? =
      owner.threads.pending.sweepHead s.dying
  list :
    ∀ u, u ≠ s.threads → s'.listOf u = s.listOf u
  thread :
    ∀ p, (p ∉ owner.threads.pending ∨
        p ∈ owner'.threads.pending) →
      s'.threadAt p = s.threadAt p

theorem Advanced.untouched
    {owner owner' : Task}
    (hWf : Wf s tasks)
    (hOwner : s.taskAt s.threads = some owner)
    (hAdvanced : Advanced s owner s' owner') :
    Untouched s.threads s s' where
  list := hAdvanced.list
  thread u p hu hp := by
    apply hAdvanced.thread
    refine .inl ?_
    intro hPending
    apply hu
    apply hWf.holdsUnique u s.threads p
      (mem_listOf_iff.mp hp)
    refine ⟨owner, hOwner, ?_⟩
    rw [ListT.mem_elems_iff]
    exact .inr hPending

/- Nothing is removed before a thread that is not dying. -/
theorem Advanced.refl
    {owner : Task}
    (hOwner : s.taskAt s.threads = some owner)
    (hHead :
      owner.threads.pending.head? =
        owner.threads.pending.sweepHead s.dying) :
    Advanced s owner s owner where
  threads := rfl
  tasks := rfl
  kernelTask := rfl
  atOwner := hOwner
  visited := rfl
  head := hHead
  list _ _ := rfl
  thread _ _ := rfl

/- A dying thread is removed first. -/
theorem Advanced.of_reap
    {p : Nat}
    {owner owner' : Task}
    {rest : List Nat}
    (hSweep : Sweeping False s tasks newTask)
    (hSweep' : Sweeping False s' tasks newTask)
    (hOwner : s.taskAt s.threads = some owner)
    (hPending : owner.threads.pending = p :: rest)
    (hDying : s.dying p = true)
    (hAdvanced :
      Advanced
        ((s.withList s.threads owner
          (listRemove owner.threads)).reap p)
        { owner with threads := listRemove owner.threads }
        s' owner') :
    Advanced s owner s' owner' := by
  have hElems : owner.threads.elems =
      owner.threads.visited ++ p :: rest := by
    rw [← hPending, owner.threads.visited_append_pending]
  have hFresh : p ∉ rest := by
    have hNodup := hSweep.wf.listNodup _ owner hOwner
    rw [hElems, List.nodup_append, List.nodup_cons]
      at hNodup
    exact hNodup.2.1.1
  have hThread :
      ∀ q, q ≠ p →
        ((s.withList s.threads owner
          (listRemove owner.threads)).reap p).threadAt q =
            s.threadAt q := by
    intro q hq
    simp [State.reap, State.withList, hq]
  refine
    { threads := hAdvanced.threads
      tasks := hAdvanced.tasks
      kernelTask := hAdvanced.kernelTask
      atOwner := hAdvanced.atOwner
      visited := ?_
      head := ?_
      list := ?_
      thread := ?_ }
  · exact hAdvanced.visited.trans
      (visited_listRemove hPending)
  · rw [hAdvanced.head, pending_listRemove hPending,
      hPending, List.sweepHead_cons_of_pos hDying]
    apply List.sweepHead_congr
    intro q hq
    apply dying_congr
    apply hThread
    rintro rfl
    exact hFresh (List.mem_lastToFront.mp hq)
  · intro u hu
    rw [hAdvanced.list u hu, State.listOf, State.listOf]
    simp [State.reap, State.withList, hu]
  · intro q hq
    have hKept : s'.threadAt q =
        ((s.withList s.threads owner
          (listRemove owner.threads)).reap p).threadAt
            q := by
      apply hAdvanced.thread
      rw [pending_listRemove hPending,
        List.mem_lastToFront]
      rw [hPending, List.mem_cons] at hq
      tauto
    rw [hKept]
    apply hThread
    rintro rfl
    rcases hq with hq | hq
    · exact hq (by rw [hPending]; simp)
    · -- a thread that is still listed is live
      have hLive := (hSweep'.wf.threadLive q).mpr
        ⟨s'.threads, owner', hAdvanced.atOwner, by
          rw [ListT.mem_elems_iff]
          exact .inr hq⟩
      rw [hKept] at hLive
      simp [State.reap] at hLive

theorem exists_of_dying
    {p : Nat}
    (hDying : s.dying p = true) :
    ∃ thread, s.threadAt p = some thread ∧
      thread.state = .dying := by
  rw [State.dying] at hDying
  split at hDying
  · cases hDying
  · rename_i thread hThread
    exact ⟨thread, hThread, of_decide_eq_true hDying⟩

/-
  The rest of the current list is advanced to its first
  thread that is not dying, or to its end.
-/
theorem leads_pending
    {owner : Task}
    (hSweep : Sweeping False s tasks newTask)
    (hOwner : s.taskAt s.threads = some owner) :
    ∃ s' owner', Leads s newTask s' newTask ∧
      Sweeping False s' tasks newTask ∧
      Advanced s owner s' owner' := by
  -- each removal shortens the rest of the list
  induction hLength : owner.threads.pending.length
      generalizing s owner with
  | zero =>
      have hNil := List.eq_nil_of_length_eq_zero hLength
      refine ⟨s, owner, Leads.refl _ _, hSweep,
        Advanced.refl hOwner ?_⟩
      rw [hNil, List.head?_nil, List.sweepHead,
        List.sweep_nil, List.head?_nil]
  | succ n ih =>
      obtain ⟨p, rest, hPending⟩ :
          ∃ p rest, owner.threads.pending = p :: rest :=
        List.exists_cons_of_length_eq_add_one hLength
      cases hDying : s.dying p with
      | false =>
          refine ⟨s, owner, Leads.refl _ _, hSweep,
            Advanced.refl hOwner ?_⟩
          rw [hPending, List.head?_cons,
            List.sweepHead_cons_of_neg hDying]
      | true =>
          rcases exists_of_dying hDying with ⟨thread, hThread, hState⟩
          have hOwnerReap :
              ((s.withList s.threads owner
                (listRemove owner.threads)).reap p).taskAt
                  s.threads =
                some { owner with
                  threads := listRemove owner.threads } :=
            withList_taskAt_self _ _ _ _
          have hLengthReap :
              (listRemove owner.threads).pending.length =
                n := by
            rw [pending_listRemove hPending,
              List.length_lastToFront]
            rw [hPending, List.length_cons] at hLength
            omega
          rcases ih (hSweep.reap hOwner hPending hThread hState)
              hOwnerReap hLengthReap with
            ⟨s', owner', hLeads, hSweep', hAdvanced⟩
          exact ⟨s', owner',
            (leads_reap newTask hOwner hPending hThread
              hState).trans hLeads, hSweep',
            hAdvanced.of_reap hSweep hSweep' hOwner
              hPending hDying⟩

------------------------------------------------------------
-- The Next Task
------------------------------------------------------------

/-
  The kernel task is not met without threads: if it has
  none, it has been passed and no task before the cursor is
  left to pick.
-/
def KernelAhead (s : State) (tasks : ListT) : Prop :=
  s.vacant s.kernelTask = true →
    s.kernelTask ∉ tasks.pending ∧
      tasks.visited.sweep s.vacant = []

/- The tasks without threads under the cursor are removed. -/
theorem pickTask_sweep
    (hWf : Wf s tasks)
    (hKernel :
      s.kernelTask ∈ tasks.pending →
        s.vacant s.kernelTask = false) :
    ∃ used s' tasks',
      (∀ bound, (pickTask (bound + used)).run s =
        (pickTask bound).run s') ∧
      PickFrame s s' ∧ Wf s' tasks' ∧
      tasks'.visited = tasks.visited ∧
      tasks'.pending.sweep s.vacant =
        tasks.pending.sweep s.vacant ∧
      (∀ u ∈ tasks'.pending, u ∈ tasks.pending) ∧
      ∀ t rest, tasks'.pending = t :: rest →
        s.vacant t = false := by
  induction hLength : tasks.pending.length
      generalizing s tasks with
  | zero =>
      have hNil := List.eq_nil_of_length_eq_zero hLength
      refine ⟨0, s, tasks, fun _ => rfl, PickFrame.refl s,
        hWf, rfl, rfl, fun _ h => h, ?_⟩
      intro t rest hPending
      rw [hNil] at hPending
      cases hPending
  | succ n ih =>
      obtain ⟨t, rest, hPending⟩ :
          ∃ t rest, tasks.pending = t :: rest :=
        List.exists_cons_of_length_eq_add_one hLength
      cases hVacant : s.vacant t with
      | false =>
          refine ⟨0, s, tasks, fun _ => rfl,
            PickFrame.refl s, hWf, rfl, rfl,
            fun _ h => h, ?_⟩
          intro t' rest' hPending'
          rw [hPending] at hPending'
          cases hPending'
          exact hVacant
      | true =>
          have ht : t ∈ tasks.elems := by
            rw [ListT.mem_elems_iff, hPending]
            simp
          rcases hWf.exists_task ht with ⟨task, hTask⟩
          have hEmpty : task.threads.elems = [] := by
            rw [← listOf_of_taskAt hTask]
            exact vacant_iff.mp hVacant
          have hNotKernel : t ≠ s.kernelTask := by
            rintro rfl
            rw [hKernel (by rw [hPending]; simp)] at hVacant
            cases hVacant
          rcases hWf.exists_heapDir hTask hNotKernel with ⟨d, hDir⟩
          have hFrame :=
            PickFrame.bury (listRemove tasks) hWf hTask
              hEmpty hDir
          have hWf' := hWf.bury hPending hTask hEmpty hDir
          have hPending' := pending_listRemove hPending
          have hVacantSame :
              ((s.withTasks (listRemove tasks)).bury t task
                d).vacant = s.vacant :=
            funext hFrame.vacant
          have hRec := ih hWf'
            (by
              intro hMem
              rw [hPending', List.mem_lastToFront] at hMem
              rw [hVacantSame]
              apply hKernel
              rw [hPending]
              exact List.mem_cons_of_mem _ hMem)
            (by
              rw [hPending', List.length_lastToFront]
              rw [hPending, List.length_cons] at hLength
              omega)
          rcases hRec with
            ⟨used, s', tasks', hRun, hFrame', hWf'', hVisited, hSweep,
              hSub, hFirst⟩
          rw [hVacantSame] at hSweep hFirst
          refine ⟨used + 1, s', tasks', ?_,
            hFrame.trans hFrame', hWf'', ?_, ?_, ?_, hFirst⟩
          · intro bound
            rw [← hRun bound, ← Nat.add_assoc]
            exact run_pickTask_empty hWf.tasksEq hPending
              hTask hEmpty hDir
          · rw [hVisited, visited_listRemove hPending]
          · rw [hSweep, hPending', hPending,
              List.sweep_cons_of_pos hVacant]
          · intro u hu
            have hu' := hSub u hu
            rw [hPending', List.mem_lastToFront] at hu'
            rw [hPending]
            exact List.mem_cons_of_mem _ hu'

/-
  The inner loop picks the first task of the round.  The
  tasks before the cursor are then the picked one and either
  those that were there, or none when the cursor wrapped.
-/
theorem pickTask_round
    {t : Nat}
    {ts : List Nat}
    (hWf : Wf s tasks)
    (hKernel : KernelAhead s tasks)
    (hRound : s.round tasks = t :: ts) :
    ∃ least sPick tasks' before,
      (∀ bound, least ≤ bound →
        (pickTask bound).run s = .ok t sPick) ∧
      PickFrame s sPick ∧ Wf sPick tasks' ∧
      s.vacant t = false ∧
      tasks'.visited = before ++ [t] ∧
      tasks'.pending.sweep s.vacant ++
        before.sweep s.vacant = ts ∧
      (before = tasks.visited ∧
          (∀ u ∈ tasks'.pending, u ∈ tasks.pending) ∨
        before = [] ∧ t = s.kernelTask) := by
  have hOccupied :
      s.kernelTask ∈ tasks.pending →
        s.vacant s.kernelTask = false := by
    intro hMem
    rw [← Bool.not_eq_true]
    intro hVacant
    exact (hKernel hVacant).1 hMem
  rcases pickTask_sweep hWf hOccupied with
    ⟨used, s', tasks', hRun, hFrame, hWf', hVisited, hSweep, hSub,
      hFirst⟩
  rw [State.round, ← hSweep, ← hVisited] at hRound
  have hThreads :
      ∀ u, u ∈ tasks'.elems → s.vacant u = false →
        ∃ task, s'.taskAt u = some task ∧
          task.threads.elems ≠ [] := by
    intro u hu hVacant
    rcases hWf'.exists_task hu with ⟨task, hTask⟩
    refine ⟨task, hTask, ?_⟩
    rw [← listOf_of_taskAt hTask, hFrame.listOf]
    exact vacant_eq_false_iff.mp hVacant
  cases hPending : tasks'.pending with
  | cons u rest =>
      have hVacant := hFirst u rest hPending
      rw [hPending, List.sweep_cons_of_neg hVacant,
        List.cons_append] at hRound
      rcases List.cons_eq_cons.mp hRound with ⟨rfl, rfl⟩
      have hMem : u ∈ tasks'.elems := by
        rw [ListT.mem_elems_iff, hPending]
        simp
      rcases hThreads u hMem hVacant with ⟨task, hTask, hNe⟩
      refine ⟨1 + used, s'.withTasks (listNext tasks').2,
        (listNext tasks').2, tasks'.visited, ?_,
        hFrame.trans (PickFrame.withTasks s' _), ?_,
        hVacant, visited_listNext hPending, ?_,
        .inl ⟨hVisited, ?_⟩⟩
      · intro bound hBound
        obtain ⟨k, rfl⟩ : ∃ k, bound = k + 1 + used :=
          ⟨bound - 1 - used, by omega⟩
        rw [hRun]
        exact run_pickTask_found hWf'.tasksEq hPending hTask
          hNe
      · apply hWf'.withTasks_of_elems_eq
          (elems_listNext tasks')
        exact ListT.curr_lt_of_pending hPending
      · rw [pending_listNext hPending]
      · intro v hv
        rw [pending_listNext hPending] at hv
        apply hSub
        rw [hPending]
        exact List.mem_cons_of_mem _ hv
  | nil =>
      -- the cursor wraps and meets the kernel task
      rw [hPending, List.sweep_nil, List.nil_append]
        at hRound
      have hElems : tasks'.visited = tasks'.elems := by
        have hSplit := tasks'.visited_append_pending
        rwa [hPending, List.append_nil] at hSplit
      rcases List.exists_cons_of_ne_nil hWf'.tasks_ne_nil with
        ⟨u, rest, hCons⟩
      have hu : u = s.kernelTask := by
        have hHead := hWf'.tasksHead
        rw [hCons, hFrame.frame.kernelTask] at hHead
        exact Option.some.inj hHead
      have hVacant : s.vacant u = false := by
        rw [← Bool.not_eq_true, hu]
        intro hVacant
        have hNone := (hKernel hVacant).2
        rw [← hVisited, hRound] at hNone
        cases hNone
      rw [hElems, hCons, List.sweep_cons_of_neg hVacant]
        at hRound
      rcases List.cons_eq_cons.mp hRound with ⟨rfl, rfl⟩
      have hMem : u ∈ tasks'.elems := by
        rw [hCons]
        simp
      rcases hThreads u hMem hVacant with ⟨task, hTask, hNe⟩
      have hRewound :
          (listRewind tasks').pending = u :: rest := hCons
      have hTasksRewound :
          (s'.withTasks (listRewind tasks')).tasks =
            some (listRewind tasks') := rfl
      refine ⟨1 + used,
        (s'.withTasks (listRewind tasks')).withTasks
          (listNext (listRewind tasks')).2,
        (listNext (listRewind tasks')).2, [], ?_,
        (hFrame.trans (PickFrame.withTasks s' _)).trans
          (PickFrame.withTasks _ _), ?_, hVacant, ?_, ?_,
        .inr ⟨rfl, hu⟩⟩
      · intro bound hBound
        obtain ⟨k, rfl⟩ : ∃ k, bound = k + 1 + used :=
          ⟨bound - 1 - used, by omega⟩
        rw [hRun, run_pickTask_wrap hWf'.tasksEq hPending
          hWf'.tasks_ne_nil]
        exact run_pickTask_found hTasksRewound hRewound
          hTask hNe
      · have hWfRewound := hWf'.withTasks_of_elems_eq
          (elems_listRewind tasks') (Nat.zero_le _)
        apply hWfRewound.withTasks_of_elems_eq
          (elems_listNext _)
        exact ListT.curr_lt_of_pending hRewound
      · rw [visited_listNext hRewound]
        rfl
      · rw [pending_listNext hRewound, List.sweep_nil,
          List.append_nil]

------------------------------------------------------------
-- The Round
------------------------------------------------------------

/- The thread at `p` is under the cursor of the swept list. -/
def State.UnderCursor (s : State) (p : Nat) : Prop :=
  ∃ owner rest, s.taskAt s.threads = some owner ∧
    owner.threads.pending = p :: rest

/-
  Once the picked task `t` has been emptied, the rest of the
  round is as it was.
-/
theorem round_of_emptied
    {t : Nat}
    {before : List Nat}
    (hNodup : tasks'.elems.Nodup)
    (hVisited : tasks'.visited = before ++ [t])
    (hVacant : ∀ u, u ≠ t → s'.vacant u = s.vacant u)
    (hEmptied : s'.vacant t = true) :
    t ∉ tasks'.pending ∧ t ∉ before ∧
      (before ++ [t]).sweep s'.vacant =
        before.sweep s.vacant ∧
      s'.round tasks' =
        tasks'.pending.sweep s.vacant ++
          before.sweep s.vacant := by
  rw [← tasks'.visited_append_pending, hVisited,
    List.nodup_append, List.nodup_append] at hNodup
  rcases hNodup with ⟨⟨_, _, hBefore⟩, _, hPending⟩
  have hNotPending : t ∉ tasks'.pending := by
    intro ht
    exact hPending t (by simp) t ht rfl
  have hNotBefore : t ∉ before := by
    intro ht
    exact hBefore t ht t (by simp) rfl
  have hSame :
      ∀ us : List Nat, t ∉ us →
        us.sweep s'.vacant = us.sweep s.vacant := by
    intro us ht
    apply List.sweep_congr
    intro u hu
    apply hVacant
    rintro rfl
    exact ht hu
  have hSwept :
      (before ++ [t]).sweep s'.vacant =
        before.sweep s.vacant := by
    rw [List.sweep_append_of_forall _ _ (by
      intro u hu
      rw [List.mem_singleton.mp hu]
      exact hEmptied), hSame before hNotBefore]
  refine ⟨hNotPending, hNotBefore, hSwept, ?_⟩
  rw [State.round, hVisited, hSwept,
    hSame _ hNotPending]

/- The kernel task stays ahead when a task is emptied. -/
theorem KernelAhead.next
    {t : Nat}
    {before : List Nat}
    (hKernel : KernelAhead s tasks)
    (hWf : Wf s' tasks')
    (hSame : s'.kernelTask = s.kernelTask)
    (hVisited : tasks'.visited = before ++ [t])
    (hCase :
      before = tasks.visited ∧
          (∀ u ∈ tasks'.pending, u ∈ tasks.pending) ∨
        before = [] ∧ t = s.kernelTask)
    (hVacant : ∀ u, u ≠ t → s'.vacant u = s.vacant u)
    (hEmptied : s'.vacant t = true) :
    KernelAhead s' tasks' := by
  rcases round_of_emptied hWf.tasksNodup hVisited hVacant hEmptied with
    ⟨hNotPending, hNotBefore, hSwept, _⟩
  intro hKernelVacant
  rw [hSame] at hKernelVacant ⊢
  rw [hVisited, hSwept]
  by_cases ht : s.kernelTask = t
  · refine ⟨ht ▸ hNotPending, ?_⟩
    -- the kernel task is the first one, so none is before it
    cases hBefore : before with
    | nil => rw [List.sweep_nil]
    | cons u us =>
        have hHead := hWf.tasksHead
        rw [← tasks'.visited_append_pending, hVisited,
          hBefore, hSame] at hHead
        simp only [List.cons_append, List.head?_cons,
          Option.some.injEq] at hHead
        rw [← ht, ← hHead, hBefore] at hNotBefore
        simp at hNotBefore
  · rw [hVacant _ ht] at hKernelVacant
    rcases hKernel hKernelVacant with ⟨hAhead, hNone⟩
    rcases hCase with ⟨rfl, hSub⟩ | ⟨_, hEq⟩
    · exact ⟨fun hMem => hAhead (hSub _ hMem), hNone⟩
    · exact absurd hEq.symm ht

/-
  From the end of a list, the loops reach the first thread
  of the round that is not dying.
-/
theorem leads_round
    {owner : Task}
    {p : Nat}
    (hSweep : Sweeping False s tasks newTask)
    (hOwner : s.taskAt s.threads = some owner)
    (hPending : owner.threads.pending = [])
    (hKernel : KernelAhead s tasks)
    (hFirst :
      (s.round tasks).findSome? s.firstIn = some p) :
    ∃ s' newTask', Leads s newTask s' newTask' ∧
      s'.UnderCursor p ∧
      s'.threadAt p = s.threadAt p := by
  induction hRound : s.round tasks
      generalizing s tasks newTask owner with
  | nil =>
      rw [hRound] at hFirst
      cases hFirst
  | cons t ts ih =>
      rw [hRound, List.findSome?_cons] at hFirst
      -- pick `t` from the rewound list
      have hRewound :=
        hSweep.wf.withList_of_elems_eq hOwner
          (elems_listRewind owner.threads) (Nat.zero_le _)
      have hListRewound :=
        listOf_withList_of_elems_eq hOwner
          (elems_listRewind owner.threads)
      have hVacantRewound :
          (s.withList s.threads owner
            (listRewind owner.threads)).vacant =
              s.vacant := by
        funext u
        rw [State.vacant, State.vacant, hListRewound]
      have hAhead :
          KernelAhead
            (s.withList s.threads owner
              (listRewind owner.threads)) tasks := by
        rw [KernelAhead, hVacantRewound]
        exact hKernel
      have hRoundRewound :
          (s.withList s.threads owner
            (listRewind owner.threads)).round tasks =
              t :: ts := by
        rw [State.round, hVacantRewound]
        exact hRound
      rcases pickTask_round hRewound hAhead hRoundRewound with
        ⟨least, sPick, tasks', before, hRun, hPick, hWfPick,
          hOccupied, hVisited, hRest, hCase⟩
      rw [hVacantRewound] at hOccupied hRest
      have htElems : t ∈ tasks'.elems := by
        rw [ListT.mem_elems_iff, hVisited]
        simp
      rcases hWfPick.exists_task htElems with ⟨task, hTask⟩
      have hListPick : ∀ u, sPick.listOf u = s.listOf u := by
        intro u
        rw [hPick.listOf, hListRewound]
      have hThreads : task.threads.elems ≠ [] := by
        rw [← listOf_of_taskAt hTask, hListPick]
        exact vacant_eq_false_iff.mp hOccupied
      have hEnter := leads_enter newTask hOwner hPending
        hRun hTask hThreads
      have hEntered :
          (sPick.enter t task).taskAt t =
            some { task with
              threads := listRewind task.threads } :=
        withList_taskAt_self _ _ _ _
      have hListEnter :
          ∀ u, (sPick.enter t task).listOf u =
            s.listOf u := by
        intro u
        rw [← hListPick u]
        exact listOf_withList_of_elems_eq hTask
          (elems_listRewind task.threads) u
      have hThreadEnter :
          ∀ q, (sPick.enter t task).threadAt q =
            s.threadAt q := by
        intro q
        exact congrFun hPick.threadAt q
      have hKernelEnter :
          (sPick.enter t task).kernelTask =
            s.kernelTask := hPick.frame.kernelTask
      have hSweepEnter :
          Sweeping False (sPick.enter t task) tasks'
            (switchTarget sPick t) := by
        have hChoice := chooseTask_sat least hSweep
        rw [run_chooseTask_end _ hOwner hPending
          (hRun least (Nat.le_refl _)) hTask] at hChoice
        rcases hChoice with ⟨_, ⟨tasks₀, hSweep₀⟩, _⟩
        have hTasks : tasks₀ = tasks' :=
          Option.some.inj (hSweep₀.wf.tasksEq.symm.trans
            hWfPick.tasksEq)
        rw [← hTasks]
        exact hSweep₀
      -- go through the list of `t`
      rcases leads_pending hSweepEnter hEntered with
        ⟨sEnd, ownerEnd, hLeads, hSweepEnd, hAdv⟩
      have hHead :
          ownerEnd.threads.pending.head? = s.firstIn t := by
        rw [hAdv.head, State.firstIn, ← hListEnter t,
          listOf_of_taskAt hEntered]
        apply List.sweepHead_congr
        intro q _
        exact dying_congr (hThreadEnter q)
      cases hFound : s.firstIn t with
      | some q =>
          rw [hFound] at hFirst hHead
          cases hFirst
          obtain ⟨rest, hPendingEnd⟩ :
              ∃ rest,
                ownerEnd.threads.pending = p :: rest := by
            exact List.head?_eq_some_iff.mp hHead
          refine ⟨sEnd, _, hEnter.trans hLeads,
            ⟨ownerEnd, rest, hAdv.atOwner, hPendingEnd⟩, ?_⟩
          rw [hAdv.thread p (.inr (by
            rw [hPendingEnd]
            simp)), hThreadEnter]
      | none =>
          rw [hFound] at hFirst hHead
          have hPendingEnd :=
            List.head?_eq_none_iff.mp hHead
          have hUntouched :=
            hAdv.untouched hSweepEnter.wf hEntered
          have hVacantEnd :
              ∀ u, u ≠ t → sEnd.vacant u = s.vacant u := by
            intro u hu
            rw [hUntouched.vacant hu, State.vacant,
              State.vacant, hListEnter]
          have hEmptied : sEnd.vacant t = true := by
            have hAt : sEnd.taskAt t = some ownerEnd := by
              have hAt' := hAdv.atOwner
              rwa [hAdv.threads] at hAt'
            rw [vacant_iff, listOf_of_taskAt hAt,
              ← ownerEnd.threads.visited_append_pending,
              hPendingEnd, hAdv.visited]
            rfl
          rcases round_of_emptied hSweepEnd.wf.tasksNodup hVisited
              hVacantEnd hEmptied with
            ⟨hNotPending, hNotBefore, _, hRoundEnd⟩
          rw [hRest] at hRoundEnd
          have hOther : ∀ u ∈ ts, u ≠ t := by
            rw [← hRest]
            rintro u hu rfl
            rcases List.mem_append.mp hu with hu | hu
            · exact hNotPending (List.mem_sweep.mp hu).1
            · exact hNotBefore (List.mem_sweep.mp hu).1
          have hFirstIn :
              ∀ u ∈ ts, sEnd.firstIn u = s.firstIn u := by
            intro u hu
            rw [hUntouched.firstIn (hOther u hu)]
            rw [State.firstIn, State.firstIn, hListEnter]
            apply List.sweepHead_congr
            intro q _
            exact dying_congr (hThreadEnter q)
          have hAheadEnd :=
            hKernel.next hSweepEnd.wf
              (hAdv.kernelTask.trans hKernelEnter) hVisited
              hCase hVacantEnd hEmptied
          have hFirstEnd :
              (sEnd.round tasks').findSome? sEnd.firstIn =
                some p := by
            rw [hRoundEnd, ← hFirst]
            exact List.findSome?_congr_of_mem hFirstIn
          rcases ih hSweepEnd hAdv.atOwner hPendingEnd hAheadEnd
              hFirstEnd hRoundEnd with
            ⟨s', newTask', hLeads', hUnder, hSame⟩
          refine ⟨s', newTask',
            (hEnter.trans hLeads).trans hLeads', hUnder, ?_⟩
          rcases List.exists_of_findSome?_eq_some hFirst with
            ⟨u, hu, hAt⟩
          rw [hSame, hUntouched.thread u p (hOther u hu)
            (by
              rw [hListEnter]
              exact List.mem_of_sweepHead hAt),
            hThreadEnter]

/-
  From a state at rest, the loops reach the first thread
  that is not dying.
-/
theorem AtRest.leads_nextLive
    {p : Nat}
    (hRest : AtRest False s tasks)
    (hKernel : s.vacant s.kernelTask = false)
    (hNext : s.nextLive = some p) :
    ∃ s' newTask, Leads s 0 s' newTask ∧
      s'.UnderCursor p ∧
      s'.threadAt p = s.threadAt p := by
  have hSweep := hRest.sweeping
  rcases hSweep.owner with ⟨owner, hOwner⟩
  simp only [State.nextLive, hRest.wf.tasksEq, hOwner]
    at hNext
  rcases leads_pending hSweep hOwner with
    ⟨s₁, owner₁, hLeads, hSweep₁, hAdv⟩
  cases hPart : owner.threads.pending.sweepHead s.dying with
  | some q =>
      rw [hPart, Option.some_or] at hNext
      cases hNext
      obtain ⟨rest, hPending⟩ :
          ∃ rest, owner₁.threads.pending = p :: rest := by
        have hHead := hAdv.head
        rw [hPart] at hHead
        exact List.head?_eq_some_iff.mp hHead
      refine ⟨s₁, 0, hLeads,
        ⟨owner₁, rest, hAdv.atOwner, hPending⟩, ?_⟩
      apply hAdv.thread
      rw [hPending]
      simp
  | none =>
      rw [hPart, Option.none_or] at hNext
      have hPending : owner₁.threads.pending = [] := by
        have hHead := hAdv.head
        rw [hPart] at hHead
        exact List.head?_eq_none_iff.mp hHead
      have hDying := List.sweepHead_eq_none_iff.mp hPart
      have hUntouched := hAdv.untouched hSweep.wf hOwner
      have hVisited : owner.threads.visited ≠ [] := by
        rcases hRest.owner with ⟨current, hCurrent, hLast, _⟩
        rw [← hRest.threads, hOwner] at hCurrent
        cases hCurrent
        intro hNil
        rw [hNil] at hLast
        cases hLast
      -- the current list keeps what its cursor has passed
      have hList₁ :
          s₁.listOf s.threads = owner.threads.visited := by
        have hAt : s₁.taskAt s.threads = some owner₁ := by
          rw [← hAdv.threads]
          exact hAdv.atOwner
        rw [listOf_of_taskAt hAt,
          ← owner₁.threads.visited_append_pending, hPending,
          List.append_nil, hAdv.visited]
      have hList :
          s.listOf s.threads =
            owner.threads.visited ++ owner.threads.pending :=
        by
          rw [listOf_of_taskAt hOwner,
            owner.threads.visited_append_pending]
      have hVacant : s₁.vacant = s.vacant := by
        funext u
        by_cases hu : u = s.threads
        · rw [hu, vacant_eq_false_iff.mpr (by
            rw [hList₁]
            exact hVisited), vacant_eq_false_iff.mpr (by
            rw [hList]
            simp [hVisited])]
        · exact hUntouched.vacant hu
      have hThread :
          ∀ q, s.dying q = false →
            s₁.threadAt q = s.threadAt q := by
        intro q hq
        apply hAdv.thread
        refine .inl ?_
        intro hMem
        rw [hDying q hMem] at hq
        cases hq
      have hFirstIn : s₁.firstIn = s.firstIn := by
        funext u
        by_cases hu : u = s.threads
        · rw [hu, State.firstIn, State.firstIn, hList₁,
            hList,
            List.sweepHead_append_of_forall _ _ hDying]
          apply List.sweepHead_congr
          intro q hq
          apply dying_congr
          apply hAdv.thread
          refine .inl ?_
          intro hMem
          have hNodup := hSweep.wf.listNodup _ owner hOwner
          rw [← owner.threads.visited_append_pending,
            List.nodup_append] at hNodup
          exact hNodup.2.2 q hq q hMem rfl
        · exact hUntouched.firstIn hu
      have hAhead : KernelAhead s₁ tasks := by
        rw [KernelAhead, hVacant, hAdv.kernelTask, hKernel]
        intro hAbsurd
        cases hAbsurd
      have hNext₁ :
          (s₁.round tasks).findSome? s₁.firstIn = some p := by
        rw [State.round, hVacant, hFirstIn]
        exact hNext
      rcases leads_round hSweep₁ hAdv.atOwner hPending hAhead
          hNext₁ with
        ⟨s', newTask', hLeads', hUnder, hSame⟩
      refine ⟨s', newTask', hLeads.trans hLeads', hUnder,
        ?_⟩
      rcases List.exists_of_findSome?_eq_some hNext with ⟨u, _, hAt⟩
      rw [hSame,
        hThread p (List.eq_false_of_sweepHead hAt)]

end Sched

end SosKernel
