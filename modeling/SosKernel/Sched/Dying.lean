import SosKernel.Sched.Safety

/-
  What happens to a thread once it is dying.

  Main declarations:
    * `LetsDie`: the calls that do not revive a thread
    * `Doomed`: what a step keeps of a dying thread
    * `dying_until_destroyed`
    * `wakeup_revives_killed`

  `wakeup` and `sleep` write the state field whatever it is,
  so a thread that has been killed, or has returned from its
  function, can be made running again.
-/

------------------------------------------------------------
-- States of Threads
------------------------------------------------------------

namespace SosKernel

namespace Sched

variable {s s' : State}

/- The state field of the record at `p`, if it is live. -/
def State.stateOf (s : State) (p : Nat) :
    Option ThreadState :=
  (s.threadAt p).map Thread.state

theorem stateOf_withThread_self
    {thread : Thread}
    (p : Nat)
    (s : State) :
    (s.withThread p thread).stateOf p =
      some thread.state := by
  rw [State.stateOf, withThread_threadAt_self,
    Option.map_some]

theorem stateOf_withThread_of_ne
    {thread : Thread}
    {p q : Nat}
    (hq : q ≠ p) :
    (s.withThread p thread).stateOf q = s.stateOf q := by
  rw [State.stateOf, withThread_threadAt_of_ne thread hq,
    State.stateOf]

/- Saving registers into a record keeps every state. -/
theorem stateOf_save
    (s : State)
    (p q : Nat) :
    (s.save p).stateOf q = s.stateOf q := by
  by_cases hq : q = p
  · subst hq
    simp [State.save, State.stateOf, Option.map_map,
      Function.comp_def]
  · rw [State.stateOf, save_threadAt_of_ne hq,
      State.stateOf]

theorem threadAt_loadRegisters
    {p : Nat}
    (hRun : (loadRegisters p).run s = .ok () s') :
    s'.threadAt = s.threadAt := by
  rw [loadRegisters, EStateM.bind_eq_ok_iff] at hRun
  rcases hRun with ⟨thread, sRead, hRead, hRun⟩
  rcases readThread_ok hRead with ⟨_, rfl⟩
  rw [eq_of_run_modify hRun]

/- A context switch keeps every state. -/
theorem stateOf_switchContext
    {p t : Nat}
    (hRun : (switchContext p t).run s = .ok () s')
    (q : Nat) :
    s'.stateOf q = s.stateOf q := by
  have hSave :
      ∀ s' : State,
        s'.threadAt = (s.save s.currentThread).threadAt →
          s'.stateOf q = s.stateOf q := by
    intro s' hSame
    rw [← stateOf_save s s.currentThread q, State.stateOf,
      hSame, State.stateOf]
  rw [switchContext, EStateM.bind_of_ok (EStateM.run_get s),
    EStateM.bind_of_ok (run_saveRegisters _),
    EStateM.bind_of_ok (run_turn p)] at hRun
  split at hRun
  · rw [EStateM.bind_eq_ok_iff] at hRun
    rcases hRun with ⟨_, sTask, hTask, hRun⟩
    have hTask := eq_of_run_modify hTask
    rw [EStateM.bind_eq_ok_iff] at hRun
    rcases hRun with ⟨_, sRead, hRead, hRun⟩
    rcases readTask_ok hRead with ⟨_, rfl⟩
    rw [EStateM.bind_eq_ok_iff] at hRun
    rcases hRun with ⟨_, sDir, hDir, hRun⟩
    rcases switchPageDirectory_ok hDir with ⟨_, _, rfl⟩
    apply hSave
    rw [threadAt_loadRegisters hRun, hTask]
    rfl
  · apply hSave
    rw [threadAt_loadRegisters hRun]
    rfl

/-
  `schedule` changes no state: what is left after it has the
  state it had before.
-/
theorem stateOf_schedule
    {up : Prop}
    {tasks : ListT}
    {bound p : Nat}
    {state : ThreadState}
    (hRest : AtRest up s tasks)
    (hRun : (schedule bound).run s = .ok () s')
    (hState : s'.stateOf p = some state) :
    s.stateOf p = some state := by
  have hPick := pickThread_sat bound bound hRest.sweeping
  have hSome : s.tasks.isNone = false := by
    rw [hRest.wf.tasksEq]
    rfl
  rw [schedule, EStateM.bind_of_ok (EStateM.run_get s)]
    at hRun
  simp only [hSome, Bool.false_eq_true, if_false] at hRun
  rw [EStateM.bind_eq_ok_iff] at hRun
  rcases hRun with ⟨⟨q, t⟩, sPick, hPicked, hRun⟩
  rw [hPicked] at hPick
  have hFrame : Frame s sPick := hPick.frame
  -- the loops destroy records and change no other
  have hKept :
      sPick.stateOf p = some state →
        s.stateOf p = some state := by
    intro hBefore
    rw [State.stateOf, Option.map_eq_some_iff] at hBefore
    rcases hBefore with ⟨thread, hThread, hThreadState⟩
    rw [State.stateOf, hFrame.thread p thread hThread,
      Option.map_some, hThreadState]
  rw [EStateM.bind_of_ok (EStateM.run_get sPick)] at hRun
  split at hRun
  · rw [stateOf_switchContext hRun] at hState
    exact hKept hState
  · cases hRun
    exact hKept hState

------------------------------------------------------------
-- Dying Threads
------------------------------------------------------------

/-
  The calls that do not revive a thread: no dying thread is
  woken up, and the current thread does not go to sleep when
  it is dying.
-/
def LetsDie (s : State) : Call → Prop
| .wakeup p => s.stateOf p ≠ some .dying
| .sleep => s.stateOf s.currentThread ≠ some .dying
| _ => True

/-
  What a call that ended in `s'` has done to a thread that
  was dying: it is dying still, unless `schedule` has
  destroyed it, and `schedule` has not dispatched it.
-/
structure Doomed
    (c : Call)
    (s' : State)
    (p : Nat) : Prop where
  stays :
    s'.stateOf p = some .dying ∨
      c.Schedules ∧ s'.threadAt p = none
  idle : c.Schedules → s'.currentThread ≠ p

/- A call without `schedule` keeps a dying thread. -/
theorem Doomed.of_stateOf
    {c : Call}
    {p : Nat}
    (hOther : ¬ c.Schedules)
    (hDying : s'.stateOf p = some .dying) :
    Doomed c s' p where
  stays := .inl hDying
  idle hCalls := absurd hCalls hOther

/-
  What is dying when `schedule` runs is dying or destroyed
  afterwards, and a running thread has been dispatched.
-/
theorem Doomed.of_schedule
    {up : Prop}
    {tasks : ListT}
    {c : Call}
    {bound p : Nat}
    (hRest : AtRest up s tasks)
    (hCalls : c.Schedules)
    (hRun : (schedule bound).run s = .ok () s')
    (hDying : s.stateOf p = some .dying) :
    Doomed c s' p := by
  have hSat := schedule_sat bound hRest
  rw [hRun] at hSat
  have hDone : Scheduled up s s' := hSat
  rcases hDone.running with ⟨thread, hThread, hRunning⟩
  have hStays :
      s'.stateOf p = some .dying ∨ s'.threadAt p = none := by
    cases hAfter : s'.threadAt p with
    | none => exact .inr rfl
    | some after =>
        have hState :
            s'.stateOf p = some after.state := by
          rw [State.stateOf, hAfter, Option.map_some]
        have hBefore := stateOf_schedule hRest hRun hState
        rw [hDying] at hBefore
        exact .inl (hState.trans hBefore.symm)
  refine ⟨hStays.imp_right fun hNone => ⟨hCalls, hNone⟩, ?_⟩
  rintro - rfl
  rcases hStays with hState | hNone
  · rw [State.stateOf, hThread, Option.map_some, hRunning]
      at hState
    cases hState
  · rw [hThread] at hNone
    cases hNone

/- Writing a state other than to `p`, or dying to `p`. -/
theorem dying_setThreadState
    {p q : Nat}
    {state : ThreadState}
    (hRun : (setThreadState q state).run s = .ok () s')
    (hWrite : q = p → state = .dying)
    (hDying : s.stateOf p = some .dying) :
    s'.stateOf p = some .dying := by
  rcases setThreadState_ok hRun with ⟨thread, _, rfl⟩
  by_cases hp : p = q
  · subst hp
    rw [stateOf_withThread_self]
    exact congrArg some (hWrite rfl)
  · rw [stateOf_withThread_of_ne hp]
    exact hDying

/- A new record is not put over a live one. -/
theorem stateOf_update_fresh
    {p q : Nat}
    {thread : Thread}
    {state : ThreadState}
    (hFresh : s.threadAt q = none)
    (hSame :
      s'.threadAt =
        Function.update s.threadAt q (some thread))
    (hState : s.stateOf p = some state) :
    s'.stateOf p = some state := by
  have hp : p ≠ q := by
    rintro rfl
    rw [State.stateOf, hFresh] at hState
    cases hState
  rw [State.stateOf, hSame, Function.update_of_ne hp]
  exact hState

/-
  One call that does not revive a thread keeps a dying
  thread doomed.
-/
theorem LetsDie.doomed
    {tasks : ListT}
    {c : Call}
    {bound p : Nat}
    (hRest : AtRest False s tasks)
    (hLets : LetsDie s c)
    (hRun : (c.run bound).run s = .ok () s')
    (hDying : s.stateOf p = some .dying) :
    Doomed c s' p := by
  cases c with
  | schedule => exact .of_schedule hRest (.inl rfl) hRun hDying
  | sleep =>
      rcases Option.isSome_iff_exists.mp hRest.current_live
        with ⟨thread, hThread⟩
      have hOther : p ≠ s.currentThread := by
        rintro rfl
        exact hLets hDying
      rw [Call.run, run_sleep bound hThread] at hRun
      refine .of_schedule
        (hRest.withThread .waiting hThread False.elim)
        (.inr rfl) hRun ?_
      rw [stateOf_withThread_of_ne hOther]
      exact hDying
  | threadExit =>
      rw [Call.run, Sched.threadExit,
        EStateM.bind_of_ok (EStateM.run_get s)] at hRun
      exact .of_stateOf (by simp [Call.Schedules])
        (dying_setThreadState hRun (fun _ => rfl) hDying)
  | wakeup q =>
      rw [Call.run, Sched.wakeup] at hRun
      have hOther : q ≠ p := by
        rintro rfl
        exact hLets hDying
      exact .of_stateOf (by simp [Call.Schedules])
        (dying_setThreadState hRun
          (fun h => absurd h hOther) hDying)
  | kill q =>
      rw [Call.run, Sched.kill,
        EStateM.bind_of_ok (EStateM.run_get s)] at hRun
      refine .of_stateOf (by simp [Call.Schedules]) ?_
      split at hRun
      · exact dying_setThreadState hRun (fun _ => rfl) hDying
      · cases hRun
        exact hDying
  | execThread stack =>
      rw [Call.run, EStateM.bind_eq_ok_iff] at hRun
      rcases hRun with ⟨_, sExec, hExec, hRun⟩
      rcases eq_of_run_pure hRun with rfl
      rcases execThread_ok hExec with
        ⟨q, thread, task, _, hFresh, _, _, hSame⟩
      exact .of_stateOf (by simp [Call.Schedules])
        (stateOf_update_fresh hFresh hSame.threadAt hDying)
  | execElf stack =>
      rw [Call.run, EStateM.bind_eq_ok_iff] at hRun
      rcases hRun with ⟨_, sExec, hExec, hRun⟩
      rcases eq_of_run_pure hRun with rfl
      rcases execElf_ok hExec hRest.loaded with
        ⟨q, thread, t, task, d, physical, tasks₀, hNew⟩
      exact .of_stateOf (by simp [Call.Schedules])
        (stateOf_update_fresh hNew.threadFresh
          hNew.after.threadAt hDying)
  | fork =>
      rw [Call.run, EStateM.bind_eq_ok_iff] at hRun
      rcases hRun with ⟨_, sFork, hFork, hRun⟩
      rcases eq_of_run_pure hRun with rfl
      rcases fork_ok hFork with
        ⟨q, thread, t, task, d, physical, tasks₀, hNew⟩
      exact .of_stateOf (by simp [Call.Schedules])
        (stateOf_update_fresh hNew.threadFresh
          hNew.after.threadAt hDying)

------------------------------------------------------------
-- Runs
------------------------------------------------------------

/-
  A step after which the record at `p` has not been
  destroyed.
-/
def StepSparing (p : Nat) (s s' : State) : Prop :=
  Step LetsDie s s' ∧ (s'.threadAt p).isSome

/-
  From a reachable state in which the thread at `p` is
  dying, in every run of calls that do not revive a thread:
  as long as the record is there it is dying, and whatever
  call comes next, it does not dispatch the thread and
  leaves it dying, or destroys it in `schedule`.
-/
theorem dying_until_destroyed
    {p : Nat}
    (hReach : Reachable Booted (Step AnyCall) s)
    (hDying : s.stateOf p = some .dying)
    (hRun : Reachable (· = s) (StepSparing p) s') :
    s'.stateOf p = some .dying ∧
      ∀ c bound s'', LetsDie s' c →
        (c.run bound).run s' = .ok () s'' →
          Doomed c s'' p := by
  have hBoth :
      Reachable Booted (Step AnyCall) s' ∧
        s'.stateOf p = some .dying := by
    induction hRun with
    | start hStart =>
        subst hStart
        exact ⟨hReach, hDying⟩
    | step _ hStep ih =>
        rcases ih with ⟨hMid, hMidDying⟩
        rcases hStep with ⟨hStep, hLive⟩
        rcases reachable_atRest hMid with ⟨tasks, hRest⟩
        cases hStep with
        | call c bound hLets hCall =>
            refine ⟨.step hMid (.call c bound trivial hCall),
              ?_⟩
            have hDoomed :=
              hLets.doomed hRest hCall hMidDying
            rcases hDoomed.stays with hState | ⟨_, hNone⟩
            · exact hState
            · rw [hNone] at hLive
              cases hLive
        | supply regs kmallocs frames =>
            exact ⟨.step hMid (.supply regs kmallocs frames),
              hMidDying⟩
  refine ⟨hBoth.2, ?_⟩
  intro c bound s'' hLets hCall
  rcases reachable_atRest hBoth.1 with ⟨tasks, hRest⟩
  exact hLets.doomed hRest hCall hBoth.2

------------------------------------------------------------
-- A Thread That Comes Back
------------------------------------------------------------

/- The kernel thread starts a thread and kills it. -/
def killedState : State :=
  EStateM.endState (Call.run 0 (.kill 7))
    (EStateM.endState (Call.run 0 (.execThread 0x8000))
      startedState)

theorem reachable_killedState :
    Reachable Booted (Step AnyCall) killedState :=
  .step
    (.step (.start booted_startedState)
      (.call (.execThread 0x8000) 0 trivial
        (EStateM.run_endState (by decide))))
    (.call (.kill 7) 0 trivial
      (EStateM.run_endState (by decide)))

attribute [irreducible] killedState

/- The killed thread is destroyed, not dispatched. -/
theorem killed_until_destroyed :
    killedState.stateOf 7 = some .dying ∧
      ∀ c bound s'', LetsDie killedState c →
        (c.run bound).run killedState = .ok () s'' →
          Doomed c s'' 7 :=
  dying_until_destroyed reachable_killedState
    (by decide +kernel) (.start rfl)

/-
  The killed thread is woken up: it is running again, and
  the next timer tick dispatches it.
-/
theorem wakeup_revives_killed :
    let woken :=
      EStateM.endState (Call.run 0 (.wakeup 7)) killedState
    let ticked := EStateM.endState (Call.run 2 .schedule) woken
    Reachable Booted (Step AnyCall) killedState ∧
    killedState.stateOf 7 = some .dying ∧
    (Call.run 0 (.wakeup 7)).run killedState = .ok () woken ∧
    woken.stateOf 7 = some .running ∧
    (Call.run 2 .schedule).run woken = .ok () ticked ∧
    ticked.currentThread = 7 := by
  refine ⟨reachable_killedState, by decide +kernel, ?_,
    by decide +kernel, ?_, by decide +kernel⟩
  · exact EStateM.run_endState (by decide +kernel)
  · exact EStateM.run_endState (by decide +kernel)

end Sched

end SosKernel
