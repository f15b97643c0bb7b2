import SosKernel.Asm.Fork
import SosKernel.Sched.ForkedChild

/-
  The scheduler, whose records hold registers, over the
  threads that the instructions switch between.

  Main declarations:
    * `Resume.saved`, `Ready.record`: what a record holds
    * `Follows`
    * `Follows.create`, `Follows.switch`, `Follows.fork`
    * `SameStack`: `fork` calls with one stack pointer
    * `child_second_pass`
-/

------------------------------------------------------------
-- What a Record Holds
------------------------------------------------------------

namespace SosKernel

namespace Asm

variable {w : World}
variable {cfg cfg' : Config}
variable {m : Machine}
variable {t u q task : UInt32}
variable {r : Resume}
variable {s s' : Sched.State}

/- The registers that are saved, as the scheduler has them. -/
def Machine.registers (m : Machine) : Sched.Context where
  esp := (m.regs .esp).toNat
  ebp := (m.regs .ebp).toNat
  ebx := (m.regs .ebx).toNat
  esi := (m.regs .esi).toNat
  edi := (m.regs .edi).toNat
  eflags := m.eflags.toNat

/- The saved state in the record at `u`. -/
def Machine.record
    (w : World)
    (m : Machine)
    (u : UInt32) : Sched.Context :=
  let field (i : Nat) :=
    (m.word w.place (w.space u) (u.toNat + i)).toNat
  { esp := field 0
    ebp := field 4
    ebx := field 8
    esi := field 12
    edi := field 16
    eflags := field 20 }

/-
  What the record of a thread holds that goes on there: its
  return address is still on the stack.
-/
def Resume.saved (r : Resume) : Sched.Context where
  esp := (r.ctx.esp - 4).toNat
  ebp := r.ctx.ebp.toNat
  ebx := r.ctx.ebx.toNat
  esi := r.ctx.esi.toNat
  edi := r.ctx.edi.toNat
  eflags := r.ctx.eflags.toNat

theorem Ready.record
    (hReady : Ready w m u r) :
    m.record w u = r.saved := by
  unfold Machine.record Resume.saved
  dsimp only
  rw [hReady.esp, hReady.ebp, hReady.ebx, hReady.esi,
    hReady.edi, hReady.eflags]

/- A caller's registers are those of its call. -/
theorem saved_call
    (w : World)
    (m : Machine)
    (words : List UInt32)
    (eip : UInt32) :
    (⟨{ callContext w m with eip := eip }, words⟩ :
      Resume).saved = m.registers := by
  unfold Resume.saved Machine.registers callContext
  dsimp only
  rw [UInt32.add_sub_cancel]

------------------------------------------------------------
-- The Simulation
------------------------------------------------------------

/-
  The scheduler has the running thread, and for every other
  one a record with what is saved of it.
-/
structure Follows
    (cfg : Config)
    (s : Sched.State) : Prop where
  current : s.currentThread = cfg.current.toNat
  live : (s.threadAt s.currentThread).isSome = true
  records :
    ∀ u r, u ≠ cfg.current → cfg.resume u = some r →
      ∃ thread, s.threadAt u.toNat = some thread ∧
        thread.saved = r.saved

theorem toNat_ne (hNe : u ≠ t) : u.toNat ≠ t.toNat :=
  fun hSame => hNe (UInt32.toNat_inj.mp hSame)

/- A new record, for a thread that goes on at `r`. -/
theorem Follows.add
    {cfg' : Config}
    {thread : Sched.Thread}
    (hFollows : Follows cfg s)
    (hOther : u ≠ cfg.current)
    (hSaved : thread.saved = r.saved)
    (hCurrent : cfg'.current = cfg.current)
    (hResume :
      cfg'.resume = Function.update cfg.resume u (some r))
    (hCurrent' : s'.currentThread = s.currentThread)
    (hThreads :
      s'.threadAt =
        Function.update s.threadAt u.toNat (some thread)) :
    Follows cfg' s' where
  current := by
    rw [hCurrent', hCurrent]
    exact hFollows.current
  live := by
    rw [hCurrent', hThreads, hFollows.current,
      Function.update_of_ne (toNat_ne hOther).symm,
      ← hFollows.current]
    exact hFollows.live
  records := by
    intro v r' hv hr'
    rw [hResume] at hr'
    rw [hThreads]
    by_cases hSame : v = u
    · subst hSame
      rw [Function.update_self] at hr' ⊢
      cases hr'
      exact ⟨thread, rfl, hSaved⟩
    · rw [Function.update_of_ne hSame] at hr'
      rw [Function.update_of_ne (toNat_ne hSame)]
      rw [hCurrent] at hv
      exact hFollows.records v r' hv hr'

/- `create_thread`, for the record at `u`. -/
theorem Follows.create
    {fn arg stackSize tid : UInt32}
    (hFollows : Follows cfg s)
    (hOther : u ≠ cfg.current)
    (hRoom : w.lo u + 20 ≤ (w.hi u).toNat)
    (hRun :
      (Sched.createThread (w.hi u).toNat stackSize.toNat).run
        s = .ok u.toNat s') :
    Follows
      { cfg with
        machine :=
          createThread w (w.space u) u fn arg (w.hi u)
            stackSize tid cfg.machine
        resume :=
          Function.update cfg.resume u
            (some (entry w fn arg (w.hi u))) }
      s' := by
  rw [Sched.createThread,
    EStateM.bind_of_ok (EStateM.run_get s),
    EStateM.bind_eq_ok_iff] at hRun
  rcases hRun with ⟨p, sHeap, hHeap, hRun⟩
  rcases Sched.kmallocThread_ok hHeap with ⟨-, -, rest, rfl⟩
  cases hRun
  refine hFollows.add hOther ?_ rfl rfl rfl rfl
  have hEsp :
      (w.hi u - 12 - 4).toNat = (w.hi u).toNat - 16 := by
    have hTwelve : (12 : UInt32).toNat = 12 := rfl
    have hFour : (4 : UInt32).toNat = 4 := rfl
    have hFirst :=
      toNat_sub_of_le (x := w.hi u) (d := 12) (by omega)
    rw [toNat_sub_of_le (by omega), hFirst]
    omega
  unfold Resume.saved entry
  dsimp only
  rw [hEsp]
  rfl

/- `switch_context`, to the thread `t`. -/
theorem Follows.switch
    {p : Nat}
    (hFollows : Follows cfg s)
    (hRegs : s.regs = cfg.machine.registers)
    (hRun :
      (Sched.switchContext t.toNat p).run s = .ok () s') :
    Follows (cfg.switch w t) s' ∧
      ∀ r, (cfg.switch w t).resume t = some r →
        s'.regs = r.saved := by
  rcases Sched.switchContext_ok hRun with
    ⟨thread, hThread, hAfter⟩
  have hSame :
      s'.currentThread = t.toNat ∧ s'.regs = thread.saved ∧
        s'.threadAt =
          (s.save s.currentThread).threadAt := by
    rcases hAfter with rfl | ⟨dir, physical, rfl⟩
    · exact ⟨rfl, rfl, rfl⟩
    · exact ⟨rfl, rfl, rfl⟩
  rcases hSame with ⟨hCurrent, hLoaded, hThreads⟩
  -- what the records hold when the caller has saved its own
  have hRecords :
      ∀ u r, (cfg.switch w t).resume u = some r →
        ∃ thread, s'.threadAt u.toNat = some thread ∧
          thread.saved = r.saved := by
    intro u r hr
    rw [hThreads]
    by_cases hSelf : u = cfg.current
    · subst hSelf
      rw [resume_switch_self] at hr
      cases hr
      rcases Option.isSome_iff_exists.mp hFollows.live with
        ⟨mine, hMine⟩
      refine ⟨{ mine with saved := s.regs }, ?_, ?_⟩
      · rw [← hFollows.current]
        unfold Sched.State.save
        rw [hMine]
        exact Function.update_self _ _ _
      · exact hRegs.trans (saved_call w cfg.machine [] _).symm
    · rw [resume_switch_of_ne hSelf] at hr
      rcases hFollows.records u r hSelf hr with
        ⟨other, hOther, hSaved⟩
      refine ⟨other, ?_, hSaved⟩
      rw [hFollows.current,
        Sched.save_threadAt_of_ne (toNat_ne hSelf)]
      exact hOther
  have hMine : s'.threadAt t.toNat = some thread := by
    rw [hThreads]
    exact hThread
  refine ⟨⟨hCurrent, ?_, fun u r _ => hRecords u r⟩, ?_⟩
  · rw [hCurrent, hMine]
    rfl
  · intro r hr
    rcases hRecords t r hr with ⟨thread', hThread', hSaved⟩
    rw [hMine] at hThread'
    cases hThread'
    exact hLoaded.trans hSaved

/-
  `fork`, with the record of the child at `q`, and with the
  registers after `cli` at the call of `save_thread_state`.
-/
theorem Follows.fork
    {pid : Nat}
    {copied call : Machine}
    (hFollows : Follows cfg s)
    (hOther : q ≠ cfg.current)
    (hRegs : s.regs.masked = call.registers)
    (hRun : Sched.fork.run s = .ok pid s')
    (hNew : s.threadAt q.toNat = none)
    (hMade : (s'.threadAt q.toNat).isSome = true) :
    Follows (cfg.fork w q copied call) s' ∧
      ∃ child, s'.threadAt q.toNat = some child ∧
        child.copied = true := by
  rcases Sched.fork_launches hRun with
    ⟨p, thread, _, _, _, _, _, hLaunched, hSaved, hCopied⟩
  have hThreads :
      s'.threadAt =
        Function.update s.threadAt p (some thread) :=
    hLaunched.after.threadAt
  have hPlace : p = q.toNat := by
    by_contra hNe
    rw [hThreads, Function.update_of_ne (Ne.symm hNe), hNew]
      at hMade
    cases hMade
  subst hPlace
  constructor
  · exact hFollows.add hOther
      ((hSaved.trans hRegs).trans
        (saved_call w call _ _).symm)
      rfl rfl hLaunched.after.currentThread hThreads
  · refine ⟨thread, ?_, hCopied⟩
    rw [hThreads]
    exact Function.update_self _ _ _

------------------------------------------------------------
-- One Stack Pointer
------------------------------------------------------------

/-
  `clone` is the machine at the first instruction of
  `clone_directory`.  It has the stack pointer that `call`
  has at that of `save_thread_state`, and its return address
  is on the stack as long as it has not returned.
-/
structure SameStack
    (w : World)
    (f : ForkFrame)
    (p : UInt32)
    (clone copied call : Machine) : Prop where
  esp : clone.regs .esp = call.regs .esp
  kept :
    copied.word w.place (w.space p)
        (clone.regs .esp).toNat =
      clone.word w.place (w.space p) (clone.regs .esp).toNat
  other :
    clone.word w.place (w.space p) (clone.regs .esp).toNat ≠
      f.entryPoint

section

variable {f : ForkFrame}
variable {kernelThread tid : UInt32}
variable {begun clone copied call : Machine}
variable (hNo : w.NoOverlap)
variable (hReach : Reachable (Started w) (Step w) cfg)
variable
  (hForks :
    Forks w f kernelThread cfg q tid begun copied call)
variable
  (hRun :
    Reachable (· = cfg.fork w q copied call)
      (StepWithout w q) cfg')
variable (hCalls : Calls w cfg' q task)
variable (hSame : SameStack w f cfg.current clone copied call)

include hNo hReach hForks hRun hCalls hSame

/-
  The child goes on after the call of `clone_directory`, with
  the flags in `eax`, as if that call had returned them; it
  never comes to the entry point from there.
-/
theorem child_after_clone :
    let child := (cfg'.switch w q).machine
    child.eip =
        clone.word w.place (w.space cfg.current)
          (clone.regs .esp).toNat ∧
      child.regs .eax = call.eflags ∧
      forkReturns w f child = none ∧
      ¬ ReturnsTwice w f cfg.current call child := by
  intro child
  have hInv := Inv.reachable hNo hReach
  rcases child_waits hNo (hForks.inv_fork hInv hNo)
      hForks.other (Function.update_self _ _ _) hRun with
    ⟨hInv', hNe, hWaits⟩
  rcases hInv'.switch_eax hNo hCalls with
    ⟨⟨r, hr, hResumed, hEax⟩, -⟩
  rw [resume_switch_of_ne hNe, hWaits] at hr
  cases hr
  have hEip :
      child.eip =
        clone.word w.place (w.space cfg.current)
          (clone.regs .esp).toNat := by
    refine hResumed.eip.trans ?_
    rw [← hSame.kept, hSame.esp]
    rfl
  have hElsewhere : child.eip ≠ f.entryPoint := by
    rw [hEip]
    exact hSame.other
  refine ⟨hEip, hEax, if_neg hElsewhere, ?_⟩
  intro hReturns
  exact hElsewhere hReturns.entryPoint

/-
  In the scheduler the child is then the running thread, and
  the flags that it loads are what `eax` holds: `forkAgain`
  takes these two for `new_thread` and `page_dir`.
-/
theorem child_second_pass
    {p : Nat}
    (hFollows : Follows cfg' s)
    (hRegs : s.regs = cfg'.machine.registers)
    (hSwitch :
      (Sched.switchContext q.toNat p).run s = .ok () s') :
    s'.currentThread = q.toNat ∧
      s'.regs.eflags =
        ((cfg'.switch w q).machine.regs .eax).toNat := by
  have hEax :=
    (child_after_clone hNo hReach hForks hRun hCalls hSame).2.1
  have hInv := Inv.reachable hNo hReach
  rcases child_waits hNo (hForks.inv_fork hInv hNo)
      hForks.other (Function.update_self _ _ _) hRun with
    ⟨-, hNe, hWaits⟩
  rcases hFollows.switch (w := w) hRegs hSwitch with
    ⟨hFollows', hLoaded⟩
  have hSaved :=
    hLoaded _ ((resume_switch_of_ne hNe q).trans hWaits)
  refine ⟨hFollows'.current, ?_⟩
  rw [hEax, hSaved]
  rfl

end

end Asm

end SosKernel
