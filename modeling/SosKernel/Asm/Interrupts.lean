import SosKernel.Asm.Fork
import SosKernel.Lib.FlagCode

/-
  The interrupt flag of the threads that return from `fork`
  and from `exec_elf`.

  Main declarations:
    * `forkFlags`, `execElfFlags`: the instructions of the
      two functions for the flag
    * `Spawn`: a call, up to the threads that return
    * `child_masked`
    * `spawn_interrupts_iff`
-/

------------------------------------------------------------
-- The Flag
------------------------------------------------------------

namespace SosKernel

namespace Asm

def interruptsOn (eflags : UInt32) : Bool :=
  eflags &&& INTERRUPT_FLAG != 0

/- It pushes the flags, and pops them at its end. -/
def copyPagePhysicalFlags : FlagCode :=
  .saved (.seq .clear .plain)

/- The two loops of `clone_directory`, and what is around. -/
def cloneDirectoryFlags : FlagCode :=
  .seq .plain
    (.seq
      (.loop
        (.seq .plain
          (.loop
            (.seq .plain (.seq copyPagePhysicalFlags .plain)))))
      .plain)

/-
  `fork` up to the call of `save_thread_state`: the test for
  the kernel thread, `cli`, `kmalloc` and the fields of the
  record, `clone_directory`, `create_task` and
  `schedule_add_task`.
-/
def forkFlags : FlagCode :=
  .seq .plain
    (.seq .clear
      (.seq .plain (.seq cloneDirectoryFlags .plain)))

/-
  `exec_elf`: the file is opened, `cli`, `clone_directory`,
  the new task is set up, `sti`.
-/
def execElfFlags : FlagCode :=
  .seq .plain
    (.seq .clear
      (.seq cloneDirectoryFlags
        (.seq .plain (.seq .set .plain))))

variable {b c : Bool}

theorem keeps_cloneDirectoryFlags :
    cloneDirectoryFlags.Keeps :=
  ⟨trivial, ⟨trivial, trivial, trivial, trivial⟩, trivial⟩

/- The state is saved with interrupts off. -/
theorem forkFlags_eq
    (hExec : forkFlags.Exec b c) :
    c = false := by
  rcases hExec with _ | _ | _ | _ | ⟨_, hExec⟩
  rcases hExec with _ | _ | _ | _ | ⟨hClear, hRest⟩
  cases hClear
  apply hRest.eq_of_keeps
  exact ⟨trivial, keeps_cloneDirectoryFlags, trivial⟩

/- The last instruction for the flag is `sti`. -/
theorem execElfFlags_eq
    (hExec : execElfFlags.Exec b c) :
    c = true := by
  rcases hExec with _ | _ | _ | _ | ⟨_, hExec⟩
  rcases hExec with _ | _ | _ | _ | ⟨_, hExec⟩
  rcases hExec with _ | _ | _ | _ | ⟨_, hExec⟩
  rcases hExec with _ | _ | _ | _ | ⟨_, hExec⟩
  rcases hExec with _ | _ | _ | _ | ⟨hSet, hPlain⟩
  cases hSet
  exact hPlain.eq_of_keeps trivial

theorem interruptsOn_or (eflags : UInt32) :
    interruptsOn (eflags ||| INTERRUPT_FLAG) = true := by
  unfold interruptsOn
  rw [bne_iff_ne, or_and_distrib, UInt32.and_self]
  intro hZero
  have hFlag := (UInt32.or_eq_zero_iff.mp hZero).2
  exact absurd hFlag (by decide)

------------------------------------------------------------
-- Calls
------------------------------------------------------------

/-
  A call of `fork` made in a run of the system, with a later
  dispatch of the child for the first time, or a call of
  `exec_elf` made and left with these flags.
-/
inductive Spawn (w : World) where
| fork
    (f : ForkFrame)
    (kernelThread : UInt32)
    (cfg : Config)
    (q tid : UInt32)
    (begun copied call : Machine)
    (later : Config)
    (task : UInt32)
    (hReach : Reachable (Started w) (Step w) cfg)
    (hForks :
      Forks w f kernelThread cfg q tid begun copied call)
    (hFlags :
      forkFlags.Exec (interruptsOn cfg.machine.eflags)
        (interruptsOn call.eflags))
    (hRun :
      Reachable (· = cfg.fork w q copied call)
        (StepWithout w q) later)
    (hCalls : Calls w later q task)
| execElf
    (enter leave : UInt32)
    (hFlags :
      execElfFlags.Exec (interruptsOn enter)
        (interruptsOn leave))

namespace Spawn

variable {w : World}

/- The flags with which the call is made. -/
def enter : Spawn w → UInt32
| .fork _ _ cfg .. => cfg.machine.eflags
| .execElf enter .. => enter

/-
  The flags with which threads go on after the call: the
  parent returns with these, and the child is dispatched
  with these.
-/
def continues : Spawn w → List UInt32
| .fork f _ _ q _ _ _ call later .. =>
    ((forkReturns w f (saveThreadState w.place call)).map
        ForkResult.eflags).toList ++
      [(later.switch w q).machine.eflags]
| .execElf _ leave _ => [leave]

def IsExecElf : Spawn w → Prop
| .fork .. => False
| .execElf .. => True

/- Every thread goes on with interrupts enabled. -/
def KeepsInterrupts (call : Spawn w) : Prop :=
  ∀ eflags ∈ call.continues, interruptsOn eflags = true

end Spawn

------------------------------------------------------------
-- Parent and Child
------------------------------------------------------------

section Fork

variable {w : World}
variable {f : ForkFrame}
variable {kernelThread : UInt32}
variable {cfg later : Config}
variable {q tid task : UInt32}
variable {begun copied call : Machine}
variable
  (hForks :
    Forks w f kernelThread cfg q tid begun copied call)
variable (hInv : Inv w cfg)
variable (hNo : w.NoOverlap)

include hForks hInv hNo

/- The parent sets the flag before it returns. -/
theorem parent_enabled :
    ∃ r,
      forkReturns w f (saveThreadState w.place call) =
          some r ∧
        interruptsOn r.eflags = true :=
  ⟨_, hForks.parent_result hInv hNo, interruptsOn_or _⟩

/- The child has the flag as it is at the call that saves. -/
theorem child_eflags
    (hRun :
      Reachable (· = cfg.fork w q copied call)
        (StepWithout w q) later)
    (hCalls : Calls w later q task) :
    (later.switch w q).machine.eflags = call.eflags :=
  (child_resumed hForks hInv hNo hRun hCalls).1.eflags

end Fork

/-
  All threads go on with interrupts enabled after a call of
  `exec_elf`, and never after a call of `fork`: its child
  does not.
-/
theorem spawn_interrupts_iff
    {w : World}
    (hNo : w.NoOverlap)
    (call : Spawn w) :
    call.KeepsInterrupts ↔ call.IsExecElf := by
  cases call with
  | execElf enter leave hFlags =>
      refine ⟨fun _ => trivial, ?_⟩
      intro _ eflags hMem
      rw [List.mem_singleton.mp hMem]
      exact execElfFlags_eq hFlags
  | fork f kernelThread cfg q tid begun copied call later task
      hReach hForks hFlags hRun hCalls =>
      refine ⟨?_, False.elim⟩
      intro hKeeps
      have hOn :
          interruptsOn (later.switch w q).machine.eflags =
            true :=
        hKeeps _
          (List.mem_append_right _ (List.mem_singleton_self _))
      rw [child_eflags hForks (Inv.reachable hNo hReach) hNo
        hRun hCalls, forkFlags_eq hFlags] at hOn
      cases hOn

------------------------------------------------------------
-- A Call with Interrupts Enabled
------------------------------------------------------------

def enabledStart : Config where
  machine := { forkBegun 0x510 with eflags := INTERRUPT_FLAG }
  current := 64
  resume := fun _ => none

theorem started_enabledStart :
    Started twoThreads enabledStart where
  thread := .inl rfl
  loaded := rfl
  current :=
    (started_forkStart (v := 0x510) (.inr rfl)).current
  alone := fun _ => rfl

theorem forks_enabledStart :
    Forks twoThreads forkFrame 32 enabledStart 128 1
      (forkBegun 0x510) (forkCopied 0x510)
      (forkCall 0x510) :=
  { forks_forkCall (v := 0x510) (.inr rfl) with
    begins := ⟨rfl, fun _ _ _ _ => rfl,
      fun _ _ _ _ _ => rfl, fun _ _ _ _ _ => rfl⟩ }

/- The first thread forks the second, which runs later. -/
def enabledFork : Spawn twoThreads :=
  .fork forkFrame 32 enabledStart 128 1 (forkBegun 0x510)
    (forkCopied 0x510) (forkCall 0x510)
    { forkEnd 0x510 with machine := forkSwitch 0x510 } 256
    (.start started_enabledStart) forks_enabledStart
    (.seq (.plain true)
      (.seq (.clear true)
        (FlagCode.exec_of_keeps false
          ⟨trivial, keeps_cloneDirectoryFlags, trivial⟩)))
    (reachable_forkSwitch (.inr rfl))
    (calls_forkSwitch (.inr rfl))

theorem enabledFork_iff :
    enabledFork.KeepsInterrupts ↔ enabledFork.IsExecElf :=
  spawn_interrupts_iff noOverlap_twoThreads enabledFork

/- The child goes on with interrupts off. -/
theorem child_masked :
    twoThreads.NoOverlap ∧
      interruptsOn enabledFork.enter = true ∧
      ¬ enabledFork.KeepsInterrupts := by
  refine ⟨noOverlap_twoThreads, rfl, ?_⟩
  intro hKeeps
  have hOn :=
    hKeeps _
      (List.mem_append_right _ (List.mem_singleton_self _))
  rw [child_eflags forks_enabledStart
    started_enabledStart.inv noOverlap_twoThreads
    (reachable_forkSwitch (.inr rfl))
    (calls_forkSwitch (.inr rfl))] at hOn
  cases hOn

end Asm

end SosKernel
