import SosKernel.Asm.World
import SosKernel.Lib.Reachable

/-
  Threads that switch to one another: the system of which
  `switch_context` and `create_thread` are steps.

  Main declarations:
    * `Context`, `Resume`: where a thread goes on
    * `createThread`
    * `Config`, `Step`, `Started`
    * `Resumed`: the machine goes on as a thread expects
-/

------------------------------------------------------------
-- Where a Thread Goes On
------------------------------------------------------------

namespace SosKernel

namespace Asm

/- Stack pointer, saved registers, flags and next address. -/
structure Context where
  esp : UInt32
  ebp : UInt32
  ebx : UInt32
  esi : UInt32
  edi : UInt32
  eflags : UInt32
  eip : UInt32
deriving DecidableEq, Repr

/-
  The context in which a thread goes on, and the words that
  are on its stack then, from the stack pointer on.
-/
structure Resume where
  ctx : Context
  words : List UInt32
deriving DecidableEq, Repr

variable (w : World)

/-
  What the caller of `switch_context` expects: its registers
  and flags, its return address, and its stack pointer as it
  is after the return.
-/
def callContext (m : Machine) : Context where
  esp := m.regs .esp + 4
  ebp := m.regs .ebp
  ebx := m.regs .ebx
  esi := m.regs .esi
  edi := m.regs .edi
  eflags := m.eflags
  eip := m.word w.place m.cr3 (m.regs .esp).toNat

/-
  What a new thread expects: to enter `fn` with interrupts
  on, on a stack with `thread_exit` as the return address
  and `arg` as the first argument.
-/
def entry (fn arg stack : UInt32) : Resume where
  ctx :=
    { esp := stack - 12
      ebp := 0
      ebx := 0
      esi := 0
      edi := 0
      eflags := 0x200
      eip := fn }
  words := [w.syms.threadExit, arg, 0]

/- The machine goes on as expected. -/
structure Resumed (m : Machine) (r : Resume) : Prop where
  esp : m.regs .esp = r.ctx.esp
  ebp : m.regs .ebp = r.ctx.ebp
  ebx : m.regs .ebx = r.ctx.ebx
  esi : m.regs .esi = r.ctx.esi
  edi : m.regs .edi = r.ctx.edi
  eflags : m.eflags = r.ctx.eflags
  eip : m.eip = r.ctx.eip
  words :
    ∀ i (hi : i < r.words.length),
      m.word w.place m.cr3 (r.ctx.esp.toNat + 4 * i) =
        r.words[i]

------------------------------------------------------------
-- New Threads
------------------------------------------------------------

def THREAD_RUNNING : UInt32 := 1

/-
  The stores of `create_thread` for the record at `p`, in
  order: the zeros of `kmalloc_zero`, the fields, the four
  words that are pushed, and the saved state.  The state
  field is one byte; the three bytes after it are zero.
-/
def threadStores
    (p fn arg stack stackSize tid : UInt32) :
    List (Nat × UInt32) :=
  ((List.range 10).map fun i => (p.toNat + 4 * i, 0)) ++
    [((p + 28).toNat, tid),
      ((p + 36).toNat, THREAD_RUNNING),
      ((p + 32).toNat, stackSize),
      ((p + 24).toNat, stack),
      ((stack - 4).toNat, 0),
      ((stack - 8).toNat, arg),
      ((stack - 12).toNat, w.syms.threadExit),
      ((stack - 16).toNat, fn),
      ((p + 0).toNat, stack - 16),
      ((p + 4).toNat, 0),
      ((p + 20).toNat, 0x200)]

/-
  `create_thread`, in the address space `c`; `p` is the
  record that `kmalloc_zero` returns.  `exec_elf` calls it
  with the address space of the new task loaded.
-/
def createThread
    (c p fn arg stack stackSize tid : UInt32)
    (m : Machine) : Machine :=
  { m with
    ram :=
      ByteMemory.putsVia (w.place c) m.ram
        (threadStores w p fn arg stack stackSize tid) }

------------------------------------------------------------
-- The System
------------------------------------------------------------

/-
  The machine, the thread that is running, and where each
  other thread goes on.  A thread that has not been created
  yet has no such place.
-/
structure Config where
  machine : Machine
  current : UInt32
  resume : UInt32 → Option Resume

/-
  What the running thread leaves alone while it runs: the
  loaded address space, the variables of the switch, and the
  records and stacks of the other threads.
-/
structure Leaves (cfg : Config) (m : Machine) : Prop where
  cr3 : m.cr3 = cfg.machine.cr3
  symbols :
    ∀ g a, w.IsSymbol g → World.InSymbol g a →
      m.ram (w.place cfg.machine.cr3 a) =
        cfg.machine.ram (w.place cfg.machine.cr3 a)
  records :
    ∀ u a, u ≠ cfg.current → cfg.resume u ≠ none →
      World.InRecord u a →
        m.ram (w.place cfg.machine.cr3 a) =
          cfg.machine.ram (w.place cfg.machine.cr3 a)
  otherStacks :
    ∀ u a, u ≠ cfg.current → cfg.resume u ≠ none →
      w.InStack u a →
        m.ram (w.place (w.space u) a) =
          cfg.machine.ram (w.place (w.space u) a)

/-
  `task` is null and `t` is of the current task, or `task`
  is the record of the task of `t`: its directory has the
  address space of `t`.
-/
def LeadsTo (m : Machine) (t task : UInt32) : Prop :=
  if task = 0 then
    w.space t = m.cr3
  else
    (∀ i, i < 4 → w.Data (task.toNat + i)) ∧
      ∃ d, m.word w.place m.cr3 task.toNat = d ∧
        (∀ i, i < 4 → w.Data (d.toNat + i)) ∧
          m.word w.place m.cr3 d.toNat = w.space t

/-
  The running thread is at the first instruction of
  `switch_context`, called with `t` and `task`.
-/
structure Calls
    (cfg : Config)
    (t task : UInt32) : Prop where
  thread : t = cfg.current ∨ cfg.resume t ≠ none
  room : w.lo cfg.current + 4 ≤ (cfg.machine.regs .esp).toNat
  frame :
    (cfg.machine.regs .esp).toNat + 12 ≤
      (w.hi cfg.current).toNat
  argThread :
    cfg.machine.word w.place cfg.machine.cr3
      ((cfg.machine.regs .esp).toNat + 4) = t
  argTask :
    cfg.machine.word w.place cfg.machine.cr3
      ((cfg.machine.regs .esp).toNat + 8) = task
  leads : LeadsTo w cfg.machine t task

/- The switch to `t`; the caller goes on after its call. -/
def Config.switch (cfg : Config) (t : UInt32) : Config where
  machine := switchContext w.place w.syms cfg.machine
  current := t
  resume :=
    Function.update cfg.resume cfg.current
      (some ⟨callContext w cfg.machine, []⟩)

/-
  The running thread computes, creates a thread, or calls
  `switch_context`.
-/
inductive Step : Config → Config → Prop where
| compute
    {cfg : Config}
    (m : Machine)
    (hLeaves : Leaves w cfg m) :
    Step cfg { cfg with machine := m }
| create
    {cfg : Config}
    (u fn arg stackSize tid : UInt32)
    (hThread : w.Thread u)
    (hNew : cfg.resume u = none)
    (hOther : u ≠ cfg.current)
    (hRoom : w.lo u + 20 ≤ (w.hi u).toNat) :
    Step cfg
      { cfg with
        machine :=
          createThread w (w.space u) u fn arg (w.hi u)
            stackSize tid cfg.machine
        resume :=
          Function.update cfg.resume u
            (some (entry w fn arg (w.hi u))) }
| switch
    {cfg : Config}
    (t task : UInt32)
    (hCalls : Calls w cfg t task) :
    Step cfg (cfg.switch w t)

/- One thread is running, and there are no others yet. -/
structure Started (cfg : Config) : Prop where
  thread : w.Thread cfg.current
  loaded : cfg.machine.cr3 = w.space cfg.current
  current :
    cfg.machine.word w.place cfg.machine.cr3
      w.syms.currentThread = cfg.current
  alone : ∀ u, cfg.resume u = none

end Asm

end SosKernel
