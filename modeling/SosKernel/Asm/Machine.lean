import SosKernel.Asm.Processor
import SosKernel.Layout
import SosKernel.Lib.MappedMemory

/-
  The instructions of `asm/task.s` and `asm/thread.s`, with
  `switch_context` and `save_thread_state` as lists of them.

  Main declarations:
    * `Machine`, `Instr`, `Instr.exec`
    * `switchContext`, `saveThreadState`

  `place` gives, for each value of CR3, the place in memory
  of every virtual byte.
-/

------------------------------------------------------------
-- The Machine
------------------------------------------------------------

namespace SosKernel

namespace Asm

/-
  Registers and memory.  `eflags` stands for the flags that
  `pushf` and `popf` transfer.
-/
structure Machine extends Core where
  cr3 : UInt32
  ram : ByteMemory

/- The operand of a memory access. -/
inductive Operand where
| sym (a : Nat)
| mem (r : Reg) (disp : UInt32)
deriving DecidableEq, Repr

inductive Instr where
| load (dst : Reg) (src : Operand)
| store (dst : Operand) (src : Reg)
| push (src : Reg)
| pop (dst : Reg)
| pushf
| popf
| cmpZero (r : Reg)
| loadCr3 (src : Reg)
| ret
deriving DecidableEq, Repr

/- Where each virtual byte lies, by the value of CR3. -/
abbrev Paging : Type := UInt32 → AddressMap

variable (place : Paging)

/- The word at `a` in the address space `c`. -/
def Machine.word
    (m : Machine)
    (c : UInt32)
    (a : Nat) : UInt32 :=
  ByteMemory.wordVia (place c) m.ram a

def Operand.addr (m : Machine) : Operand → Nat
| .sym a => a
| .mem r disp => (m.regs r + disp).toNat

def Machine.set
    (m : Machine)
    (r : Reg)
    (v : UInt32) : Machine :=
  { m with regs := Function.update m.regs r v }

/- Store a word in the current address space. -/
def Machine.put
    (m : Machine)
    (a : Nat)
    (v : UInt32) : Machine :=
  { m with
    ram := ByteMemory.putVia (place m.cr3) m.ram a v }

def Instr.exec (m : Machine) : Instr → Machine
| .load dst src =>
    m.set dst (m.word place m.cr3 (src.addr m))
| .store dst src =>
    m.put place (dst.addr m) (m.regs src)
| .push src =>
    let v := m.regs src
    let m := m.set .esp (m.regs .esp - 4)
    m.put place (m.regs .esp).toNat v
| .pop dst =>
    let v := m.word place m.cr3 (m.regs .esp).toNat
    (m.set .esp (m.regs .esp + 4)).set dst v
| .pushf =>
    let m := m.set .esp (m.regs .esp - 4)
    m.put place (m.regs .esp).toNat m.eflags
| .popf =>
    let v := m.word place m.cr3 (m.regs .esp).toNat
    { m.set .esp (m.regs .esp + 4) with eflags := v }
| .cmpZero r =>
    { m with eflags := compareFlags (m.regs r) m.eflags }
| .loadCr3 src => { m with cr3 := m.regs src }
| .ret =>
    let v := m.word place m.cr3 (m.regs .esp).toNat
    { m.set .esp (m.regs .esp + 4) with eip := v }

/- Run instructions one after the other. -/
def run (code : List Instr) (m : Machine) : Machine :=
  code.foldl (Instr.exec place) m

------------------------------------------------------------
-- The Routines
------------------------------------------------------------

/- The addresses of the symbols that the code names. -/
structure Symbols where
  currentThread : Nat
  currentTask : Nat
  currentDirectory : Nat
  threadExit : UInt32
deriving DecidableEq, Repr

/- Save the state into the record to which `eax` points. -/
def saveState : List Instr :=
  [.store (.mem .eax 0) .esp,
    .store (.mem .eax 4) .ebp,
    .store (.mem .eax 8) .ebx,
    .store (.mem .eax 12) .esi,
    .store (.mem .eax 16) .edi,
    .pushf,
    .pop .ecx,
    .store (.mem .eax 20) .ecx]

/- Restore the state from the record at `eax`, and return. -/
def restoreState : List Instr :=
  [.load .esp (.mem .eax 0),
    .load .ebp (.mem .eax 4),
    .load .ebx (.mem .eax 8),
    .load .esi (.mem .eax 12),
    .load .edi (.mem .eax 16),
    .load .eax (.mem .eax 20),
    .push .eax,
    .popf,
    .ret]

variable (syms : Symbols)

/- `switch_context` up to the jump to `.thread`. -/
def switchEntry : List Instr :=
  [.load .eax (.sym syms.currentThread)] ++ saveState ++
    [.load .eax (.mem .esp 4),
      .store (.sym syms.currentThread) .eax,
      .load .eax (.mem .esp 8),
      .cmpZero .eax]

/- The instructions at `.task`. -/
def switchTask : List Instr :=
  [.store (.sym syms.currentTask) .eax,
    .load .eax (.mem .eax 0),
    .store (.sym syms.currentDirectory) .eax,
    .load .eax (.mem .eax 0),
    .loadCr3 .eax]

/- The instructions at `.thread`. -/
def switchThread : List Instr :=
  .load .eax (.sym syms.currentThread) :: restoreState

/- `switch_context`: `je` skips the instructions at `.task`. -/
def switchContext (m : Machine) : Machine :=
  let m := run place (switchEntry syms) m
  if m.eflags &&& ZERO_FLAG ≠ 0 then
    run place (switchThread syms) m
  else
    run place (switchThread syms)
      (run place (switchTask syms) m)

def saveThreadState (m : Machine) : Machine :=
  run place
    ([.load .eax (.mem .esp 4)] ++ saveState ++ [.ret]) m

------------------------------------------------------------
-- Saving and Restoring
------------------------------------------------------------

variable {place : Paging}
variable {m : Machine}

@[simp] theorem set_regs_self
    (m : Machine)
    (r : Reg)
    (v : UInt32) :
    (m.set r v).regs r = v := by
  simp [Machine.set]

theorem set_regs_of_ne
    {r r' : Reg}
    {v : UInt32}
    (hNe : r' ≠ r) :
    (m.set r v).regs r' = m.regs r' := by
  simp [Machine.set, hNe]

@[simp] theorem sub_add_four (e : UInt32) : e - 4 + 4 = e :=
  UInt32.sub_add_cancel e 4

/- The words that `saveState` stores, in order. -/
def saved (m : Machine) (p : UInt32) : List (Nat × UInt32) :=
  [((p + 0).toNat, m.regs .esp),
    ((p + 4).toNat, m.regs .ebp),
    ((p + 8).toNat, m.regs .ebx),
    ((p + 12).toNat, m.regs .esi),
    ((p + 16).toNat, m.regs .edi),
    ((m.regs .esp - 4).toNat, m.eflags),
    ((p + 20).toNat, m.eflags)]

/-
  Saving stores seven words, one of them below the stack
  pointer, and changes `ecx`.
-/
theorem run_saveState
    (m : Machine)
    (hSpread :
      ByteMemory.Spread (place m.cr3)
        (m.regs .esp - 4).toNat) :
    run place saveState m =
      { m.set .ecx m.eflags with
        ram :=
          ByteMemory.putsVia (place m.cr3) m.ram
            (saved m (m.regs .eax)) } := by
  have hRegs :
      Function.update
          (Function.update m.regs .esp (m.regs .esp - 4)) .esp
          (m.regs .esp) = m.regs := by
    rw [Function.update_idem, Function.update_eq_self]
  simp only [run, saveState, List.foldl_cons, List.foldl_nil,
    Instr.exec, Operand.addr, Machine.put, Machine.set,
    Machine.word, Function.update_self,
    ByteMemory.wordVia_putVia_self hSpread, sub_add_four,
    hRegs]
  rfl

/- The registers that a record at `t` holds. -/
def restored
    (place : Paging)
    (m : Machine)
    (t : UInt32) : Reg → UInt32
| .esp => m.word place m.cr3 (t + 0).toNat + 4
| .ebp => m.word place m.cr3 (t + 4).toNat
| .ebx => m.word place m.cr3 (t + 8).toNat
| .esi => m.word place m.cr3 (t + 12).toNat
| .edi => m.word place m.cr3 (t + 16).toNat
| .eax => m.word place m.cr3 (t + 20).toNat
| .ecx => m.regs .ecx
| .edx => m.regs .edx

/-
  Restoring loads the registers from the record and returns
  to the address on the stack that it finds there.
-/
theorem run_restoreState
    (m : Machine)
    {t e flags : UInt32}
    (ht : m.regs .eax = t)
    (he : m.word place m.cr3 (t + 0).toNat = e)
    (hFlags : m.word place m.cr3 (t + 20).toNat = flags)
    (hSpread :
      ByteMemory.Spread (place m.cr3) (e - 4).toNat)
    (hApart :
      ByteMemory.Apart (place m.cr3) (e - 4).toNat
        (place m.cr3) e.toNat) :
    run place restoreState m =
      { regs := restored place m t
        eflags := flags
        eip := m.word place m.cr3 e.toNat
        cr3 := m.cr3
        ram :=
          ByteMemory.putVia (place m.cr3) m.ram (e - 4).toNat
            flags } := by
  unfold Machine.word at he hFlags
  simp only [run, restoreState, List.foldl_cons,
    List.foldl_nil, Instr.exec, Operand.addr, Machine.put,
    Machine.set, Machine.word, ht, Function.update_apply,
    reduceCtorEq, if_true, if_false, he, hFlags,
    ByteMemory.wordVia_putVia_self hSpread, sub_add_four,
    ByteMemory.wordVia_putVia_of_apart _ _ hApart]
  congr 2
  funext r
  cases r <;>
    simp only [Function.update_apply, restored,
      Machine.word, he, hFlags, reduceCtorEq, if_true,
      if_false]

end Asm

end SosKernel
