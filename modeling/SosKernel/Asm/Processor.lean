import Mathlib.Logic.Function.Basic

/-
  The registers and flags of the processor, which all models
  of assembly routines share.

  Main declarations:
    * `Reg`, `Core`
    * `compareFlags`, `addFlags`
-/

------------------------------------------------------------
-- Registers
------------------------------------------------------------

namespace SosKernel

namespace Asm

inductive Reg where
| eax
| ecx
| edx
| ebx
| esp
| ebp
| esi
| edi
deriving DecidableEq, Repr

/-
  The general registers, the flags, and the place of the next
  instruction.  A machine adds its memory and the registers
  that give it its meaning.
-/
structure Core where
  regs : Reg → UInt32
  eflags : UInt32
  eip : UInt32

------------------------------------------------------------
-- Flags
------------------------------------------------------------

def ZERO_FLAG : UInt32 := 0x40

def INTERRUPT_FLAG : UInt32 := 0x200

/- The bits for carry, parity, adjust, zero, sign, overflow. -/
def STATUS_FLAGS : UInt32 := 0x8D5

/- The low byte has an even number of ones. -/
def evenParity (v : UInt32) : Bool :=
  ((List.range 8).filter (v.toNat.testBit ·)).length % 2 == 0

/- The bits that tell of the result `v` alone. -/
def resultFlags (v eflags : UInt32) : UInt32 :=
  (eflags &&& ~~~STATUS_FLAGS) |||
    (if v = 0 then ZERO_FLAG else 0) |||
    (if 0x80000000 ≤ v then 0x80 else 0) |||
    (if evenParity v then 0x4 else 0)

/- The flags after `cmp v, 0`. -/
def compareFlags (v eflags : UInt32) : UInt32 :=
  resultFlags v eflags

/- The flags after an addition. -/
def addFlags (a b eflags : UInt32) : UInt32 :=
  let v := a + b
  resultFlags v eflags |||
    (if v < a then 0x1 else 0) |||
    (if v &&& 0xF < a &&& 0xF then 0x10 else 0) |||
    (if (a ^^^ v) &&& (b ^^^ v) &&& 0x80000000 ≠ 0 then 0x800
      else 0)

theorem or_and_distrib (a b c : UInt32) :
    (a ||| b) &&& c = (a &&& c) ||| (b &&& c) := by
  apply UInt32.eq_of_toBitVec_eq
  simp only [UInt32.toBitVec_and, UInt32.toBitVec_or]
  ext i hi
  simp [Bool.and_or_distrib_right]

/- The flag says whether the compared value was zero. -/
theorem zeroFlag_compareFlags (v eflags : UInt32) :
    compareFlags v eflags &&& ZERO_FLAG ≠ 0 ↔ v = 0 := by
  have hCleared :
      eflags &&& ~~~STATUS_FLAGS &&& ZERO_FLAG = 0 := by
    rw [UInt32.and_assoc]
    exact UInt32.and_zero
  unfold compareFlags resultFlags
  rw [or_and_distrib, or_and_distrib, or_and_distrib,
    hCleared]
  by_cases hv : v = 0
  · subst hv
    decide
  · rw [if_neg hv]
    split <;> split <;> simp [hv] <;> decide

end Asm

end SosKernel
