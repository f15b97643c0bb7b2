import SosKernel.Lib.ByteMemory
import SosKernel.Layout
import SosKernel.Stop

/-
  The page allocator of `mm/pmm.c`, over physical memory.

  Main declarations:
    * `State`, `PmmM`
    * `initPmm`, `pmmAllocPage`, `pmmFreePage`
    * `stackFrames`, `storageFrames`

  The stack of free pages lies in pages that have been freed
  themselves.  It is reached through virtual addresses:
  `mapping` gives the frame of each mapped page.
-/

------------------------------------------------------------
-- The State
------------------------------------------------------------

namespace SosKernel

namespace Pmm

/-
  The variables of `pmm.c`, without their prefix `pmm_`, over
  the physical memory and the pages of `map`.
-/
structure State where
  ram : ByteMemory
  mapping : Nat → Option Nat
  pagingActive : Bool
  stackLoc : Nat
  stackMax : Nat
  location : Nat

/- A computation of the page allocator. -/
abbrev PmmM := EStateM Stop State

------------------------------------------------------------
-- Virtual Memory
------------------------------------------------------------

/- The physical address behind a virtual one. -/
def State.physical (s : State) (a : Nat) : Option Nat :=
  (s.mapping (a / PAGE_SIZE)).map fun frame =>
    frame + a % PAGE_SIZE

/- The word at an aligned virtual address. -/
def State.peek (s : State) (a : Nat) : Option Nat :=
  (s.physical a).map s.ram.read32

def load32 (a : Nat) : PmmM Nat := do
  match (← get).peek a with
  | none => throw (.pageFault a)
  | some v => return v

def store32 (a v : Nat) : PmmM Unit := do
  match (← get).physical a with
  | none => throw (.pageFault a)
  | some pa =>
      modify fun s => { s with ram := s.ram.write32 pa v }

/-
  There is no current directory before `init_vmm`, which
  then provides the page tables of the stack's pages.
-/
def map (va frame : Nat) : PmmM Unit := do
  if (← get).pagingActive then
    modify fun s =>
      { s with
        mapping :=
          fun page =>
            if page = va / PAGE_SIZE then
              some frame
            else
              s.mapping page }
  else
    throw (.badPointer 0)

------------------------------------------------------------
-- The Allocator
------------------------------------------------------------

def initPmm (pmmStart : Nat) : PmmM Unit :=
  modify fun s =>
    { s with
      location := pageAddr (add32 pmmStart PAGE_SIZE) }

def pmmAllocPage : PmmM Nat := do
  if ¬ (← get).pagingActive then
    let addr := (← get).location
    modify fun s =>
      { s with location := add32 s.location PAGE_SIZE }
    return addr
  else
    if (← get).stackLoc ≤ PMM_STACK_START then
      throw (.panic "PMM Stack: no free pages.")
    modify fun s =>
      { s with stackLoc := sub32 s.stackLoc 4 }
    load32 (← get).stackLoc

def pmmFreePage (p : Nat) : PmmM Unit := do
  let p := pageAddr p
  if (← get).location ≤ p then
    if (← get).stackMax ≤ (← get).stackLoc then
      if PMM_STACK_END ≤ (← get).stackMax then
        throw
          (.panic "PMM Stack: out of mem for free pages.")
      map (← get).stackMax p
      modify fun s =>
        { s with stackMax := add32 s.stackMax PAGE_SIZE }
    else
      store32 (← get).stackLoc p
      modify fun s =>
        { s with stackLoc := add32 s.stackLoc 4 }

------------------------------------------------------------
-- What the Stack Holds
------------------------------------------------------------

/- The frames stored on the stack, the next one last. -/
def State.stackFrames (s : State) : List Nat :=
  (List.range ((s.stackLoc - PMM_STACK_START) / 4)).filterMap
    fun k => s.peek (PMM_STACK_START + 4 * k)

/- The frames in which the stack is stored. -/
def State.storageFrames (s : State) : List Nat :=
  (List.range
    ((s.stackMax - PMM_STACK_START) / PAGE_SIZE)).filterMap
      fun k => s.mapping (PMM_STACK_START / PAGE_SIZE + k)

end Pmm

end SosKernel
