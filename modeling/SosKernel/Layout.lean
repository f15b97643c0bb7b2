import Mathlib.Algebra.Group.Nat.Defs
import Mathlib.Data.Nat.Basic

/-
  The address space of `layout.h`, pages and pointers to
  page directories, and 32-bit arithmetic.

  Main declarations:
    * `KHEAP_START`, `KHEAP_END` and the other boundaries
    * `pageAddr`, `DirPtr`
    * `add32`, `sub32`
-/

------------------------------------------------------------
-- Address Space
------------------------------------------------------------

namespace SosKernel

def LOWMEM_ID_MAP_END : Nat := 0x00400000

def USER_DIR_VIRTUAL : Nat := 0xEFBFF000
def USER_TABLES_VIRTUAL : Nat := 0xEFC00000

def USER_STACKS_START : Nat := 0xE0000000
def USER_STACKS_END : Nat := 0xF0000000

def KERNEL_ADDRESS_SPACE : Nat := 0xF0000000

def KHEAP_START : Nat := 0xF0000000
def KHEAP_END : Nat := 0xFD000000

def MOUNT_TABS_START : Nat := 0xFD000000
def MOUNT_TABS_END : Nat := 0xFF000000

def MOUNT_DIR_START : Nat := 0xFF7FB000
def MOUNT_DIR_END : Nat := 0xFF7FF000

def PMM_STACK_START : Nat := 0xFF7FF000
def PMM_STACK_END : Nat := 0xFFBFF000

def KERNEL_DIR_VIRTUAL : Nat := 0xFFBFF000
def KERNEL_TABLES_VIRTUAL : Nat := 0xFFC00000

def PAGE_SIZE : Nat := 0x1000

/- `x & PAGE_ADDR_MASK`. -/
def pageAddr (x : Nat) : Nat :=
  x / PAGE_SIZE * PAGE_SIZE

/-
  A pointer to a `page_directory_t`: the static kernel one,
  or one allocated by `clone_directory`.
-/
inductive DirPtr where
| kernelDirectory
| heap (p : Nat)
deriving DecidableEq, Repr

------------------------------------------------------------
-- 32-Bit Arithmetic
------------------------------------------------------------

def add32 (a b : Nat) : Nat :=
  (a + b) % 2 ^ 32

def sub32 (a b : Nat) : Nat :=
  (a + 2 ^ 32 - b) % 2 ^ 32

theorem add32_of_lt
    {a b : Nat}
    (hLt : a + b < 2 ^ 32) :
    add32 a b = a + b :=
  Nat.mod_eq_of_lt hLt

theorem sub32_of_le
    {a b : Nat}
    (hLe : b ≤ a)
    (hLt : a < 2 ^ 32) :
    sub32 a b = a - b := by
  unfold sub32
  omega

end SosKernel
