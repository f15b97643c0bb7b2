import Mathlib.Logic.Function.Basic
import SosKernel.Lib.PageTable
import SosKernel.Lib.Program
import SosKernel.Layout
import SosKernel.Stop

/-
  The page directories of `mm/vmm.c`, over the bytes of
  physical memory.

  Main declarations:
    * `Machine`, `VmM`
    * `initVmm`, `map`, `unmap`, `getMapping`
    * `mountDirectory`, `umountDirectory`
    * `cloneDirectory`, `destroyDirectory`
    * `copyPagePhysical`

  Every access goes through the two-level tables at CR3 once
  paging is on, so the tables are edited through themselves.
  The page allocator and the heap are seen through their
  interface: `frames` and `kmallocs` are the answers still to
  come, and `freed` the frames given back, last first.
-/

------------------------------------------------------------
-- The State
------------------------------------------------------------

namespace SosKernel

namespace Vmm

/- A `page_directory_t`. -/
structure PageDirectory where
  physical : Nat
  directory : Nat
  pages : Nat
deriving DecidableEq, Repr

/- A `page_directory_mount_t`. -/
structure Mount where
  directory : Nat
  pages : Nat
deriving DecidableEq, Repr

/-
  Physical memory, `CR0.PG`, `CR3`, and the variables of
  `vmm.c`.  `dirAt` has the live directory records.
-/
structure Machine where
  ram : ByteMemory
  paging : Bool
  cr3 : Nat
  currentDirectory : DirPtr
  dirAt : DirPtr → Option PageDirectory
  kmallocs : List Nat
  frames : List Nat
  freed : List Nat

/- A computation on the machine. -/
abbrev VmM := EStateM Stop Machine

------------------------------------------------------------
-- Memory
------------------------------------------------------------

/- The physical address that an access to `a` reaches. -/
def Machine.translate (m : Machine) (a : Nat) : Option Nat :=
  if m.paging then
    m.ram.walk (pageAddr m.cr3) a
  else
    some a

def load32 (a : Nat) : VmM Nat := do
  match (← get).translate a with
  | none => throw (.pageFault a)
  | some pa => return (← get).ram.read32 pa

def store32 (a v : Nat) : VmM Unit := do
  match (← get).translate a with
  | none => throw (.pageFault a)
  | some pa =>
      modify fun m => { m with ram := m.ram.write32 pa v }

def store8 (a : Nat) (b : UInt8) : VmM Unit := do
  match (← get).translate a with
  | none => throw (.pageFault a)
  | some pa =>
      modify fun m =>
        { m with
          ram := fun x => if x = pa then b else m.ram x }

def memset (dest : Nat) (val : UInt8) (len : Nat) : VmM Unit :=
  EStateM.upTo (fun k => store8 (add32 dest k) val) len

/- The address of `base[i]`, for an array of words. -/
def index (base i : Nat) : Nat :=
  add32 base (4 * i)

def loadAt (base i : Nat) : VmM Nat :=
  load32 (index base i)

def storeAt (base i v : Nat) : VmM Unit :=
  store32 (index base i) v

/-
  The physical copy of `vmm.s`, with paging off: the words at
  the first argument are stored at the second one.
-/
def copyPagePhysical (dest src : Nat) : VmM Unit :=
  EStateM.upTo
    (fun k =>
      modify fun m =>
        { m with
          ram :=
            m.ram.write32 (add32 src (4 * k))
              (m.ram.read32 (add32 dest (4 * k))) })
    1024

------------------------------------------------------------
-- Frames and Records
------------------------------------------------------------

/- The next answer of `pmm_alloc_page`. -/
def pmmAllocPage : VmM Nat := do
  match (← get).frames with
  | [] => throw (.panic "PMM Stack: no free pages.")
  | frame :: rest =>
      modify fun m => { m with frames := rest }
      return frame

def pmmFreePage (frame : Nat) : VmM Unit :=
  modify fun m => { m with freed := frame :: m.freed }

def readDirectory (dir : DirPtr) : VmM PageDirectory := do
  match (← get).dirAt dir with
  | none => throw (.badPointer 0)
  | some record => return record

def writeDirectory
    (dir : DirPtr)
    (record : PageDirectory) : VmM Unit :=
  modify fun m =>
    { m with
      dirAt := Function.update m.dirAt dir (some record) }

/-
  `kmalloc` for a directory record.  The heap's contract: no
  live record is at the answer.
-/
def kmallocDirectory : VmM DirPtr := do
  match (← get).kmallocs with
  | [] => throw (.panic "Heap: out of memory.")
  | p :: rest =>
      modify fun m => { m with kmallocs := rest }
      if ((← get).dirAt (.heap p)).isSome then
        throw (.badAlloc p)
      return .heap p

def kfreeDirectory (dir : DirPtr) : VmM Unit :=
  modify fun m =>
    { m with dirAt := Function.update m.dirAt dir none }

/- The record `*current_directory`. -/
def readCurrent : VmM PageDirectory := do
  readDirectory (← get).currentDirectory

def switchPageDirectory (dir : DirPtr) : VmM Unit := do
  let record ← readDirectory dir
  modify fun m =>
    { m with
      currentDirectory := dir, cr3 := record.physical }

------------------------------------------------------------
-- Mappings
------------------------------------------------------------

def PAGE_PRESENT : Nat := 0x1
def PAGE_WRITE : Nat := 0x2
def PAGE_USER : Nat := 0x4

def pgNumFromAddr (x : Nat) : Nat := x / 2 ^ 12
def pgFirstDirFromAddr (x : Nat) : Nat := x / 2 ^ 22 * 2 ^ 10
def pgdirIdxFromAddr (x : Nat) : Nat := x / 2 ^ 22
def pgtabIdxFromAddr (x : Nat) : Nat := x / 2 ^ 12 % 1024

/- `x & PAGE_FLAGS_MASK`. -/
def pageFlags (x : Nat) : Nat :=
  x % PAGE_SIZE

/-
  The comparison with the kernel's tables at the end of
  `map` only prints a warning, but its loads can fault.
-/
def checkKernel (current : PageDirectory) (va : Nat) : VmM Unit := do
  if KERNEL_ADDRESS_SPACE ≤ va then
    let _ ← loadAt current.pages (pgNumFromAddr va)
    let kernel ← readDirectory .kernelDirectory
    let _ ← loadAt kernel.pages (pgNumFromAddr va)

def map (va pa flags : Nat) : VmM Unit := do
  let dirEntry := pgdirIdxFromAddr va
  let pageNum := pgNumFromAddr va
  let current ← readCurrent
  if (← loadAt current.directory dirEntry) = 0 then
    let page ← pmmAllocPage
    storeAt current.directory dirEntry
      (page ||| PAGE_PRESENT ||| PAGE_WRITE)
    memset (index current.pages (dirEntry * 1024)) 0 PAGE_SIZE
  storeAt current.pages pageNum
    (pageAddr pa ||| PAGE_PRESENT ||| flags)
  checkKernel current va

def unmap (va : Nat) : VmM Unit := do
  let current ← readCurrent
  storeAt current.pages (pgNumFromAddr va) 0

/- The physical address behind `va`, if it is mapped. -/
def getMapping (va : Nat) : VmM (Option Nat) := do
  let dirEntry := pgdirIdxFromAddr va
  let pageNum := pgNumFromAddr va
  let current ← readCurrent
  if (← loadAt current.directory dirEntry) = 0 then
    return none
  else if (← loadAt current.pages pageNum) ≠ 0 then
    return some
      (add32 (pageAddr (← loadAt current.pages pageNum))
        (pageFlags va))
  else
    return none

------------------------------------------------------------
-- Start
------------------------------------------------------------

/- A page table for every entry of the kernel's range. -/
def fillKernelTables (dirPtr : Nat) : VmM Unit :=
  EStateM.upTo
    (fun k => do
      let i := pgdirIdxFromAddr KERNEL_ADDRESS_SPACE + k
      if (← loadAt dirPtr i) = 0 then
        let tabPtr ← pmmAllocPage
        memset tabPtr 0 PAGE_SIZE
        storeAt dirPtr i (tabPtr ||| PAGE_PRESENT ||| PAGE_WRITE))
    (pgdirIdxFromAddr MOUNT_TABS_START -
      pgdirIdxFromAddr KERNEL_ADDRESS_SPACE)

/- The part of `init_vmm` that runs before paging. -/
def prepareKernelDirectory : VmM Unit := do
  let dirPtr ← pmmAllocPage
  memset dirPtr 0 PAGE_SIZE
  -- the identity mapping of the first four mebibytes
  let tabPtr ← pmmAllocPage
  memset tabPtr 0 PAGE_SIZE
  storeAt dirPtr 0 (tabPtr ||| PAGE_PRESENT ||| PAGE_WRITE)
  EStateM.upTo
    (fun i =>
      storeAt tabPtr i (i * 0x1000 ||| PAGE_PRESENT ||| PAGE_WRITE))
    (pgNumFromAddr LOWMEM_ID_MAP_END)
  -- the directory and its tables, mapped into themselves
  let tabPtr ← pmmAllocPage
  memset tabPtr 0 PAGE_SIZE
  storeAt dirPtr (pgdirIdxFromAddr KERNEL_DIR_VIRTUAL)
    (tabPtr ||| PAGE_PRESENT ||| PAGE_WRITE)
  storeAt tabPtr (pgtabIdxFromAddr KERNEL_DIR_VIRTUAL)
    (dirPtr ||| PAGE_PRESENT ||| PAGE_WRITE)
  storeAt dirPtr (pgdirIdxFromAddr KERNEL_TABLES_VIRTUAL)
    (dirPtr ||| PAGE_PRESENT ||| PAGE_WRITE)
  writeDirectory .kernelDirectory
    { physical := dirPtr
      directory := KERNEL_DIR_VIRTUAL
      pages := KERNEL_TABLES_VIRTUAL }
  fillKernelTables dirPtr
  fillKernelTables dirPtr

def initVmm : VmM Unit := do
  prepareKernelDirectory
  switchPageDirectory .kernelDirectory
  modify fun m => { m with paging := true }
  if (← get).currentDirectory ≠ .kernelDirectory then
    throw (.panic "VMM: God doesn't exist.")
  -- the page table of the frame stack
  let kernel ← readDirectory .kernelDirectory
  let page ← pmmAllocPage
  storeAt kernel.directory (pgdirIdxFromAddr PMM_STACK_START)
    (page ||| PAGE_PRESENT ||| PAGE_WRITE)
  memset
    (index kernel.pages (pgFirstDirFromAddr PMM_STACK_START)) 0
    PAGE_SIZE

------------------------------------------------------------
-- Mount Points
------------------------------------------------------------

/- The first unmapped page of the next `n`, or null. -/
def findMountPage : Nat → Nat → VmM Nat
| 0, _ => return 0
| n + 1, va => do
    if (← getMapping va).isNone then
      return va
    else
      findMountPage n (va + PAGE_SIZE)

/- The first empty entry of the next `n`, or null. -/
def findMountTable : Nat → Nat → VmM Nat
| 0, _ => return 0
| n + 1, va => do
    let current ← readCurrent
    if (← loadAt current.directory (pgdirIdxFromAddr va)) = 0
    then
      return va
    else
      findMountTable n (va + 1024 * PAGE_SIZE)

def findMountPoint : VmM Mount := do
  let directory ←
    findMountPage
      ((MOUNT_DIR_END - MOUNT_DIR_START) / PAGE_SIZE)
      MOUNT_DIR_START
  let pages ←
    findMountTable
      ((MOUNT_TABS_END - MOUNT_TABS_START) /
        (1024 * PAGE_SIZE))
      MOUNT_TABS_START
  if directory = 0 ∨ pages = 0 then
    throw (.panic "VMM: there's no free mount points.")
  return ⟨directory, pages⟩

def mountDirectory (dir : DirPtr) : VmM Mount := do
  let mount ← findMountPoint
  if mount.directory % PAGE_SIZE ≠ 0 ∨
      pgtabIdxFromAddr mount.pages ≠ 0 then
    throw (.panic "VMM: mountpoint corrupted")
  let dirIdx := pgdirIdxFromAddr mount.pages
  if (← getMapping mount.directory).isSome then
    throw (.panic "VMM: mountpoint occupied.")
  let current ← readCurrent
  if (← loadAt current.directory dirIdx) ≠ 0 then
    throw (.panic "VMM: mountpoint occupied.")
  let record ← readDirectory dir
  map mount.directory record.physical
    (PAGE_PRESENT ||| PAGE_WRITE)
  storeAt current.directory dirIdx
    (record.physical ||| PAGE_PRESENT ||| PAGE_WRITE)
  return mount

def umountDirectory (mount : Mount) : VmM Unit := do
  unmap mount.directory
  let current ← readCurrent
  storeAt current.directory (pgdirIdxFromAddr mount.pages) 0

------------------------------------------------------------
-- Cloning
------------------------------------------------------------

variable (copy : Nat → Nat → VmM Unit)

/- Copy the page behind entry `j` of the page tables. -/
def clonePage (src dest : Mount) (j : Nat) : VmM Unit := do
  if (← loadAt src.pages j) ≠ 0 then
    let page ← pmmAllocPage
    storeAt dest.pages j
      (page ||| PAGE_PRESENT ||| PAGE_WRITE ||| PAGE_USER)
    copy (← loadAt dest.pages j)
      (pageAddr (← loadAt src.pages j))
    storeAt dest.pages j
      ((← loadAt dest.pages j) |||
        pageFlags (← loadAt src.pages j))

/- Link or copy the page table of entry `i`. -/
def cloneEntry (src dest : Mount) (i : Nat) : VmM Unit := do
  if (← loadAt src.directory i) ≠ 0 then
    let kernel ← readDirectory .kernelDirectory
    if (← loadAt src.directory i) =
        (← loadAt kernel.directory i) then
      storeAt dest.directory i (← loadAt src.directory i)
    else
      let page ← pmmAllocPage
      storeAt dest.directory i
        (page ||| PAGE_PRESENT ||| PAGE_WRITE ||| PAGE_USER)
      memset (index dest.pages (i * 1024)) 0 PAGE_SIZE
      EStateM.upTo
        (fun k => clonePage copy src dest (1024 * i + k)) 1024

/- The new directory, mapped into itself. -/
def mapSelf
    (dest : Mount)
    (record : PageDirectory) : VmM Unit := do
  let page ← pmmAllocPage
  storeAt dest.directory (pgdirIdxFromAddr record.directory)
    (page ||| PAGE_PRESENT ||| PAGE_WRITE)
  storeAt dest.pages (pgNumFromAddr record.directory)
    (record.physical ||| PAGE_PRESENT ||| PAGE_WRITE)
  storeAt dest.directory (pgdirIdxFromAddr record.pages)
    (record.physical ||| PAGE_PRESENT ||| PAGE_WRITE)

/-
  `clone_directory`, with `copy` for `copy_page_physical`.
  The fields of the new record are not read before they are
  set.
-/
def cloneDirectory (srcDir : DirPtr) : VmM DirPtr := do
  let destDir ← kmallocDirectory
  let physical ← pmmAllocPage
  writeDirectory destDir ⟨physical, 0, 0⟩
  let src ← mountDirectory srcDir
  let dest ← mountDirectory destDir
  memset dest.directory 0 PAGE_SIZE
  EStateM.upTo (cloneEntry copy src dest) 1024
  let record : PageDirectory :=
    ⟨physical, USER_DIR_VIRTUAL, USER_TABLES_VIRTUAL⟩
  writeDirectory destDir record
  mapSelf dest record
  umountDirectory src
  umountDirectory dest
  return destDir

------------------------------------------------------------
-- Destroying
------------------------------------------------------------

/- Free the pages and the table of entry `i`. -/
def freeEntry
    (mp : Mount)
    (dirEntry pageNum i : Nat) : VmM Unit := do
  if (← loadAt mp.directory i) ≠ 0 then
    let kernel ← readDirectory .kernelDirectory
    if (← loadAt mp.directory i) ≠
        (← loadAt kernel.directory i) ∧ i ≠ dirEntry then
      EStateM.upTo
        (fun k => do
          let j := 1024 * i + k
          if (← loadAt mp.pages j) ≠ 0 ∧ j ≠ pageNum then
            pmmFreePage (pageAddr (← loadAt mp.pages j)))
        1024
      pmmFreePage (pageAddr (← loadAt mp.directory i))

def destroyDirectory (dir : DirPtr) : VmM Unit := do
  if dir = .kernelDirectory then
    throw (.panic
      "VMM: deleting kernel (reference) directory.")
  let mp ← mountDirectory dir
  let record ← readDirectory dir
  EStateM.upTo
    (freeEntry mp (pgdirIdxFromAddr record.pages)
      (pgNumFromAddr record.directory))
    (pgdirIdxFromAddr KERNEL_ADDRESS_SPACE)
  pmmFreePage record.physical
  umountDirectory mp
  kfreeDirectory dir

end Vmm

end SosKernel
