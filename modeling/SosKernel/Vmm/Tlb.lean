import SosKernel.Vmm.Mapping

/-
  Mounting and unmounting on a CPU that caches translations.

  Main declarations:
    * `Cpu`, `CpuM`
    * `Cpu.Reaches`: the frames behind a page
    * `access`, `invlpg`
    * `map`, `unmap`, `getMapping`
    * `mountDirectory`, `umountDirectory`

  An access may use any cached translation of its page, or
  the one of the tables.  The CPU may cache the translation
  of any page at any time and may drop any at any time; only
  `invlpg` and loads of CR3 force it to.  The functions are
  those of `mm/vmm.c` again, over such accesses.
-/

------------------------------------------------------------
-- The Cache
------------------------------------------------------------

namespace SosKernel

namespace Vmm

namespace Tlb

/-
  What the CPU does at one access: which of the translations
  it uses, which cached ones it keeps, and which pages it
  looks up besides.
-/
structure Choice where
  pick : Nat
  keep : Nat × Nat → Bool
  fill : List Nat

/-
  The machine with the cached translations, from pages to
  frames.  `time` counts the accesses.  Paging is on.
-/
structure Cpu where
  machine : Machine
  tlb : List (Nat × Nat)
  time : Nat

/- A computation on the machine with its cache. -/
abbrev CpuM := EStateM Stop Cpu

/- The frame of a page according to the tables. -/
def Cpu.pageAt (c : Cpu) (n : Nat) : Option Nat :=
  c.machine.ram.pageAt c.machine.root n

/- An access to the page may end in the frame. -/
def Cpu.Reaches (c : Cpu) (n f : Nat) : Prop :=
  (n, f) ∈ c.tlb ∨ c.pageAt n = some f

/- The frames in which an access to the page may end. -/
def Cpu.candidates (c : Cpu) (n : Nat) : List Nat :=
  (c.tlb.filter fun e => e.1 = n).map Prod.snd ++
    (c.pageAt n).toList

/- The machine after the CPU has kept and looked up pages. -/
def Cpu.after (c : Cpu) (choice : Choice) : Cpu :=
  { c with
    tlb :=
      c.tlb.filter choice.keep ++
        choice.fill.filterMap fun n =>
          (c.pageAt n).map fun f => (n, f)
    time := c.time + 1 }

theorem mem_candidates
    {c : Cpu}
    {n f : Nat} :
    f ∈ c.candidates n ↔ c.Reaches n f := by
  unfold Cpu.candidates Cpu.Reaches
  rw [List.mem_append, List.mem_map, Option.mem_toList]
  constructor
  · rintro (⟨⟨n', f'⟩, hMem, rfl⟩ | hWalk)
    · rw [List.mem_filter, decide_eq_true_eq] at hMem
      rcases hMem with ⟨hMem, rfl⟩
      exact .inl hMem
    · exact .inr hWalk
  · rintro (hMem | hWalk)
    · refine .inl ⟨(n, f), ?_, rfl⟩
      rw [List.mem_filter, decide_eq_true_eq]
      exact ⟨hMem, rfl⟩
    · exact .inr hWalk

------------------------------------------------------------
-- Memory
------------------------------------------------------------

/- The part of a computation that does not use addresses. -/
def onMachine {α : Type} (x : VmM α) : CpuM α := fun c =>
  match x c.machine with
  | .ok a m => .ok a { c with machine := m }
  | .error e m => .error e { c with machine := m }

/- `invlpg`: the translation of one page is dropped. -/
def invlpg (va : Nat) : CpuM Unit :=
  modify fun c =>
    { c with
      tlb := c.tlb.filter fun e => e.1 ≠ va / PAGE_SIZE }

section

variable (cpu : Nat → Choice)

/- The physical address in which an access to `a` ends. -/
def access (a : Nat) : CpuM Nat := do
  let c ← get
  let frames := c.candidates (a / PAGE_SIZE)
  set (c.after (cpu c.time))
  match frames[(cpu c.time).pick % frames.length]? with
  | none => throw (.pageFault a)
  | some frame => return frame + a % PAGE_SIZE

def load32 (a : Nat) : CpuM Nat := do
  let pa ← access cpu a
  return (← get).machine.ram.read32 pa

def store32 (a v : Nat) : CpuM Unit := do
  let pa ← access cpu a
  modify fun c =>
    { c with
      machine :=
        c.machine.withRam (c.machine.ram.write32 pa v) }

def store8 (a : Nat) (b : UInt8) : CpuM Unit := do
  let pa ← access cpu a
  modify fun c =>
    { c with
      machine :=
        c.machine.withRam fun x =>
          if x = pa then b else c.machine.ram x }

def memset (dest : Nat) (val : UInt8) (len : Nat) : CpuM Unit :=
  EStateM.upTo (fun k => store8 cpu (add32 dest k) val) len

def loadAt (base i : Nat) : CpuM Nat :=
  load32 cpu (index base i)

def storeAt (base i v : Nat) : CpuM Unit :=
  store32 cpu (index base i) v

------------------------------------------------------------
-- Mappings
------------------------------------------------------------

def checkKernel (current : PageDirectory) (va : Nat) : CpuM Unit := do
  if KERNEL_ADDRESS_SPACE ≤ va then
    let _ ← loadAt cpu current.pages (pgNumFromAddr va)
    let kernel ← onMachine (readDirectory .kernelDirectory)
    let _ ← loadAt cpu kernel.pages (pgNumFromAddr va)

def map (va pa flags : Nat) : CpuM Unit := do
  let dirEntry := pgdirIdxFromAddr va
  let pageNum := pgNumFromAddr va
  let current ← onMachine readCurrent
  if (← loadAt cpu current.directory dirEntry) = 0 then
    let page ← onMachine pmmAllocPage
    storeAt cpu current.directory dirEntry
      (page ||| PAGE_PRESENT ||| PAGE_WRITE)
    memset cpu (index current.pages (dirEntry * 1024)) 0
      PAGE_SIZE
  storeAt cpu current.pages pageNum
    (pageAddr pa ||| PAGE_PRESENT ||| flags)
  checkKernel cpu current va

def unmap (va : Nat) : CpuM Unit := do
  let current ← onMachine readCurrent
  storeAt cpu current.pages (pgNumFromAddr va) 0
  invlpg va

def getMapping (va : Nat) : CpuM (Option Nat) := do
  let dirEntry := pgdirIdxFromAddr va
  let pageNum := pgNumFromAddr va
  let current ← onMachine readCurrent
  if (← loadAt cpu current.directory dirEntry) = 0 then
    return none
  else if (← loadAt cpu current.pages pageNum) ≠ 0 then
    return some
      (add32 (pageAddr (← loadAt cpu current.pages pageNum))
        (pageFlags va))
  else
    return none

------------------------------------------------------------
-- Mount Points
------------------------------------------------------------

/- The first unmapped page of the next `n`, or null. -/
def findMountPage : Nat → Nat → CpuM Nat
| 0, _ => return 0
| n + 1, va => do
    if (← getMapping cpu va).isNone then
      return va
    else
      findMountPage n (va + PAGE_SIZE)

/- The first empty entry of the next `n`, or null. -/
def findMountTable : Nat → Nat → CpuM Nat
| 0, _ => return 0
| n + 1, va => do
    let current ← onMachine readCurrent
    if (← loadAt cpu current.directory (pgdirIdxFromAddr va)) = 0
    then
      return va
    else
      findMountTable n (va + 1024 * PAGE_SIZE)

def findMountPoint : CpuM Mount := do
  let directory ←
    findMountPage cpu
      ((MOUNT_DIR_END - MOUNT_DIR_START) / PAGE_SIZE)
      MOUNT_DIR_START
  let pages ←
    findMountTable cpu
      ((MOUNT_TABS_END - MOUNT_TABS_START) /
        (1024 * PAGE_SIZE))
      MOUNT_TABS_START
  if directory = 0 ∨ pages = 0 then
    throw (.panic "VMM: there's no free mount points.")
  return ⟨directory, pages⟩

def mountDirectory (dir : DirPtr) : CpuM Mount := do
  let mount ← findMountPoint cpu
  if mount.directory % PAGE_SIZE ≠ 0 ∨
      pgtabIdxFromAddr mount.pages ≠ 0 then
    throw (.panic "VMM: mountpoint corrupted")
  let dirIdx := pgdirIdxFromAddr mount.pages
  if (← getMapping cpu mount.directory).isSome then
    throw (.panic "VMM: mountpoint occupied.")
  let current ← onMachine readCurrent
  if (← loadAt cpu current.directory dirIdx) ≠ 0 then
    throw (.panic "VMM: mountpoint occupied.")
  let record ← onMachine (readDirectory dir)
  map cpu mount.directory record.physical
    (PAGE_PRESENT ||| PAGE_WRITE)
  storeAt cpu current.directory dirIdx
    (record.physical ||| PAGE_PRESENT ||| PAGE_WRITE)
  return mount

def umountDirectory (mount : Mount) : CpuM Unit := do
  unmap cpu mount.directory
  let current ← onMachine readCurrent
  storeAt cpu current.directory (pgdirIdxFromAddr mount.pages) 0

end

end Tlb

end Vmm

end SosKernel
