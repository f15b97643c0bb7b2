import SosKernel.Lib.Reachable
import SosKernel.Vmm.TlbMounts

/-
  Runs of mounts and unmounts without a load of CR3.

  Main declarations:
    * `System`, `Step`, `Start`
    * `Right`: accesses end in the mounted directory
    * `Clean`
    * `mounts_right`
    * `stale_window`

  `umount_directory` drops the translation of the mount page
  only.  The window of four mebibytes may stay cached, and
  the next directory is mounted at the same window.
-/

------------------------------------------------------------
-- The System
------------------------------------------------------------

namespace SosKernel

namespace Vmm

namespace Tlb

/- A directory that is mounted, and its frame. -/
structure Live where
  mount : Mount
  frame : Nat

structure System where
  cpu : Cpu
  mounts : List Live

inductive Call where
| mount (dir : DirPtr)
| umount (mount : Mount)
| work

/-
  What happens between mounts and unmounts: accesses through
  the mounted directories, allocation, copies of pages.  CR3
  is not loaded, and nothing else writes the entries behind
  the pages for mounting.  Copying a page switches paging off
  and on again, which may drop every translation.
-/
structure Work (c c' : Cpu) : Prop where
  paging : c'.machine.paging = c.machine.paging
  cr3 : c'.machine.cr3 = c.machine.cr3
  currentDirectory :
    c'.machine.currentDirectory = c.machine.currentDirectory
  current :
    c'.machine.dirAt c.machine.currentDirectory =
      c.machine.dirAt c.machine.currentDirectory
  path :
    ∀ d, c.machine.dirAt c.machine.currentDirectory = some d →
      ∀ n, OwnPage d n →
        c'.machine.ram.word c.machine.root (n / 1024) =
            c.machine.ram.word c.machine.root (n / 1024) ∧
          ∀ u,
            c.machine.ram.entry c.machine.root (n / 1024) =
                some u →
              c'.machine.ram.word u (n % 1024) =
                c.machine.ram.word u (n % 1024)
  windows :
    ∀ w, IsWindow w →
      c'.machine.ram.word c.machine.root w =
        c.machine.ram.word c.machine.root w
  tlb : ∀ e ∈ c'.tlb, e ∈ c.tlb ∨ c'.pageAt e.1 = some e.2

/-
  Mounts and unmounts come in any order, on any live records
  and by any choices of the CPU.
-/
inductive Step : System → Call → System → Prop where
| mount
    {s : System}
    {cpu : Nat → Choice}
    {dir : DirPtr}
    {record : PageDirectory}
    {mount : Mount}
    {c' : Cpu}
    (hRecord : s.cpu.machine.dirAt dir = some record)
    (hPhysical : record.physical < 2 ^ 32)
    (hRun : (mountDirectory cpu dir).run s.cpu = .ok mount c') :
    Step s (.mount dir)
      ⟨c', ⟨mount, pageAddr record.physical⟩ :: s.mounts⟩
| umount
    {s : System}
    {cpu : Nat → Choice}
    {l : Live}
    {before after : List Live}
    {c' : Cpu}
    (hMounts : s.mounts = before ++ l :: after)
    (hRun :
      (umountDirectory cpu l.mount).run s.cpu = .ok () c') :
    Step s (.umount l.mount) ⟨c', before ++ after⟩
| work
    {s : System}
    {c' : Cpu}
    (hWork : Work s.cpu c') :
    Step s .work ⟨c', s.mounts⟩

/- CR3 has just been loaded with a self-mapped directory. -/
def Start (s : System) : Prop :=
  s.mounts = [] ∧ s.cpu.tlb = [] ∧
    ∃ d t mt, Good s.cpu d t mt

/-
  Every access through the pointers of a mount ends in the
  directory of that mount, or in the page table that the
  directory's entry names at that moment.
-/
def Right (s : System) : Prop :=
  ∀ l ∈ s.mounts,
    (∀ f, s.cpu.Reaches (l.mount.directory / PAGE_SIZE) f →
      f = l.frame) ∧
    ∀ i < 1024, ∀ f,
      s.cpu.Reaches (l.mount.pages / PAGE_SIZE + i) f →
        s.cpu.machine.ram.entry l.frame i = some f

/-
  The page table that entry `i` of the directory names, once
  the directory is mounted at the window `w`.
-/
def Cpu.entryOnceMounted
    (c : Cpu)
    (frame w i : Nat) : Option Nat :=
  if frame = c.machine.root ∧ i = w then
    some frame
  else
    c.machine.ram.entry frame i

/-
  What is cached of the window at which the next directory
  will be mounted agrees with that directory.
-/
def CleanWindow (c : Cpu) (frame : Nat) : Prop :=
  ∀ w, c.emptyWindow = some w →
    ∀ i < 1024, ∀ f, (1024 * w + i, f) ∈ c.tlb →
      c.entryOnceMounted frame w i = some f

/-
  Where the step has changed an entry of a directory that
  stays mounted, nothing is cached of that page of the
  mount's window.
-/
def Invalidates (s s' : System) : Prop :=
  ∀ l ∈ s'.mounts, ∀ i < 1024,
    s'.cpu.machine.ram.entry l.frame i ≠
        s.cpu.machine.ram.entry l.frame i →
      ∀ f, (l.mount.pages / PAGE_SIZE + i, f) ∉ s'.cpu.tlb

def Clean (s : System) (call : Call) (s' : System) : Prop :=
  match call with
  | .mount dir =>
      ∀ record, s.cpu.machine.dirAt dir = some record →
        CleanWindow s.cpu (pageAddr record.physical)
  | .umount _ => Invalidates s s'
  | .work => Invalidates s s'

/- A step that meets the condition. -/
def CleanStep (s s' : System) : Prop :=
  ∃ call, Clean s call s' ∧ Step s call s'

------------------------------------------------------------
-- Mounted Directories
------------------------------------------------------------

variable {s s' : System}
variable {c c' : Cpu}
variable {d : PageDirectory}
variable {t mt : Nat}
variable {l l' : Live}

def Live.page (l : Live) : Nat := l.mount.directory / 4096

def Live.window (l : Live) : Nat := l.mount.pages / 2 ^ 22

/- The mount point shows the directory and its tables. -/
structure Live.Ok
    (l : Live)
    (c : Cpu)
    (mt : Nat) : Prop where
  isPage : IsMountPage l.page
  aligned : l.mount.pages % 2 ^ 22 = 0
  isWindow : IsWindow l.window
  pageEntry :
    c.machine.ram.entry mt (l.page % 1024) = some l.frame
  windowEntry :
    c.machine.ram.entry c.machine.root l.window =
      some l.frame
  cached :
    ∀ i < 1024, ∀ f, (1024 * l.window + i, f) ∈ c.tlb →
      c.machine.ram.entry l.frame i = some f

theorem Live.Ok.frame_aligned
    (hOk : l.Ok c mt) :
    l.frame % 4096 = 0 :=
  ByteMemory.entry_aligned hOk.windowEntry

theorem Live.Ok.window_lt
    (hOk : l.Ok c mt) :
    l.window < 1024 := by
  have hWindow := isWindow_iff.mp hOk.isWindow
  omega

/- The pages of the window. -/
theorem Live.Ok.windowPage
    (hOk : l.Ok c mt)
    (i : Nat) :
    l.mount.pages / PAGE_SIZE + i = 1024 * l.window + i := by
  have hAligned := hOk.aligned
  unfold PAGE_SIZE Live.window
  omega

/- A page of the window shows what the directory names. -/
theorem Live.pageAt_window
    {i : Nat}
    (hWindow :
      c.machine.ram.entry c.machine.root l.window =
        some l.frame)
    (hi : i < 1024) :
    c.pageAt (1024 * l.window + i) =
      c.machine.ram.entry l.frame i := by
  have hDiv : (1024 * l.window + i) / 1024 = l.window := by
    omega
  have hMod : (1024 * l.window + i) % 1024 = i := by omega
  rw [← hDiv] at hWindow
  have hPage := ByteMemory.pageAt_of_entry hWindow
  rw [hMod] at hPage
  exact hPage

theorem Live.Ok.reaches_page
    {f : Nat}
    (hOk : l.Ok c mt)
    (hGood : Good c d t mt)
    (hReaches : c.Reaches l.page f) :
    f = l.frame := by
  have hTrusted := hGood.trusted _ (.inr (.inr hOk.isPage))
  have hPage := hTrusted.reaches hReaches
  rw [hGood.pageAt_mount hOk.isPage, hOk.pageEntry] at hPage
  exact (Option.some.inj hPage).symm

theorem Live.Ok.reaches_window
    {i f : Nat}
    (hOk : l.Ok c mt)
    (hi : i < 1024)
    (hReaches : c.Reaches (1024 * l.window + i) f) :
    c.machine.ram.entry l.frame i = some f := by
  rcases hReaches with hMem | hWalk
  · exact hOk.cached i hi f hMem
  · rw [Live.pageAt_window hOk.windowEntry hi] at hWalk
    exact hWalk

/-
  The mount stays right when its entries stay, and when what
  is cached of its window is what could be reached before and
  is named still, or what the tables say now.
-/
theorem Live.Ok.keep
    (hOk : l.Ok c mt)
    (hPage :
      c'.machine.ram.entry mt (l.page % 1024) = some l.frame)
    (hWindow :
      c'.machine.ram.entry c'.machine.root l.window =
        some l.frame)
    (hTlb :
      ∀ i < 1024, ∀ f,
        (1024 * l.window + i, f) ∈ c'.tlb →
          (c.Reaches (1024 * l.window + i) f ∧
            (c.machine.ram.entry l.frame i = some f →
              c'.machine.ram.entry l.frame i = some f)) ∨
            c'.pageAt (1024 * l.window + i) = some f) :
    l.Ok c' mt := by
  refine ⟨hOk.isPage, hOk.aligned, hOk.isWindow, hPage,
    hWindow, ?_⟩
  intro i hi f hMem
  rcases hTlb i hi f hMem with ⟨hBefore, hStays⟩ | hWalk
  · exact hStays (hOk.reaches_window hi hBefore)
  · rw [Live.pageAt_window hWindow hi] at hWalk
    exact hWalk

/- What is cached of a window has not been changed. -/
theorem Invalidates.entry
    {i f : Nat}
    (hInvalidates : Invalidates s s')
    (hMem : l ∈ s'.mounts)
    (hOk : l.Ok c mt)
    (hi : i < 1024)
    (hTlb : (1024 * l.window + i, f) ∈ s'.cpu.tlb) :
    s'.cpu.machine.ram.entry l.frame i =
      s.cpu.machine.ram.entry l.frame i := by
  by_contra hNe
  refine hInvalidates l hMem i hi hNe f ?_
  rw [hOk.windowPage]
  exact hTlb

/-
  The invariant of a run: different mounts are at different
  pages and windows.
-/
structure Inv
    (s : System)
    (d : PageDirectory)
    (t mt : Nat) : Prop where
  good : Good s.cpu d t mt
  mounts : ∀ l ∈ s.mounts, l.Ok s.cpu mt
  pages : (s.mounts.map Live.page).Nodup
  windows : (s.mounts.map Live.window).Nodup

theorem Inv.right
    (hInv : Inv s d t mt) :
    Right s := by
  intro l hMem
  have hOk := hInv.mounts l hMem
  constructor
  · intro f hReaches
    exact hOk.reaches_page hInv.good hReaches
  · intro i hi f hReaches
    rw [hOk.windowPage] at hReaches
    exact hOk.reaches_window hi hReaches

------------------------------------------------------------
-- Steps
------------------------------------------------------------

/- Other code keeps what mounting relies on. -/
theorem Work.good
    (hWork : Work c c')
    (hGood : Good c d t mt) :
    Good c' d t mt := by
  have hRoot : c'.machine.root = c.machine.root := by
    unfold Machine.root
    rw [hWork.cr3]
  have hPath := hWork.path d hGood.self.current
  have hPageAt :
      ∀ n, OwnPage d n → c'.pageAt n = c.pageAt n := by
    intro n hOwn
    unfold Cpu.pageAt
    rw [hRoot]
    exact ByteMemory.pageAt_congr (hPath n hOwn).1
      (hPath n hOwn).2
  have hDirIndex :
      d.directory / 2 ^ 22 = d.directory / 4096 / 1024 := by
    omega
  have hTables :
      (d.pages / PAGE_SIZE +
          pgdirIdxFromAddr MOUNT_DIR_START) / 1024 =
        d.pages / 2 ^ 22 := by
    have hAligned := hGood.self.tables.aligned
    have hStart :
        pgdirIdxFromAddr MOUNT_DIR_START = 1021 := rfl
    unfold PAGE_SIZE
    omega
  have hDir := hPath _ (.inl rfl)
  have hPages := hPath _ (.inr (.inl rfl))
  have hMount :
      IsMountPage (MOUNT_DIR_START / PAGE_SIZE) := by
    rw [isMountPage_iff]
    decide
  have hTable := (hPath _ (.inr (.inr hMount))).1
  have hIndex :
      MOUNT_DIR_START / PAGE_SIZE / 1024 =
        pgdirIdxFromAddr MOUNT_DIR_START := rfl
  rw [hIndex] at hTable
  rw [hTables] at hPages
  refine ⟨hGood.pointers, ?_, ?_, ?_, ?_⟩
  · refine ⟨?_, ?_, ?_, ?_⟩
    · rw [hWork.currentDirectory, hWork.current]
      exact hGood.self.current
    · rw [hRoot]
      exact hGood.self.physical
    · rw [hRoot]
      refine hGood.self.maps.congr hWork.paging hRoot ?_ ?_
      · rw [hDirIndex]
        exact hDir.1
      · apply hDir.2
        have hEntry := hGood.self.maps.dir
        rw [hDirIndex] at hEntry
        exact hEntry
    · rw [hRoot]
      exact hGood.self.tables.congr hWork.paging hRoot
        hPages.1
  · rw [hRoot, ByteMemory.entry_congr hTable]
    exact hGood.mountTable
  · rw [hRoot]
    exact hGood.apart
  · intro n hOwn f hMem
    rw [hPageAt n hOwn]
    rcases hWork.tlb _ hMem with hOld | hWalk
    · exact hGood.trusted n hOwn f hOld
    · exact (hPageAt n hOwn).symm.trans hWalk

theorem Work.inv
    (hWork : Work s.cpu c')
    (hInvalidates : Invalidates s ⟨c', s.mounts⟩)
    (hInv : Inv s d t mt) :
    Inv ⟨c', s.mounts⟩ d t mt := by
  have hRoot : c'.machine.root = s.cpu.machine.root := by
    unfold Machine.root
    rw [hWork.cr3]
  refine ⟨hWork.good hInv.good, ?_, hInv.pages,
    hInv.windows⟩
  intro l hMem
  have hOk := hInv.mounts l hMem
  have hRange := isMountPage_iff.mp hOk.isPage
  have hIndex : l.page / 1024 = 1021 := by omega
  apply hOk.keep
  · have hPath :=
      (hWork.path d hInv.good.self.current _
        (.inr (.inr hOk.isPage))).2
    rw [hIndex] at hPath
    rw [ByteMemory.entry_congr
      (hPath mt hInv.good.mountTable)]
    exact hOk.pageEntry
  · rw [hRoot, ByteMemory.entry_congr
      (hWork.windows _ hOk.isWindow)]
    exact hOk.windowEntry
  · intro i hi f hTlb
    rcases hWork.tlb _ hTlb with hOld | hWalk
    · refine .inl ⟨.inl hOld, fun hEntry => ?_⟩
      exact (hInvalidates.entry hMem hOk hi hTlb).trans
        hEntry
    · exact .inr hWalk

/- A mount leaves the earlier mounts as they are. -/
theorem Mounted.keep
    {mount : Mount}
    {frame : Nat}
    (hMounted : Mounted c c' mt mount frame)
    (hmt : mt % 4096 = 0)
    (hOk : l.Ok c mt) :
    l.Ok c' mt := by
  have hRoot : c'.machine.root = c.machine.root := by
    rw [hMounted.machine]
    rfl
  have hWindow := hOk.window_lt
  apply hOk.keep
  · exact hMounted.within _ _ _ hmt
      (Nat.mod_lt _ (by decide)) hOk.pageEntry
  · rw [hRoot]
    exact hMounted.within _ _ _ (root_aligned _) hWindow
      hOk.windowEntry
  · intro i hi f hMem
    rcases hMounted.tlb _ hMem with hOld | ⟨_, hWalk⟩
    · exact .inl ⟨.inl hOld,
        hMounted.within _ _ _ hOk.frame_aligned hi⟩
    · exact .inr (hWalk (by dsimp only; omega))

/- The window shows the new directory if it was clean. -/
theorem Mounted.fresh
    {mount : Mount}
    {frame : Nat}
    (hMounted : Mounted c c' mt mount frame)
    (hClean : CleanWindow c frame) :
    Live.Ok ⟨mount, frame⟩ c' mt := by
  have hFree := hMounted.free
  have hRoot : c'.machine.root = c.machine.root := by
    rw [hMounted.machine]
    rfl
  rcases hFree.windowFree with ⟨hWindow, _⟩
  refine ⟨hFree.page, hFree.pagesAligned, hWindow,
    hMounted.page, ?_, ?_⟩
  · rw [hRoot]
    exact hMounted.pages
  · intro i hi f hMem
    have hDiv :
        (1024 * (mount.pages / 2 ^ 22) + i) / 1024 =
          mount.pages / 2 ^ 22 := by omega
    rcases hMounted.tlb _ hMem with hOld | ⟨hNe, _⟩
    · have hEntry := hClean _ hFree.window i hi f hOld
      unfold Cpu.entryOnceMounted at hEntry
      split at hEntry
      · rename_i hSelf
        cases hEntry
        rcases hSelf with ⟨hSame, rfl⟩
        have hPages := hMounted.pages
        rw [← hSame] at hPages
        exact hPages
      · exact hMounted.within _ _ _
          (ByteMemory.entry_aligned hMounted.pages) hi hEntry
    · exact absurd hDiv hNe

/- A mount that is not the one unmounted. -/
theorem Unmounted.keep
    {mount : Mount}
    (hUnmounted : Unmounted c c' mt mount)
    (hGood : Good c d t mt)
    (hPage : IsMountPage (mount.directory / 4096))
    (hOk : l.Ok c mt)
    (hNePage : l.page ≠ mount.directory / 4096)
    (hNeWindow : l.window ≠ mount.pages / 2 ^ 22)
    (hEntries :
      ∀ i < 1024, ∀ f,
        (1024 * l.window + i, f) ∈ c'.tlb →
          c'.machine.ram.entry l.frame i =
            c.machine.ram.entry l.frame i) :
    l.Ok c' mt := by
  have hApart := hGood.apart
  have hWindow := hOk.window_lt
  have hPageRange := isMountPage_iff.mp hPage
  have hRange := isMountPage_iff.mp hOk.isPage
  apply hOk.keep
  · rw [ByteMemory.entry_congr
      (hUnmounted.word _ _ hGood.mountTable_aligned
        (Nat.mod_lt _ (by decide)) (.inr (by omega))
        (.inl hApart))]
    exact hOk.pageEntry
  · rw [hUnmounted.root, ByteMemory.entry_congr
      (hUnmounted.word _ _ (root_aligned _) hWindow
        (.inl hApart.symm) (.inr hNeWindow))]
    exact hOk.windowEntry
  · intro i hi f hMem
    refine .inl ⟨?_, (hEntries i hi f hMem).trans⟩
    exact (hUnmounted.tlb _ hMem (by dsimp only; omega)).2

theorem Mounted.inv
    {mount : Mount}
    {frame : Nat}
    (hMounted : Mounted s.cpu c' mt mount frame)
    (hGood : Good c' d t mt)
    (hInv : Inv s d t mt)
    (hClean : CleanWindow s.cpu frame) :
    Inv ⟨c', ⟨mount, frame⟩ :: s.mounts⟩ d t mt := by
  have hFree := hMounted.free
  rcases hFree.windowFree with ⟨_, hZero⟩
  refine ⟨hGood, ?_, ?_, ?_⟩
  · intro l hMem
    rcases List.mem_cons.mp hMem with rfl | hMem
    · exact hMounted.fresh hClean
    · exact hMounted.keep hInv.good.mountTable_aligned
        (hInv.mounts l hMem)
  · rw [List.map_cons, List.nodup_cons]
    refine ⟨?_, hInv.pages⟩
    intro hTaken
    rcases List.mem_map.mp hTaken with ⟨l, hMem, hEq⟩
    have hEntry := (hInv.mounts l hMem).pageEntry
    rw [hEq] at hEntry
    exact entry_ne_zero hEntry hFree.pageFree
  · rw [List.map_cons, List.nodup_cons]
    refine ⟨?_, hInv.windows⟩
    intro hTaken
    rcases List.mem_map.mp hTaken with ⟨l, hMem, hEq⟩
    have hEntry := (hInv.mounts l hMem).windowEntry
    rw [hEq] at hEntry
    exact entry_ne_zero hEntry hZero

theorem Unmounted.inv
    {before after : List Live}
    (hMounts : s.mounts = before ++ l :: after)
    (hUnmounted : Unmounted s.cpu c' mt l.mount)
    (hInvalidates : Invalidates s ⟨c', before ++ after⟩)
    (hGood : Good c' d t mt)
    (hInv : Inv s d t mt) :
    Inv ⟨c', before ++ after⟩ d t mt := by
  have hMem : l ∈ s.mounts := by
    rw [hMounts]
    exact List.mem_append_right _ List.mem_cons_self
  have hOk := hInv.mounts l hMem
  have hPages := hInv.pages
  have hWindows := hInv.windows
  rw [hMounts, List.map_append, List.map_cons,
    List.perm_middle.nodup_iff, List.nodup_cons,
    ← List.map_append] at hPages hWindows
  refine ⟨hGood, ?_, hPages.2, hWindows.2⟩
  intro k hk
  have hOld : k ∈ s.mounts := by
    rw [hMounts]
    rcases List.mem_append.mp hk with hk | hk
    · exact List.mem_append_left _ hk
    · exact List.mem_append_right _
        (List.mem_cons_of_mem _ hk)
  have hOkOld := hInv.mounts k hOld
  apply hUnmounted.keep hInv.good hOk.isPage hOkOld
  · intro hEq
    exact hPages.1 (List.mem_map.mpr ⟨k, hk, hEq⟩)
  · intro hEq
    exact hWindows.1 (List.mem_map.mpr ⟨k, hk, hEq⟩)
  · intro i hi f hTlb
    exact hInvalidates.entry hk hOkOld hi hTlb

/- A clean step keeps the invariant. -/
theorem CleanStep.inv
    (hStep : CleanStep s s')
    (hInv : Inv s d t mt) :
    Inv s' d t mt := by
  rcases hStep with ⟨call, hClean, hStep⟩
  cases hStep with
  | work hWork => exact hWork.inv hClean hInv
  | mount hRecord hPhysical hRun =>
      rcases hInv.good.mountDirectory_ok hRecord hPhysical
        hRun with ⟨hGood, hMounted⟩
      exact hMounted.inv hGood hInv (hClean _ hRecord)
  | @umount _ l _ _ _ hMounts hRun =>
      have hMem : l ∈ s.mounts := by
        rw [hMounts]
        exact List.mem_append_right _ List.mem_cons_self
      have hOk := hInv.mounts l hMem
      rcases hInv.good.umountDirectory_ok hOk.isPage
        hOk.isWindow hRun with ⟨hGood, hUnmounted⟩
      exact hUnmounted.inv hMounts hClean hGood hInv

------------------------------------------------------------
-- Runs
------------------------------------------------------------

theorem reachable_inv
    (hReach : Reachable Start CleanStep s) :
    ∃ d t mt, Inv s d t mt := by
  apply hReach.invariant
    (I := fun s => ∃ d t mt, Inv s d t mt)
  · rintro s ⟨hMounts, _, d, t, mt, hGood⟩
    refine ⟨d, t, mt, hGood, ?_, ?_, ?_⟩
    · intro l hMem
      rw [hMounts] at hMem
      cases hMem
    · rw [hMounts]
      exact List.nodup_nil
    · rw [hMounts]
      exact List.nodup_nil
  · rintro s s' _ ⟨d, t, mt, hInv⟩ hStep
    exact ⟨d, t, mt, hStep.inv hInv⟩

/-
  As long as each directory is mounted at a window of which
  nothing else is cached, and no entry of it is changed while
  its table is cached, accesses end in the directory that is
  mounted and in the tables that it names.
-/
theorem mounts_right
    (hReach : Reachable Start CleanStep s) :
    Right s := by
  rcases reachable_inv hReach with ⟨d, t, mt, hInv⟩
  exact hInv.right

------------------------------------------------------------
-- Two Tasks
------------------------------------------------------------

/-
  The kernel's directory, mapped into itself, and those of
  two tasks, each with its own page table for the stacks.
-/
def twoTasksRam : ByteMemory :=
  ((((((ByteMemory.setWord (fun _ => 0)
    0x101000 1022 0x102003).setWord
    0x102000 1023 0x101003).setWord
    0x101000 1023 0x101003).setWord
    0x101000 1021 0x103003).setWord
    0x104000 896 0x106007).setWord
    0x105000 896 0x107007)

def kernelRecord : PageDirectory :=
  ⟨0x101000, KERNEL_DIR_VIRTUAL, KERNEL_TABLES_VIRTUAL⟩

def firstRecord : PageDirectory :=
  ⟨0x104000, USER_DIR_VIRTUAL, USER_TABLES_VIRTUAL⟩

def secondRecord : PageDirectory :=
  ⟨0x105000, USER_DIR_VIRTUAL, USER_TABLES_VIRTUAL⟩

def twoTasks : Machine where
  ram := twoTasksRam
  paging := true
  cr3 := 0x101000
  currentDirectory := .kernelDirectory
  dirAt := fun dir =>
    match dir with
    | .kernelDirectory => some kernelRecord
    | .heap 1 => some firstRecord
    | .heap 2 => some secondRecord
    | .heap _ => none
  kmallocs := []
  frames := []
  freed := []

/- A CPU that keeps what it has cached, and uses it. -/
def keepsAll (_ : Nat) : Choice := ⟨0, fun _ => true, []⟩

/- The first mount point. -/
def firstPoint : Mount := ⟨MOUNT_DIR_START, MOUNT_TABS_START⟩

/- The page of the window with the table for the stacks. -/
def stackPage : Nat := 1024 * 1012 + 896

def cpuStart : Cpu := ⟨twoTasks, [], 0⟩

/- The first directory is mounted. -/
def cpuFirst : Cpu :=
  EStateM.endState (mountDirectory keepsAll (.heap 1)) cpuStart

/- Its table for the stacks is looked up. -/
def cpuCached : Cpu :=
  { cpuFirst with tlb := [(stackPage, 0x106000)] }

/- It is unmounted. -/
def cpuUnmounted : Cpu :=
  EStateM.endState (umountDirectory keepsAll firstPoint)
    cpuCached

/- Perhaps a page is copied. -/
def cpuCopied : Cpu := { cpuUnmounted with tlb := [] }

/- The second one is mounted. -/
def cpuSecond (c : Cpu) : Cpu :=
  EStateM.endState (mountDirectory keepsAll (.heap 2)) c

theorem run_first :
    (mountDirectory keepsAll (.heap 1)).run cpuStart =
      .ok firstPoint cpuFirst :=
  EStateM.run_eq_of_value (by decide)

theorem run_unmount :
    (umountDirectory keepsAll firstPoint).run cpuCached =
      .ok () cpuUnmounted :=
  EStateM.run_eq_of_value (by decide)

theorem run_second_stale :
    (mountDirectory keepsAll (.heap 2)).run cpuUnmounted =
      .ok firstPoint (cpuSecond cpuUnmounted) :=
  EStateM.run_eq_of_value (by decide)

theorem run_second_clean :
    (mountDirectory keepsAll (.heap 2)).run cpuCopied =
      .ok firstPoint (cpuSecond cpuCopied) :=
  EStateM.run_eq_of_value (by decide)

def systemStart : System := ⟨cpuStart, []⟩

def firstMount : Live := ⟨firstPoint, 0x104000⟩

def systemFirst : System := ⟨cpuFirst, [firstMount]⟩

def systemCached : System := ⟨cpuCached, [firstMount]⟩

def systemUnmounted : System := ⟨cpuUnmounted, []⟩

def systemCopied : System := ⟨cpuCopied, []⟩

def systemSecond (c : Cpu) : System :=
  ⟨cpuSecond c, [⟨firstPoint, 0x105000⟩]⟩

theorem start_systemStart : Start systemStart := by
  refine ⟨rfl, rfl, kernelRecord, 0x102000, 0x103000, ?_⟩
  refine
    { pointers := .inl ⟨rfl, rfl⟩
      self :=
        { current := rfl
          physical := by decide
          maps :=
            { paging := rfl
              aligned := by decide
              fits := by decide
              dir := by decide +kernel
              table := by decide +kernel }
          tables :=
            { paging := rfl
              aligned := by decide
              fits := by decide
              entry := by decide +kernel } }
      mountTable := by rfl
      apart := by decide
      trusted := ?_ }
  intro n _ f hMem
  cases hMem

/- Only the cache changes. -/
theorem work_of_tlb
    {tlb : List (Nat × Nat)}
    (hTlb : ∀ e ∈ tlb, c.pageAt e.1 = some e.2) :
    Work c { c with tlb := tlb } where
  paging := rfl
  cr3 := rfl
  currentDirectory := rfl
  current := rfl
  path := fun _ _ _ _ => ⟨rfl, fun _ _ => rfl⟩
  windows := fun _ _ => rfl
  tlb := fun e hMem => .inr (hTlb e hMem)

theorem step_first :
    Step systemStart (.mount (.heap 1)) systemFirst :=
  @Step.mount systemStart keepsAll (.heap 1) firstRecord
    firstPoint cpuFirst rfl (by decide) run_first

theorem work_cached : Work cpuFirst cpuCached := by
  apply work_of_tlb
  intro e hMem
  rw [List.mem_singleton] at hMem
  rw [hMem]
  decide

theorem step_cached :
    Step systemFirst .work systemCached :=
  Step.work (s := systemFirst) work_cached

theorem step_unmounted :
    Step systemCached (.umount firstPoint) systemUnmounted :=
  @Step.umount systemCached keepsAll
    firstMount [] [] cpuUnmounted rfl run_unmount

theorem step_copied :
    Step systemUnmounted .work systemCopied := by
  refine Step.work (s := systemUnmounted) ?_
  apply work_of_tlb
  intro e hMem
  cases hMem

/- Nothing of the window is cached. -/
theorem cleanWindow_of_tlb
    {frame : Nat}
    (hTlb : c.tlb = []) :
    CleanWindow c frame := by
  intro w _ i _ f hMem
  rw [hTlb] at hMem
  cases hMem

/- No entry has changed. -/
theorem invalidates_of_ram
    (s s' : System)
    (hRam : s'.cpu.machine.ram = s.cpu.machine.ram) :
    Invalidates s s' := by
  intro l _ i _ hNe
  rw [hRam] at hNe
  exact absurd rfl hNe

/- No directory stays mounted. -/
theorem invalidates_of_empty (s : System) (c : Cpu) :
    Invalidates s ⟨c, []⟩ := by
  intro l hMem
  cases hMem

theorem reachable_cached :
    Reachable Start CleanStep systemCached := by
  have hStart :
      Reachable Start CleanStep systemStart :=
    .start start_systemStart
  have hFirst :=
    hStart.step ⟨.mount (.heap 1),
      fun _ _ => cleanWindow_of_tlb rfl, step_first⟩
  exact hFirst.step ⟨.work,
    invalidates_of_ram systemFirst systemCached rfl,
    step_cached⟩

theorem reachable_copied :
    Reachable Start CleanStep systemCopied := by
  have hUnmounted :=
    reachable_cached.step ⟨.umount firstPoint,
      invalidates_of_empty systemCached cpuUnmounted,
      step_unmounted⟩
  exact hUnmounted.step ⟨.work,
    invalidates_of_ram systemUnmounted systemCopied rfl,
    step_copied⟩

theorem reachable_second :
    Reachable Start CleanStep (systemSecond cpuCopied) :=
  reachable_copied.step ⟨.mount (.heap 2),
    fun _ _ => cleanWindow_of_tlb rfl,
    @Step.mount systemCopied keepsAll (.heap 2) secondRecord
      firstPoint (cpuSecond cpuCopied) rfl (by decide)
      run_second_clean⟩

/- Its table for the stacks is looked up. -/
def cpuSecondCached : Cpu :=
  { cpuSecond cpuCopied with tlb := [(stackPage, 0x107000)] }

def systemSecondCached : System :=
  ⟨cpuSecondCached, [⟨firstPoint, 0x105000⟩]⟩

theorem reachable_secondCached :
    Reachable Start CleanStep systemSecondCached := by
  refine reachable_second.step
    ⟨.work,
      invalidates_of_ram (systemSecond cpuCopied)
        systemSecondCached rfl, ?_⟩
  refine Step.work (s := systemSecond cpuCopied) ?_
  apply work_of_tlb
  intro e hMem
  rw [List.mem_singleton] at hMem
  rw [hMem]
  decide

/-
  Two directories mounted at one window one after the other,
  with a page copied in between.  Both tables for the stacks
  are looked up.
-/
theorem copied_between_right :
    Reachable Start CleanStep systemSecondCached ∧
      Right systemSecondCached :=
  ⟨reachable_secondCached,
    mounts_right reachable_secondCached⟩

/-
  Without it the window still shows the first task's page
  table for the stacks.
-/
theorem stale_window :
    ¬ ∀ s,
      Reachable Start (fun s s' => ∃ call, Step s call s') s →
        Right s := by
  intro hAll
  have hStart :
      Reachable Start
        (fun s s' => ∃ call, Step s call s') systemStart :=
    .start start_systemStart
  have hSecond :
      Step systemUnmounted (.mount (.heap 2))
        (systemSecond cpuUnmounted) :=
    @Step.mount systemUnmounted keepsAll (.heap 2)
      secondRecord firstPoint (cpuSecond cpuUnmounted) rfl
      (by decide) run_second_stale
  have hRight :=
    hAll _ ((((hStart.step ⟨_, step_first⟩).step
      ⟨_, step_cached⟩).step ⟨_, step_unmounted⟩).step
        ⟨_, hSecond⟩)
  have hStale :
      (stackPage, 0x106000) ∈
        (cpuSecond cpuUnmounted).tlb := by
    decide
  have hTable :
      (cpuSecond cpuUnmounted).machine.ram.entry 0x105000
        896 = some 0x106000 :=
    (hRight _ List.mem_cons_self).2 896 (by decide) 0x106000
      (.inl hStale)
  have hEntry :
      (cpuSecond cpuUnmounted).machine.ram.entry 0x105000
        896 = some 0x107000 := by
    decide
  rw [hEntry] at hTable
  exact absurd hTable (by decide)

/- The entry for the stacks is cleared, but still cached. -/
def cpuCleared : Cpu :=
  { cpuCached with
    machine :=
      cpuCached.machine.withRam
        (cpuCached.machine.ram.setWord 0x104000 896 0) }

/- Only memory changes, and not the entries behind mounts. -/
theorem work_of_ram
    (c : Cpu)
    (ram : ByteMemory)
    (hPath :
      ∀ d,
        c.machine.dirAt c.machine.currentDirectory = some d →
        ∀ n, OwnPage d n →
          ram.word c.machine.root (n / 1024) =
              c.machine.ram.word c.machine.root (n / 1024) ∧
            ∀ u,
              c.machine.ram.entry c.machine.root (n / 1024) =
                  some u →
                ram.word u (n % 1024) =
                  c.machine.ram.word u (n % 1024))
    (hWindows :
      ∀ w, IsWindow w →
        ram.word c.machine.root w =
          c.machine.ram.word c.machine.root w) :
    Work c { c with machine := c.machine.withRam ram } where
  paging := rfl
  cr3 := rfl
  currentDirectory := rfl
  current := rfl
  path := hPath
  windows := hWindows
  tlb _ hMem := .inl hMem

/-
  An entry that is cleared while its table is cached shows
  the table still, although no window was stale.
-/
theorem cleared_entry_stale :
    Reachable Start CleanStep systemCached ∧
      Step systemCached .work ⟨cpuCleared, [firstMount]⟩ ∧
      ¬ Right ⟨cpuCleared, [firstMount]⟩ := by
  rcases reachable_inv reachable_cached with
    ⟨d, t, mt, hInv⟩
  refine ⟨reachable_cached, .work (s := systemCached) ?_, ?_⟩
  · have hTable : mt = 0x103000 := by
      have hEntry := hInv.good.mountTable
      have hNamed :
          cpuCached.machine.ram.entry cpuCached.machine.root
            (pgdirIdxFromAddr MOUNT_DIR_START) =
              some 0x103000 := by decide
      exact Option.some.inj (hEntry.symm.trans hNamed)
    have hOther :
        ∀ g j, g % 4096 = 0 → j < 1024 →
          g ≠ 0x104000 ∨ j ≠ 896 →
          cpuCleared.machine.ram.word g j =
            cpuCached.machine.ram.word g j := by
      intro g j hg hj hNe
      exact ByteMemory.word_setWord_of_ne _ 0 (by decide) hg
        (by decide) hj hNe
    refine work_of_ram cpuCached _ ?_ ?_
    · intro d' hd' n hOwn
      have hSame : some d' = some d :=
        hd'.symm.trans hInv.good.self.current
      cases hSame
      rcases hInv.good.path hOwn with ⟨hLt, _, hPath⟩
      refine ⟨hOther _ _ (by decide) hLt (.inl (by decide)),
        ?_⟩
      intro u hu
      apply hOther u _ (ByteMemory.entry_aligned hu)
        (Nat.mod_lt _ (by decide))
      rcases hPath u hu with h | ⟨_, h⟩ | ⟨h, _⟩
      · exact .inr (by omega)
      · exact .inr (by omega)
      · exact .inl (by omega)
    · intro w hw
      have hRange := isWindow_iff.mp hw
      exact hOther _ w (by decide) (by omega)
        (.inl (by decide))
  · intro hRight
    have hTable :
        cpuCleared.machine.ram.entry 0x104000 896 =
          some 0x106000 :=
      (hRight _ List.mem_cons_self).2 896 (by decide) 0x106000
        (.inl (by decide))
    have hEntry :
        cpuCleared.machine.ram.entry 0x104000 896 = none := by
      decide
    rw [hEntry] at hTable
    cases hTable

end Tlb

end Vmm

end SosKernel
