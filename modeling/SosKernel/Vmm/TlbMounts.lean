import SosKernel.Vmm.MountPoint
import SosKernel.Vmm.Tlb

/-
  What mounting and unmounting do on a CPU that caches
  translations.

  Main declarations:
    * `Quiet`: only the cache has changed
    * `access_ok`, `exists_choice`
    * `Trusted`, `Good`
    * `Mounted`, `Good.mountDirectory_ok`
    * `Unmounted`, `Good.umountDirectory_ok`

  The pages through which the current directory is edited are
  never looked up wrongly: their entries do not change while
  they may be cached.
-/

------------------------------------------------------------
-- Accesses
------------------------------------------------------------

namespace SosKernel

namespace Vmm

namespace Tlb

variable {cpu : Nat → Choice}
variable {c c' c'' : Cpu}
variable {a f i n v : Nat}

/-
  The machine is the same, and what is cached could be
  reached before.
-/
def Quiet (c c' : Cpu) : Prop :=
  c'.machine = c.machine ∧
    ∀ e ∈ c'.tlb, c.Reaches e.1 e.2

theorem Quiet.refl (c : Cpu) : Quiet c c :=
  ⟨rfl, fun _ hMem => .inl hMem⟩

theorem Quiet.pageAt
    (hQuiet : Quiet c c')
    (n : Nat) :
    c'.pageAt n = c.pageAt n := by
  unfold Cpu.pageAt
  rw [hQuiet.1]

theorem Quiet.reaches
    (hQuiet : Quiet c c')
    (hReaches : c'.Reaches n f) :
    c.Reaches n f := by
  rcases hReaches with hMem | hWalk
  · exact hQuiet.2 _ hMem
  · exact .inr ((hQuiet.pageAt n).symm.trans hWalk)

theorem Quiet.trans
    (hFirst : Quiet c c')
    (hSecond : Quiet c' c'') :
    Quiet c c'' :=
  ⟨hSecond.1.trans hFirst.1,
    fun e hMem => hFirst.reaches (hSecond.2 e hMem)⟩

theorem quiet_after
    (c : Cpu)
    (choice : Choice) :
    Quiet c (c.after choice) := by
  refine ⟨rfl, ?_⟩
  rintro ⟨n, f⟩ hMem
  rcases List.mem_append.mp hMem with hOld | hNew
  · exact .inl (List.mem_filter.mp hOld).1
  · rcases List.mem_filterMap.mp hNew with ⟨k, _, hWalk⟩
    rcases Option.map_eq_some_iff.mp hWalk with
      ⟨g, hPage, hEq⟩
    cases hEq
    exact .inr hPage

/- An access ends in a frame that it may reach. -/
theorem access_ok
    {pa : Nat}
    (hRun : (access cpu a).run c = .ok pa c') :
    Quiet c c' ∧
      ∃ frame, c.Reaches (a / 4096) frame ∧
        pa = frame + a % 4096 := by
  unfold access at hRun
  rw [EStateM.bind_of_ok (EStateM.run_get c)] at hRun
  dsimp only at hRun
  rw [EStateM.bind_of_ok (EStateM.run_set _ c)] at hRun
  split at hRun
  · cases hRun
  · rename_i frame hFrame
    cases hRun
    refine ⟨quiet_after c _, frame, ?_, rfl⟩
    exact mem_candidates.mp (List.mem_of_getElem? hFrame)

/- Every frame that may be reached is reached by a choice. -/
theorem exists_choice
    (hReaches : c.Reaches (a / 4096) f) :
    ∃ choice : Choice,
      ∀ cpu : Nat → Choice, cpu c.time = choice →
        (access cpu a).run c =
          .ok (f + a % 4096) (c.after choice) := by
  have hMem := mem_candidates.mpr hReaches
  rcases List.mem_iff_getElem?.mp hMem with ⟨k, hk⟩
  have hLt : k < (c.candidates (a / 4096)).length := by
    rcases List.getElem?_eq_some_iff.mp hk with ⟨hLt, _⟩
    exact hLt
  refine ⟨⟨k, fun _ => false, []⟩, ?_⟩
  intro cpu hChoice
  unfold access
  rw [EStateM.bind_of_ok (EStateM.run_get c)]
  dsimp only
  rw [EStateM.bind_of_ok (EStateM.run_set _ c), hChoice]
  unfold PAGE_SIZE
  rw [Nat.mod_eq_of_lt hLt, hk]
  rfl

/- The page leads to no other frame. -/
def Cpu.Only (c : Cpu) (n f : Nat) : Prop :=
  ∀ g, c.Reaches n g → g = f

theorem load32_quiet
    (hRun : (load32 cpu a).run c = .ok v c') :
    Quiet c c' := by
  unfold load32 at hRun
  rw [EStateM.bind_eq_ok_iff] at hRun
  rcases hRun with ⟨pa, c₁, hAccess, hRun⟩
  cases hRun
  exact (access_ok hAccess).1

theorem loadAt_quiet
    {base : Nat}
    (hRun : (loadAt cpu base i).run c = .ok v c') :
    Quiet c c' :=
  load32_quiet hRun

/- A load through a page that leads to one frame. -/
theorem loadAt_ok
    {base : Nat}
    (hBase : base % 4096 = 0)
    (hFits : base + 4096 ≤ 2 ^ 32)
    (hi : i < 1024)
    (hOnly : c.Only (base / 4096) f)
    (hRun : (loadAt cpu base i).run c = .ok v c') :
    Quiet c c' ∧ v = c.machine.ram.word f i := by
  unfold loadAt load32 at hRun
  rw [index_eq hFits hi, EStateM.bind_eq_ok_iff] at hRun
  rcases hRun with ⟨pa, c₁, hAccess, hRun⟩
  rcases access_ok hAccess with
    ⟨hQuiet, frame, hReaches, rfl⟩
  have hPage : (base + 4 * i) / 4096 = base / 4096 := by
    omega
  have hOffset : (base + 4 * i) % 4096 = 4 * i := by omega
  rw [hPage] at hReaches
  have hFrame := hOnly frame hReaches
  cases hRun
  refine ⟨hQuiet, ?_⟩
  rw [hQuiet.1, hFrame, hOffset]
  rfl

/-
  One word has been stored, and what is cached could be
  reached before.
-/
structure Stored
    (c c' : Cpu)
    (f i v : Nat) : Prop where
  machine :
    c'.machine =
      c.machine.withRam (c.machine.ram.setWord f i v)
  tlb : ∀ e ∈ c'.tlb, c.Reaches e.1 e.2

theorem storeAt_ok
    {base : Nat}
    (hBase : base % 4096 = 0)
    (hFits : base + 4096 ≤ 2 ^ 32)
    (hi : i < 1024)
    (hOnly : c.Only (base / 4096) f)
    (hRun : (storeAt cpu base i v).run c = .ok () c') :
    Stored c c' f i v := by
  unfold storeAt store32 at hRun
  rw [index_eq hFits hi, EStateM.bind_eq_ok_iff] at hRun
  rcases hRun with ⟨pa, c₁, hAccess, hRun⟩
  rcases access_ok hAccess with
    ⟨hQuiet, frame, hReaches, rfl⟩
  have hPage : (base + 4 * i) / 4096 = base / 4096 := by
    omega
  have hOffset : (base + 4 * i) % 4096 = 4 * i := by omega
  rw [hPage] at hReaches
  have hFrame := hOnly frame hReaches
  cases hRun
  refine ⟨?_, hQuiet.2⟩
  dsimp only
  rw [hQuiet.1, hFrame, hOffset]
  rfl

/- The same through a window on all page tables. -/
theorem loadAt_pages_ok
    {pages : Nat}
    (hBase : pages % 2 ^ 22 = 0)
    (hFits : pages + 2 ^ 22 ≤ 2 ^ 32)
    (hn : n < 2 ^ 20)
    (hOnly : c.Only (pages / 4096 + n / 1024) f)
    (hRun : (loadAt cpu pages n).run c = .ok v c') :
    Quiet c c' ∧ v = c.machine.ram.word f (n % 1024) := by
  have hPage :
      pages / 4096 + n / 1024 =
        (pages + 4096 * (n / 1024)) / 4096 := by omega
  rw [hPage] at hOnly
  unfold loadAt at hRun
  rw [index_pages] at hRun
  exact loadAt_ok (by omega) (by omega) (by omega) hOnly hRun

theorem storeAt_pages_ok
    {pages : Nat}
    (hBase : pages % 2 ^ 22 = 0)
    (hFits : pages + 2 ^ 22 ≤ 2 ^ 32)
    (hn : n < 2 ^ 20)
    (hOnly : c.Only (pages / 4096 + n / 1024) f)
    (hRun : (storeAt cpu pages n v).run c = .ok () c') :
    Stored c c' f (n % 1024) v := by
  have hPage :
      pages / 4096 + n / 1024 =
        (pages + 4096 * (n / 1024)) / 4096 := by omega
  rw [hPage] at hOnly
  unfold storeAt at hRun
  rw [index_pages] at hRun
  exact storeAt_ok (by omega) (by omega) (by omega) hOnly
    hRun

theorem onMachine_run
    {α : Type}
    {x : VmM α}
    {r : α}
    (hRun : x.run c.machine = .ok r c.machine) :
    (onMachine x).run c = .ok r c := by
  have hSame : x c.machine = .ok r c.machine := hRun
  change onMachine x c = .ok r c
  unfold onMachine
  rw [hSame]

theorem onMachine_ok
    {α : Type}
    {x : VmM α}
    {r : α}
    (hRun : (onMachine x).run c = .ok r c') :
    ∃ m, x.run c.machine = .ok r m ∧
      c' = { c with machine := m } := by
  change onMachine x c = .ok r c' at hRun
  unfold onMachine at hRun
  cases hx : x c.machine with
  | ok r' m =>
      rw [hx] at hRun
      cases hRun
      exact ⟨m, hx, rfl⟩
  | error e m =>
      rw [hx] at hRun
      cases hRun

------------------------------------------------------------
-- Pages That Are Looked Up Rightly
------------------------------------------------------------

/- What is cached of the page agrees with the tables. -/
def Trusted (c : Cpu) (n : Nat) : Prop :=
  ∀ f, (n, f) ∈ c.tlb → c.pageAt n = some f

theorem Trusted.reaches
    (hTrusted : Trusted c n)
    (hReaches : c.Reaches n f) :
    c.pageAt n = some f := by
  rcases hReaches with hMem | hWalk
  · exact hTrusted f hMem
  · exact hWalk

theorem Trusted.only
    (hTrusted : Trusted c n)
    (hPage : c.pageAt n = some f) :
    c.Only n f := by
  intro g hReaches
  have hSame := hTrusted.reaches hReaches
  rw [hPage] at hSame
  exact (Option.some.inj hSame).symm

theorem Quiet.trusted
    (hQuiet : Quiet c c')
    (hTrusted : Trusted c n) :
    Trusted c' n := by
  intro f hMem
  rw [hQuiet.pageAt]
  exact hTrusted.reaches (hQuiet.2 _ hMem)

/-
  The pages that mounting and unmounting use: that of the
  current directory, that of the page table with the mount
  pages, and the mount pages.
-/
def OwnPage (d : PageDirectory) (n : Nat) : Prop :=
  n = d.directory / PAGE_SIZE ∨
    n = d.pages / PAGE_SIZE + pgdirIdxFromAddr MOUNT_DIR_START ∨
    IsMountPage n

/-
  The current directory `d` is mapped into itself, `mt` is
  the page table of the mount pages, and the pages for
  mounting are looked up rightly.
-/
structure Good
    (c : Cpu)
    (d : PageDirectory)
    (t mt : Nat) : Prop where
  pointers : HasPointers d
  self : SelfMapped c.machine d t
  mountTable :
    c.machine.ram.entry c.machine.root
      (pgdirIdxFromAddr MOUNT_DIR_START) = some mt
  apart : mt ≠ c.machine.root
  trusted : ∀ n, OwnPage d n → Trusted c n

variable {d : PageDirectory}
variable {t mt : Nat}

theorem Good.quiet
    (hGood : Good c d t mt)
    (hQuiet : Quiet c c') :
    Good c' d t mt where
  pointers := hGood.pointers
  self := by
    rw [hQuiet.1]
    exact hGood.self
  mountTable := by
    rw [hQuiet.1]
    exact hGood.mountTable
  apart := by
    rw [hQuiet.1]
    exact hGood.apart
  trusted := fun n hOwn =>
    hQuiet.trusted (hGood.trusted n hOwn)

theorem Good.mountTable_aligned
    (hGood : Good c d t mt) :
    mt % 4096 = 0 :=
  ByteMemory.entry_aligned hGood.mountTable

/- The current directory is read and written itself. -/
theorem Good.only_directory
    (hGood : Good c d t mt) :
    c.Only (d.directory / 4096) c.machine.root :=
  (hGood.trusted _ (.inl rfl)).only hGood.self.maps.pageAt

/- So is the page table of the mount pages. -/
theorem Good.only_mountTable
    (hGood : Good c d t mt) :
    c.Only (d.pages / 4096 + 1021) mt := by
  refine (hGood.trusted _ (.inr (.inl rfl))).only ?_
  have hMaps :=
    hGood.self.tables.maps (i := 1021) (by decide)
      hGood.mountTable
  have hPage :
      (d.pages + 4096 * 1021) / 4096 =
        d.pages / 4096 + 1021 := by omega
  have hWalk := hMaps.pageAt
  rw [hPage] at hWalk
  exact hWalk

/- A mount page shows what its entry names. -/
theorem Good.pageAt_mount
    (hGood : Good c d t mt)
    (hn : IsMountPage n) :
    c.pageAt n = c.machine.ram.entry mt (n % 1024) := by
  rw [isMountPage_iff] at hn
  apply ByteMemory.pageAt_of_entry
  have hIndex : n / 1024 = 1021 := by omega
  rw [hIndex]
  exact hGood.mountTable

------------------------------------------------------------
-- Looking for a Mount Point
------------------------------------------------------------

theorem Good.run_readCurrent
    (hGood : Good c d t mt) :
    (onMachine readCurrent).run c = .ok d c :=
  onMachine_run hGood.self.run_readCurrent

theorem Good.loadAt_directory
    (hGood : Good c d t mt)
    (hi : i < 1024)
    (hRun : (loadAt cpu d.directory i).run c = .ok v c') :
    Quiet c c' ∧
      v = c.machine.ram.word c.machine.root i :=
  loadAt_ok hGood.self.maps.aligned hGood.self.maps.fits hi
    hGood.only_directory hRun

theorem Good.storeAt_directory
    (hGood : Good c d t mt)
    (hi : i < 1024)
    (hRun : (storeAt cpu d.directory i v).run c = .ok () c') :
    Stored c c' c.machine.root i v :=
  storeAt_ok hGood.self.maps.aligned hGood.self.maps.fits hi
    hGood.only_directory hRun

theorem Good.loadAt_mountTable
    {va : Nat}
    (hGood : Good c d t mt)
    (hva : IsMountPage (va / 4096))
    (hRun :
      (loadAt cpu d.pages (pgNumFromAddr va)).run c =
        .ok v c') :
    Quiet c c' ∧
      v = c.machine.ram.word mt (va / 4096 % 1024) := by
  rcases pgNum_mountPage hva with ⟨hLt, hIndex, _⟩
  have hOnly := hGood.only_mountTable
  rw [← hIndex] at hOnly
  exact loadAt_pages_ok hGood.self.tables.aligned
    hGood.self.tables.fits hLt hOnly hRun

theorem Good.storeAt_mountTable
    {va : Nat}
    (hGood : Good c d t mt)
    (hva : IsMountPage (va / 4096))
    (hRun :
      (storeAt cpu d.pages (pgNumFromAddr va) v).run c =
        .ok () c') :
    Stored c c' mt (va / 4096 % 1024) v := by
  rcases pgNum_mountPage hva with ⟨hLt, hIndex, _⟩
  have hOnly := hGood.only_mountTable
  rw [← hIndex] at hOnly
  exact storeAt_pages_ok hGood.self.tables.aligned
    hGood.self.tables.fits hLt hOnly hRun

theorem Good.entry_ne_zero
    (hGood : Good c d t mt) :
    c.machine.ram.word c.machine.root 1021 ≠ 0 :=
  Vmm.entry_ne_zero hGood.mountTable

/- A mount page without a mapping has an empty entry. -/
theorem Good.getMapping_ok
    {va : Nat}
    {r : Option Nat}
    (hGood : Good c d t mt)
    (hva : IsMountPage (va / 4096))
    (hRun : (getMapping cpu va).run c = .ok r c') :
    Quiet c c' ∧
      (r = none →
        c.machine.ram.word mt (va / 4096 % 1024) = 0) := by
  rcases pgNum_mountPage hva with ⟨_, _, hDir⟩
  unfold getMapping at hRun
  dsimp only at hRun
  rw [EStateM.bind_of_ok hGood.run_readCurrent,
    EStateM.bind_eq_ok_iff] at hRun
  rcases hRun with ⟨e, c₁, hLoad, hRun⟩
  rw [hDir] at hLoad
  rcases hGood.loadAt_directory (by decide) hLoad with
    ⟨hQuiet₁, rfl⟩
  rw [if_neg hGood.entry_ne_zero,
    EStateM.bind_eq_ok_iff] at hRun
  rcases hRun with ⟨e, c₂, hLoad₂, hRun⟩
  rcases (hGood.quiet hQuiet₁).loadAt_mountTable hva hLoad₂
    with ⟨hQuiet₂, rfl⟩
  have hQuiet := hQuiet₁.trans hQuiet₂
  rw [hQuiet₁.1] at hRun
  split at hRun
  · rw [EStateM.bind_eq_ok_iff] at hRun
    rcases hRun with ⟨e, c₃, hLoad₃, hRun⟩
    cases hRun
    refine ⟨hQuiet.trans (loadAt_quiet hLoad₃), ?_⟩
    intro hNone
    cases hNone
  · rename_i hZero
    cases hRun
    refine ⟨hQuiet, ?_⟩
    intro _
    exact Decidable.not_not.mp hZero

/- The page found is null or an empty mount page. -/
theorem Good.findMountPage_ok
    {va r : Nat}
    (hGood : Good c d t mt)
    (hAligned : va % 4096 = 0)
    (hLo : MOUNT_DIR_START ≤ va)
    (hHi : va + n * 4096 ≤ MOUNT_DIR_END)
    (hRun : (findMountPage cpu n va).run c = .ok r c') :
    Quiet c c' ∧
      (r ≠ 0 →
        r % 4096 = 0 ∧ IsMountPage (r / 4096) ∧
          c.machine.ram.word mt (r / 4096 % 1024) = 0) := by
  induction n generalizing c va with
  | zero =>
      cases hRun
      exact ⟨.refl _, fun hNe => absurd rfl hNe⟩
  | succ n ih =>
      have hva : IsMountPage (va / 4096) := by
        rw [isMountPage_iff]
        unfold MOUNT_DIR_START at hLo
        unfold MOUNT_DIR_END at hHi
        omega
      rw [findMountPage, EStateM.bind_eq_ok_iff] at hRun
      rcases hRun with ⟨mapping, c₁, hMapping, hRun⟩
      rcases hGood.getMapping_ok hva hMapping with
        ⟨hQuiet, hFree⟩
      split at hRun
      · rename_i hNone
        cases hRun
        refine ⟨hQuiet, ?_⟩
        intro _
        exact ⟨hAligned, hva,
          hFree (Option.isNone_iff_eq_none.mp hNone)⟩
      · have hNext :=
          ih (hGood.quiet hQuiet)
            (by unfold PAGE_SIZE; omega)
            (by unfold PAGE_SIZE; omega)
            (by unfold PAGE_SIZE; omega) hRun
        rw [hQuiet.1] at hNext
        exact ⟨hQuiet.trans hNext.1, hNext.2⟩

/- The first empty one of `n` entries of the directory. -/
def Cpu.emptyFrom (c : Cpu) (w n : Nat) : Option Nat :=
  (List.range' w n).find? fun k =>
    c.machine.ram.word c.machine.root k = 0

/- The entry at which the next directory is mounted. -/
def Cpu.emptyWindow (c : Cpu) : Option Nat :=
  c.emptyFrom (pgdirIdxFromAddr MOUNT_TABS_START)
    (pgdirIdxFromAddr MOUNT_TABS_END -
      pgdirIdxFromAddr MOUNT_TABS_START)

theorem Quiet.emptyFrom
    (hQuiet : Quiet c c')
    (w n : Nat) :
    c'.emptyFrom w n = c.emptyFrom w n := by
  unfold Cpu.emptyFrom
  rw [hQuiet.1]

theorem Good.findMountTable_ok
    {va r : Nat}
    (hGood : Good c d t mt)
    (hAligned : va % 2 ^ 22 = 0)
    (hHi : va + n * 2 ^ 22 ≤ 2 ^ 32)
    (hRun : (findMountTable cpu n va).run c = .ok r c') :
    Quiet c c' ∧
      (r ≠ 0 →
        r % 2 ^ 22 = 0 ∧
          c.emptyFrom (va / 2 ^ 22) n =
            some (r / 2 ^ 22)) := by
  induction n generalizing c va with
  | zero =>
      cases hRun
      exact ⟨.refl _, fun hNe => absurd rfl hNe⟩
  | succ n ih =>
      rw [findMountTable,
        EStateM.bind_of_ok hGood.run_readCurrent,
        EStateM.bind_eq_ok_iff] at hRun
      rcases hRun with ⟨e, c₁, hLoad, hRun⟩
      rcases hGood.loadAt_directory
        (by unfold pgdirIdxFromAddr; omega) hLoad with
        ⟨hQuiet, rfl⟩
      unfold Cpu.emptyFrom
      rw [List.range'_succ, List.find?_cons]
      unfold pgdirIdxFromAddr at hRun
      split at hRun
      · rename_i hZero
        cases hRun
        rw [decide_eq_true hZero]
        exact ⟨hQuiet, fun _ => ⟨hAligned, rfl⟩⟩
      · rename_i hZero
        rw [decide_eq_false hZero]
        have hNext :=
          ih (hGood.quiet hQuiet)
            (by unfold PAGE_SIZE; omega)
            (by unfold PAGE_SIZE; omega) hRun
        have hIndex :
            (va + 1024 * PAGE_SIZE) / 2 ^ 22 =
              va / 2 ^ 22 + 1 := by
          unfold PAGE_SIZE
          omega
        rw [hQuiet.emptyFrom, hIndex] at hNext
        exact ⟨hQuiet.trans hNext.1, hNext.2⟩

theorem emptyFrom_ok
    {w k : Nat}
    (hEmpty : c.emptyFrom w n = some k) :
    w ≤ k ∧ k < w + n ∧
      c.machine.ram.word c.machine.root k = 0 := by
  have hMem := List.mem_of_find?_eq_some hEmpty
  rw [List.mem_range'_1] at hMem
  have hZero := List.find?_some hEmpty
  rw [decide_eq_true_eq] at hZero
  exact ⟨hMem.1, hMem.2, hZero⟩

/- The mount point that was found is empty. -/
structure IsFree
    (c : Cpu)
    (mt : Nat)
    (mount : Mount) : Prop where
  aligned : mount.directory % 4096 = 0
  page : IsMountPage (mount.directory / 4096)
  pageFree :
    c.machine.ram.word mt
      (mount.directory / 4096 % 1024) = 0
  pagesAligned : mount.pages % 2 ^ 22 = 0
  window : c.emptyWindow = some (mount.pages / 2 ^ 22)

theorem Good.findMountPoint_ok
    {mount : Mount}
    (hGood : Good c d t mt)
    (hRun : (findMountPoint cpu).run c = .ok mount c') :
    Quiet c c' ∧ IsFree c mt mount := by
  unfold findMountPoint at hRun
  rw [EStateM.bind_eq_ok_iff] at hRun
  rcases hRun with ⟨directory, c₁, hPage, hRun⟩
  rw [EStateM.bind_eq_ok_iff] at hRun
  rcases hRun with ⟨pages, c₂, hTable, hRun⟩
  rcases hGood.findMountPage_ok (by decide) (by decide)
    (by decide) hPage with ⟨hQuiet₁, hDirectory⟩
  rcases (hGood.quiet hQuiet₁).findMountTable_ok (by decide)
    (by decide) hTable with ⟨hQuiet₂, hPages⟩
  split at hRun
  · cases hRun
  · rename_i hFound
    rw [not_or] at hFound
    cases hRun
    rcases hDirectory hFound.1 with ⟨hAligned, hIs, hFree⟩
    rcases hPages hFound.2 with ⟨hAligned', hEmpty⟩
    rw [hQuiet₁.emptyFrom] at hEmpty
    exact ⟨hQuiet₁.trans hQuiet₂, hAligned, hIs, hFree,
      hAligned', hEmpty⟩

------------------------------------------------------------
-- Mounting
------------------------------------------------------------

/- A directory has been mounted at an empty mount point. -/
structure Mounted
    (c c' : Cpu)
    (mt : Nat)
    (mount : Mount)
    (frame : Nat) : Prop where
  free : IsFree c mt mount
  machine :
    c'.machine = c.machine.withRam c'.machine.ram
  within : c.machine.ram.Within c'.machine.ram
  page :
    c'.machine.ram.entry mt
      (mount.directory / 4096 % 1024) = some frame
  pages :
    c'.machine.ram.entry c.machine.root
      (mount.pages / 2 ^ 22) = some frame
  tlb :
    ∀ e ∈ c'.tlb, e ∈ c.tlb ∨
      (e.1 / 1024 ≠ mount.pages / 2 ^ 22 ∧
        (e.1 < 2 ^ 20 → c'.pageAt e.1 = some e.2))

theorem IsFree.windowFree
    {mount : Mount}
    (hFree : IsFree c mt mount) :
    IsWindow (mount.pages / 2 ^ 22) ∧
      c.machine.ram.word c.machine.root
        (mount.pages / 2 ^ 22) = 0 := by
  rcases emptyFrom_ok hFree.window with ⟨hLo, hHi, hZero⟩
  refine ⟨?_, hZero⟩
  rw [isWindow_iff]
  have hStart : pgdirIdxFromAddr MOUNT_TABS_START = 1012 :=
    rfl
  have hEnd : pgdirIdxFromAddr MOUNT_TABS_END = 1020 := rfl
  omega

/- The word that was stored, and all others. -/
theorem Stored.word_self
    (hStored : Stored c c' f i v)
    (hv : v < 2 ^ 32) :
    c'.machine.ram.word f i = v := by
  rw [hStored.machine]
  exact ByteMemory.word_setWord_self _ f i hv

theorem Stored.word_of_ne
    {g j : Nat}
    (hStored : Stored c c' f i v)
    (hf : f % 4096 = 0)
    (hg : g % 4096 = 0)
    (hi : i < 1024)
    (hj : j < 1024)
    (hNe : g ≠ f ∨ j ≠ i) :
    c'.machine.ram.word g j = c.machine.ram.word g j := by
  rw [hStored.machine]
  exact ByteMemory.word_setWord_of_ne _ v hf hg hi hj hNe

theorem Stored.same
    (hStored : Stored c c' f i v) :
    c'.machine = c.machine.withRam c'.machine.ram := by
  rw [hStored.machine]
  rfl

theorem Stored.within
    (hStored : Stored c c' f i v)
    (hf : f % 4096 = 0)
    (hi : i < 1024)
    (hZero : c.machine.ram.word f i = 0) :
    c.machine.ram.Within c'.machine.ram := by
  rw [hStored.machine]
  exact ByteMemory.within_setWord _ v hf hi hZero

/- What is mapped stays mapped when an entry is stored. -/
theorem Stored.pageAt_within
    {g : Nat}
    (hStored : Stored c c' f i v)
    (hf : f % 4096 = 0)
    (hi : i < 1024)
    (hZero : c.machine.ram.word f i = 0)
    (hn : n < 2 ^ 20)
    (hPage : c.pageAt n = some g) :
    c'.pageAt n = some g := by
  have hWithin := hStored.within hf hi hZero
  have hRoot : c'.machine.root = c.machine.root := by
    rw [hStored.same]
    rfl
  unfold Cpu.pageAt
  rw [hRoot]
  exact hWithin.pageAt (root_aligned _) (by omega) hPage

theorem SelfMapped.within
    {m m' : Machine}
    (hSelf : SelfMapped m d t)
    (hMachine : m' = m.withRam m'.ram)
    (hWithin : m.ram.Within m'.ram) :
    SelfMapped m' d t := by
  have hDirFits := hSelf.maps.fits
  have hPagesFits := hSelf.tables.fits
  have hAligned := root_aligned m
  have hDir :=
    hWithin _ _ _ hAligned (by omega) hSelf.maps.dir
  have hTable :=
    hWithin _ _ _ (ByteMemory.entry_aligned hSelf.maps.dir)
      (Nat.mod_lt _ (by decide)) hSelf.maps.table
  have hEntry :=
    hWithin _ _ _ hAligned (by omega) hSelf.tables.entry
  rw [hMachine]
  exact
    { current := hSelf.current
      physical := hSelf.physical
      maps :=
        ⟨hSelf.maps.paging, hSelf.maps.aligned,
          hSelf.maps.fits, hDir, hTable⟩
      tables :=
        ⟨hSelf.tables.paging, hSelf.tables.aligned,
          hSelf.tables.fits, hEntry⟩ }

theorem OwnPage.lt
    (hOwn : OwnPage d n)
    (hPointers : HasPointers d) :
    n < 2 ^ 20 := by
  rcases hOwn with rfl | rfl | hMount
  · rcases hPointers.values with ⟨h, -⟩ | ⟨h, -⟩ <;>
      rw [h] <;> decide
  · rcases hPointers.values with ⟨-, h⟩ | ⟨-, h⟩ <;>
      rw [h] <;> decide
  · rw [isMountPage_iff] at hMount
    omega

/- A stored entry leaves everything else as it was. -/
theorem Good.stored
    (hGood : Good c d t mt)
    (hf : f % 4096 = 0)
    (hi : i < 1024)
    (hZero : c.machine.ram.word f i = 0)
    (hStored : Stored c c' f i v) :
    Good c' d t mt := by
  have hWithin := hStored.within hf hi hZero
  have hRoot : c'.machine.root = c.machine.root := by
    rw [hStored.same]
    rfl
  refine ⟨hGood.pointers,
    SelfMapped.within hGood.self hStored.same hWithin, ?_,
    ?_, ?_⟩
  · rw [hRoot]
    exact hWithin _ _ _ (root_aligned _) (by decide)
      hGood.mountTable
  · rw [hRoot]
    exact hGood.apart
  · intro n hOwn g hMem
    apply hStored.pageAt_within hf hi hZero
      (hOwn.lt hGood.pointers)
    exact (hGood.trusted n hOwn).reaches (hStored.tlb _ hMem)

theorem checkKernel_quiet
    {va : Nat}
    (hRun : (checkKernel cpu d va).run c = .ok () c') :
    Quiet c c' := by
  unfold checkKernel at hRun
  split at hRun
  · rw [EStateM.bind_eq_ok_iff] at hRun
    rcases hRun with ⟨_, c₁, hLoad, hRun⟩
    rw [EStateM.bind_eq_ok_iff] at hRun
    rcases hRun with ⟨kernel, c₂, hRead, hRun⟩
    rw [EStateM.bind_eq_ok_iff] at hRun
    rcases hRun with ⟨_, c₃, hLoad', hRun⟩
    cases hRun
    rcases onMachine_ok hRead with ⟨m, hRecord, rfl⟩
    rw [(readDirectory_ok hRecord).2] at hLoad'
    exact (loadAt_quiet hLoad).trans (loadAt_quiet hLoad')
  · cases hRun
    exact .refl c

/- Mapping a mount page whose entry is empty. -/
theorem Good.map_ok
    {va pa flags : Nat}
    (hGood : Good c d t mt)
    (hva : IsMountPage (va / 4096))
    (hRun : (map cpu va pa flags).run c = .ok () c') :
    ∃ c₁ c₂, Quiet c c₁ ∧
      Stored c₁ c₂ mt (va / 4096 % 1024)
        (mapEntry pa flags) ∧
      Quiet c₂ c' := by
  rcases pgNum_mountPage hva with ⟨_, _, hDir⟩
  unfold map at hRun
  dsimp only at hRun
  rw [EStateM.bind_of_ok hGood.run_readCurrent,
    EStateM.bind_eq_ok_iff] at hRun
  rcases hRun with ⟨e, c₁, hLoad, hRun⟩
  rw [hDir] at hLoad
  rcases hGood.loadAt_directory (by decide) hLoad with
    ⟨hQuiet, rfl⟩
  rw [if_neg hGood.entry_ne_zero,
    EStateM.bind_eq_ok_iff] at hRun
  rcases hRun with ⟨_, c₂, hStore, hCheck⟩
  exact ⟨c₁, c₂, hQuiet,
    (hGood.quiet hQuiet).storeAt_mountTable hva hStore,
    checkKernel_quiet hCheck⟩

/-
  `mount_directory` takes the first empty mount point, and
  nothing of its window is cached anew.
-/
theorem Good.mountDirectory_ok
    {dir : DirPtr}
    {record : PageDirectory}
    {mount : Mount}
    (hGood : Good c d t mt)
    (hRecord : c.machine.dirAt dir = some record)
    (hPhysical : record.physical < 2 ^ 32)
    (hRun : (mountDirectory cpu dir).run c = .ok mount c') :
    Good c' d t mt ∧
      Mounted c c' mt mount (pageAddr record.physical) := by
  unfold mountDirectory at hRun
  rw [EStateM.bind_eq_ok_iff] at hRun
  rcases hRun with ⟨mount', c₁, hFind, hRun⟩
  rcases hGood.findMountPoint_ok hFind with ⟨hQuiet₁, hFree⟩
  have hGood₁ := hGood.quiet hQuiet₁
  split at hRun
  · cases hRun
  dsimp only at hRun
  rw [EStateM.bind_eq_ok_iff] at hRun
  rcases hRun with ⟨mapping, c₂, hMapping, hRun⟩
  rcases hGood₁.getMapping_ok hFree.page hMapping with
    ⟨hQuiet₂, _⟩
  have hGood₂ := hGood₁.quiet hQuiet₂
  split at hRun
  · cases hRun
  rw [EStateM.bind_of_ok hGood₂.run_readCurrent,
    EStateM.bind_eq_ok_iff] at hRun
  rcases hRun with ⟨e, c₃, hLoad, hRun⟩
  have hQuiet₃ := loadAt_quiet hLoad
  have hGood₃ := hGood₂.quiet hQuiet₃
  have hQuiet := (hQuiet₁.trans hQuiet₂).trans hQuiet₃
  split at hRun
  · cases hRun
  have hRead :
      (onMachine (readDirectory dir)).run c₃ =
        .ok record c₃ := by
    apply onMachine_run
    apply run_readDirectory
    rw [hQuiet.1]
    exact hRecord
  rw [EStateM.bind_of_ok hRead, EStateM.bind_eq_ok_iff] at hRun
  rcases hRun with ⟨_, c₆, hMap, hRun⟩
  rcases hGood₃.map_ok hFree.page hMap with
    ⟨c₄, c₅, hQuiet₄, hPage, hQuiet₆⟩
  have hBefore := hQuiet.trans hQuiet₄
  -- the mount page is entered where nothing was
  have hmt := hGood.mountTable_aligned
  have hIndex :
      mount'.directory / 4096 % 1024 < 1024 :=
    Nat.mod_lt _ (by decide)
  have hPageFree :
      c₄.machine.ram.word mt
        (mount'.directory / 4096 % 1024) = 0 := by
    rw [hBefore.1]
    exact hFree.pageFree
  have hGood₅ :=
    (hGood₃.quiet hQuiet₄).stored hmt hIndex hPageFree hPage
  have hGood₆ := hGood₅.quiet hQuiet₆
  -- and so is the window
  rw [EStateM.bind_eq_ok_iff] at hRun
  rcases hRun with ⟨_, c₇, hStore, hRun⟩
  cases hRun
  rcases hFree.windowFree with ⟨hIsWindow, hWindowFree⟩
  rw [isWindow_iff] at hIsWindow
  have hw : mount.pages / 2 ^ 22 < 1024 := by omega
  have hPages := hGood₆.storeAt_directory hw hStore
  have hRoot₅ : c₅.machine.root = c.machine.root := by
    rw [hPage.machine, hBefore.1]
    rfl
  have hRoot₆ : c₆.machine.root = c.machine.root := by
    rw [hQuiet₆.1]
    exact hRoot₅
  have hApart := hGood.apart
  have hWindow₆ :
      c₆.machine.ram.word c₆.machine.root
        (mount.pages / 2 ^ 22) = 0 := by
    rw [hRoot₆, hQuiet₆.1,
      hPage.word_of_ne hmt (root_aligned _) hIndex hw
        (.inl hApart.symm), hBefore.1]
    exact hWindowFree
  have hGood₇ :=
    hGood₆.stored (root_aligned _) hw hWindow₆ hPages
  refine ⟨hGood₇, hFree, ?_, ?_, ?_, ?_, ?_⟩
  · rw [hPages.same, hQuiet₆.1, hPage.same, hBefore.1]
    rfl
  · have hFirst := hPage.within hmt hIndex hPageFree
    have hSecond :=
      hPages.within (root_aligned _) hw hWindow₆
    rw [hBefore.1] at hFirst
    rw [hQuiet₆.1] at hSecond
    exact hFirst.trans hSecond
  · rw [ByteMemory.entry_congr
      (hPages.word_of_ne (root_aligned _) hmt hw hIndex
        (.inl (by rw [hRoot₆]; exact hApart))), hQuiet₆.1,
      ByteMemory.entry_of_word
        (hPage.word_self
          (mapEntry_lt hPhysical (by decide)))]
    exact entryFrame_mapEntry (by decide)
  · have hWord := hPages.word_self (record_lt hPhysical)
    rw [hRoot₆] at hWord
    rw [ByteMemory.entry_of_word hWord]
    exact entryFrame_record _
  · rintro ⟨n, g⟩ hMem
    have hNoWalk :
        ∀ c₀ : Cpu,
          c₀.machine.root = c.machine.root →
          c₀.machine.ram.word c₀.machine.root
            (mount.pages / 2 ^ 22) = 0 →
          n / 1024 = mount.pages / 2 ^ 22 →
          c₀.pageAt n = none := by
      intro c₀ _ hZero hn
      apply ByteMemory.pageAt_of_none
      rw [hn, ByteMemory.entry_of_word hZero]
      rfl
    have hLate :
        c₆.pageAt n = some g →
        (n, g) ∈ c.tlb ∨
          (n / 1024 ≠ mount.pages / 2 ^ 22 ∧
            (n < 2 ^ 20 → c'.pageAt n = some g)) := by
      intro hWalk
      refine .inr ⟨?_, fun hn =>
        hPages.pageAt_within (root_aligned _) hw hWindow₆ hn
          hWalk⟩
      intro hn
      rw [hNoWalk c₆ hRoot₆ hWindow₆ hn] at hWalk
      cases hWalk
    rcases hPages.tlb _ hMem with hMem₆ | hWalk
    · rcases hQuiet₆.2 _ hMem₆ with hMem₅ | hWalk
      · rcases hBefore.reaches (hPage.tlb _ hMem₅) with
          hOld | hWalk
        · exact .inl hOld
        · refine .inr ⟨?_, ?_⟩
          · intro hn
            rw [hNoWalk c rfl hWindowFree hn] at hWalk
            cases hWalk
          · intro hn
            rw [← hBefore.pageAt] at hWalk
            have hWalk₅ :=
              hPage.pageAt_within hmt hIndex hPageFree hn
                hWalk
            rw [← hQuiet₆.pageAt] at hWalk₅
            exact hPages.pageAt_within (root_aligned _) hw
              hWindow₆ hn hWalk₅
      · rw [← hQuiet₆.pageAt] at hWalk
        exact hLate hWalk
    · exact hLate hWalk

------------------------------------------------------------
-- Unmounting
------------------------------------------------------------

/-
  Of the tables at most the two entries of a mount point have
  been cleared, and its mount page is not cached.
-/
structure Unmounted
    (c c' : Cpu)
    (mt : Nat)
    (mount : Mount) : Prop where
  machine :
    c'.machine = c.machine.withRam c'.machine.ram
  within : c'.machine.ram.Within c.machine.ram
  word :
    ∀ g j, g % 4096 = 0 → j < 1024 →
      (g ≠ mt ∨ j ≠ mount.directory / 4096 % 1024) →
      (g ≠ c.machine.root ∨ j ≠ mount.pages / 2 ^ 22) →
      c'.machine.ram.word g j = c.machine.ram.word g j
  tlb :
    ∀ e ∈ c'.tlb, e.1 < 2 ^ 20 →
      e.1 ≠ mount.directory / 4096 ∧ c.Reaches e.1 e.2

theorem Unmounted.root
    {mount : Mount}
    (hUnmounted : Unmounted c c' mt mount) :
    c'.machine.root = c.machine.root := by
  rw [hUnmounted.machine]
  rfl

/- The entries on the way to a page for mounting. -/
theorem Good.path
    (hGood : Good c d t mt)
    (hOwn : OwnPage d n) :
    n / 1024 < 1024 ∧ (n / 1024 < 1012 ∨ 1020 ≤ n / 1024) ∧
      ∀ u,
        c.machine.ram.entry c.machine.root (n / 1024) =
            some u →
          n % 1024 = 1023 ∨
            (u = c.machine.root ∧ n % 1024 = 1021) ∨
            (u = mt ∧ IsMountPage n) := by
  rcases hOwn with rfl | rfl | hMount
  · have hValue :
        d.directory / PAGE_SIZE = 1047551 ∨
          d.directory / PAGE_SIZE = 982015 := by
      rcases hGood.pointers.values with ⟨h, -⟩ | ⟨h, -⟩
      · exact .inl (by rw [h]; rfl)
      · exact .inr (by rw [h]; rfl)
    refine ⟨by omega, by omega, ?_⟩
    intro u _
    exact .inl (by omega)
  · have hStart :
        pgdirIdxFromAddr MOUNT_DIR_START = 1021 := rfl
    have hIndex := hGood.self.tables.aligned
    have hFits := hGood.self.tables.fits
    have hDiv :
        (d.pages / PAGE_SIZE +
            pgdirIdxFromAddr MOUNT_DIR_START) / 1024 =
          d.pages / 2 ^ 22 := by
      unfold PAGE_SIZE
      omega
    have hMod :
        (d.pages / PAGE_SIZE +
            pgdirIdxFromAddr MOUNT_DIR_START) % 1024 =
          1021 := by
      unfold PAGE_SIZE
      omega
    rw [hDiv, hMod]
    refine ⟨by omega, ?_, ?_⟩
    · rcases hGood.pointers.values with ⟨-, h⟩ | ⟨-, h⟩ <;>
        rw [h] <;> decide
    · intro u hu
      rw [hGood.self.tables.entry] at hu
      exact .inr (.inl ⟨(Option.some.inj hu).symm, rfl⟩)
  · have hRange := isMountPage_iff.mp hMount
    have hIndex : n / 1024 = 1021 := by omega
    rw [hIndex]
    refine ⟨by decide, by decide, ?_⟩
    intro u hu
    have hTable := hGood.mountTable
    have hStart :
        pgdirIdxFromAddr MOUNT_DIR_START = 1021 := rfl
    rw [hStart, hu] at hTable
    exact .inr (.inr ⟨Option.some.inj hTable, hMount⟩)

/- The other pages for mounting stay mapped. -/
theorem Unmounted.pageAt
    {mount : Mount}
    {g : Nat}
    (hUnmounted : Unmounted c c' mt mount)
    (hGood : Good c d t mt)
    (hPage : IsMountPage (mount.directory / 4096))
    (hWindow : IsWindow (mount.pages / 2 ^ 22))
    (hOwn : OwnPage d n)
    (hNe : n ≠ mount.directory / 4096)
    (hWalk : c.pageAt n = some g) :
    c'.pageAt n = some g := by
  have hApart := hGood.apart
  have hmt := hGood.mountTable_aligned
  have hAligned := root_aligned c.machine
  rw [isMountPage_iff] at hPage
  rw [isWindow_iff] at hWindow
  rcases hGood.path hOwn with ⟨hLt, hIndex, hPath⟩
  unfold Cpu.pageAt at hWalk ⊢
  rw [hUnmounted.root, ByteMemory.pageAt_congr
    (hUnmounted.word _ _ hAligned hLt (.inl hApart.symm)
      (.inr (by omega)))]
  · exact hWalk
  · intro u hu
    apply hUnmounted.word _ _ (ByteMemory.entry_aligned hu)
      (Nat.mod_lt _ (by decide))
    · rcases hPath u hu with h | ⟨rfl, h⟩ | ⟨rfl, h⟩
      · exact .inr (by omega)
      · exact .inl hApart.symm
      · rw [isMountPage_iff] at h
        exact .inr (by omega)
    · rcases hPath u hu with h | ⟨rfl, h⟩ | ⟨rfl, h⟩
      · exact .inr (by omega)
      · exact .inr (by omega)
      · exact .inl hApart

theorem Unmounted.good
    {mount : Mount}
    (hUnmounted : Unmounted c c' mt mount)
    (hGood : Good c d t mt)
    (hPage : IsMountPage (mount.directory / 4096))
    (hWindow : IsWindow (mount.pages / 2 ^ 22)) :
    Good c' d t mt := by
  have hApart := hGood.apart
  have hAligned := root_aligned c.machine
  have ht := ByteMemory.entry_aligned hGood.self.maps.dir
  have hPageRange := isMountPage_iff.mp hPage
  have hWindowRange := isWindow_iff.mp hWindow
  have hRootWord :
      ∀ j, j < 1024 → (j < 1012 ∨ 1020 ≤ j) →
        c'.machine.ram.word c.machine.root j =
          c.machine.ram.word c.machine.root j := by
    intro j hj hOutside
    exact hUnmounted.word _ _ hAligned hj (.inl hApart.symm)
      (.inr (by omega))
  rcases hGood.pointers.indices with
    ⟨hDir, hDirLt, hTab, hPages, hPagesLt⟩
  refine ⟨hGood.pointers, ?_, ?_, ?_, ?_⟩
  · refine hGood.self.congr ?_ hUnmounted.root ?_ ?_
      (hRootWord _ hDirLt hDir) ?_
      (hRootWord _ hPagesLt hPages)
    · rw [hUnmounted.machine]
      rfl
    · rw [hUnmounted.machine]
      rfl
    · rw [hUnmounted.machine]
      rfl
    · rw [hTab]
      exact hUnmounted.word _ _ ht (by decide)
        (.inr (by omega)) (.inr (by omega))
  · rw [hUnmounted.root, ByteMemory.entry_congr
      (hRootWord _ (by decide) (.inr (by decide)))]
    exact hGood.mountTable
  · rw [hUnmounted.root]
    exact hApart
  · intro n hOwn g hMem
    rcases hUnmounted.tlb _ hMem (hOwn.lt hGood.pointers)
      with ⟨hNe, hReaches⟩
    exact hUnmounted.pageAt hGood hPage hWindow hOwn hNe
      ((hGood.trusted n hOwn).reaches hReaches)

/- `unmap` clears the entry and drops the translation. -/
theorem Good.unmap_ok
    {va : Nat}
    (hGood : Good c d t mt)
    (hva : IsMountPage (va / 4096))
    (hRun : (unmap cpu va).run c = .ok () c') :
    ∃ c₁, Stored c c₁ mt (va / 4096 % 1024) 0 ∧
      c'.machine = c₁.machine ∧
      ∀ e ∈ c'.tlb, e ∈ c₁.tlb ∧ e.1 ≠ va / 4096 := by
  unfold unmap at hRun
  rw [EStateM.bind_of_ok hGood.run_readCurrent,
    EStateM.bind_eq_ok_iff] at hRun
  rcases hRun with ⟨_, c₁, hStore, hRun⟩
  have hStored := hGood.storeAt_mountTable hva hStore
  cases hRun
  refine ⟨c₁, hStored, rfl, ?_⟩
  intro e hMem
  rcases List.mem_filter.mp hMem with ⟨hMem, hNe⟩
  exact ⟨hMem, of_decide_eq_true hNe⟩

/-
  `umount_directory` keeps the pages for mounting right, but
  the window may stay cached.
-/
theorem Good.umountDirectory_ok
    {mount : Mount}
    (hGood : Good c d t mt)
    (hPage : IsMountPage (mount.directory / 4096))
    (hWindow : IsWindow (mount.pages / 2 ^ 22))
    (hRun : (umountDirectory cpu mount).run c = .ok () c') :
    Good c' d t mt ∧ Unmounted c c' mt mount := by
  unfold umountDirectory at hRun
  rw [EStateM.bind_eq_ok_iff] at hRun
  rcases hRun with ⟨_, c₂, hUnmap, hRun⟩
  rcases hGood.unmap_ok hPage hUnmap with
    ⟨c₁, hStored, hMachine, hDropped⟩
  have hmt := hGood.mountTable_aligned
  have hIndex :
      mount.directory / 4096 % 1024 < 1024 :=
    Nat.mod_lt _ (by decide)
  have hFirst : Unmounted c c₂ mt mount := by
    refine ⟨?_, ?_, ?_, ?_⟩
    · rw [hMachine]
      exact hStored.same
    · rw [hMachine, hStored.machine]
      exact ByteMemory.setWord_within _ hmt hIndex
    · intro g j hg hj hNe _
      rw [hMachine]
      exact hStored.word_of_ne hmt hg hIndex hj hNe
    · intro e hMem _
      rcases hDropped e hMem with ⟨hMem, hNe⟩
      exact ⟨hNe, hStored.tlb e hMem⟩
  have hGood₂ := hFirst.good hGood hPage hWindow
  rw [EStateM.bind_of_ok hGood₂.run_readCurrent] at hRun
  have hw : mount.pages / 2 ^ 22 < 1024 := by
    rw [isWindow_iff] at hWindow
    omega
  have hCleared := hGood₂.storeAt_directory hw hRun
  have hAligned := root_aligned c₂.machine
  have hSecond : Unmounted c c' mt mount := by
    refine ⟨?_, ?_, ?_, ?_⟩
    · rw [hCleared.same, hFirst.machine]
      rfl
    · have hWithin :
          c'.machine.ram.Within c₂.machine.ram := by
        rw [hCleared.machine]
        exact ByteMemory.setWord_within _ hAligned hw
      exact hWithin.trans hFirst.within
    · intro g j hg hj hNe hNe'
      rw [hCleared.word_of_ne hAligned hg hw hj
        (by rw [hFirst.root]; exact hNe')]
      exact hFirst.word g j hg hj hNe hNe'
    · rintro ⟨n, g⟩ hMem hn
      rcases hCleared.tlb _ hMem with hOld | hWalk
      · exact hFirst.tlb _ hOld hn
      · -- what is looked up now was mapped before
        have hBefore :=
          hFirst.within.pageAt hAligned
            (by change n < 2 ^ 20 at hn; omega) hWalk
        rw [hFirst.root] at hBefore
        refine ⟨?_, .inr hBefore⟩
        rintro rfl
        change c₂.pageAt (mount.directory / 4096) = some g
          at hWalk
        have hEmpty :
            c₂.machine.ram.word mt
              (mount.directory / 4096 % 1024) = 0 := by
          rw [hMachine]
          exact hStored.word_self (by decide)
        rw [hGood₂.pageAt_mount hPage,
          ByteMemory.entry_of_word hEmpty] at hWalk
        cases hWalk
  exact ⟨hSecond.good hGood hPage hWindow, hSecond⟩

end Tlb

end Vmm

end SosKernel
