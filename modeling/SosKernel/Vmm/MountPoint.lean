import SosKernel.Vmm.Mapping

/-
  Mount points, and what `mount_directory` and
  `umount_directory` do with them.

  Main declarations:
    * `IsMountPage`, `IsWindow`, `HasPointers`
    * `Setup`: a current directory that can mount others
    * `MountedAt`
    * `Setup.run_mountDirectory`
    * `Setup.run_umountDirectory`

  The four mount pages are entries 1019..1022 of the page
  table behind entry 1021, which all directories share.  The
  windows are the entries 1012..1019 of the directory.
-/

------------------------------------------------------------
-- Mount Points
------------------------------------------------------------

namespace SosKernel

namespace Vmm

variable {m m' : Machine}
variable {d : PageDirectory}
variable {t mt tk k f g i j n v w p : Nat}

/- One of the four pages at which directories are mounted. -/
def IsMountPage (n : Nat) : Prop :=
  MOUNT_DIR_START / PAGE_SIZE ≤ n ∧
    n < MOUNT_DIR_END / PAGE_SIZE

/- One of the entries at which page tables are mounted. -/
def IsWindow (w : Nat) : Prop :=
  pgdirIdxFromAddr MOUNT_TABS_START ≤ w ∧
    w < pgdirIdxFromAddr MOUNT_TABS_END

theorem isMountPage_iff :
    IsMountPage n ↔ 1046523 ≤ n ∧ n < 1046527 :=
  Iff.rfl

theorem isWindow_iff :
    IsWindow n ↔ 1012 ≤ n ∧ n < 1020 :=
  Iff.rfl

/- The pointers of the kernel's record, or of a clone's. -/
def HasPointers (d : PageDirectory) : Prop :=
  (d.directory = KERNEL_DIR_VIRTUAL ∧
      d.pages = KERNEL_TABLES_VIRTUAL) ∨
    (d.directory = USER_DIR_VIRTUAL ∧
      d.pages = USER_TABLES_VIRTUAL)

theorem HasPointers.values
    (hPointers : HasPointers d) :
    (d.directory = 0xFFBFF000 ∧ d.pages = 0xFFC00000) ∨
      (d.directory = 0xEFBFF000 ∧ d.pages = 0xEFC00000) :=
  hPointers

/- The entries with which the directory maps itself. -/
theorem HasPointers.indices
    (hPointers : HasPointers d) :
    (d.directory / 2 ^ 22 < 1012 ∨
        1020 ≤ d.directory / 2 ^ 22) ∧
      d.directory / 2 ^ 22 < 1024 ∧
      d.directory / 4096 % 1024 = 1023 ∧
      (d.pages / 2 ^ 22 < 1012 ∨
        1020 ≤ d.pages / 2 ^ 22) ∧
      d.pages / 2 ^ 22 < 1024 := by
  rcases hPointers.values with ⟨h, h'⟩ | ⟨h, h'⟩ <;>
    rw [h, h'] <;> decide

theorem pgNum_mountPage
    {va : Nat}
    (hva : IsMountPage (va / 4096)) :
    pgNumFromAddr va < 2 ^ 20 ∧
      pgNumFromAddr va / 1024 = 1021 ∧
      pgdirIdxFromAddr va = 1021 := by
  rw [isMountPage_iff] at hva
  unfold pgNumFromAddr pgdirIdxFromAddr
  omega

/- The entry that a record's frame is stored with. -/
theorem entryFrame_record (x : Nat) :
    ByteMemory.entryFrame
        (x ||| PAGE_PRESENT ||| PAGE_WRITE) =
      some (pageAddr x) := by
  have hSplit :
      x ||| PAGE_PRESENT ||| PAGE_WRITE =
        pageAddr x + (x % 4096 ||| 3) := by
    have hLow : x % 4096 ||| 3 < 2 ^ 12 :=
      Nat.or_lt_two_pow (Nat.mod_lt _ (by decide))
        (by decide)
    rw [← or_flags (pageAddr_aligned x) hLow,
      ← Nat.or_assoc,
      or_flags (pageAddr_aligned x)
        (Nat.mod_lt _ (by decide)), Nat.or_assoc]
    congr 1
    unfold pageAddr PAGE_SIZE
    omega
  rw [hSplit]
  refine ByteMemory.entryFrame_add (pageAddr_aligned x)
    (Nat.or_lt_two_pow (n := 12) (Nat.mod_lt _ (by decide))
      (by decide)) ?_
  rw [Nat.or_mod_two_eq_one]
  exact .inr rfl

theorem record_lt
    {x : Nat}
    (hx : x < 2 ^ 32) :
    x ||| PAGE_PRESENT ||| PAGE_WRITE < 2 ^ 32 :=
  Nat.or_lt_two_pow (Nat.or_lt_two_pow hx (by decide))
    (by decide)

/- The empty ones of `n` entries of a frame. -/
def emptyEntries
    (ram : ByteMemory)
    (f i n : Nat) : List Nat :=
  (List.range' i n).filter fun j => ram.word f j = 0

def emptyPages (m : Machine) (mt : Nat) : List Nat :=
  emptyEntries m.ram mt (pgtabIdxFromAddr MOUNT_DIR_START)
    ((MOUNT_DIR_END - MOUNT_DIR_START) / PAGE_SIZE)

def emptyWindows (m : Machine) : List Nat :=
  emptyEntries m.ram m.root
    (pgdirIdxFromAddr MOUNT_TABS_START)
    ((MOUNT_TABS_END - MOUNT_TABS_START) /
      (1024 * PAGE_SIZE))

theorem mem_emptyEntries
    {ram : ByteMemory} :
    j ∈ emptyEntries ram f i n ↔
      (i ≤ j ∧ j < i + n) ∧ ram.word f j = 0 := by
  unfold emptyEntries
  rw [List.mem_filter, List.mem_range'_1,
    decide_eq_true_eq]

/- The entry of a mount page in its page table. -/
def pageBase (p : Nat) : Nat :=
  2 ^ 22 * pgdirIdxFromAddr MOUNT_DIR_START + PAGE_SIZE * p

/- The mount point with the given entries. -/
def mountAt (p w : Nat) : Mount :=
  ⟨pageBase p, 2 ^ 22 * w⟩

/- Entries of mount pages and of windows. -/
def IsSlot (p w : Nat) : Prop :=
  (1019 ≤ p ∧ p < 1023) ∧ 1012 ≤ w ∧ w < 1020

theorem pageBase_eq (p : Nat) :
    pageBase p = 0xFF400000 + 4096 * p := rfl

theorem IsSlot.page
    (hSlot : IsSlot p w) :
    IsMountPage (pageBase p / 4096) ∧
      pageBase p % 4096 = 0 ∧
      pageBase p < 2 ^ 32 ∧
      pageBase p / 2 ^ 22 = 1021 ∧
      pageBase p / 4096 % 1024 = p := by
  unfold IsSlot at hSlot
  rw [isMountPage_iff, pageBase_eq]
  omega

theorem isSlot_of_mem
    {ps ws : List Nat}
    (hPages : emptyPages m mt = p :: ps)
    (hWindows : emptyWindows m = w :: ws) :
    IsSlot p w ∧ m.ram.word mt p = 0 ∧
      m.ram.word m.root w = 0 := by
  have hPage : p ∈ emptyPages m mt := by
    rw [hPages]
    exact List.mem_cons_self
  have hWindow : w ∈ emptyWindows m := by
    rw [hWindows]
    exact List.mem_cons_self
  rcases mem_emptyEntries.mp hPage with ⟨hp, hpZero⟩
  rcases mem_emptyEntries.mp hWindow with ⟨hw, hwZero⟩
  exact ⟨⟨hp, hw⟩, hpZero, hwZero⟩

------------------------------------------------------------
-- The Current Directory
------------------------------------------------------------

/-
  The current directory `d` is mapped into itself and shows
  the kernel's directory `k`.  `mt` is the page table of the
  mount pages, `tk` that of the page with the kernel's
  directory.
-/
structure Setup
    (m : Machine)
    (d : PageDirectory)
    (t mt tk k : Nat) : Prop where
  pointers : HasPointers d
  self : SelfMapped m d t
  mountTable :
    m.ram.entry m.root (pgdirIdxFromAddr MOUNT_DIR_START) =
      some mt
  kernel :
    m.dirAt .kernelDirectory =
      some ⟨k, KERNEL_DIR_VIRTUAL, KERNEL_TABLES_VIRTUAL⟩
  kernelMaps : m.Maps KERNEL_DIR_VIRTUAL tk k
  kernelTables : m.ShowsTables KERNEL_TABLES_VIRTUAL k
  kernelMountTable :
    m.ram.entry k (pgdirIdxFromAddr MOUNT_DIR_START) =
      some mt
  apart : mt ≠ m.root
  apartKernel : mt ≠ k

/- The words that the current directory rests on. -/
def Critical (root t tk k g j : Nat) : Prop :=
  (g = root ∧ (j < 1012 ∨ 1020 ≤ j)) ∨
    (g = k ∧ j = 1021) ∨
    ((g = t ∨ g = tk) ∧ j = 1023)

theorem Setup.mountTable_aligned
    (hSetup : Setup m d t mt tk k) :
    mt % 4096 = 0 :=
  ByteMemory.entry_aligned hSetup.mountTable

theorem Setup.kernel_aligned
    (hSetup : Setup m d t mt tk k) :
    k % 4096 = 0 :=
  ByteMemory.entry_aligned hSetup.kernelTables.entry

theorem Setup.congr
    (hSetup : Setup m d t mt tk k)
    (m' : Machine)
    (hPaging : m'.paging = m.paging)
    (hRoot : m'.root = m.root)
    (hCurrent : m'.currentDirectory = m.currentDirectory)
    (hRecord :
      m'.dirAt m.currentDirectory =
        m.dirAt m.currentDirectory)
    (hKernel :
      m'.dirAt .kernelDirectory = m.dirAt .kernelDirectory)
    (hWord :
      ∀ g j, g % 4096 = 0 → j < 1024 →
        Critical m.root t tk k g j →
        m'.ram.word g j = m.ram.word g j) :
    Setup m' d t mt tk k := by
  have hAligned := root_aligned m
  have ht := ByteMemory.entry_aligned hSetup.self.maps.dir
  have htk := ByteMemory.entry_aligned hSetup.kernelMaps.dir
  have hk := hSetup.kernel_aligned
  rcases hSetup.pointers.indices with
    ⟨hDir, hDirLt, hTab, hPages, hPagesLt⟩
  have hDirWord :=
    hWord _ _ hAligned hDirLt (.inl ⟨rfl, hDir⟩)
  have hPagesWord :=
    hWord _ _ hAligned hPagesLt (.inl ⟨rfl, hPages⟩)
  have hTabWord :
      m'.ram.word t (d.directory / 4096 % 1024) =
        m.ram.word t (d.directory / 4096 % 1024) := by
    rw [hTab]
    exact hWord _ _ ht (by decide)
      (.inr (.inr ⟨.inl rfl, rfl⟩))
  have hRootWord :
      ∀ j, 1020 ≤ j → j < 1024 →
        m'.ram.word m.root j = m.ram.word m.root j :=
    fun j hLo hHi =>
      hWord _ _ hAligned hHi (.inl ⟨rfl, .inr hLo⟩)
  refine ⟨hSetup.pointers, ⟨?_, ?_, ?_, ?_⟩, ?_, ?_, ?_, ?_,
    ?_, ?_, hSetup.apartKernel⟩
  · rw [hCurrent, hRecord]
    exact hSetup.self.current
  · rw [hRoot]
    exact hSetup.self.physical
  · rw [hRoot]
    exact hSetup.self.maps.congr hPaging hRoot hDirWord
      hTabWord
  · rw [hRoot]
    exact hSetup.self.tables.congr hPaging hRoot hPagesWord
  · rw [hRoot, ByteMemory.entry_congr
      (hRootWord _ (by decide) (by decide))]
    exact hSetup.mountTable
  · rw [hKernel]
    exact hSetup.kernel
  · exact hSetup.kernelMaps.congr hPaging hRoot
      (hRootWord _ (by decide) (by decide))
      (hWord _ _ htk (by decide)
        (.inr (.inr ⟨.inr rfl, rfl⟩)))
  · exact hSetup.kernelTables.congr hPaging hRoot
      (hRootWord _ (by decide) (by decide))
  · rw [ByteMemory.entry_congr
      (hWord k (pgdirIdxFromAddr MOUNT_DIR_START) hk
        (by decide) (.inr (.inl ⟨rfl, rfl⟩)))]
    exact hSetup.kernelMountTable
  · rw [hRoot]
    exact hSetup.apart

theorem Setup.withRam
    {ram : ByteMemory}
    (hSetup : Setup m d t mt tk k)
    (hWord :
      ∀ g j, g % 4096 = 0 → j < 1024 →
        Critical m.root t tk k g j →
        ram.word g j = m.ram.word g j) :
    Setup (m.withRam ram) d t mt tk k :=
  hSetup.congr (m.withRam ram) rfl rfl rfl rfl rfl hWord

/- The mount point shows the directory and its tables. -/
structure MountedAt
    (m : Machine)
    (mt p w f : Nat) : Prop where
  slot : IsSlot p w
  page : m.ram.entry mt p = some f
  window : m.ram.entry m.root w = some f

theorem MountedAt.maps
    (hMounted : MountedAt m mt p w f)
    (hSetup : Setup m d t mt tk k) :
    m.Maps (pageBase p) mt f := by
  rcases hMounted.slot.page with
    ⟨_, hBase, hLt, hDir, hIndex⟩
  refine ⟨hSetup.self.maps.paging, hBase, by omega, ?_, ?_⟩
  · rw [hDir]
    exact hSetup.mountTable
  · rw [hIndex]
    exact hMounted.page

theorem MountedAt.tables
    (hMounted : MountedAt m mt p w f)
    (hSetup : Setup m d t mt tk k) :
    m.ShowsTables (2 ^ 22 * w) f := by
  have hSlot := hMounted.slot
  unfold IsSlot at hSlot
  have hDiv : 2 ^ 22 * w / 2 ^ 22 = w := by omega
  refine ⟨hSetup.self.maps.paging, by omega, by omega, ?_⟩
  rw [hDiv]
  exact hMounted.window

theorem MountedAt.congr
    (hMounted : MountedAt m mt p w f)
    (hRoot : m'.root = m.root)
    (hPage : m'.ram.word mt p = m.ram.word mt p)
    (hWindow :
      m'.ram.word m.root w = m.ram.word m.root w) :
    MountedAt m' mt p w f where
  slot := hMounted.slot
  page := (ByteMemory.entry_congr hPage).trans hMounted.page
  window := by
    rw [hRoot]
    exact (ByteMemory.entry_congr hWindow).trans
      hMounted.window

------------------------------------------------------------
-- Looking for a Mount Point
------------------------------------------------------------

theorem Setup.run_getMapping
    {va : Nat}
    (hSetup : Setup m d t mt tk k)
    (hva : IsMountPage (va / 4096)) :
    (getMapping va).run m =
      .ok
        (entryMapping
          (m.ram.word mt (va / 4096 % 1024)) va) m := by
  have hRange := isMountPage_iff.mp hva
  have hDir : va / 2 ^ 22 = 1021 := by omega
  apply hSetup.self.run_getMapping_table (by omega)
  rw [hDir]
  exact hSetup.mountTable

theorem Setup.run_findMountPage
    (hSetup : Setup m d t mt tk k)
    (hLo : 1019 ≤ i)
    (hHi : i + n ≤ 1023) :
    (findMountPage n (pageBase i)).run m =
      .ok
        (match emptyEntries m.ram mt i n with
        | [] => 0
        | p :: _ => pageBase p) m := by
  induction n generalizing i with
  | zero => rfl
  | succ n ih =>
      have hSlot : IsSlot i 1012 := by
        unfold IsSlot
        omega
      rcases hSlot.page with ⟨hPage, _, _, _, hIndex⟩
      have hMapping := hSetup.run_getMapping hPage
      rw [hIndex] at hMapping
      rw [findMountPage, EStateM.bind_of_ok hMapping]
      unfold emptyEntries
      rw [List.range'_succ]
      by_cases hZero : m.ram.word mt i = 0
      · have hNone :
            entryMapping (m.ram.word mt i) (pageBase i) =
              none := by
          unfold entryMapping
          rw [if_neg (not_not.mpr hZero)]
        rw [List.filter_cons_of_pos (by simpa using hZero),
          hNone, if_pos Option.isNone_none]
        rfl
      · have hSome :
            ¬ (entryMapping (m.ram.word mt i)
              (pageBase i)).isNone = true := by
          unfold entryMapping
          rw [if_pos hZero]
          exact Bool.false_ne_true
        rw [List.filter_cons_of_neg (by simpa using hZero),
          if_neg hSome]
        have hNext :
            pageBase i + PAGE_SIZE = pageBase (i + 1) := by
          rw [pageBase_eq, pageBase_eq]
          unfold PAGE_SIZE
          omega
        rw [hNext]
        exact ih (by omega) (by omega)

theorem Setup.run_findMountTable
    (hSetup : Setup m d t mt tk k)
    (hHi : i + n ≤ 1024) :
    (findMountTable n (2 ^ 22 * i)).run m =
      .ok
        (match emptyEntries m.ram m.root i n with
        | [] => 0
        | w :: _ => 2 ^ 22 * w) m := by
  induction n generalizing i with
  | zero => rfl
  | succ n ih =>
      have hIndex : pgdirIdxFromAddr (2 ^ 22 * i) = i := by
        unfold pgdirIdxFromAddr
        omega
      have hLoad :=
        hSetup.self.maps.shows.loadAt (i := i) (by omega)
      rw [findMountTable,
        EStateM.bind_of_ok hSetup.self.run_readCurrent,
        hIndex, EStateM.bind_of_ok hLoad]
      unfold emptyEntries
      rw [List.range'_succ]
      by_cases hZero : m.ram.word m.root i = 0
      · rw [List.filter_cons_of_pos (by simpa using hZero),
          if_pos hZero]
        rfl
      · rw [List.filter_cons_of_neg (by simpa using hZero),
          if_neg hZero]
        have hNext :
            2 ^ 22 * i + 1024 * PAGE_SIZE =
              2 ^ 22 * (i + 1) := by
          unfold PAGE_SIZE
          omega
        rw [hNext]
        exact ih (by omega)

theorem Setup.run_findMountPoint
    {ps ws : List Nat}
    (hSetup : Setup m d t mt tk k)
    (hPages : emptyPages m mt = p :: ps)
    (hWindows : emptyWindows m = w :: ws) :
    findMountPoint.run m = .ok (mountAt p w) m := by
  rcases isSlot_of_mem hPages hWindows with ⟨hSlot, _, _⟩
  have hPage :=
    hSetup.run_findMountPage (i := 1019) (n := 4) (by decide)
      (by decide)
  have hTable :=
    hSetup.run_findMountTable (i := 1012) (n := 8) (by decide)
  have hPages' : emptyEntries m.ram mt 1019 4 = p :: ps :=
    hPages
  have hWindows' :
      emptyEntries m.ram m.root 1012 8 = w :: ws := hWindows
  rw [hPages'] at hPage
  rw [hWindows'] at hTable
  unfold findMountPoint
  refine (EStateM.bind_of_ok hPage).trans ?_
  refine (EStateM.bind_of_ok hTable).trans ?_
  unfold IsSlot at hSlot
  dsimp only
  rw [if_neg]
  · rfl
  · rw [pageBase_eq]
    omega

------------------------------------------------------------
-- Mounting
------------------------------------------------------------

/- The memory with a directory mounted. -/
def mountRam
    (ram : ByteMemory)
    (mt root p w x : Nat) : ByteMemory :=
  (ram.setWord mt p
    (mapEntry x (PAGE_PRESENT ||| PAGE_WRITE))).setWord
      root w (x ||| PAGE_PRESENT ||| PAGE_WRITE)

/- The words of the memory that mounting leaves alone. -/
theorem word_mountRam
    {ram : ByteMemory}
    {root x : Nat}
    (hmt : mt % 4096 = 0)
    (hRoot : root % 4096 = 0)
    (hg : g % 4096 = 0)
    (hSlot : IsSlot p w)
    (hj : j < 1024)
    (hPage : g ≠ mt ∨ j ≠ p)
    (hWindow : g ≠ root ∨ j ≠ w) :
    (mountRam ram mt root p w x).word g j = ram.word g j := by
  unfold IsSlot at hSlot
  unfold mountRam
  rw [ByteMemory.word_setWord_of_ne _ _ hRoot hg (by omega)
      hj hWindow,
    ByteMemory.word_setWord_of_ne _ _ hmt hg (by omega) hj
      hPage]

/- A slot is none of the words that the directory rests on. -/
theorem Setup.not_slot
    (hSetup : Setup m d t mt tk k)
    (hSlot : IsSlot p w)
    (hCritical : Critical m.root t tk k g j) :
    (g ≠ mt ∨ j ≠ p) ∧ (g ≠ m.root ∨ j ≠ w) := by
  have hApart := hSetup.apart
  have hApartKernel := hSetup.apartKernel
  unfold IsSlot at hSlot
  rcases hCritical with ⟨rfl, h⟩ | ⟨rfl, h⟩ | ⟨_, h⟩
  · exact ⟨.inl hApart.symm, .inr (by omega)⟩
  · exact ⟨.inl hApartKernel.symm, .inr (by omega)⟩
  · exact ⟨.inr (by omega), .inr (by omega)⟩

/- Mounting keeps the current directory as it is. -/
theorem Setup.mount
    {x : Nat}
    (hSetup : Setup m d t mt tk k)
    (hSlot : IsSlot p w) :
    Setup (m.withRam (mountRam m.ram mt m.root p w x))
      d t mt tk k := by
  apply hSetup.withRam
  intro g j hg hj hCritical
  rcases hSetup.not_slot hSlot hCritical with ⟨hPage, hWindow⟩
  exact word_mountRam hSetup.mountTable_aligned
    (root_aligned m) hg hSlot hj hPage hWindow

theorem Setup.mountedAt
    {x : Nat}
    (hSetup : Setup m d t mt tk k)
    (hSlot : IsSlot p w)
    (hx : x < 2 ^ 32) :
    MountedAt (m.withRam (mountRam m.ram mt m.root p w x))
      mt p w (pageAddr x) := by
  have hApart := hSetup.apart
  have hmt := hSetup.mountTable_aligned
  refine ⟨hSlot, ?_, ?_⟩
  · have hPage :
        (mountRam m.ram mt m.root p w x).word mt p =
          mapEntry x (PAGE_PRESENT ||| PAGE_WRITE) := by
      unfold IsSlot at hSlot
      unfold mountRam
      rw [ByteMemory.word_setWord_of_ne _ _ (root_aligned m)
        hmt (by omega) (by omega) (.inl hApart)]
      exact ByteMemory.word_setWord_self _ _ _
        (mapEntry_lt hx (by decide))
    rw [withRam_ram, ByteMemory.entry_of_word hPage]
    exact entryFrame_mapEntry (by decide)
  · have hWindow :
        (mountRam m.ram mt m.root p w x).word m.root w =
          x ||| PAGE_PRESENT ||| PAGE_WRITE :=
      ByteMemory.word_setWord_self _ _ _ (record_lt hx)
    rw [withRam_root, withRam_ram,
      ByteMemory.entry_of_word hWindow]
    exact entryFrame_record x

/- `map` of a mount page. -/
theorem Setup.run_map
    {va : Nat}
    (x flags : Nat)
    (hSetup : Setup m d t mt tk k)
    (hva : IsMountPage (va / 4096)) :
    (map va x flags).run m =
      .ok ()
        (m.withRam
          (m.ram.setWord mt (va / 4096 % 1024)
            (mapEntry x flags))) := by
  have hRange := isMountPage_iff.mp hva
  have hDir : va / 2 ^ 22 = 1021 := by omega
  have hmt := hSetup.mountTable_aligned
  have hTable :
      m.ram.entry m.root (va / 2 ^ 22) = some mt := by
    rw [hDir]
    exact hSetup.mountTable
  have hSetup' :
      Setup
        (m.withRam
          (m.ram.setWord mt (va / 4096 % 1024)
            (mapEntry x flags))) d t mt tk k := by
    apply hSetup.withRam
    intro g j hg hj hCritical
    have hSlot : IsSlot (va / 4096 % 1024) 1012 := by
      unfold IsSlot
      omega
    exact ByteMemory.word_setWord_of_ne _ _ hmt hg (by omega)
      hj (hSetup.not_slot hSlot hCritical).1
  rw [hSetup.self.run_map_table (by omega) hTable]
  refine run_checkKernel (k := k) (u := mt) (w := mt)
    hSetup'.self.tables hSetup'.kernel
    hSetup'.kernelTables (by omega) ?_ ?_
  · rw [hDir]
    exact hSetup'.mountTable
  · rw [hDir]
    exact hSetup'.kernelMountTable

/-
  `mount_directory` stores the directory's frame at the first
  empty mount page and at the first empty window.
-/
theorem Setup.run_mountDirectory
    {dir : DirPtr}
    {record : PageDirectory}
    {ps ws : List Nat}
    (hSetup : Setup m d t mt tk k)
    (hPages : emptyPages m mt = p :: ps)
    (hWindows : emptyWindows m = w :: ws)
    (hRecord : m.dirAt dir = some record) :
    (mountDirectory dir).run m =
      .ok (mountAt p w)
        (m.withRam
          (mountRam m.ram mt m.root p w
            record.physical)) := by
  rcases isSlot_of_mem hPages hWindows with
    ⟨hSlot, hPageZero, hWindowZero⟩
  rcases hSlot.page with ⟨hPage, hBase, _, hDir, hIndex⟩
  have hFind := hSetup.run_findMountPoint hPages hWindows
  have hMapping := hSetup.run_getMapping hPage
  have hNone : entryMapping 0 (pageBase p) = none := rfl
  rw [hIndex, hPageZero, hNone] at hMapping
  have hSlot' := hSlot
  unfold IsSlot at hSlot'
  have hW : pgdirIdxFromAddr (2 ^ 22 * w) = w := by
    unfold pgdirIdxFromAddr
    omega
  have hLoad :=
    hSetup.self.maps.shows.loadAt (i := w) (by omega)
  have hMap :=
    Setup.run_map record.physical
      (PAGE_PRESENT ||| PAGE_WRITE) hSetup hPage
  rw [hIndex] at hMap
  have hSetup' :
      Setup
        (m.withRam
          (m.ram.setWord mt p
            (mapEntry record.physical
              (PAGE_PRESENT ||| PAGE_WRITE)))) d t mt tk k := by
    apply hSetup.withRam
    intro g j hg hj hCritical
    exact ByteMemory.word_setWord_of_ne _ _
      hSetup.mountTable_aligned hg (by omega) hj
      (hSetup.not_slot hSlot hCritical).1
  have hStore :=
    hSetup'.self.maps.shows.storeAt (i := w)
      (v := record.physical ||| PAGE_PRESENT ||| PAGE_WRITE)
      (by omega)
  unfold mountDirectory
  rw [EStateM.bind_of_ok hFind]
  unfold mountAt
  dsimp only
  rw [if_neg]
  · rw [EStateM.bind_of_ok hMapping, Option.isSome_none,
      if_neg Bool.false_ne_true,
      EStateM.bind_of_ok hSetup.self.run_readCurrent, hW,
      EStateM.bind_of_ok hLoad,
      if_neg (not_not.mpr hWindowZero),
      EStateM.bind_of_ok (run_readDirectory hRecord),
      EStateM.bind_of_ok hMap]
    exact EStateM.bind_of_ok hStore
  · unfold PAGE_SIZE pgtabIdxFromAddr
    omega

------------------------------------------------------------
-- Unmounting
------------------------------------------------------------

/- The memory with the mount point cleared. -/
def umountRam
    (ram : ByteMemory)
    (mt root p w : Nat) : ByteMemory :=
  (ram.setWord mt p 0).setWord root w 0

theorem word_umountRam
    {ram : ByteMemory}
    {root : Nat}
    (hmt : mt % 4096 = 0)
    (hRoot : root % 4096 = 0)
    (hg : g % 4096 = 0)
    (hSlot : IsSlot p w)
    (hj : j < 1024)
    (hPage : g ≠ mt ∨ j ≠ p)
    (hWindow : g ≠ root ∨ j ≠ w) :
    (umountRam ram mt root p w).word g j = ram.word g j := by
  unfold IsSlot at hSlot
  unfold umountRam
  rw [ByteMemory.word_setWord_of_ne _ _ hRoot hg (by omega)
      hj hWindow,
    ByteMemory.word_setWord_of_ne _ _ hmt hg (by omega) hj
      hPage]

theorem Setup.umount
    (hSetup : Setup m d t mt tk k)
    (hSlot : IsSlot p w) :
    Setup (m.withRam (umountRam m.ram mt m.root p w))
      d t mt tk k := by
  apply hSetup.withRam
  intro g j hg hj hCritical
  rcases hSetup.not_slot hSlot hCritical with ⟨hPage, hWindow⟩
  exact word_umountRam hSetup.mountTable_aligned
    (root_aligned m) hg hSlot hj hPage hWindow

theorem Setup.run_umountDirectory
    (hSetup : Setup m d t mt tk k)
    (hSlot : IsSlot p w) :
    (umountDirectory (mountAt p w)).run m =
      .ok ()
        (m.withRam (umountRam m.ram mt m.root p w)) := by
  rcases hSlot.page with ⟨_, _, hLt, hDir, hIndex⟩
  have hTable :
      m.ram.entry m.root (pageBase p / 2 ^ 22) = some mt := by
    rw [hDir]
    exact hSetup.mountTable
  have hUnmap := hSetup.self.run_unmap hLt hTable
  rw [hIndex] at hUnmap
  have hSetup' :
      Setup (m.withRam (m.ram.setWord mt p 0)) d t mt tk k := by
    apply hSetup.withRam
    intro g j hg hj hCritical
    have hSlot' := hSlot
    unfold IsSlot at hSlot'
    exact ByteMemory.word_setWord_of_ne _ _
      hSetup.mountTable_aligned hg (by omega) hj
      (hSetup.not_slot hSlot hCritical).1
  unfold IsSlot at hSlot
  have hW : pgdirIdxFromAddr (2 ^ 22 * w) = w := by
    unfold pgdirIdxFromAddr
    omega
  have hStore :=
    hSetup'.self.maps.shows.storeAt (i := w) (v := 0)
      (by omega)
  unfold umountDirectory mountAt
  dsimp only
  rw [EStateM.bind_of_ok hUnmap,
    EStateM.bind_of_ok hSetup'.self.run_readCurrent, hW]
  exact hStore

------------------------------------------------------------
-- Empty Entries
------------------------------------------------------------

/- The empty entries depend on the words. -/
theorem emptyEntries_congr
    {ram ram' : ByteMemory}
    (hWord :
      ∀ j, i ≤ j → j < i + n →
        ram'.word f j = ram.word f j) :
    emptyEntries ram' f i n = emptyEntries ram f i n := by
  unfold emptyEntries
  apply List.filter_congr
  intro j hMem
  rw [List.mem_range'_1] at hMem
  rw [hWord j hMem.1 hMem.2]

/- The first empty entry has been filled. -/
theorem emptyEntries_fill
    {ram ram' : ByteMemory}
    {rest : List Nat}
    (hEmpty : emptyEntries ram f i n = p :: rest)
    (hFull : ram'.word f p ≠ 0)
    (hWord :
      ∀ j, i ≤ j → j < i + n → j ≠ p →
        ram'.word f j = ram.word f j) :
    emptyEntries ram' f i n = rest := by
  have hNodup : (p :: rest).Nodup := by
    rw [← hEmpty]
    exact (List.nodup_range' 1).filter _
  have hSplit :
      emptyEntries ram' f i n =
        (emptyEntries ram f i n).filter (fun j => j ≠ p) := by
    unfold emptyEntries
    rw [List.filter_filter]
    apply List.filter_congr
    intro j hMem
    rw [List.mem_range'_1] at hMem
    by_cases hSame : j = p
    · subst hSame
      simp [hFull]
    · rw [hWord j hMem.1 hMem.2 hSame]
      simp [hSame]
  rw [hSplit, hEmpty, List.filter_cons_of_neg (by simp)]
  apply List.filter_eq_self.mpr
  intro j hMem
  rw [List.nodup_cons] at hNodup
  rw [decide_eq_true_eq]
  rintro rfl
  exact hNodup.1 hMem

end Vmm

end SosKernel
