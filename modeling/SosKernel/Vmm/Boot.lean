import SosKernel.Pmm.Paged
import SosKernel.Vmm.HeapTables
import SosKernel.Vmm.Refinement

/-
  The address space that `init_vmm` leaves, with every entry
  of the kernel's directory.

  Main declarations:
    * `firstRam`: memory before the kernel's range is filled
    * `Booted`: the directory and its tables
    * `BootSpace`, `init_vmm_space`
    * `kernel_edits_refine`
-/

------------------------------------------------------------
-- Before the Kernel's Range
------------------------------------------------------------

namespace SosKernel

namespace Vmm

variable {m m' : Machine}
variable {ram : ByteMemory}
variable {dir tab t u f g i j n : Nat}
variable {tabs rest : List Nat}

/- The memory after `n` stores of the identity mapping. -/
def identityRam (ram : ByteMemory) (tab : Nat) :
    Nat → ByteMemory
| 0 => ram
| n + 1 =>
    (identityRam ram tab n).setWord tab n
      (n * 0x1000 ||| PAGE_PRESENT ||| PAGE_WRITE)

theorem word_identityRam_of_ne
    (hTab : tab % 4096 = 0)
    (hn : n ≤ 1024)
    (hg : g % 4096 = 0)
    (hNe : g ≠ tab)
    (hj : j < 1024) :
    (identityRam ram tab n).word g j = ram.word g j := by
  induction n with
  | zero => rfl
  | succ n ih =>
      rw [identityRam, ByteMemory.word_setWord_of_ne _ _ hTab hg
        (by omega) hj (.inl hNe)]
      exact ih (by omega)

theorem word_identityRam
    (hTab : tab % 4096 = 0)
    (hn : n ≤ 1024)
    (hj : j < n) :
    (identityRam ram tab n).word tab j = 4096 * j + 3 := by
  induction n with
  | zero => omega
  | succ n ih =>
      rw [identityRam, or_present_write (by omega)]
      by_cases hLast : j = n
      · subst hLast
        rw [ByteMemory.word_setWord_self _ _ _ (by omega)]
        omega
      · rw [ByteMemory.word_setWord_of_ne _ _ hTab hTab
          (by omega) (by omega) (.inr hLast)]
        exact ih (by omega) (by omega)

/- The memory before the kernel's range is filled. -/
def firstRam
    (ram : ByteMemory)
    (dir tab t : Nat) : ByteMemory :=
  ((((identityRam
      (((ram.clearFrame dir).clearFrame tab).setWord dir 0
        (tab + 3))
      tab 1024).clearFrame t).setWord dir 1022
        (t + 3)).setWord t 1023 (dir + 3)).setWord dir 1023
          (dir + 3)

/- What is in the first three frames then. -/
structure FirstEntries
    (ram : ByteMemory)
    (dir tab t : Nat) : Prop where
  low : ram.word dir 0 = tab + 3
  self : ram.word dir 1022 = t + 3
  window : ram.word dir 1023 = dir + 3
  empty : ∀ i, 0 < i → i < 1022 → ram.word dir i = 0
  identity : ∀ i, i < 1024 → ram.word tab i = 4096 * i + 3
  page : ram.word t 1023 = dir + 3
  pageEmpty : ∀ j, j < 1023 → ram.word t j = 0

theorem firstEntries_firstRam
    (ram : ByteMemory)
    (hGood : GoodFrames (dir :: tab :: t :: rest)) :
    FirstEntries (firstRam ram dir tab t) dir tab t := by
  have hDir := hGood.aligned dir (by simp)
  have hTab := hGood.aligned tab (by simp)
  have ht := hGood.aligned t (by simp)
  have hDirFits := hGood.fits dir (by simp)
  have hTabFits := hGood.fits tab (by simp)
  have hTFits := hGood.fits t (by simp)
  have hNodup := hGood.nodup
  have hDirTab : dir ≠ tab := by
    rintro rfl
    simp at hNodup
  have hDirT : dir ≠ t := by
    rintro rfl
    simp at hNodup
  have hTabT : tab ≠ t := by
    rintro rfl
    simp at hNodup
  -- what the four last stores leave
  have hBefore {g j : Nat}
      (hg : g % 4096 = 0)
      (hgt : g ≠ t)
      (hj : j < 1024)
      (hOther : g ≠ dir ∨ j < 1022) :
      (firstRam ram dir tab t).word g j =
        (identityRam
          (((ram.clearFrame dir).clearFrame tab).setWord dir 0
            (tab + 3)) tab 1024).word g j := by
    unfold firstRam
    rw [ByteMemory.word_setWord_of_ne _ _ hDir hg (by omega) hj
        (by omega),
      ByteMemory.word_setWord_of_ne _ _ ht hg (by omega) hj
        (.inl hgt),
      ByteMemory.word_setWord_of_ne _ _ hDir hg (by omega) hj
        (by omega),
      (ByteMemory.sameOn_clearFrame _ ht hg hgt).word hj]
  have hDirWord {j : Nat} (hj : j < 1022) :
      (firstRam ram dir tab t).word dir j =
        (((ram.clearFrame dir).clearFrame tab).setWord dir 0
          (tab + 3)).word dir j := by
    rw [hBefore hDir hDirT (by omega) (.inr hj),
      word_identityRam_of_ne hTab (le_refl _) hDir hDirTab
        (by omega)]
  refine
    { low := ?_
      self := ?_
      window := ?_
      empty := ?_
      identity := ?_
      page := ?_
      pageEmpty := ?_ }
  · rw [hDirWord (by omega)]
    exact ByteMemory.word_setWord_self _ _ _ (by omega)
  · unfold firstRam
    rw [ByteMemory.word_setWord_of_ne _ _ hDir hDir (by omega)
        (by omega) (.inr (by omega)),
      ByteMemory.word_setWord_of_ne _ _ ht hDir (by omega)
        (by omega) (.inl hDirT)]
    exact ByteMemory.word_setWord_self _ _ _ (by omega)
  · exact ByteMemory.word_setWord_self _ _ _ (by omega)
  · intro i hPos hi
    rw [hDirWord hi, ByteMemory.word_setWord_of_ne _ _ hDir hDir
        (by omega) (by omega) (.inr (by omega)),
      (ByteMemory.sameOn_clearFrame _ hTab hDir hDirTab).word
        (by omega)]
    exact ByteMemory.word_clearFrame_self _ dir (by omega)
  · intro i hi
    rw [hBefore hTab hTabT hi (.inl hDirTab.symm)]
    exact word_identityRam hTab (le_refl _) hi
  · unfold firstRam
    rw [ByteMemory.word_setWord_of_ne _ _ hDir ht (by omega)
      (by omega) (.inl hDirT.symm)]
    exact ByteMemory.word_setWord_self _ _ _ (by omega)
  · intro j hj
    unfold firstRam
    rw [ByteMemory.word_setWord_of_ne _ _ hDir ht (by omega)
        (by omega) (.inl hDirT.symm),
      ByteMemory.word_setWord_of_ne _ _ ht ht (by omega)
        (by omega) (.inr (by omega)),
      ByteMemory.word_setWord_of_ne _ _ hDir ht (by omega)
        (by omega) (.inl hDirT.symm)]
    exact ByteMemory.word_clearFrame_self _ t (by omega)

/- The machine before the kernel's range is filled. -/
def Machine.first
    (m : Machine)
    (dir tab t : Nat)
    (rest : List Nat) : Machine :=
  { m.holding rest (firstRam m.ram dir tab t) with
    dirAt :=
      Function.update m.dirAt .kernelDirectory
        (some (kernelRecord dir)) }

theorem run_prepareKernelDirectory
    (hPaging : m.paging = false)
    (hGood : GoodFrames m.frames)
    (hFrames : m.frames = dir :: tab :: t :: rest) :
    prepareKernelDirectory.run m =
      ((do
        fillKernelTables dir
        fillKernelTables dir : VmM Unit)).run
          (m.first dir tab t rest) := by
  have hDirIn : dir ∈ m.frames := by
    rw [hFrames]
    simp
  have hTabIn : tab ∈ m.frames := by
    rw [hFrames]
    simp
  have hTIn : t ∈ m.frames := by
    rw [hFrames]
    simp
  have hDir := hGood.aligned dir hDirIn
  have hTab := hGood.aligned tab hTabIn
  have ht := hGood.aligned t hTIn
  have hLoop :
      (EStateM.upTo
          (fun i =>
            storeAt tab i
              (i * 0x1000 ||| PAGE_PRESENT ||| PAGE_WRITE))
          (pgNumFromAddr LOWMEM_ID_MAP_END)).run
        (m.holding (t :: rest)
          (((m.ram.clearFrame dir).clearFrame tab).setWord dir 0
            (tab + 3))) =
      .ok ()
        (m.holding (t :: rest)
          (identityRam
            (((m.ram.clearFrame dir).clearFrame tab).setWord
              dir 0 (tab + 3)) tab 1024)) :=
    EStateM.run_upTo
      (s := fun n =>
        m.holding (t :: rest)
          (identityRam
            (((m.ram.clearFrame dir).clearFrame tab).setWord
              dir 0 (tab + 3)) tab n))
      fun i hi => hGood.run_storeAt hTabIn hPaging hi
  have hStart :
      m = m.holding (dir :: tab :: t :: rest) m.ram := by
    rw [← hFrames]
    rfl
  have hAlloc (f : Nat) (rest : List Nat) (ram : ByteMemory) :
      pmmAllocPage.run (m.holding (f :: rest) ram) =
        .ok f (m.holding rest ram) := rfl
  -- the identity mapping is not to be unfolded
  generalize hIdentity :
    identityRam
      (((m.ram.clearFrame dir).clearFrame tab).setWord dir 0
        (tab + 3)) tab 1024 = mapped at hLoop
  unfold Machine.first firstRam
  rw [hIdentity, hStart]
  unfold prepareKernelDirectory
  rw [EStateM.bind_of_ok (hAlloc dir _ _),
    EStateM.bind_of_ok (hGood.run_memset hDirIn hPaging),
    EStateM.bind_of_ok (hAlloc tab _ _),
    EStateM.bind_of_ok (hGood.run_memset hTabIn hPaging),
    or_present_write hTab,
    EStateM.bind_of_ok
      (hGood.run_storeAt hDirIn hPaging (by decide)),
    EStateM.bind_of_ok hLoop,
    EStateM.bind_of_ok (hAlloc t _ _),
    EStateM.bind_of_ok (hGood.run_memset hTIn hPaging),
    or_present_write ht, or_present_write hDir,
    EStateM.bind_of_ok
      (hGood.run_storeAt hDirIn hPaging (by decide)),
    EStateM.bind_of_ok
      (hGood.run_storeAt hTIn hPaging (by decide)),
    EStateM.bind_of_ok
      (hGood.run_storeAt hDirIn hPaging (by decide))]
  rfl

------------------------------------------------------------
-- The Kernel's Range
------------------------------------------------------------

/-
  Filling the first `k` entries has changed nothing but these
  and the new tables.
-/
def KeptFrom
    (dir : Nat)
    (m m' : Machine)
    (tabs : List Nat)
    (k : Nat) : Prop :=
  ∀ g i, g % 4096 = 0 → i < 1024 → g ∉ tabs →
    (g ≠ dir ∨ i < 960 ∨ 960 + k ≤ i) →
      m'.ram.word g i = m.ram.word g i

theorem fillKernelTables_exact
    (hRun : (fillKernelTables dir).run m = .ok () m')
    (hPaging : m.paging = false)
    (hGood : GoodFrames (dir :: m.frames))
    (hEmpty :
      ∀ i, 960 ≤ i → i < 1012 → m.ram.word dir i = 0) :
    ∃ tabs, RangeFilled dir m m' 52 tabs ∧
      KeptFrom dir m m' tabs 52 ∧ m'.dirAt = m.dirAt := by
  have hDir := hGood.aligned dir List.mem_cons_self
  refine EStateM.upTo_invariant (n := 52)
    (I := fun k m' => ∃ tabs, RangeFilled dir m m' k tabs ∧
      KeptFrom dir m m' tabs k ∧ m'.dirAt = m.dirAt) hRun
    ⟨[], ⟨rfl, rfl, hPaging,
      ⟨fun i hi => absurd hi (Nat.not_lt_zero i),
        fun w hw => absurd hw List.not_mem_nil⟩, hEmpty⟩,
      fun _ _ _ _ _ _ => rfl, rfl⟩ ?_
  rintro k m₁ m₂ hk ⟨tabs, hFilling, hKept, hDirs⟩ hBody
  have hAll := hGood
  rw [hFilling.frames] at hAll
  have hGood₁ : GoodFrames (dir :: m₁.frames) :=
    hAll.sublist
      ((List.sublist_append_right tabs _).cons_cons dir)
  rcases fillEntry_new hFilling.paging hGood₁ (by omega)
    (hFilling.empty _ (le_refl _) (by omega)) hBody with
    ⟨tab, rest, hFrames, hEnd⟩
  refine ⟨_, hFilling.next hGood hk hFrames hEnd, ?_, ?_⟩
  · have hTab := hGood₁.aligned tab (by rw [hFrames]; simp)
    subst hEnd
    intro g i hg hi hNew hOther
    rw [List.mem_append, List.mem_singleton, not_or] at hNew
    refine (ByteMemory.word_setWord_of_ne _ _ hDir hg (by omega)
      hi (by omega)).trans ?_
    rw [(ByteMemory.sameOn_clearFrame _ hTab hg hNew.2).word hi]
    exact hKept g i hg hi hNew.1 (by omega)
  · rw [hEnd]
    exact hDirs

/- The kernel's directory, with the kernel's range filled. -/
structure RangeReady
    (m : Machine)
    (dir tab t : Nat)
    (tabs : List Nat) : Prop where
  paging : m.paging = false
  record : m.dirAt .kernelDirectory = some (kernelRecord dir)
  count : tabs.length = 52
  low : m.ram.word dir 0 = tab + 3
  self : m.ram.word dir 1022 = t + 3
  window : m.ram.word dir 1023 = dir + 3
  empty :
    ∀ i, 0 < i → i < 1022 → (i < 960 ∨ 1012 ≤ i) →
      m.ram.word dir i = 0
  identity : ∀ i, i < 1024 → m.ram.word tab i = 4096 * i + 3
  page : m.ram.word t 1023 = dir + 3
  pageEmpty : ∀ j, j < 1023 → m.ram.word t j = 0
  heap : HeapTables m.ram dir tabs

theorem prepareKernelDirectory_ready
    (hPaging : m.paging = false)
    (hGood : GoodFrames m.frames)
    (hRun : prepareKernelDirectory.run m = .ok () m') :
    ∃ dir tab t tabs,
      m.frames = dir :: tab :: t :: tabs ++ m'.frames ∧
        RangeReady m' dir tab t tabs ∧
        ∀ q, m'.dirAt (.heap q) = m.dirAt (.heap q) := by
  rcases prepareKernelDirectory_cases hPaging hGood hRun with
    ⟨dir, tab, t, m₁, _, hUnfilled, _⟩
  have hFrames := hUnfilled.frames
  have hAll := hGood
  rw [hFrames] at hAll
  have hFirst := firstEntries_firstRam m.ram hAll
  rw [run_prepareKernelDirectory hPaging hGood hFrames,
    EStateM.bind_eq_ok_iff] at hRun
  rcases hRun with ⟨_, m₂, hFill, hFillAgain⟩
  have hStart : GoodFrames
      (dir :: (m.first dir tab t m₁.frames).frames) := by
    refine hAll.sublist (List.Sublist.cons_cons dir ?_)
    exact (List.sublist_cons_self t _).trans
      (List.sublist_cons_self tab (t :: m₁.frames))
  rcases fillKernelTables_exact hFill hPaging hStart
    (fun i hLo hHi => hFirst.empty i (by omega) (by omega)) with
    ⟨tabs, hFilled, hKept, hDirs⟩
  have hCount := hFilled.length_eq
  have hTaken : m₁.frames = tabs ++ m₂.frames := hFilled.frames
  -- the second loop finds the range filled
  have hSame : m' = m₂ := by
    refine fillKernelTables_filled hFillAgain hFilled.paging ?_
      ?_
    · have hRest := hStart
      rw [hFilled.frames] at hRest
      exact hRest.sublist
        ((List.sublist_append_right tabs _).cons_cons dir)
    · intro i hLo hHi
      have hEntry :=
        hFilled.tables.entries (i - 960) (by omega)
      have hIndex : 960 + (i - 960) = i := by omega
      rw [hIndex] at hEntry
      omega
  subst hSame
  rw [hTaken] at hAll hFrames
  have hNodup := hAll.nodup
  have hDir := hAll.aligned dir (by simp)
  have hTab := hAll.aligned tab (by simp)
  have ht := hAll.aligned t (by simp)
  have hDirNew : dir ∉ tabs := by
    intro hMem
    simp [hMem] at hNodup
  have hTabNew : tab ∉ tabs := by
    intro hMem
    simp [hMem] at hNodup
  have hTNew : t ∉ tabs := by
    intro hMem
    simp [hMem] at hNodup
  have hTabDir : tab ≠ dir := by
    rintro rfl
    simp at hNodup
  have hTDir : t ≠ dir := by
    rintro rfl
    simp at hNodup
  have hDirWord {i : Nat}
      (hi : i < 1024)
      (hOff : i < 960 ∨ 1012 ≤ i) :
      m'.ram.word dir i =
        (firstRam m.ram dir tab t).word dir i :=
    hKept dir i hDir hi hDirNew (.inr hOff)
  refine ⟨dir, tab, t, tabs, ?_,
    { paging := hFilled.paging
      record := ?_
      count := hCount
      low := (hDirWord (by omega) (by omega)).trans hFirst.low
      self := (hDirWord (by omega) (by omega)).trans hFirst.self
      window :=
        (hDirWord (by omega) (by omega)).trans hFirst.window
      empty := fun i hPos hi hOff =>
        (hDirWord (by omega) hOff).trans
          (hFirst.empty i hPos hi)
      identity := fun i hi =>
        (hKept tab i hTab hi hTabNew (.inl hTabDir)).trans
          (hFirst.identity i hi)
      page :=
        (hKept t 1023 ht (by omega) hTNew (.inl hTDir)).trans
          hFirst.page
      pageEmpty := fun j hj =>
        (hKept t j ht (by omega) hTNew (.inl hTDir)).trans
          (hFirst.pageEmpty j hj)
      heap := hFilled.tables }, ?_⟩
  · rw [hFrames]
    rfl
  · rw [hDirs]
    exact Function.update_self DirPtr.kernelDirectory _ m.dirAt
  · intro q
    have hNe : DirPtr.heap q ≠ .kernelDirectory := nofun
    rw [hDirs]
    exact Function.update_of_ne hNe (some (kernelRecord dir))
      m.dirAt

------------------------------------------------------------
-- After `init_vmm`
------------------------------------------------------------

/- The frame stack gets an empty page table. -/
theorem run_stackTable
    (hSelf : SelfMapped m (kernelRecord dir) t)
    (hRoot : m.root = dir)
    (hCurrent : m.currentDirectory = .kernelDirectory)
    (hFrames : m.frames = u :: rest)
    (hu : u % 4096 = 0)
    (hFits : u + 4096 ≤ 2 ^ 32)
    (hNe : u ≠ dir) :
    ((do
      let kernel ← readDirectory .kernelDirectory
      let page ← pmmAllocPage
      storeAt kernel.directory
        (pgdirIdxFromAddr PMM_STACK_START)
        (page ||| PAGE_PRESENT ||| PAGE_WRITE)
      memset
        (index kernel.pages
          (pgFirstDirFromAddr PMM_STACK_START)) 0
        PAGE_SIZE : VmM Unit)).run m =
      .ok ()
        ((m.withFrames rest).withRam
          (freshTable m.ram dir 1021 u)) := by
  subst hRoot
  have hRecord := hSelf.current
  rw [hCurrent] at hRecord
  have hDir := root_aligned m
  have hStore :
      (storeAt (kernelRecord m.root).directory
          (pgdirIdxFromAddr PMM_STACK_START)
          (u ||| PAGE_PRESENT ||| PAGE_WRITE)).run
        (m.withFrames rest) =
      .ok ()
        ((m.withFrames rest).withRam
          (m.ram.setWord m.root 1021 (u + 3))) := by
    rw [or_present_write hu]
    exact (hSelf.withFrames rest).maps.shows.storeAt (by decide)
  have hTables :
      ((m.withFrames rest).withRam
        (m.ram.setWord m.root 1021 (u + 3))).ShowsTables
          (kernelRecord m.root).pages m.root := by
    refine hSelf.tables.congr rfl rfl ?_
    rw [kernelRecord_pages]
    exact ByteMemory.word_setWord_of_ne _ _ hDir hDir
      (by decide) (by decide) (.inr (by decide))
  have hEntry :
      (m.ram.setWord m.root 1021 (u + 3)).entry m.root 1021 =
        some u := by
    rw [ByteMemory.entry_of_word
      (ByteMemory.word_setWord_self _ _ _ (by omega))]
    exact ByteMemory.entryFrame_add hu (by decide) (by decide)
  have hClear :=
    hTables.memset (show 1021 < 1024 by decide) hEntry
      hNe.symm hNe.symm
  rw [EStateM.bind_of_ok (run_readDirectory hRecord),
    EStateM.bind_of_ok (run_pmmAllocPage hFrames),
    EStateM.bind_of_ok hStore]
  exact hClear

/-
  The kernel's directory `dir`, with the page tables of low
  memory (`tab`), of the kernel's range (`tabs`), of the frame
  stack (`u`) and of the directory's own page (`t`).
-/
structure Booted
    (m : Machine)
    (dir tab t u : Nat)
    (tabs : List Nat) : Prop where
  current : m.currentDirectory = .kernelDirectory
  record : m.dirAt .kernelDirectory = some (kernelRecord dir)
  root : m.root = dir
  self : SelfMapped m (kernelRecord dir) t
  good : GoodFrames (dir :: tab :: t :: u :: tabs)
  count : tabs.length = 52
  low : m.ram.word dir 0 = tab + 3
  stack : m.ram.word dir 1021 = u + 3
  page : m.ram.word dir 1022 = t + 3
  window : m.ram.word dir 1023 = dir + 3
  heap : HeapTables m.ram dir tabs
  empty :
    ∀ i, 0 < i → i < 1021 → (i < 960 ∨ 1012 ≤ i) →
      m.ram.word dir i = 0
  identity : ∀ i, i < 1024 → m.ram.word tab i = 4096 * i + 3
  stackEmpty : ∀ j, j < 1024 → m.ram.word u j = 0
  pageSelf : m.ram.word t 1023 = dir + 3
  pageEmpty : ∀ j, j < 1023 → m.ram.word t j = 0

theorem initVmm_booted
    (hPaging : m.paging = false)
    (hGood : GoodFrames m.frames)
    (hRun : initVmm.run m = .ok () m') :
    ∃ dir tab t u tabs,
      m.frames = dir :: tab :: t :: tabs ++ u :: m'.frames ∧
        Booted m' dir tab t u tabs ∧
        ∀ q, m'.dirAt (.heap q) = m.dirAt (.heap q) := by
  unfold initVmm at hRun
  rw [EStateM.bind_eq_ok_iff] at hRun
  rcases hRun with ⟨_, m₁, hPrepare, hRun⟩
  rcases prepareKernelDirectory_ok hPaging hGood hPrepare with
    ⟨dir, t, hPrepared⟩
  rcases prepareKernelDirectory_ready hPaging hGood hPrepare
    with ⟨dir', tab, t', tabs, hFrames, hReady, hHeap⟩
  rcases hPrepared.fresh hGood with
    ⟨hRest, hDirNew, hTNew, hNe, hDir, ht⟩
  -- both views are of one directory
  have hDirEq : dir' = dir := by
    rcases hPrepared.frames with ⟨_, _, hOther⟩
    rw [hFrames] at hOther
    simp only [List.cons_append, List.cons.injEq] at hOther
    exact hOther.1
  have hTEq : t' = t := by
    have hFirst := hReady.self
    rw [hDirEq, hPrepared.dirEntry] at hFirst
    omega
  subst hDirEq hTEq
  rcases hPrepared.selfMapped hDir ht with ⟨hSelf, hRoot⟩
  rw [EStateM.bind_of_ok hPrepared.run_switch,
    EStateM.bind_of_ok (EStateM.run_modify _ _),
    EStateM.bind_of_ok (EStateM.run_get _),
    if_neg (by simp)] at hRun
  rcases stackTable_ok hSelf hRoot rfl hRest hDirNew hTNew hNe
    hRun with ⟨u, hTaken, hKernel, hWords⟩
  have hTaken' : m₁.frames = u :: m'.frames := hTaken
  rw [hTaken'] at hFrames
  have hAll : GoodFrames (dir' :: tab :: t' :: u :: tabs) := by
    have hSub := hGood
    rw [hFrames] at hSub
    have hPerm :
        (dir' :: tab :: t' :: tabs ++ u :: m'.frames).Perm
          (dir' :: tab :: t' :: u :: (tabs ++ m'.frames)) :=
      ((List.perm_middle.cons t').cons tab).cons dir'
    have hMoved : GoodFrames
        (dir' :: tab :: t' :: u :: (tabs ++ m'.frames)) :=
      ⟨hPerm.nodup_iff.mp hSub.nodup,
        fun f hf => hSub.aligned f (hPerm.mem_iff.mpr hf),
        fun f hf => hSub.fits f (hPerm.mem_iff.mpr hf)⟩
    refine hMoved.sublist ?_
    exact ((((List.sublist_append_left tabs m'.frames).cons_cons
      u).cons_cons t').cons_cons tab).cons_cons dir'
  have hNodup := hAll.nodup
  have hTabNe : u ≠ tab := by
    rintro rfl
    simp at hNodup
  have hTNe : u ≠ t' := hKernel.apart
  have hDirNe : u ≠ dir' := hKernel.u_ne
  have hDirWord {i : Nat} (hi : i < 1024) (hOff : i ≠ 1021) :
      m'.ram.word dir' i = m₁.ram.word dir' i :=
    hWords dir' i hDir hDirNe.symm hi (.inr hOff)
  have hu := hAll.aligned u (by simp)
  have hFits := hAll.fits u (by simp)
  have hExact :=
    run_stackTable hSelf hRoot rfl hTaken hu hFits hDirNe
  have hEnd := hExact.symm.trans hRun
  simp only [EStateM.Result.ok.injEq, true_and] at hEnd
  have hRam : m'.ram = freshTable m₁.ram dir' 1021 u :=
    (congrArg Machine.ram hEnd).symm
  have hRecord :
      m'.dirAt .kernelDirectory = some (kernelRecord dir') := by
    rw [← hEnd]
    exact hReady.record
  have hStackWord : m'.ram.word dir' 1021 = u + 3 := by
    rw [hRam]
    unfold freshTable
    rw [(ByteMemory.sameOn_clearFrame _ hu hDir
      hDirNe.symm).word (by omega)]
    exact ByteMemory.word_setWord_self _ _ _ (by omega)
  refine ⟨dir', tab, t', u, tabs, hFrames,
    { current := hKernel.current
      record := hRecord
      root := hKernel.root
      self := hKernel.self
      good := hAll
      count := hReady.count
      low := (hDirWord (by omega) (by omega)).trans hReady.low
      stack := hStackWord
      page := (hDirWord (by omega) (by omega)).trans hReady.self
      window :=
        (hDirWord (by omega) (by omega)).trans hReady.window
      heap := ?_
      empty := fun i hPos hi hOff =>
        (hDirWord (by omega) (by omega)).trans
          (hReady.empty i hPos (by omega) hOff)
      identity := ?_
      stackEmpty := fun j hj => by
        rw [hRam]
        exact ByteMemory.word_clearFrame_self _ u hj
      pageSelf := ?_
      pageEmpty := ?_ }, ?_⟩
  · refine hReady.heap.congr ?_ ?_
    · intro i hi
      have hCount := hReady.count
      exact hDirWord (by omega) (by omega)
    · intro w hw j hj
      have hNeU : w ≠ u := by
        rintro rfl
        simp [hw] at hNodup
      have hNeDir : w ≠ dir' := by
        rintro rfl
        simp [hw] at hNodup
      exact hWords w j (hAll.aligned w (by simp [hw])) hNeU hj
        (.inl hNeDir)
  · intro i hi
    have hNeDir : tab ≠ dir' := by
      rintro rfl
      simp at hNodup
    exact (hWords tab i (hAll.aligned tab (by simp)) hTabNe.symm
      hi (.inl hNeDir)).trans (hReady.identity i hi)
  · exact (hWords t' 1023 ht hTNe.symm (by omega)
      (.inl hNe)).trans hReady.page
  · intro j hj
    exact (hWords t' j ht hTNe.symm (by omega)
      (.inl hNe)).trans (hReady.pageEmpty j hj)
  · intro q
    rw [← hEnd]
    exact hHeap q

------------------------------------------------------------
-- The Entries
------------------------------------------------------------

namespace Booted

theorem dir_aligned
    (hBooted : Booted m dir tab t u tabs) :
    dir % 4096 = 0 :=
  hBooted.good.aligned dir (by simp)

theorem entry_of
    (hBooted : Booted m dir tab t u tabs)
    (hg : g ∈ dir :: tab :: t :: u :: tabs)
    (hWord : m.ram.word f i = g + 3) :
    m.ram.entry f i = some g := by
  rw [ByteMemory.entry_of_word hWord]
  exact ByteMemory.entryFrame_add (hBooted.good.aligned g hg)
    (by decide) (by decide)

/- The tables of the kernel's range. -/
theorem entry_heap
    (hBooted : Booted m dir tab t u tabs)
    (hLo : 960 ≤ i)
    (hHi : i < 1012) :
    ∃ w ∈ tabs, tabs[i - 960]? = some w ∧
      m.ram.entry dir i = some w := by
  have hCount := hBooted.count
  have hi : i - 960 < tabs.length := by omega
  have hWord := hBooted.heap.entries (i - 960) hi
  have hIndex : 960 + (i - 960) = i := by omega
  rw [hIndex] at hWord
  have hMem : tabs[i - 960] ∈ tabs := List.getElem_mem hi
  exact ⟨tabs[i - 960], hMem, List.getElem?_eq_getElem hi,
    hBooted.entry_of (by simp [hMem]) hWord⟩

/- Every entry of the directory. -/
theorem entry_cases
    (hBooted : Booted m dir tab t u tabs)
    (hi : i < 1024) :
    (i = 0 ∧ m.ram.entry dir i = some tab) ∨
      (960 ≤ i ∧ i < 1012 ∧
        ∃ w, tabs[i - 960]? = some w ∧
          m.ram.entry dir i = some w) ∨
      (i = 1021 ∧ m.ram.entry dir i = some u) ∨
      (i = 1022 ∧ m.ram.entry dir i = some t) ∨
      (i = 1023 ∧ m.ram.entry dir i = some dir) ∨
      (m.ram.word dir i = 0 ∧ m.ram.entry dir i = none) := by
  by_cases hLow : i = 0
  · subst hLow
    exact .inl ⟨rfl, hBooted.entry_of (by simp) hBooted.low⟩
  by_cases hHeap : 960 ≤ i ∧ i < 1012
  · rcases hBooted.entry_heap hHeap.1 hHeap.2 with
      ⟨w, _, hAt, hEntry⟩
    exact .inr (.inl ⟨hHeap.1, hHeap.2, w, hAt, hEntry⟩)
  by_cases hEmpty : i < 1021
  · have hWord := hBooted.empty i (by omega) hEmpty (by omega)
    refine .inr (.inr (.inr (.inr (.inr ⟨hWord, ?_⟩))))
    rw [ByteMemory.entry_of_word hWord]
    rfl
  have hTop : i = 1021 ∨ i = 1022 ∨ i = 1023 := by omega
  rcases hTop with rfl | rfl | rfl
  · exact .inr (.inr (.inl
      ⟨rfl, hBooted.entry_of (by simp) hBooted.stack⟩))
  · exact .inr (.inr (.inr (.inl
      ⟨rfl, hBooted.entry_of (by simp) hBooted.page⟩)))
  · exact .inr (.inr (.inr (.inr (.inl
      ⟨rfl, hBooted.entry_of (by simp) hBooted.window⟩))))

/- The entries behind which the frames are, in their order. -/
def place : Nat → Nat
| 0 => 1023
| 1 => 0
| 2 => 1022
| 3 => 1021
| k + 4 => 960 + k

theorem entry_place
    (hBooted : Booted m dir tab t u tabs)
    (hi : i < 1024)
    (hEntry : m.ram.entry dir i = some g) :
    ∃ k, (dir :: tab :: t :: u :: tabs)[k]? = some g ∧
      i = place k := by
  rcases hBooted.entry_cases hi with
    ⟨rfl, h⟩ | ⟨hLo, hHi, w, hAt, h⟩ | ⟨rfl, h⟩ | ⟨rfl, h⟩ |
      ⟨rfl, h⟩ | ⟨_, h⟩
  · exact ⟨1, h.symm.trans hEntry, rfl⟩
  · refine ⟨i - 960 + 4, ?_, ?_⟩
    · rw [← hEntry, h]
      exact hAt
    · change i = 960 + (i - 960)
      omega
  · exact ⟨3, h.symm.trans hEntry, rfl⟩
  · exact ⟨2, h.symm.trans hEntry, rfl⟩
  · exact ⟨0, h.symm.trans hEntry, rfl⟩
  · rw [h] at hEntry
    cases hEntry

/- No frame is behind two entries. -/
theorem entry_inj
    (hBooted : Booted m dir tab t u tabs)
    (hi : i < 1024)
    (hj : j < 1024)
    (hEntry : m.ram.entry dir i = some g)
    (hEntry' : m.ram.entry dir j = some g) :
    i = j := by
  rcases hBooted.entry_place hi hEntry with ⟨k, hAt, rfl⟩
  rcases hBooted.entry_place hj hEntry' with ⟨k', hAt', rfl⟩
  have hk := (List.getElem?_eq_some_iff.mp hAt).1
  have hSame :=
    (List.getElem?_inj hk hBooted.good.nodup).mp
      (hAt.trans hAt'.symm)
  rw [hSame]

/- The frame of every page. -/
theorem pageAt_low
    (hBooted : Booted m dir tab t u tabs)
    (hn : n < 1024) :
    m.ram.pageAt dir n = some (4096 * n) := by
  have hDiv : n / 1024 = 0 := by omega
  have hMod : n % 1024 = n := by omega
  have hEntry := hBooted.entry_of (by simp) hBooted.low
  rw [← hDiv] at hEntry
  rw [ByteMemory.pageAt_of_entry hEntry, hMod,
    ByteMemory.entry_of_word (hBooted.identity n hn)]
  exact ByteMemory.entryFrame_add (by omega) (by decide)
    (by decide)

theorem pageAt_none
    (hBooted : Booted m dir tab t u tabs)
    (hLo : 1024 ≤ n)
    (hHi : n < 1047552)
    (hNe : n ≠ 1047551) :
    m.ram.pageAt dir n = none := by
  have hEmpty {w : Nat}
      (hEntry : m.ram.entry dir (n / 1024) = some w)
      (hWord : m.ram.word w (n % 1024) = 0) :
      m.ram.pageAt dir n = none := by
    rw [ByteMemory.pageAt_of_entry hEntry,
      ByteMemory.entry_of_word hWord]
    rfl
  rcases hBooted.entry_cases (i := n / 1024) (by omega) with
    ⟨hZero, _⟩ | ⟨_, _, w, hAt, hEntry⟩ | ⟨_, hEntry⟩ |
      ⟨hTop, hEntry⟩ | ⟨hTop, _⟩ | ⟨_, hEntry⟩
  · omega
  · exact hEmpty hEntry
      (hBooted.heap.empty w (List.mem_of_getElem? hAt) _
        (by omega))
  · exact hEmpty hEntry (hBooted.stackEmpty _ (by omega))
  · exact hEmpty hEntry (hBooted.pageEmpty _ (by omega))
  · omega
  · exact ByteMemory.pageAt_of_none hEntry

theorem pageAt_self
    (hBooted : Booted m dir tab t u tabs) :
    m.ram.pageAt dir 1047551 = some dir := by
  have hEntry := hBooted.entry_of (by simp) hBooted.page
  have hSelf := hBooted.entry_of (by simp) hBooted.pageSelf
  have hDiv : 1047551 / 1024 = 1022 := by decide
  have hMod : 1047551 % 1024 = 1023 := by decide
  rw [← hDiv] at hEntry
  rw [ByteMemory.pageAt_of_entry hEntry, hMod]
  exact hSelf

theorem pageAt_window
    (hBooted : Booted m dir tab t u tabs)
    (hi : i < 1024) :
    m.ram.pageAt dir (1047552 + i) = m.ram.entry dir i := by
  have hDiv : (1047552 + i) / 1024 = 1023 := by omega
  have hMod : (1047552 + i) % 1024 = i := by omega
  have hEntry := hBooted.entry_of (by simp) hBooted.window
  rw [← hDiv] at hEntry
  rw [ByteMemory.pageAt_of_entry hEntry, hMod]

end Booted

------------------------------------------------------------
-- The Address Space
------------------------------------------------------------

/-
  Low memory is mapped to itself, the directory's page and the
  window show the directory and its page tables, and nothing
  else is mapped.
-/
structure BootSpace (m : Machine) (d : PageDirectory) : Prop where
  low :
    ∀ va, va < LOWMEM_ID_MAP_END → m.translate va = some va
  directory :
    ∀ k, k < PAGE_SIZE →
      m.translate (KERNEL_DIR_VIRTUAL + k) =
        some (d.physical + k)
  tables :
    ∀ i k, i < 1024 → k < PAGE_SIZE →
      m.translate (KERNEL_TABLES_VIRTUAL + PAGE_SIZE * i + k) =
        (m.ram.entry d.physical i).map fun f => f + k
  other :
    ∀ va, LOWMEM_ID_MAP_END ≤ va →
      va < KERNEL_TABLES_VIRTUAL →
        pgNumFromAddr va ≠ pgNumFromAddr KERNEL_DIR_VIRTUAL →
          m.translate va = none

theorem Booted.translate
    (hBooted : Booted m dir tab t u tabs)
    (va : Nat) :
    m.translate va =
      (m.ram.pageAt dir (va / 4096)).map fun f =>
        f + va % 4096 := by
  have hRoot : pageAddr m.cr3 = dir := hBooted.root
  unfold Machine.translate ByteMemory.walk
  rw [if_pos hBooted.self.maps.paging, hRoot]

theorem Booted.space
    (hBooted : Booted m dir tab t u tabs) :
    BootSpace m (kernelRecord dir) := by
  refine
    { low := ?_
      directory := ?_
      tables := ?_
      other := ?_ }
  · intro va hva
    unfold LOWMEM_ID_MAP_END at hva
    rw [hBooted.translate, hBooted.pageAt_low (by omega),
      Option.map_some]
    congr 1
    omega
  · intro k hk
    unfold PAGE_SIZE at hk
    have hPage : (KERNEL_DIR_VIRTUAL + k) / 4096 = 1047551 := by
      unfold KERNEL_DIR_VIRTUAL
      omega
    have hOffset : (KERNEL_DIR_VIRTUAL + k) % 4096 = k := by
      unfold KERNEL_DIR_VIRTUAL
      omega
    rw [hBooted.translate, hPage, hOffset, hBooted.pageAt_self]
    rfl
  · intro i k hi hk
    unfold PAGE_SIZE at hk
    have hPage :
        (KERNEL_TABLES_VIRTUAL + PAGE_SIZE * i + k) / 4096 =
          1047552 + i := by
      unfold KERNEL_TABLES_VIRTUAL PAGE_SIZE
      omega
    have hOffset :
        (KERNEL_TABLES_VIRTUAL + PAGE_SIZE * i + k) % 4096 =
          k := by
      unfold KERNEL_TABLES_VIRTUAL PAGE_SIZE
      omega
    rw [hBooted.translate, hPage, hOffset,
      hBooted.pageAt_window hi]
    rfl
  · intro va hLo hHi hNe
    unfold LOWMEM_ID_MAP_END at hLo
    unfold KERNEL_TABLES_VIRTUAL at hHi
    unfold pgNumFromAddr KERNEL_DIR_VIRTUAL at hNe
    rw [hBooted.translate,
      hBooted.pageAt_none (by omega) (by omega) (by omega)]
    rfl

theorem kernelRecord_window (dir : Nat) :
    pgdirIdxFromAddr (kernelRecord dir).pages = 1023 := by
  rw [kernelRecord_pages]
  decide

theorem kernelRecord_page (dir : Nat) :
    pgNumFromAddr (kernelRecord dir).directory = 1047551 := by
  rw [kernelRecord_directory]
  decide

/- The pages of the user, the heap and the frame stack. -/
theorem ordinary_cases
    (hOrdinary : Ordinary (kernelRecord dir) n) :
    (n < 983040 ∨ 983040 ≤ n ∧ n < 1036288 ∨
        1046527 ≤ n ∧ n < 1047551) ∧
      n / 1024 ≠ 1023 ∧ n ≠ 1047551 := by
  rcases hOrdinary with ⟨hRange, hPage, hWindow⟩
  rw [kernelRecord_page] at hPage
  rw [kernelRecord_window] at hWindow
  exact ⟨hRange, hWindow, hPage⟩

theorem Booted.built
    (hBooted : Booted m dir tab t u tabs) :
    Built m (kernelRecord dir) t := by
  have hRoot := hBooted.root
  refine
    { self := hBooted.self
      layout := .inl ⟨rfl, rfl⟩
      kernelTables := ?_
      distinct := ?_ }
  · intro n hOrdinary hKernel
    rcases ordinary_cases hOrdinary with ⟨hRange, hNe, _⟩
    change 983040 ≤ n at hKernel
    rw [hRoot]
    rcases hBooted.entry_cases (i := n / 1024) (by omega) with
      ⟨_, h⟩ | ⟨_, _, _, _, h⟩ | ⟨_, h⟩ | ⟨_, h⟩ | ⟨_, h⟩ |
        ⟨hZero, _⟩
    · exact ⟨_, h⟩
    · exact ⟨_, h⟩
    · exact ⟨_, h⟩
    · exact ⟨_, h⟩
    · exact ⟨_, h⟩
    · -- these ranges have page tables
      exfalso
      by_cases hHeap : n < 1036288
      · rcases hBooted.entry_heap (i := n / 1024) (by omega)
          (by omega) with ⟨w, _, _, hEntry⟩
        exact entry_ne_zero hEntry hZero
      · have hTop : n / 1024 = 1021 ∨ n / 1024 = 1022 := by
          omega
        rcases hTop with hTop | hTop
        · rw [hTop, hBooted.stack] at hZero
          omega
        · rw [hTop, hBooted.page] at hZero
          omega
  · intro n w hOrdinary hw
    rcases ordinary_cases hOrdinary with ⟨hRange, hNe, _⟩
    rw [hRoot] at hw ⊢
    have hSelf := hBooted.entry_of (by simp) hBooted.window
    refine ⟨?_, ?_⟩
    · rintro rfl
      exact hNe (hBooted.entry_inj (by omega) (by omega) hw
        hSelf)
    · intro i hi hOther hSame
      exact hOther (hBooted.entry_inj hi (by omega) hSame hw)

theorem Booted.clean
    (hBooted : Booted m dir tab t u tabs) :
    Clean m (kernelRecord dir) := by
  have hRoot := hBooted.root
  refine
    { present := ?_
      selfOnly := .inl ?_ }
  · intro n hOrdinary
    rcases ordinary_cases hOrdinary with ⟨hRange, hNe, hPage⟩
    rw [hRoot]
    rcases hBooted.entry_cases (i := n / 1024) (by omega) with
      ⟨hLow, h⟩ | ⟨_, _, w, hAt, h⟩ | ⟨_, h⟩ | ⟨hTop, h⟩ |
        ⟨hTop, _⟩ | ⟨hZero, _⟩
    · refine .inr ⟨_, h, .inr ?_⟩
      rw [hBooted.identity _ (by omega)]
      omega
    · exact .inr ⟨_, h, .inl
        (hBooted.heap.empty w (List.mem_of_getElem? hAt) _
          (by omega))⟩
    · exact .inr ⟨_, h, .inl (hBooted.stackEmpty _ (by omega))⟩
    · exact .inr ⟨_, h, .inl (hBooted.pageEmpty _ (by omega))⟩
    · exact absurd hTop hNe
    · exact .inl hZero
  · intro i hi hNe hSame
    rw [hRoot] at hSame
    rw [kernelRecord_window] at hNe
    have hSelf := hBooted.entry_of (by simp) hBooted.window
    exact hNe (hBooted.entry_inj hi (by omega) hSame hSelf)

/- The address space of the kernel when paging starts. -/
theorem init_vmm_space
    (hPaging : m.paging = false)
    (hGood : GoodFrames m.frames)
    (hRun : initVmm.run m = .ok () m') :
    ∃ d, m'.dirAt m'.currentDirectory = some d ∧
      m'.currentDirectory = .kernelDirectory ∧
        BootSpace m' d := by
  rcases initVmm_booted hPaging hGood hRun with
    ⟨dir, tab, t, u, tabs, _, hBooted, _⟩
  exact ⟨kernelRecord dir, hBooted.self.current,
    hBooted.current, hBooted.space⟩

/- `init_vmm_space` with 128 frames to hand out. -/
theorem bootMachine_space :
    ∃ m' d, initVmm.run Paged.bootMachine = .ok () m' ∧
      m'.dirAt m'.currentDirectory = some d ∧
        m'.currentDirectory = .kernelDirectory ∧
          BootSpace m' d := by
  rcases initVmm_total rfl Paged.goodFrames_bootMachine
    (by rw [Paged.length_bootMachine]; decide) with ⟨m', hRun⟩
  rcases init_vmm_space rfl Paged.goodFrames_bootMachine hRun
    with ⟨d, hRecord, hCurrent, hSpace⟩
  exact ⟨m', d, hRun, hRecord, hCurrent, hSpace⟩

/-
  From then on every run of `map` and `unmap` implements the
  updates of an address space, and the hardware and
  `get_mapping` agree with it.
-/
theorem kernel_edits_refine
    (hPaging : m.paging = false)
    (hGood : GoodFrames m.frames)
    (hRun : initVmm.run m = .ok () m') :
    ∃ d, m'.dirAt m'.currentDirectory = some d ∧
      Refines m' d := by
  rcases initVmm_booted hPaging hGood hRun with
    ⟨dir, tab, t, u, tabs, _, hBooted, _⟩
  exact ⟨kernelRecord dir, hBooted.self.current,
    hBooted.built.refines hBooted.clean⟩

/- `kernel_edits_refine` with 128 frames to hand out. -/
theorem bootMachine_edits_refine :
    ∃ m' d, initVmm.run Paged.bootMachine = .ok () m' ∧
      m'.dirAt m'.currentDirectory = some d ∧
        Refines m' d := by
  rcases initVmm_total rfl Paged.goodFrames_bootMachine
    (by rw [Paged.length_bootMachine]; decide) with ⟨m', hRun⟩
  rcases kernel_edits_refine rfl Paged.goodFrames_bootMachine
    hRun with ⟨d, hRecord, hRefines⟩
  exact ⟨m', d, hRun, hRecord, hRefines⟩

end Vmm

end SosKernel
