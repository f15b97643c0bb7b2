import SosKernel.Vmm.Mapping

/-
  The kernel's directory after `init_vmm`.

  Main declarations:
    * `GoodFrames`: the answers of the page allocator
    * `KernelDirectory`: the directory and three of its tables
    * `initVmm_ok`, `initVmm_total`

  Of the entries only those of the last three page tables
  are described: the frame stack lies there.
-/

------------------------------------------------------------
-- Before Paging
------------------------------------------------------------

namespace SosKernel

namespace Vmm

/- The frames that will be handed out are different frames. -/
structure GoodFrames (frames : List Nat) : Prop where
  nodup : frames.Nodup
  aligned : ∀ f ∈ frames, f % 4096 = 0
  fits : ∀ f ∈ frames, f + 4096 ≤ 2 ^ 32

theorem GoodFrames.sublist
    {frames frames' : List Nat}
    (hGood : GoodFrames frames)
    (hSub : frames'.Sublist frames) :
    GoodFrames frames' where
  nodup := hGood.nodup.sublist hSub
  aligned := fun f hf => hGood.aligned f (hSub.subset hf)
  fits := fun f hf => hGood.fits f (hSub.subset hf)

variable {m m' : Machine}
variable {dir f : Nat}

/- The machine with other free frames and another memory. -/
def Machine.holding
    (m : Machine)
    (frames : List Nat)
    (ram : ByteMemory) : Machine :=
  (m.withFrames frames).withRam ram

variable {frames rest : List Nat}
variable {ram : ByteMemory}

theorem GoodFrames.steady
    (hGood : GoodFrames frames)
    (hf : f ∈ frames)
    (hPaging : m.paging = false) :
    (m.holding rest ram).Steady f f :=
  steady_physical hPaging (hGood.aligned f hf)
    (hGood.fits f hf)

theorem GoodFrames.run_memset
    (hGood : GoodFrames frames)
    (hf : f ∈ frames)
    (hPaging : m.paging = false) :
    (memset f 0 PAGE_SIZE).run (m.holding rest ram) =
      .ok () (m.holding rest (ram.clearFrame f)) :=
  (hGood.steady hf hPaging).memset

theorem GoodFrames.run_loadAt
    {i : Nat}
    (hGood : GoodFrames frames)
    (hf : f ∈ frames)
    (hPaging : m.paging = false)
    (hi : i < 1024) :
    (loadAt f i).run (m.holding rest ram) =
      .ok (ram.word f i) (m.holding rest ram) :=
  (hGood.steady hf hPaging).shows.loadAt hi

theorem GoodFrames.run_storeAt
    {i v : Nat}
    (hGood : GoodFrames frames)
    (hf : f ∈ frames)
    (hPaging : m.paging = false)
    (hi : i < 1024) :
    (storeAt f i v).run (m.holding rest ram) =
      .ok () (m.holding rest (ram.setWord f i v)) :=
  (hGood.steady hf hPaging).shows.storeAt hi

theorem pmmAllocPage_holding
    (hRun : pmmAllocPage.run (m.holding frames ram) =
      .ok f m') :
    ∃ rest, frames = f :: rest ∧ m' = m.holding rest ram := by
  rcases pmmAllocPage_ok hRun with ⟨rest, hFrames, hSame⟩
  exact ⟨rest, hFrames, hSame⟩

/-
  What filling the kernel's tables leaves alone: the last
  entries of the directory, and frames in use.
-/
structure Filled (dir : Nat) (m m' : Machine) : Prop where
  frames : ∃ used, m.frames = used ++ m'.frames
  paging : m'.paging = m.paging
  dirAt : m'.dirAt = m.dirAt
  words :
    ∀ i, 1012 ≤ i → i < 1024 →
      m'.ram.word dir i = m.ram.word dir i
  others :
    ∀ g, g % 4096 = 0 → g ≠ dir → g ∉ m.frames →
      m.ram.SameOn g (g + 4096) m'.ram

theorem Filled.refl (dir : Nat) (m : Machine) :
    Filled dir m m where
  frames := ⟨[], rfl⟩
  paging := rfl
  dirAt := rfl
  words := fun _ _ _ => rfl
  others := fun _ _ _ _ => ByteMemory.SameOn.refl _ _ _

theorem Filled.trans
    {m'' : Machine}
    (hFirst : Filled dir m m')
    (hSecond : Filled dir m' m'') :
    Filled dir m m'' := by
  rcases hFirst.frames with ⟨used, hUsed⟩
  rcases hSecond.frames with ⟨used', hUsed'⟩
  refine
    { frames := ?_
      paging := hSecond.paging.trans hFirst.paging
      dirAt := hSecond.dirAt.trans hFirst.dirAt
      words := ?_
      others := ?_ }
  · refine ⟨used ++ used', ?_⟩
    rw [hUsed, hUsed', List.append_assoc]
  · intro i hLo hHi
    rw [hSecond.words i hLo hHi, hFirst.words i hLo hHi]
  · intro g hAligned hNe hNew
    refine (hFirst.others g hAligned hNe hNew).trans
      (hSecond.others g hAligned hNe ?_)
    intro hMem
    apply hNew
    rw [hUsed]
    exact List.mem_append_right used hMem

/- One entry of the kernel's range is filled. -/
theorem fillEntry_ok
    {i : Nat}
    (hPaging : m.paging = false)
    (hGood : GoodFrames (dir :: m.frames))
    (hi : i < 1012)
    (hRun :
      ((do
        if (← loadAt dir i) = 0 then
          let tabPtr ← pmmAllocPage
          memset tabPtr 0 PAGE_SIZE
          storeAt dir i
            (tabPtr ||| PAGE_PRESENT ||| PAGE_WRITE)) :
              VmM Unit).run m =
        .ok () m') :
    Filled dir m m' := by
  have hLoad :
      (loadAt dir i).run m = .ok (m.ram.word dir i) m :=
    hGood.run_loadAt List.mem_cons_self hPaging (by omega)
  rw [EStateM.bind_of_ok hLoad] at hRun
  split at hRun
  · rw [EStateM.bind_eq_ok_iff] at hRun
    rcases hRun with ⟨tab, m₁, hAlloc, hRun⟩
    rcases pmmAllocPage_holding hAlloc with
      ⟨rest, hFrames, rfl⟩
    have hTab : tab ∈ dir :: m.frames := by
      rw [hFrames]
      simp
    have hAligned := hGood.aligned tab hTab
    have hDirAligned := hGood.aligned dir List.mem_cons_self
    have hNe : tab ≠ dir := by
      have hNodup := hGood.nodup
      rw [hFrames, List.nodup_cons] at hNodup
      rintro rfl
      exact hNodup.1 List.mem_cons_self
    rw [EStateM.bind_of_ok (hGood.run_memset hTab hPaging),
      hGood.run_storeAt List.mem_cons_self hPaging (by omega)]
      at hRun
    cases hRun
    refine
      { frames := ⟨[tab], hFrames⟩
        paging := rfl
        dirAt := rfl
        words := ?_
        others := ?_ }
    · intro j hLo hHi
      refine (ByteMemory.word_setWord_of_ne _ _ hDirAligned
        hDirAligned (by omega) hHi (.inr (by omega))).trans ?_
      exact (ByteMemory.sameOn_clearFrame _ hAligned
        hDirAligned hNe.symm).word hHi
    · intro g hg hNeG hNew
      have hOther : g ≠ tab := by
        rintro rfl
        apply hNew
        rw [hFrames]
        exact List.mem_cons_self
      exact (ByteMemory.sameOn_clearFrame _ hAligned hg
        hOther).trans
          (ByteMemory.sameOn_setWord _ _ hDirAligned hg
            (by omega) hNeG)
  · cases hRun
    exact Filled.refl dir m

/- All entries of the kernel's range. -/
theorem fillKernelTables_ok
    (hRun : (fillKernelTables dir).run m = .ok () m')
    (hPaging : m.paging = false)
    (hGood : GoodFrames (dir :: m.frames)) :
    Filled dir m m' := by
  refine EStateM.upTo_invariant
    (I := fun _ m' => Filled dir m m') hRun
    (Filled.refl dir m) ?_
  intro k m₁ m₂ hk hFilled hBody
  refine hFilled.trans (fillEntry_ok ?_ ?_ ?_ hBody)
  · rw [hFilled.paging]
    exact hPaging
  · rcases hFilled.frames with ⟨used, hUsed⟩
    rw [hUsed] at hGood
    exact hGood.sublist
      ((List.sublist_append_right used _).cons_cons dir)
  · unfold pgdirIdxFromAddr MOUNT_TABS_START
      KERNEL_ADDRESS_SPACE at hk
    unfold pgdirIdxFromAddr KERNEL_ADDRESS_SPACE
    omega

------------------------------------------------------------
-- The Directory
------------------------------------------------------------

/- The kernel's record. -/
def kernelRecord (dir : Nat) : PageDirectory :=
  ⟨dir, KERNEL_DIR_VIRTUAL, KERNEL_TABLES_VIRTUAL⟩

theorem kernelRecord_directory (dir : Nat) :
    (kernelRecord dir).directory = KERNEL_DIR_VIRTUAL := rfl

theorem kernelRecord_pages (dir : Nat) :
    (kernelRecord dir).pages = KERNEL_TABLES_VIRTUAL := rfl

/- The end of the directory, before paging. -/
structure Prepared (dir t : Nat) (m m' : Machine) : Prop where
  frames :
    ∃ tab used, m.frames = dir :: tab :: t :: used ++ m'.frames
  paging : m'.paging = false
  record : m'.dirAt .kernelDirectory = some (kernelRecord dir)
  dirEntry : m'.ram.word dir 1022 = t + 3
  tablesEntry : m'.ram.word dir 1023 = dir + 3
  selfEntry : m'.ram.word t 1023 = dir + 3

/- A loop of stores to one frame. -/
theorem stores_ok
    {n : Nat}
    {v : Nat → Nat}
    (hGood : GoodFrames frames)
    (hf : f ∈ frames)
    (hPaging : m.paging = false)
    (hn : n ≤ 1024)
    (hRun :
      (EStateM.upTo (fun i => storeAt f i (v i)) n).run
          (m.holding rest ram) =
        .ok () m') :
    ∃ ram', m' = m.holding rest ram' ∧
      ∀ g, g % 4096 = 0 → g ≠ f →
        ram.SameOn g (g + 4096) ram' := by
  refine EStateM.upTo_invariant
    (I := fun _ m' => ∃ ram', m' = m.holding rest ram' ∧
      ∀ g, g % 4096 = 0 → g ≠ f →
        ram.SameOn g (g + 4096) ram') hRun
    ⟨ram, rfl, fun _ _ _ => ByteMemory.SameOn.refl _ _ _⟩ ?_
  rintro i _ m₂ hi ⟨ram₁, rfl, hSame⟩ hStore
  rw [hGood.run_storeAt hf hPaging (by omega)] at hStore
  cases hStore
  refine ⟨_, rfl, ?_⟩
  intro g hg hNe
  exact (hSame g hg hNe).trans
    (ByteMemory.sameOn_setWord _ _ (hGood.aligned f hf) hg
      (by omega) hNe)

/- The last words that are stored before the tables. -/
theorem words_prepared
    {t : Nat}
    (ram : ByteMemory)
    (hDir : dir % 4096 = 0)
    (hDirFits : dir + 4096 ≤ 2 ^ 32)
    (ht : t % 4096 = 0)
    (htFits : t + 4096 ≤ 2 ^ 32)
    (hNe : t ≠ dir) :
    let ram' :=
      ((ram.setWord dir 1022 (t + 3)).setWord t 1023
        (dir + 3)).setWord dir 1023 (dir + 3)
    ram'.word dir 1022 = t + 3 ∧
      ram'.word dir 1023 = dir + 3 ∧
      ram'.word t 1023 = dir + 3 := by
  refine ⟨?_, ?_, ?_⟩
  · rw [ByteMemory.word_setWord_of_ne _ _ hDir hDir
      (by decide) (by decide) (.inr (by decide)),
      ByteMemory.word_setWord_of_ne _ _ ht hDir
        (by decide) (by decide) (.inl hNe.symm)]
    exact ByteMemory.word_setWord_self _ _ _ (by omega)
  · exact ByteMemory.word_setWord_self _ _ _ (by omega)
  · rw [ByteMemory.word_setWord_of_ne _ _ hDir ht
      (by decide) (by decide) (.inl hNe)]
    exact ByteMemory.word_setWord_self _ _ _ (by omega)

/-
  The directory before the kernel's range is filled, from `m`
  on.
-/
structure Unfilled
    (dir tab t : Nat)
    (m m' : Machine) : Prop where
  frames : m.frames = dir :: tab :: t :: m'.frames
  paging : m'.paging = false
  record : m'.dirAt .kernelDirectory = some (kernelRecord dir)
  dirEntry : m'.ram.word dir 1022 = t + 3
  tablesEntry : m'.ram.word dir 1023 = dir + 3
  selfEntry : m'.ram.word t 1023 = dir + 3
  empty :
    ∀ i, 960 ≤ i → i < 1012 → m'.ram.word dir i = 0

/- What is done before the kernel's range is filled, twice. -/
theorem prepareKernelDirectory_cases
    (hPaging : m.paging = false)
    (hGood : GoodFrames m.frames)
    (hRun : prepareKernelDirectory.run m = .ok () m') :
    ∃ dir tab t m₁ m₂, Unfilled dir tab t m m₁ ∧
      (fillKernelTables dir).run m₁ = .ok () m₂ ∧
      (fillKernelTables dir).run m₂ = .ok () m' := by
  have hStart : m = m.holding m.frames m.ram := rfl
  rw [hStart] at hRun
  unfold prepareKernelDirectory at hRun
  -- the directory and the identity mapping
  rw [EStateM.bind_eq_ok_iff] at hRun
  rcases hRun with ⟨dir, m₁, hAlloc, hRun⟩
  rcases pmmAllocPage_holding hAlloc with
    ⟨rest₁, hFrames₁, rfl⟩
  have hDirIn : dir ∈ m.frames := by
    rw [hFrames₁]
    exact List.mem_cons_self
  rw [EStateM.bind_of_ok (hGood.run_memset hDirIn hPaging),
    EStateM.bind_eq_ok_iff] at hRun
  rcases hRun with ⟨tab, m₂, hAlloc, hRun⟩
  rcases pmmAllocPage_holding hAlloc with
    ⟨rest₂, hFrames₂, rfl⟩
  have hTabIn : tab ∈ m.frames := by
    rw [hFrames₁, hFrames₂]
    simp
  rw [EStateM.bind_of_ok (hGood.run_memset hTabIn hPaging),
    EStateM.bind_of_ok
      (hGood.run_storeAt hDirIn hPaging (by decide)),
    EStateM.bind_eq_ok_iff] at hRun
  rcases hRun with ⟨_, m₃, hLoop, hRun⟩
  rcases stores_ok hGood hTabIn hPaging (by decide) hLoop with
    ⟨ram, rfl, hLoopSame⟩
  -- the directory, mapped into itself
  rw [EStateM.bind_eq_ok_iff] at hRun
  rcases hRun with ⟨t, m₄, hAlloc, hRun⟩
  rcases pmmAllocPage_holding hAlloc with
    ⟨rest, hFrames₃, rfl⟩
  have hFrames : m.frames = dir :: tab :: t :: rest := by
    rw [hFrames₁, hFrames₂, hFrames₃]
  have hTIn : t ∈ m.frames := by
    rw [hFrames]
    simp
  have hDirAligned := hGood.aligned dir hDirIn
  have hDirFits := hGood.fits dir hDirIn
  have hTabAligned := hGood.aligned tab hTabIn
  have hTAligned := hGood.aligned t hTIn
  have hTFits := hGood.fits t hTIn
  have hAllNodup := hGood.nodup
  rw [hFrames] at hAllNodup
  have hNe : t ≠ dir := by
    rintro rfl
    simp at hAllNodup
  have hTabNe : dir ≠ tab := by
    rintro rfl
    simp at hAllNodup
  rw [or_present_write hTAligned,
    or_present_write hDirAligned,
    EStateM.bind_of_ok (hGood.run_memset hTIn hPaging),
    EStateM.bind_of_ok
      (hGood.run_storeAt hDirIn hPaging (by decide)),
    EStateM.bind_of_ok
      (hGood.run_storeAt hTIn hPaging (by decide)),
    EStateM.bind_of_ok
      (hGood.run_storeAt hDirIn hPaging (by decide))]
    at hRun
  unfold writeDirectory at hRun
  rw [EStateM.bind_of_ok (EStateM.run_modify _ _),
    EStateM.bind_eq_ok_iff] at hRun
  rcases hRun with ⟨_, m₅, hFirst, hSecond⟩
  have hWords :=
    words_prepared (ram.clearFrame t) hDirAligned hDirFits
      hTAligned hTFits hNe
  refine ⟨dir, tab, t, _, m₅, ?_, hFirst, hSecond⟩
  refine
    { frames := hFrames
      paging := hPaging
      record :=
        Function.update_self DirPtr.kernelDirectory _ m.dirAt
      dirEntry := hWords.1
      tablesEntry := hWords.2.1
      selfEntry := hWords.2.2
      empty := ?_ }
  -- the entries between are as `memset` has left them
  intro i hLo hHi
  have hLast : i ≠ pgdirIdxFromAddr KERNEL_TABLES_VIRTUAL := by
    change i ≠ 1023
    omega
  have hBefore : i ≠ pgdirIdxFromAddr KERNEL_DIR_VIRTUAL := by
    change i ≠ 1022
    omega
  refine (ByteMemory.word_setWord_of_ne _ _ hDirAligned
    hDirAligned (by decide) (by omega) (.inr hLast)).trans ?_
  refine (ByteMemory.word_setWord_of_ne _ _ hTAligned
    hDirAligned (by decide) (by omega)
    (.inl hNe.symm)).trans ?_
  refine (ByteMemory.word_setWord_of_ne _ _ hDirAligned
    hDirAligned (by decide) (by omega)
    (.inr hBefore)).trans ?_
  rw [(ByteMemory.sameOn_clearFrame _ hTAligned hDirAligned
      hNe.symm).word (by omega),
    (hLoopSame dir hDirAligned hTabNe).word (by omega)]
  refine (ByteMemory.word_setWord_of_ne _ _ hDirAligned
    hDirAligned (by decide) (by omega)
    (.inr (by omega))).trans ?_
  rw [(ByteMemory.sameOn_clearFrame _ hTabAligned hDirAligned
    hTabNe).word (by omega)]
  exact ByteMemory.word_clearFrame_self _ dir (by omega)

/- The frames behind the first three are different ones. -/
theorem Unfilled.goodFrames
    {dir tab t : Nat}
    (hUnfilled : Unfilled dir tab t m m')
    (hGood : GoodFrames m.frames) :
    GoodFrames (dir :: m'.frames) ∧ t ∉ m'.frames ∧
      t ≠ dir ∧ t % 4096 = 0 := by
  have hTAligned :=
    hGood.aligned t (by rw [hUnfilled.frames]; simp)
  rw [hUnfilled.frames] at hGood
  have hNodup := hGood.nodup
  refine ⟨?_, ?_, ?_, hTAligned⟩
  · refine hGood.sublist (List.Sublist.cons_cons dir ?_)
    exact (List.sublist_cons_self t _).trans
      (List.sublist_cons_self tab (t :: m'.frames))
  · intro hMem
    simp [hMem] at hNodup
  · rintro rfl
    simp at hNodup

/- Filling the range keeps the end of the directory. -/
theorem Unfilled.prepared
    {dir tab t : Nat}
    {m₁ m₂ : Machine}
    (hUnfilled : Unfilled dir tab t m m₁)
    (hGood : GoodFrames m.frames)
    (hFirst : (fillKernelTables dir).run m₁ = .ok () m₂)
    (hSecond : (fillKernelTables dir).run m₂ = .ok () m') :
    Prepared dir t m m' := by
  rcases hUnfilled.goodFrames hGood with
    ⟨hRestGood, hTNew, hNe, hTAligned⟩
  have hFilled :=
    fillKernelTables_ok hFirst hUnfilled.paging hRestGood
  rcases hFilled.frames with ⟨used, hUsed⟩
  have hFilled' :=
    fillKernelTables_ok hSecond
      (hFilled.paging.trans hUnfilled.paging)
      (by
        rw [hUsed] at hRestGood
        exact hRestGood.sublist
          ((List.sublist_append_right used _).cons_cons dir))
  have hBoth := hFilled.trans hFilled'
  rcases hBoth.frames with ⟨usedAll, hUsedAll⟩
  refine ⟨⟨tab, usedAll, ?_⟩, ?_, ?_, ?_, ?_, ?_⟩
  · rw [hUnfilled.frames, hUsedAll]
    rfl
  · exact hBoth.paging.trans hUnfilled.paging
  · rw [hBoth.dirAt]
    exact hUnfilled.record
  · rw [hBoth.words 1022 (by decide) (by decide)]
    exact hUnfilled.dirEntry
  · rw [hBoth.words 1023 (by decide) (by decide)]
    exact hUnfilled.tablesEntry
  · rw [(hBoth.others t hTAligned hNe hTNew).word (by decide)]
    exact hUnfilled.selfEntry

theorem prepareKernelDirectory_ok
    (hPaging : m.paging = false)
    (hGood : GoodFrames m.frames)
    (hRun : prepareKernelDirectory.run m = .ok () m') :
    ∃ dir t, Prepared dir t m m' := by
  rcases prepareKernelDirectory_cases hPaging hGood hRun with
    ⟨dir, tab, t, m₁, m₂, hUnfilled, hFirst, hSecond⟩
  exact ⟨dir, t, hUnfilled.prepared hGood hFirst hSecond⟩

------------------------------------------------------------
-- After Paging
------------------------------------------------------------

/-
  The kernel's directory is current and mapped into itself by
  way of the page table `t`, and `u` is the page table of the
  first page of the frame stack.
-/
structure KernelDirectory
    (m : Machine)
    (dir t u : Nat) : Prop where
  current : m.currentDirectory = .kernelDirectory
  self : SelfMapped m (kernelRecord dir) t
  root : m.root = dir
  stackTable : m.ram.entry dir 1021 = some u
  t_ne : t ≠ dir
  u_ne : u ≠ dir
  apart : u ≠ t

/- The machine after the switch to the kernel's directory. -/
def Machine.started (m : Machine) (dir : Nat) : Machine :=
  { m with
    currentDirectory := .kernelDirectory
    cr3 := dir
    paging := true }

theorem Prepared.selfMapped
    {m₀ : Machine}
    {t : Nat}
    (hPrepared : Prepared dir t m₀ m)
    (hDir : dir % 4096 = 0)
    (ht : t % 4096 = 0) :
    SelfMapped (m.started dir) (kernelRecord dir) t ∧
      (m.started dir).root = dir := by
  have hPage : pageAddr dir = dir := by
    unfold pageAddr PAGE_SIZE
    omega
  have hRoot : (m.started dir).root = dir := hPage
  have hEntry :
      ∀ g, g % 4096 = 0 →
        ByteMemory.entryFrame (g + 3) = some g := by
    intro g hg
    exact ByteMemory.entryFrame_add hg (by decide) (by decide)
  have hT : m.ram.entry dir 1022 = some t := by
    rw [ByteMemory.entry_of_word hPrepared.dirEntry]
    exact hEntry t ht
  have hSelf : m.ram.entry t 1023 = some dir := by
    rw [ByteMemory.entry_of_word hPrepared.selfEntry]
    exact hEntry dir hDir
  have hTables : m.ram.entry dir 1023 = some dir := by
    rw [ByteMemory.entry_of_word hPrepared.tablesEntry]
    exact hEntry dir hDir
  have hMaps :
      (m.started dir).Maps KERNEL_DIR_VIRTUAL t dir := by
    refine ⟨rfl, by decide, by decide, ?_, hSelf⟩
    rw [hRoot]
    exact hT
  have hWindow :
      (m.started dir).ShowsTables KERNEL_TABLES_VIRTUAL
        dir := by
    refine ⟨rfl, by decide, by decide, ?_⟩
    rw [hRoot]
    exact hTables
  refine ⟨⟨hPrepared.record, rfl, ?_, ?_⟩, hRoot⟩
  · rw [hRoot]
    exact hMaps
  · rw [hRoot]
    exact hWindow

/- The page table for the first page of the frame stack. -/
theorem stackTable_total
    {t u : Nat}
    (hSelf : SelfMapped m (kernelRecord dir) t)
    (hRoot : m.root = dir)
    (hCurrent : m.currentDirectory = .kernelDirectory)
    (hGood : GoodFrames m.frames)
    (hDirNew : dir ∉ m.frames)
    (hTNew : t ∉ m.frames)
    (hNe : t ≠ dir)
    (hFrames : m.frames = u :: rest) :
    ∃ m',
      (do
        let kernel ← readDirectory .kernelDirectory
        let page ← pmmAllocPage
        storeAt kernel.directory
          (pgdirIdxFromAddr PMM_STACK_START)
          (page ||| PAGE_PRESENT ||| PAGE_WRITE)
        memset
          (index kernel.pages
            (pgFirstDirFromAddr PMM_STACK_START)) 0
          PAGE_SIZE : VmM Unit).run m = .ok () m' ∧
      m'.frames = rest ∧ KernelDirectory m' dir t u ∧
      ∀ g i, g % 4096 = 0 → g ≠ u → i < 1024 →
        (g ≠ dir ∨ i ≠ 1021) →
          m'.ram.word g i = m.ram.word g i := by
  subst hRoot
  have hRecord := hSelf.current
  rw [hCurrent] at hRecord
  have hDir := root_aligned m
  have ht : t % 4096 = 0 :=
    ByteMemory.entry_aligned hSelf.maps.dir
  rw [EStateM.bind_of_ok (run_readDirectory hRecord),
    EStateM.bind_of_ok (run_pmmAllocPage hFrames)]
  have hUIn : u ∈ m.frames := by
    rw [hFrames]
    exact List.mem_cons_self
  have hu := hGood.aligned u hUIn
  have huFits := hGood.fits u hUIn
  have hUDir : u ≠ m.root := fun h => hDirNew (h ▸ hUIn)
  have hUT : u ≠ t := fun h => hTNew (h ▸ hUIn)
  have hSelf₁ := hSelf.withFrames rest
  have hStore :
      (storeAt (kernelRecord m.root).directory
          (pgdirIdxFromAddr PMM_STACK_START)
          (u ||| PAGE_PRESENT ||| PAGE_WRITE)).run
        (m.withFrames rest) =
      .ok ()
        ((m.withFrames rest).withRam
          (m.ram.setWord m.root 1021 (u + 3))) := by
    rw [or_present_write hu]
    exact hSelf₁.maps.shows.storeAt (by decide)
  rw [EStateM.bind_of_ok hStore]
  -- the new table is cleared through the window
  have hWords :
      ∀ g i, g % 4096 = 0 → i < 1024 →
        (g ≠ m.root ∨ i ≠ 1021) →
        (m.ram.setWord m.root 1021 (u + 3)).word g i =
          m.ram.word g i := by
    intro g i hg hi hOther
    exact ByteMemory.word_setWord_of_ne _ _ hDir hg
      (by decide) hi hOther
  have hEntry :
      (m.ram.setWord m.root 1021 (u + 3)).entry m.root 1021 =
        some u := by
    rw [ByteMemory.entry_of_word
      (ByteMemory.word_setWord_self _ _ _ (by omega))]
    exact ByteMemory.entryFrame_add hu (by decide) (by decide)
  have hSelf₂ :
      SelfMapped
        ((m.withFrames rest).withRam
          (m.ram.setWord m.root 1021 (u + 3)))
        (kernelRecord m.root) t := by
    refine hSelf₁.congr rfl rfl rfl rfl ?_ ?_ ?_
    · rw [kernelRecord_directory]
      exact hWords _ _ hDir (by decide) (.inr (by decide))
    · rw [kernelRecord_directory]
      exact hWords _ _ ht (by decide) (.inl hNe)
    · rw [kernelRecord_pages]
      exact hWords _ _ hDir (by decide) (.inr (by decide))
  have hClear :=
    hSelf₂.tables.memset (show 1021 < 1024 by decide) hEntry
      hUDir.symm hUDir.symm
  have hSame :
      ∀ g i, g % 4096 = 0 → g ≠ u → i < 1024 →
        ((m.ram.setWord m.root 1021 (u + 3)).clearFrame
            u).word g i =
          (m.ram.setWord m.root 1021 (u + 3)).word g i := by
    intro g i hg hgu hi
    exact (ByteMemory.sameOn_clearFrame _ hu hg hgu).word hi
  refine ⟨_, hClear, rfl, ⟨hCurrent, ?_, rfl, ?_, hNe, hUDir,
    hUT⟩, ?_⟩
  · refine hSelf₂.congr rfl rfl rfl rfl ?_ ?_ ?_
    · rw [kernelRecord_directory]
      exact hSame _ _ hDir hUDir.symm (by decide)
    · rw [kernelRecord_directory]
      exact hSame _ _ ht hUT.symm (by decide)
    · rw [kernelRecord_pages]
      exact hSame _ _ hDir hUDir.symm (by decide)
  · exact (ByteMemory.entry_congr
      (hSame _ 1021 hDir hUDir.symm (by decide))).trans hEntry
  · intro g i hg hgu hi hOther
    exact (hSame g i hg hgu hi).trans (hWords g i hg hi hOther)

theorem stackTable_ok
    {t : Nat}
    (hSelf : SelfMapped m (kernelRecord dir) t)
    (hRoot : m.root = dir)
    (hCurrent : m.currentDirectory = .kernelDirectory)
    (hGood : GoodFrames m.frames)
    (hDirNew : dir ∉ m.frames)
    (hTNew : t ∉ m.frames)
    (hNe : t ≠ dir)
    (hRun :
      (do
        let kernel ← readDirectory .kernelDirectory
        let page ← pmmAllocPage
        storeAt kernel.directory
          (pgdirIdxFromAddr PMM_STACK_START)
          (page ||| PAGE_PRESENT ||| PAGE_WRITE)
        memset
          (index kernel.pages
            (pgFirstDirFromAddr PMM_STACK_START)) 0
          PAGE_SIZE : VmM Unit).run m =
        .ok () m') :
    ∃ u, m.frames = u :: m'.frames ∧
      KernelDirectory m' dir t u ∧
      ∀ g i, g % 4096 = 0 → g ≠ u → i < 1024 →
        (g ≠ dir ∨ i ≠ 1021) →
          m'.ram.word g i = m.ram.word g i := by
  have hRecord := hSelf.current
  rw [hCurrent] at hRecord
  have hAlloc := hRun
  rw [EStateM.bind_of_ok (run_readDirectory hRecord),
    EStateM.bind_eq_ok_iff] at hAlloc
  rcases hAlloc with ⟨u, m₁, hAlloc, _⟩
  rcases pmmAllocPage_ok hAlloc with ⟨rest, hFrames, _⟩
  rcases stackTable_total hSelf hRoot hCurrent hGood hDirNew
    hTNew hNe hFrames with ⟨m₂, hRun', hRest, hKernel, hSame⟩
  cases hRun'.symm.trans hRun
  refine ⟨u, ?_, hKernel, hSame⟩
  rw [hFrames, hRest]

/- The switch to the kernel's directory. -/
theorem Prepared.run_switch
    {m₀ : Machine}
    {t : Nat}
    (hPrepared : Prepared dir t m₀ m) :
    (switchPageDirectory .kernelDirectory).run m =
      .ok ()
        { m with
          currentDirectory := .kernelDirectory
          cr3 := dir } := by
  unfold switchPageDirectory
  rw [EStateM.bind_of_ok (run_readDirectory hPrepared.record)]
  rfl

/- The frames of the directory are not handed out again. -/
theorem Prepared.fresh
    {m₀ : Machine}
    {t : Nat}
    (hPrepared : Prepared dir t m₀ m)
    (hGood : GoodFrames m₀.frames) :
    GoodFrames m.frames ∧ dir ∉ m.frames ∧ t ∉ m.frames ∧
      t ≠ dir ∧ dir % 4096 = 0 ∧ t % 4096 = 0 := by
  rcases hPrepared.frames with ⟨tab, used, hFrames⟩
  rw [hFrames] at hGood
  have hNodup := hGood.nodup
  rw [List.cons_append, List.cons_append, List.cons_append]
    at hNodup
  refine ⟨hGood.sublist (List.sublist_append_right _ _), ?_, ?_,
    ?_, hGood.aligned dir (by simp), hGood.aligned t (by simp)⟩
  · intro hMem
    simp [hMem] at hNodup
  · intro hMem
    simp [hMem] at hNodup
  · rintro rfl
    simp at hNodup

/- What `init_vmm` leaves when it returns. -/
theorem initVmm_ok
    (hPaging : m.paging = false)
    (hGood : GoodFrames m.frames)
    (hRun : initVmm.run m = .ok () m') :
    ∃ dir t u used, KernelDirectory m' dir t u ∧
      m.frames = used ++ m'.frames ∧
      dir ∈ used ∧ t ∈ used ∧ u ∈ used := by
  unfold initVmm at hRun
  rw [EStateM.bind_eq_ok_iff] at hRun
  rcases hRun with ⟨_, m₁, hPrepare, hRun⟩
  rcases prepareKernelDirectory_ok hPaging hGood hPrepare with
    ⟨dir, t, hPrepared⟩
  rcases hPrepared.frames with ⟨tab, used, hFrames⟩
  rcases hPrepared.fresh hGood with
    ⟨hRest, hDirNew, hTNew, hNe, hDir, ht⟩
  rcases hPrepared.selfMapped hDir ht with ⟨hSelf, hRoot⟩
  rw [EStateM.bind_of_ok hPrepared.run_switch,
    EStateM.bind_of_ok (EStateM.run_modify _ _),
    EStateM.bind_of_ok (EStateM.run_get _),
    if_neg (by simp)] at hRun
  rcases stackTable_ok hSelf hRoot rfl hRest hDirNew hTNew hNe
    hRun with ⟨u, hTaken, hKernel, _⟩
  have hTaken' : m₁.frames = u :: m'.frames := hTaken
  refine ⟨dir, t, u, dir :: tab :: t :: used ++ [u], hKernel,
    ?_, by simp, by simp, by simp⟩
  rw [hFrames, hTaken']
  simp

------------------------------------------------------------
-- Enough Frames
------------------------------------------------------------

/- One frame is enough for one entry. -/
theorem fillEntry_total
    {i : Nat}
    (hPaging : m.paging = false)
    (hGood : GoodFrames (dir :: m.frames))
    (hi : i < 1012)
    (hSome : m.frames ≠ []) :
    ∃ m',
      ((do
        if (← loadAt dir i) = 0 then
          let tabPtr ← pmmAllocPage
          memset tabPtr 0 PAGE_SIZE
          storeAt dir i
            (tabPtr ||| PAGE_PRESENT ||| PAGE_WRITE)) :
              VmM Unit).run m =
        .ok () m' ∧
      m.frames.length ≤ m'.frames.length + 1 := by
  have hLoad :
      (loadAt dir i).run m = .ok (m.ram.word dir i) m :=
    hGood.run_loadAt List.mem_cons_self hPaging (by omega)
  rw [EStateM.bind_of_ok hLoad]
  split
  · rcases List.exists_cons_of_ne_nil hSome with
      ⟨tab, rest, hFrames⟩
    have hTab : tab ∈ dir :: m.frames := by
      rw [hFrames]
      simp
    have hAlloc :
        pmmAllocPage.run m =
          .ok tab (m.holding rest m.ram) :=
      run_pmmAllocPage hFrames
    rw [EStateM.bind_of_ok hAlloc,
      EStateM.bind_of_ok (hGood.run_memset hTab hPaging),
      hGood.run_storeAt List.mem_cons_self hPaging (by omega)]
    refine ⟨_, rfl, ?_⟩
    rw [hFrames]
    exact le_refl _
  · exact ⟨m, rfl, Nat.le_succ _⟩

theorem fillKernelTables_total
    (hPaging : m.paging = false)
    (hGood : GoodFrames (dir :: m.frames))
    (hEnough : 52 ≤ m.frames.length) :
    ∃ m', (fillKernelTables dir).run m = .ok () m' ∧
      Filled dir m m' ∧
      m.frames.length ≤ m'.frames.length + 52 := by
  have hCount :
      pgdirIdxFromAddr MOUNT_TABS_START -
        pgdirIdxFromAddr KERNEL_ADDRESS_SPACE = 52 := by
    decide
  have hStart :
      pgdirIdxFromAddr KERNEL_ADDRESS_SPACE = 960 := by
    decide
  unfold fillKernelTables
  rw [hCount, hStart]
  refine EStateM.upTo_total
    (I := fun k m' => Filled dir m m' ∧
      m.frames.length ≤ m'.frames.length + k)
    ⟨Filled.refl dir m, le_refl _⟩ ?_
  rintro k m₁ hk ⟨hFilled, hLeft⟩
  have hPaging₁ := hFilled.paging.trans hPaging
  have hGood₁ : GoodFrames (dir :: m₁.frames) := by
    rcases hFilled.frames with ⟨used, hUsed⟩
    rw [hUsed] at hGood
    exact hGood.sublist
      ((List.sublist_append_right used _).cons_cons dir)
  have hSome : m₁.frames ≠ [] := by
    intro hNil
    rw [hNil, List.length_nil] at hLeft
    omega
  rcases fillEntry_total hPaging₁ hGood₁
    (show 960 + k < 1012 by omega) hSome with
    ⟨m₂, hRun, hOne⟩
  refine ⟨m₂, hRun, hFilled.trans
    (fillEntry_ok hPaging₁ hGood₁ (by omega) hRun), ?_⟩
  omega

/- A loop of stores to one frame returns. -/
theorem stores_total
    {n : Nat}
    (v : Nat → Nat)
    (hGood : GoodFrames frames)
    (hf : f ∈ frames)
    (hPaging : m.paging = false)
    (hn : n ≤ 1024)
    (rest : List Nat)
    (ram : ByteMemory) :
    ∃ ram',
      (EStateM.upTo (fun i => storeAt f i (v i)) n).run
          (m.holding rest ram) =
        .ok () (m.holding rest ram') := by
  have hLoop :
      ∃ m',
        (EStateM.upTo (fun i => storeAt f i (v i)) n).run
            (m.holding rest ram) = .ok () m' ∧
          ∃ ram', m' = m.holding rest ram' := by
    refine EStateM.upTo_total
      (I := fun _ m' => ∃ ram', m' = m.holding rest ram')
      ⟨ram, rfl⟩ ?_
    rintro i _ hi ⟨ram₁, rfl⟩
    exact ⟨_, hGood.run_storeAt hf hPaging (by omega), _, rfl⟩
  rcases hLoop with ⟨_, hRun, ram', rfl⟩
  exact ⟨ram', hRun⟩

/- The tables are filled twice. -/
theorem fillTwice_total
    (hPaging : m.paging = false)
    (hGood : GoodFrames (dir :: m.frames))
    (hEnough : 105 ≤ m.frames.length) :
    ∃ m',
      (do
        fillKernelTables dir
        fillKernelTables dir : VmM Unit).run m = .ok () m' ∧
      m'.frames ≠ [] := by
  rcases fillKernelTables_total hPaging hGood (by omega) with
    ⟨m₁, hFirst, hFilled, hLeft⟩
  rcases hFilled.frames with ⟨used, hUsed⟩
  rw [hUsed] at hGood
  rcases fillKernelTables_total
    (hFilled.paging.trans hPaging)
    (hGood.sublist
      ((List.sublist_append_right used _).cons_cons dir))
    (by omega) with ⟨m₂, hSecond, _, hLeft'⟩
  refine ⟨m₂, ?_, ?_⟩
  · rw [EStateM.bind_of_ok hFirst]
    exact hSecond
  · intro hNil
    rw [hNil, List.length_nil] at hLeft'
    omega

/- With enough frames the part before paging returns. -/
theorem prepareKernelDirectory_total
    {tab t : Nat}
    (hPaging : m.paging = false)
    (hGood : GoodFrames m.frames)
    (hFrames : m.frames = dir :: tab :: t :: rest)
    (hEnough : 105 ≤ rest.length) :
    ∃ m', prepareKernelDirectory.run m = .ok () m' ∧
      m'.frames ≠ [] := by
  have hDirIn : dir ∈ m.frames := by
    rw [hFrames]
    simp
  have hTabIn : tab ∈ m.frames := by
    rw [hFrames]
    simp
  have hTIn : t ∈ m.frames := by
    rw [hFrames]
    simp
  have hAlloc :
      pmmAllocPage.run m =
        .ok dir (m.holding (tab :: t :: rest) m.ram) :=
    run_pmmAllocPage hFrames
  have hNext :
      ∀ f rest ram,
        pmmAllocPage.run (m.holding (f :: rest) ram) =
          .ok f (m.holding rest ram) :=
    fun _ _ _ => run_pmmAllocPage rfl
  have hIdentity :
      ∀ ram, ∃ ram',
        (EStateM.upTo
            (fun i =>
              storeAt tab i
                (i * 0x1000 ||| PAGE_PRESENT ||| PAGE_WRITE))
            (pgNumFromAddr LOWMEM_ID_MAP_END)).run
          (m.holding (t :: rest) ram) =
        .ok () (m.holding (t :: rest) ram') :=
    fun ram =>
      stores_total _ hGood hTabIn hPaging (by decide) _ ram
  have hRestGood : GoodFrames (dir :: rest) := by
    rw [hFrames] at hGood
    refine hGood.sublist (List.Sublist.cons_cons dir ?_)
    exact (List.sublist_cons_self t rest).trans
      (List.sublist_cons_self tab (t :: rest))
  unfold prepareKernelDirectory
  rw [EStateM.bind_of_ok hAlloc,
    EStateM.bind_of_ok (hGood.run_memset hDirIn hPaging),
    EStateM.bind_of_ok (hNext _ _ _),
    EStateM.bind_of_ok (hGood.run_memset hTabIn hPaging),
    EStateM.bind_of_ok
      (hGood.run_storeAt hDirIn hPaging (by decide))]
  rcases hIdentity _ with ⟨ram, hLoop⟩
  rw [EStateM.bind_of_ok hLoop,
    EStateM.bind_of_ok (hNext _ _ _),
    EStateM.bind_of_ok (hGood.run_memset hTIn hPaging),
    EStateM.bind_of_ok
      (hGood.run_storeAt hDirIn hPaging (by decide)),
    EStateM.bind_of_ok
      (hGood.run_storeAt hTIn hPaging (by decide)),
    EStateM.bind_of_ok
      (hGood.run_storeAt hDirIn hPaging (by decide))]
  unfold writeDirectory
  rw [EStateM.bind_of_ok (EStateM.run_modify _ _)]
  exact fillTwice_total hPaging hRestGood hEnough

/- With enough frames `init_vmm` returns. -/
theorem initVmm_total
    (hPaging : m.paging = false)
    (hGood : GoodFrames m.frames)
    (hEnough : 108 ≤ m.frames.length) :
    ∃ m', initVmm.run m = .ok () m' := by
  rcases hFrames : m.frames with
    _ | ⟨dir, _ | ⟨tab, _ | ⟨t, rest⟩⟩⟩
  · simp [hFrames] at hEnough
  · simp [hFrames] at hEnough
  · simp [hFrames] at hEnough
  · rw [hFrames] at hEnough
    simp only [List.length_cons] at hEnough
    rcases prepareKernelDirectory_total hPaging hGood hFrames
      (by omega) with ⟨m₁, hPrepare, hSome⟩
    rcases prepareKernelDirectory_ok hPaging hGood hPrepare
      with ⟨dir, t, hPrepared⟩
    rcases hPrepared.fresh hGood with
      ⟨hRest, hDirNew, hTNew, hNe, hDir, ht⟩
    rcases hPrepared.selfMapped hDir ht with ⟨hSelf, hRoot⟩
    rcases List.exists_cons_of_ne_nil hSome with
      ⟨u, more, hMore⟩
    rcases stackTable_total hSelf hRoot rfl hRest hDirNew hTNew
      hNe hMore with ⟨m', hRun, _⟩
    refine ⟨m', ?_⟩
    unfold initVmm
    rw [EStateM.bind_of_ok hPrepare,
      EStateM.bind_of_ok hPrepared.run_switch,
      EStateM.bind_of_ok (EStateM.run_modify _ _),
      EStateM.bind_of_ok (EStateM.run_get _),
      if_neg (by simp)]
    exact hRun

end Vmm

end SosKernel
