import SosKernel.Vmm.Init

/-
  The page tables of the kernel's heap after `init_vmm`.

  Main declarations:
    * `HeapTables`: empty tables for the range of the heap
    * `initVmm_heapTables`
-/

------------------------------------------------------------
-- RangeFilled the Range
------------------------------------------------------------

namespace SosKernel

namespace Vmm

variable {m m' : Machine}
variable {dir : Nat}
variable {tabs : List Nat}

/-
  The entries of the directory from 960 on are the frames
  `tabs`, and these have no entries.
-/
structure HeapTables
    (ram : ByteMemory)
    (dir : Nat)
    (tabs : List Nat) : Prop where
  entries :
    ∀ i (hi : i < tabs.length),
      ram.word dir (960 + i) = tabs[i] + 3
  empty :
    ∀ w ∈ tabs, ∀ j, j < 1024 → ram.word w j = 0

theorem HeapTables.congr
    {ram ram' : ByteMemory}
    (hTables : HeapTables ram dir tabs)
    (hDir :
      ∀ i, i < tabs.length →
        ram'.word dir (960 + i) = ram.word dir (960 + i))
    (hTabs :
      ∀ w ∈ tabs, ∀ j, j < 1024 →
        ram'.word w j = ram.word w j) :
    HeapTables ram' dir tabs where
  entries := fun i hi =>
    (hDir i hi).trans (hTables.entries i hi)
  empty := fun w hw j hj =>
    (hTabs w hw j hj).trans (hTables.empty w hw j hj)

/- What an empty entry is filled with. -/
theorem fillEntry_new
    {i : Nat}
    (hPaging : m.paging = false)
    (hGood : GoodFrames (dir :: m.frames))
    (hi : i < 1012)
    (hEmpty : m.ram.word dir i = 0)
    (hRun :
      ((do
        if (← loadAt dir i) = 0 then
          let tabPtr ← pmmAllocPage
          memset tabPtr 0 PAGE_SIZE
          storeAt dir i
            (tabPtr ||| PAGE_PRESENT ||| PAGE_WRITE)) :
              VmM Unit).run m =
        .ok () m') :
    ∃ tab rest, m.frames = tab :: rest ∧
      m' = m.holding rest
        ((m.ram.clearFrame tab).setWord dir i (tab + 3)) := by
  have hLoad :
      (loadAt dir i).run m = .ok (m.ram.word dir i) m :=
    hGood.run_loadAt List.mem_cons_self hPaging (by omega)
  rw [EStateM.bind_of_ok hLoad, if_pos hEmpty,
    EStateM.bind_eq_ok_iff] at hRun
  rcases hRun with ⟨tab, m₁, hAlloc, hRun⟩
  rcases pmmAllocPage_holding hAlloc with ⟨rest, hFrames, rfl⟩
  have hTab : tab ∈ dir :: m.frames := by
    rw [hFrames]
    simp
  rw [EStateM.bind_of_ok (hGood.run_memset hTab hPaging),
    hGood.run_storeAt List.mem_cons_self hPaging (by omega),
    or_present_write (hGood.aligned tab hTab)] at hRun
  cases hRun
  exact ⟨tab, rest, hFrames, rfl⟩

/- The first `k` entries have been filled. -/
structure RangeFilled
    (dir : Nat)
    (m m' : Machine)
    (k : Nat)
    (tabs : List Nat) : Prop where
  length_eq : tabs.length = k
  frames : m.frames = tabs ++ m'.frames
  paging : m'.paging = false
  tables : HeapTables m'.ram dir tabs
  empty :
    ∀ i, 960 + k ≤ i → i < 1012 → m'.ram.word dir i = 0

theorem RangeFilled.next
    {m₁ m₂ : Machine}
    {k tab : Nat}
    {rest : List Nat}
    (hFilling : RangeFilled dir m m₁ k tabs)
    (hGood : GoodFrames (dir :: m.frames))
    (hk : k < 52)
    (hFrames : m₁.frames = tab :: rest)
    (hEnd : m₂ = m₁.holding rest
      ((m₁.ram.clearFrame tab).setWord dir (960 + k)
        (tab + 3))) :
    RangeFilled dir m m₂ (k + 1) (tabs ++ [tab]) := by
  subst hEnd
  have hAll : m.frames = tabs ++ tab :: rest := by
    rw [hFilling.frames, hFrames]
  rw [hAll] at hGood
  have hNodup := hGood.nodup
  rw [List.nodup_cons] at hNodup
  have hDir := hGood.aligned dir List.mem_cons_self
  have hTab := hGood.aligned tab (by simp)
  have hFits := hGood.fits tab (by simp)
  have hTabs : ∀ w ∈ tabs, w % 4096 = 0 ∧ w ≠ tab ∧ w ≠ dir := by
    intro w hw
    refine ⟨hGood.aligned w (by simp [hw]), ?_, ?_⟩
    · rintro rfl
      exact (List.nodup_append.mp hNodup.2).2.2 w hw w
        List.mem_cons_self rfl
    · rintro rfl
      exact hNodup.1 (List.mem_append_left _ hw)
  have hNe : dir ≠ tab := by
    rintro rfl
    exact hNodup.1 (by simp)
  have hCount := hFilling.length_eq
  -- other words stay, the new table has none
  have hWord {g i : Nat}
      (hg : g % 4096 = 0)
      (hi : i < 1024)
      (hOther : g ≠ dir ∨ i ≠ 960 + k)
      (hgTab : g ≠ tab) :
      ((m₁.ram.clearFrame tab).setWord dir (960 + k)
          (tab + 3)).word g i = m₁.ram.word g i :=
    (ByteMemory.word_setWord_of_ne _ _ hDir hg (by omega) hi
      hOther).trans
        ((ByteMemory.sameOn_clearFrame _ hTab hg hgTab).word
          hi)
  refine
    { length_eq := by simp [hCount]
      frames := by
        rw [hAll, List.append_assoc]
        rfl
      paging := hFilling.paging
      tables := ⟨?_, ?_⟩
      empty := ?_ }
  · intro i hi
    rw [List.length_append, List.length_singleton] at hi
    by_cases hLast : i = k
    · subst hLast
      have hAt : (tabs ++ [tab])[i] = tab := by
        rw [List.getElem_append_right (by omega)]
        simp [hCount]
      rw [hAt]
      exact ByteMemory.word_setWord_self _ _ _ (by omega)
    · have hOld : i < tabs.length := by omega
      rw [List.getElem_append_left hOld,
        ← hFilling.tables.entries i hOld]
      exact hWord hDir (by omega) (.inr (by omega)) hNe
  · intro w hw j hj
    rcases List.mem_append.mp hw with hOld | hNew
    · rcases hTabs w hOld with ⟨hAligned, hwTab, hwDir⟩
      refine (hWord hAligned hj (.inl hwDir) hwTab).trans ?_
      exact hFilling.tables.empty w hOld j hj
    · rw [List.mem_singleton] at hNew
      subst hNew
      refine (ByteMemory.word_setWord_of_ne _ _ hDir hTab
        (by omega) hj (.inl hNe.symm)).trans ?_
      exact ByteMemory.word_clearFrame_self _ w hj
  · intro i hLo hHi
    refine (hWord hDir (by omega) (.inr (by omega)) hNe).trans
      ?_
    exact hFilling.empty i (by omega) hHi

/- An empty range gets a table for each of its entries. -/
theorem fillKernelTables_new
    (hRun : (fillKernelTables dir).run m = .ok () m')
    (hPaging : m.paging = false)
    (hGood : GoodFrames (dir :: m.frames))
    (hEmpty :
      ∀ i, 960 ≤ i → i < 1012 → m.ram.word dir i = 0) :
    ∃ tabs, RangeFilled dir m m' 52 tabs := by
  have hCount :
      pgdirIdxFromAddr MOUNT_TABS_START -
        pgdirIdxFromAddr KERNEL_ADDRESS_SPACE = 52 := by
    decide
  have hStart :
      pgdirIdxFromAddr KERNEL_ADDRESS_SPACE = 960 := by
    decide
  unfold fillKernelTables at hRun
  rw [hCount, hStart] at hRun
  refine EStateM.upTo_invariant
    (I := fun k m' => ∃ tabs, RangeFilled dir m m' k tabs) hRun
    ⟨[], rfl, rfl, hPaging,
      ⟨fun i hi => absurd hi (Nat.not_lt_zero i),
        fun w hw => absurd hw List.not_mem_nil⟩, hEmpty⟩ ?_
  rintro k m₁ m₂ hk ⟨tabs, hFilling⟩ hBody
  have hGood₁ : GoodFrames (dir :: m₁.frames) := by
    have hAll := hGood
    rw [hFilling.frames] at hAll
    exact hAll.sublist
      ((List.sublist_append_right tabs _).cons_cons dir)
  rcases fillEntry_new hFilling.paging hGood₁ (by omega)
    (hFilling.empty _ (le_refl _) (by omega)) hBody with
    ⟨tab, rest, hFrames, hEnd⟩
  exact ⟨_, hFilling.next hGood hk hFrames hEnd⟩

/- A range that is filled stays as it is. -/
theorem fillKernelTables_filled
    (hRun : (fillKernelTables dir).run m = .ok () m')
    (hPaging : m.paging = false)
    (hGood : GoodFrames (dir :: m.frames))
    (hFilled :
      ∀ i, 960 ≤ i → i < 1012 → m.ram.word dir i ≠ 0) :
    m' = m := by
  have hCount :
      pgdirIdxFromAddr MOUNT_TABS_START -
        pgdirIdxFromAddr KERNEL_ADDRESS_SPACE = 52 := by
    decide
  have hStart :
      pgdirIdxFromAddr KERNEL_ADDRESS_SPACE = 960 := by
    decide
  unfold fillKernelTables at hRun
  rw [hCount, hStart] at hRun
  refine EStateM.upTo_invariant
    (I := fun _ m' => m' = m) hRun rfl ?_
  rintro k m₁ m₂ hk hSame hBody
  rw [hSame] at hBody
  have hLoad :
      (loadAt dir (960 + k)).run m =
        .ok (m.ram.word dir (960 + k)) m :=
    hGood.run_loadAt List.mem_cons_self hPaging (by omega)
  rw [EStateM.bind_of_ok hLoad,
    if_neg (hFilled _ (by omega) (by omega))] at hBody
  cases hBody
  rfl

------------------------------------------------------------
-- After `init_vmm`
------------------------------------------------------------

/-
  The tables of the heap are different ones, and no other
  frame of the directory.
-/
structure HeapReady
    (m : Machine)
    (tabs used : List Nat) : Prop where
  length_eq : tabs.length = 52
  tables : HeapTables m.ram m.root tabs
  nodup : tabs.Nodup
  used : ∀ w ∈ tabs, w ∈ used
  apart :
    ∀ dir t u, KernelDirectory m dir t u →
      ∀ w ∈ tabs, w ≠ dir ∧ w ≠ t ∧ w ≠ u

/- The frames of the kernel's directory can be read off. -/
theorem KernelDirectory.unique
    {dir' t t' u u' : Nat}
    (hKernel : KernelDirectory m dir t u)
    (hKernel' : KernelDirectory m dir' t' u') :
    dir = dir' ∧ t = t' ∧ u = u' := by
  have hDir : dir = dir' := hKernel.root.symm.trans hKernel'.root
  subst hDir
  have hT := hKernel.self.maps.dir
  have hT' := hKernel'.self.maps.dir
  have hU := hKernel.stackTable
  have hU' := hKernel'.stackTable
  rw [kernelRecord_directory] at hT hT'
  exact ⟨rfl, Option.some.inj (hT.symm.trans hT'),
    Option.some.inj (hU.symm.trans hU')⟩

theorem initVmm_heapTables
    (hPaging : m.paging = false)
    (hGood : GoodFrames m.frames)
    (hRun : initVmm.run m = .ok () m') :
    ∃ tabs used, m.frames = used ++ m'.frames ∧
      HeapReady m' tabs used := by
  unfold initVmm at hRun
  rw [EStateM.bind_eq_ok_iff] at hRun
  rcases hRun with ⟨_, m₃, hPrepare, hRun⟩
  rcases prepareKernelDirectory_cases hPaging hGood hPrepare
    with ⟨dir, tab, t, m₁, m₂, hUnfilled, hFirst, hSecond⟩
  rcases hUnfilled.goodFrames hGood with
    ⟨hRestGood, hTNew, hNe, hTAligned⟩
  rcases fillKernelTables_new hFirst hUnfilled.paging hRestGood
    hUnfilled.empty with ⟨tabs, hFilled⟩
  have hCount := hFilled.length_eq
  -- the second loop finds the range filled
  have hSame : m₃ = m₂ := by
    refine fillKernelTables_filled hSecond hFilled.paging ?_ ?_
    · have hAll := hRestGood
      rw [hFilled.frames] at hAll
      exact hAll.sublist
        ((List.sublist_append_right tabs _).cons_cons dir)
    · intro i hLo hHi
      have hEntry :=
        hFilled.tables.entries (i - 960) (by omega)
      have hIndex : 960 + (i - 960) = i := by omega
      rw [hIndex] at hEntry
      omega
  have hPrepared := hUnfilled.prepared hGood hFirst hSecond
  rcases hPrepared.fresh hGood with
    ⟨hRest, hDirNew, hTNew', _, hDir, ht⟩
  rcases hPrepared.selfMapped hDir ht with ⟨hSelf, hRoot⟩
  rw [EStateM.bind_of_ok hPrepared.run_switch,
    EStateM.bind_of_ok (EStateM.run_modify _ _),
    EStateM.bind_of_ok (EStateM.run_get _),
    if_neg (by simp)] at hRun
  rcases stackTable_ok hSelf hRoot rfl hRest hDirNew hTNew' hNe
    hRun with ⟨u, hTaken, hKernel, hWords⟩
  have hTaken' : m₃.frames = u :: m'.frames := hTaken
  rw [hSame] at hTaken'
  have hAll :
      m.frames =
        (dir :: tab :: t :: tabs ++ [u]) ++ m'.frames := by
    rw [hUnfilled.frames, hFilled.frames, hTaken']
    simp
  have hNodup := hGood.nodup
  rw [hAll] at hNodup
  have hUsed := (List.nodup_append.mp hNodup).1
  have hTabs : ∀ w ∈ tabs, w ∈ m.frames := by
    intro w hw
    rw [hAll]
    simp [hw]
  have hApart : ∀ w ∈ tabs, w ≠ dir ∧ w ≠ t ∧ w ≠ u := by
    intro w hw
    refine ⟨?_, ?_, ?_⟩
    · rintro rfl
      simp [hw] at hUsed
    · rintro rfl
      simp [hw] at hUsed
    · rintro rfl
      rw [List.nodup_append] at hUsed
      exact hUsed.2.2 w (by simp [hw]) w List.mem_cons_self rfl
  have hRoot' : m'.root = dir := hKernel.root
  refine ⟨tabs, _, hAll,
    { length_eq := hCount
      tables := ?_
      nodup := ?_
      used := fun w hw => by simp [hw]
      apart := ?_ }⟩
  · rw [hRoot']
    have hStarted : HeapTables m₃.ram dir tabs := by
      rw [hSame]
      exact hFilled.tables
    refine hStarted.congr ?_ ?_
    · intro i hi
      refine hWords dir (960 + i) hDir ?_ (by omega)
        (.inr (by omega))
      intro hEq
      exact hDirNew (by
        rw [hSame, hTaken', hEq]
        exact List.mem_cons_self)
    · intro w hw j hj
      rcases hApart w hw with ⟨hwDir, _, hwU⟩
      exact hWords w j (hGood.aligned w (hTabs w hw)) hwU hj
        (.inl hwDir)
  · have hSub : tabs.Sublist (tabs ++ [u]) :=
      List.sublist_append_left tabs [u]
    exact hUsed.sublist (((hSub.cons t).cons tab).cons dir)
  · intro dir' t' u' hKernel'
    rcases hKernel.unique hKernel' with ⟨rfl, rfl, rfl⟩
    exact hApart

end Vmm

end SosKernel
