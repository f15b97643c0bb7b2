import SosKernel.Vmm.Access

/-
  What `map`, `unmap` and `get_mapping` do in a directory that
  is mapped into itself.

  Main declarations:
    * `SelfMapped`: the current directory and its windows
    * `run_getMapping_table`, `run_getMapping_none`
    * `run_map_table`, `run_map_fresh`, `run_unmap`
-/

------------------------------------------------------------
-- Flags
------------------------------------------------------------

namespace SosKernel

namespace Vmm

/- Flags are added to an aligned frame. -/
theorem or_flags
    {f flags : Nat}
    (hf : f % 4096 = 0)
    (hFlags : flags < 4096) :
    f ||| flags = f + flags := by
  have hMul : f = 2 ^ 12 * (f / 4096) := by omega
  rw [hMul, ← Nat.two_pow_add_eq_or_of_lt hFlags]

theorem or_present_write
    {f : Nat}
    (hf : f % 4096 = 0) :
    f ||| PAGE_PRESENT ||| PAGE_WRITE = f + 3 := by
  rw [Nat.or_assoc]
  exact or_flags hf (by decide)

/- The entry that `map` stores. -/
def mapEntry (pa flags : Nat) : Nat :=
  pageAddr pa ||| PAGE_PRESENT ||| flags

theorem pageAddr_aligned (x : Nat) :
    pageAddr x % 4096 = 0 := by
  unfold pageAddr PAGE_SIZE
  omega

theorem pageAddr_le (x : Nat) :
    pageAddr x ≤ x := by
  unfold pageAddr PAGE_SIZE
  omega

theorem pageAddr_of_aligned
    {f : Nat}
    (hf : f % 4096 = 0) :
    pageAddr f = f := by
  unfold pageAddr PAGE_SIZE
  omega

theorem mapEntry_eq
    {flags : Nat}
    (pa : Nat)
    (hFlags : flags < 4096) :
    ∃ low, low < 4096 ∧ low % 2 = 1 ∧
      mapEntry pa flags = pageAddr pa + low := by
  have hLow : 1 ||| flags < 2 ^ 12 :=
    Nat.or_lt_two_pow (by decide) hFlags
  refine ⟨1 ||| flags, hLow, ?_, ?_⟩
  · rw [Nat.or_mod_two_eq_one]
    exact .inl rfl
  · unfold mapEntry PAGE_PRESENT
    rw [Nat.or_assoc]
    exact or_flags (pageAddr_aligned pa) hLow

theorem entryFrame_mapEntry
    {pa flags : Nat}
    (hFlags : flags < 4096) :
    ByteMemory.entryFrame (mapEntry pa flags) =
      some (pageAddr pa) := by
  rcases mapEntry_eq pa hFlags with
    ⟨low, hLow, hOdd, hEq⟩
  rw [hEq]
  exact ByteMemory.entryFrame_add (pageAddr_aligned pa) hLow
    hOdd

theorem mapEntry_lt
    {pa flags : Nat}
    (hpa : pa < 2 ^ 32)
    (hFlags : flags < 4096) :
    mapEntry pa flags < 2 ^ 32 := by
  rcases mapEntry_eq pa hFlags with
    ⟨low, hLow, hOdd, hEq⟩
  rw [hEq]
  unfold pageAddr PAGE_SIZE
  omega

------------------------------------------------------------
-- The Current Directory
------------------------------------------------------------

/-
  The record `d` of the current directory gives the windows
  through which the directory shows itself, the first one by
  way of the page table `t`.
-/
structure SelfMapped
    (m : Machine)
    (d : PageDirectory)
    (t : Nat) : Prop where
  current : m.dirAt m.currentDirectory = some d
  physical : pageAddr d.physical = m.root
  maps : m.Maps d.directory t m.root
  tables : m.ShowsTables d.pages m.root

variable {m m' : Machine}
variable {d : PageDirectory}
variable {t u va pa flags : Nat}

theorem root_aligned (m : Machine) : m.root % 4096 = 0 :=
  pageAddr_aligned m.cr3

theorem entry_ne_zero
    {ram : ByteMemory}
    {f i : Nat}
    (hEntry : ram.entry f i = some t) :
    ram.word f i ≠ 0 := by
  intro hZero
  unfold ByteMemory.entry at hEntry
  rw [hZero] at hEntry
  cases hEntry

theorem SelfMapped.congr
    (hSelf : SelfMapped m d t)
    (hPaging : m'.paging = m.paging)
    (hRoot : m'.root = m.root)
    (hDirs : m'.dirAt = m.dirAt)
    (hCurrent : m'.currentDirectory = m.currentDirectory)
    (hDirectory :
      m'.ram.word m.root (d.directory / 2 ^ 22) =
        m.ram.word m.root (d.directory / 2 ^ 22))
    (hTable :
      m'.ram.word t (d.directory / 4096 % 1024) =
        m.ram.word t (d.directory / 4096 % 1024))
    (hPages :
      m'.ram.word m.root (d.pages / 2 ^ 22) =
        m.ram.word m.root (d.pages / 2 ^ 22)) :
    SelfMapped m' d t where
  current := by
    rw [hDirs, hCurrent]
    exact hSelf.current
  physical := hSelf.physical.trans hRoot.symm
  maps := by
    rw [hRoot]
    exact hSelf.maps.congr hPaging hRoot hDirectory hTable
  tables := by
    rw [hRoot]
    exact hSelf.tables.congr hPaging hRoot hPages

theorem SelfMapped.withFrames
    (hSelf : SelfMapped m d t)
    (frames : List Nat) :
    SelfMapped (m.withFrames frames) d t :=
  hSelf.congr rfl rfl rfl rfl rfl rfl rfl

theorem SelfMapped.run_readCurrent
    (hSelf : SelfMapped m d t) :
    readCurrent.run m = .ok d m := by
  unfold readCurrent
  rw [EStateM.bind_of_ok (EStateM.run_get m)]
  exact run_readDirectory hSelf.current

/- The directory entry of an address, as it is read. -/
theorem SelfMapped.loadAt
    (hSelf : SelfMapped m d t)
    (hva : va < 2 ^ 32) :
    (loadAt d.directory (pgdirIdxFromAddr va)).run m =
      .ok (m.ram.word m.root (va / 2 ^ 22)) m :=
  hSelf.maps.shows.loadAt (by
    unfold pgdirIdxFromAddr
    omega)

theorem pgNum_div (va : Nat) :
    pgNumFromAddr va / 1024 = va / 2 ^ 22 := by
  unfold pgNumFromAddr
  omega

theorem pgNum_mod (va : Nat) :
    pgNumFromAddr va % 1024 = va / 4096 % 1024 := rfl

theorem pgNum_lt
    (hva : va < 2 ^ 32) :
    pgNumFromAddr va < 2 ^ 20 := by
  unfold pgNumFromAddr
  omega

------------------------------------------------------------
-- Looking Up
------------------------------------------------------------

/- Without a page table nothing is mapped. -/
theorem SelfMapped.run_getMapping_none
    (hSelf : SelfMapped m d t)
    (hva : va < 2 ^ 32)
    (hZero : m.ram.word m.root (va / 2 ^ 22) = 0) :
    (getMapping va).run m = .ok none m := by
  unfold getMapping
  dsimp only
  rw [EStateM.bind_of_ok hSelf.run_readCurrent,
    EStateM.bind_of_ok (hSelf.loadAt hva), if_pos hZero]
  rfl

/- What `get_mapping` makes of an entry of a page table. -/
def entryMapping (e va : Nat) : Option Nat :=
  if e ≠ 0 then
    some (add32 (pageAddr e) (pageFlags va))
  else
    none

theorem SelfMapped.run_getMapping_table
    (hSelf : SelfMapped m d t)
    (hva : va < 2 ^ 32)
    (hEntry : m.ram.entry m.root (va / 2 ^ 22) = some u) :
    (getMapping va).run m =
      .ok
        (entryMapping (m.ram.word u (va / 4096 % 1024)) va)
        m := by
  have hNe := entry_ne_zero hEntry
  rw [← pgNum_div va] at hEntry
  have hLoad :=
    hSelf.tables.loadAt (pgNum_lt hva) hEntry
  rw [pgNum_mod] at hLoad
  unfold getMapping entryMapping
  dsimp only
  rw [EStateM.bind_of_ok hSelf.run_readCurrent,
    EStateM.bind_of_ok (hSelf.loadAt hva), if_neg hNe,
    EStateM.bind_of_ok hLoad]
  split
  · rw [EStateM.bind_of_ok hLoad]
    rfl
  · rfl

------------------------------------------------------------
-- The Final Comparison
------------------------------------------------------------

theorem loadAt_ok
    {base i v : Nat}
    (hRun : (loadAt base i).run m = .ok v m') :
    m' = m := by
  rcases load32_ok hRun with ⟨_, _, _, hSame⟩
  exact hSame

/- The comparison changes nothing. -/
theorem checkKernel_ok
    (hRun : (checkKernel d va).run m = .ok () m') :
    m' = m := by
  unfold checkKernel at hRun
  split at hRun
  · rw [EStateM.bind_eq_ok_iff] at hRun
    rcases hRun with ⟨_, m₁, hLoad, hRun⟩
    rw [EStateM.bind_eq_ok_iff] at hRun
    rcases hRun with ⟨_, m₂, hRead, hRun⟩
    rw [EStateM.bind_eq_ok_iff] at hRun
    rcases hRun with ⟨_, m₃, hLoad', hRun⟩
    cases hRun
    rw [loadAt_ok hLoad', (readDirectory_ok hRead).2,
      loadAt_ok hLoad]
  · cases hRun
    rfl

theorem run_checkKernel_user
    (hUser : va < KERNEL_ADDRESS_SPACE) :
    (checkKernel d va).run m = .ok () m := by
  unfold checkKernel
  rw [if_neg (Nat.not_le.mpr hUser)]
  rfl

/- Both tables can be read. -/
theorem run_checkKernel
    {kernel : PageDirectory}
    {k w : Nat}
    (hTables : m.ShowsTables d.pages m.root)
    (hKernel : m.dirAt .kernelDirectory = some kernel)
    (hKernelTables : m.ShowsTables kernel.pages k)
    (hva : va < 2 ^ 32)
    (hEntry : m.ram.entry m.root (va / 2 ^ 22) = some u)
    (hKernelEntry : m.ram.entry k (va / 2 ^ 22) = some w) :
    (checkKernel d va).run m = .ok () m := by
  rw [← pgNum_div va] at hEntry hKernelEntry
  have hLoad := hTables.loadAt (pgNum_lt hva) hEntry
  have hLoad' :=
    hKernelTables.loadAt (pgNum_lt hva) hKernelEntry
  unfold checkKernel
  split
  · rw [EStateM.bind_of_ok hLoad,
      EStateM.bind_of_ok (run_readDirectory hKernel),
      EStateM.bind_of_ok hLoad']
    rfl
  · rfl

------------------------------------------------------------
-- Mapping and Unmapping
------------------------------------------------------------

/- Mapping a page whose page table exists. -/
theorem SelfMapped.run_map_table
    (hSelf : SelfMapped m d t)
    (hva : va < 2 ^ 32)
    (hEntry : m.ram.entry m.root (va / 2 ^ 22) = some u) :
    (map va pa flags).run m =
      (checkKernel d va).run
        (m.withRam
          (m.ram.setWord u (va / 4096 % 1024)
            (mapEntry pa flags))) := by
  have hNe := entry_ne_zero hEntry
  rw [← pgNum_div va] at hEntry
  have hStore :=
    hSelf.tables.storeAt (v := mapEntry pa flags)
      (pgNum_lt hva) hEntry
  rw [pgNum_mod] at hStore
  unfold map
  dsimp only
  rw [EStateM.bind_of_ok hSelf.run_readCurrent,
    EStateM.bind_of_ok (hSelf.loadAt hva), if_neg hNe]
  exact EStateM.bind_of_ok hStore

/- The memory after a page table `f` has been installed. -/
def freshTable
    (ram : ByteMemory)
    (root i f : Nat) : ByteMemory :=
  (ram.setWord root i (f + 3)).clearFrame f

/- A new page table in a self-mapped directory. -/
theorem SelfMapped.freshTable
    {i f : Nat}
    (hSelf : SelfMapped m d t)
    (hi : i < 1024)
    (hZero : m.ram.word m.root i = 0)
    (hf : f % 4096 = 0)
    (hLt : f < 2 ^ 32)
    (hRoot : f ≠ m.root)
    (hTable : f ≠ t) :
    SelfMapped
        (m.withRam (Vmm.freshTable m.ram m.root i f)) d t ∧
      (Vmm.freshTable m.ram m.root i f).entry m.root i =
        some f := by
  have hAligned := root_aligned m
  have htAligned := ByteMemory.entry_aligned hSelf.maps.dir
  have hDirFits := hSelf.maps.fits
  have hPagesFits := hSelf.tables.fits
  have hWords :
      ∀ g j, g % 4096 = 0 → g ≠ f → j < 1024 →
        (g ≠ m.root ∨ j ≠ i) →
        (Vmm.freshTable m.ram m.root i f).word g j =
          m.ram.word g j := by
    intro g j hg hNe hj hOther
    unfold Vmm.freshTable
    rw [(ByteMemory.sameOn_clearFrame _ hf hg hNe).word hj]
    exact ByteMemory.word_setWord_of_ne _ _ hAligned hg hi
      hj hOther
  have hNeDir : d.directory / 2 ^ 22 ≠ i := by
    rintro rfl
    exact entry_ne_zero hSelf.maps.dir hZero
  have hNePages : d.pages / 2 ^ 22 ≠ i := by
    rintro rfl
    exact entry_ne_zero hSelf.tables.entry hZero
  constructor
  · refine hSelf.congr rfl rfl rfl rfl ?_ ?_ ?_
    · exact hWords _ _ hAligned hRoot.symm (by omega)
        (.inr hNeDir)
    · by_cases hSame : t = m.root
      · -- the directory is its own page table
        have hEntry := hSelf.maps.table
        rw [hSame] at hEntry ⊢
        refine hWords _ _ hAligned hRoot.symm (by omega)
          (.inr ?_)
        rintro rfl
        exact entry_ne_zero hEntry hZero
      · exact hWords _ _ htAligned hTable.symm (by omega)
          (.inl hSame)
    · exact hWords _ _ hAligned hRoot.symm (by omega)
        (.inr hNePages)
  · unfold Vmm.freshTable
    have hWord :
        ((m.ram.setWord m.root i (f + 3)).clearFrame f).word
            m.root i =
          f + 3 := by
      rw [(ByteMemory.sameOn_clearFrame _ hf hAligned
        hRoot.symm).word hi]
      exact ByteMemory.word_setWord_self _ _ _ (by omega)
    rw [ByteMemory.entry_of_word hWord]
    exact ByteMemory.entryFrame_add hf (by decide) (by decide)

/- Mapping a page whose page table has to be created. -/
theorem SelfMapped.run_map_fresh
    {f : Nat}
    {rest : List Nat}
    (hSelf : SelfMapped m d t)
    (hva : va < 2 ^ 32)
    (hZero : m.ram.word m.root (va / 2 ^ 22) = 0)
    (hFrames : m.frames = f :: rest)
    (hf : f % 4096 = 0)
    (hLt : f < 2 ^ 32)
    (hRoot : f ≠ m.root)
    (hTable : f ≠ t) :
    (map va pa flags).run m =
      (checkKernel d va).run
        ((m.withFrames rest).withRam
          ((Vmm.freshTable m.ram m.root (va / 2 ^ 22)
            f).setWord f (va / 4096 % 1024)
              (mapEntry pa flags))) := by
  have hi : va / 2 ^ 22 < 1024 := by omega
  have hAligned := root_aligned m
  have hFitsPages := hSelf.tables.fits
  have hNePages : d.pages / 2 ^ 22 ≠ va / 2 ^ 22 := by
    intro hSame
    apply entry_ne_zero hSelf.tables.entry
    rw [hSame]
    exact hZero
  -- the new entry is stored
  have hSelf₁ := hSelf.withFrames rest
  have hStore :
      (storeAt d.directory (pgdirIdxFromAddr va)
          (f ||| PAGE_PRESENT ||| PAGE_WRITE)).run
        (m.withFrames rest) =
      .ok ()
        ((m.withFrames rest).withRam
          (m.ram.setWord m.root (va / 2 ^ 22) (f + 3))) := by
    rw [or_present_write hf]
    exact hSelf₁.maps.shows.storeAt hi
  -- the new table is cleared through it
  have hTables :
      ((m.withFrames rest).withRam
        (m.ram.setWord m.root (va / 2 ^ 22)
          (f + 3))).ShowsTables d.pages m.root := by
    refine hSelf.tables.congr rfl rfl ?_
    exact ByteMemory.word_setWord_of_ne _ _ hAligned hAligned
      hi (by omega) (.inr hNePages)
  have hEntry :
      (m.ram.setWord m.root (va / 2 ^ 22) (f + 3)).entry
        m.root (va / 2 ^ 22) = some f := by
    rw [ByteMemory.entry_of_word
      (ByteMemory.word_setWord_self _ _ _ (by omega))]
    exact ByteMemory.entryFrame_add hf (by decide) (by decide)
  have hClear :=
    hTables.memset hi hEntry hRoot.symm hRoot.symm
  -- the page is entered
  rcases hSelf.freshTable hi hZero hf hLt hRoot hTable with
    ⟨hSelf₂, hEntry₂⟩
  have hSelf₃ := hSelf₂.withFrames rest
  have hEntry₃ :
      (Vmm.freshTable m.ram m.root (va / 2 ^ 22) f).entry
        m.root (pgNumFromAddr va / 1024) = some f := by
    rw [pgNum_div]
    exact hEntry₂
  have hEnter :=
    hSelf₃.tables.storeAt (v := mapEntry pa flags)
      (pgNum_lt hva) hEntry₃
  rw [pgNum_mod] at hEnter
  unfold map
  dsimp only
  rw [EStateM.bind_of_ok hSelf.run_readCurrent,
    EStateM.bind_of_ok (hSelf.loadAt hva), if_pos hZero,
    EStateM.bind_of_ok (run_pmmAllocPage hFrames),
    EStateM.bind_of_ok hStore]
  refine (EStateM.bind_of_ok hClear).trans ?_
  exact EStateM.bind_of_ok hEnter

/- A page table is needed, and no page is free. -/
theorem SelfMapped.map_frames
    (hSelf : SelfMapped m d t)
    (hva : va < 2 ^ 32)
    (hZero : m.ram.word m.root (va / 2 ^ 22) = 0)
    (hRun : (map va pa flags).run m = .ok () m') :
    m.frames ≠ [] := by
  intro hNone
  unfold map at hRun
  dsimp only at hRun
  rw [EStateM.bind_of_ok hSelf.run_readCurrent,
    EStateM.bind_of_ok (hSelf.loadAt hva), if_pos hZero,
    EStateM.bind_eq_ok_iff] at hRun
  rcases hRun with ⟨page, m₁, hAlloc, _⟩
  rcases pmmAllocPage_ok hAlloc with ⟨rest, hFrames, _⟩
  rw [hNone] at hFrames
  cases hFrames

/- Unmapping a page whose page table exists. -/
theorem SelfMapped.run_unmap
    (hSelf : SelfMapped m d t)
    (hva : va < 2 ^ 32)
    (hEntry : m.ram.entry m.root (va / 2 ^ 22) = some u) :
    (unmap va).run m =
      .ok ()
        (m.withRam
          (m.ram.setWord u (va / 4096 % 1024) 0)) := by
  rw [← pgNum_div va] at hEntry
  have hStore :=
    hSelf.tables.storeAt (v := 0) (pgNum_lt hva) hEntry
  rw [pgNum_mod] at hStore
  unfold unmap
  rw [EStateM.bind_of_ok hSelf.run_readCurrent]
  exact hStore

end Vmm

end SosKernel
