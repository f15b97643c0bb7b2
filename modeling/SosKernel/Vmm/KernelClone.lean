import SosKernel.Vmm.MountPoint

/-
  What `clone_directory` makes of the kernel's directory.

  Main declarations:
    * `Unused`: a frame that is not in use
    * `Cloning`: source and destination are mounted
    * `linkRam`: the loop over the entries
    * `Cloned`, `Setup.run_cloneDirectory`

  Every entry of the kernel's directory equals itself, so the
  loop copies nothing and links every page table.
-/

------------------------------------------------------------
-- Frames in Use
------------------------------------------------------------

namespace SosKernel

namespace Vmm

variable {m m' : Machine}
variable {d : PageDirectory}
variable {t mt tk k f g i j n v w p : Nat}
variable {p' w' : Nat}
variable {new tab : Nat}

/-
  A frame on which neither the current directory nor the
  kernel's rests.
-/
structure Unused
    (m : Machine)
    (t mt tk k f : Nat) : Prop where
  aligned : f % 4096 = 0
  lt : f < 2 ^ 32
  root : f ≠ m.root
  table : f ≠ t
  mountTable : f ≠ mt
  kernelTable : f ≠ tk
  kernel : f ≠ k

theorem Unused.congr
    (hUnused : Unused m t mt tk k f)
    (hRoot : m'.root = m.root) :
    Unused m' t mt tk k f :=
  ⟨hUnused.aligned, hUnused.lt, by rw [hRoot]; exact hUnused.root,
    hUnused.table, hUnused.mountTable, hUnused.kernelTable,
    hUnused.kernel⟩

theorem Unused.withRam
    (hUnused : Unused m t mt tk k f)
    (ram : ByteMemory) :
    Unused (m.withRam ram) t mt tk k f :=
  hUnused.congr rfl

/- Memories that differ in one frame only. -/
def SameBut (f : Nat) (ram ram' : ByteMemory) : Prop :=
  ∀ g j, g % 4096 = 0 → j < 1024 → g ≠ f →
    ram'.word g j = ram.word g j

theorem sameBut_setWord
    (ram : ByteMemory)
    (v : Nat)
    (hf : f % 4096 = 0)
    (hi : i < 1024) :
    SameBut f ram (ram.setWord f i v) := by
  intro g j hg hj hNe
  exact ByteMemory.word_setWord_of_ne ram v hf hg hi hj
    (.inl hNe)

theorem sameBut_clearFrame
    (ram : ByteMemory)
    (hf : f % 4096 = 0) :
    SameBut f ram (ram.clearFrame f) := by
  intro g j hg hj hNe
  exact (ByteMemory.sameOn_clearFrame ram hf hg hNe).word hj

theorem SameBut.trans
    {ram ram' ram'' : ByteMemory}
    (hFirst : SameBut f ram ram')
    (hSecond : SameBut f ram' ram'') :
    SameBut f ram ram'' := by
  intro g j hg hj hNe
  rw [hSecond g j hg hj hNe, hFirst g j hg hj hNe]

/- The current directory does not rest on an unused frame. -/
theorem Setup.sameBut
    {ram : ByteMemory}
    (hSetup : Setup m d t mt tk k)
    (hUnused : Unused m t mt tk k f)
    (hSame : SameBut f m.ram ram) :
    Setup (m.withRam ram) d t mt tk k := by
  apply hSetup.withRam
  intro g j hg hj hCritical
  apply hSame g j hg hj
  rcases hCritical with ⟨rfl, _⟩ | ⟨rfl, _⟩ |
    ⟨rfl | rfl, _⟩
  · exact hUnused.root.symm
  · exact hUnused.kernel.symm
  · exact hUnused.table.symm
  · exact hUnused.kernelTable.symm

theorem MountedAt.sameBut
    {ram : ByteMemory}
    {e : Nat}
    (hMounted : MountedAt m mt p w e)
    (hSetup : Setup m d t mt tk k)
    (hUnused : Unused m t mt tk k f)
    (hSame : SameBut f m.ram ram) :
    MountedAt (m.withRam ram) mt p w e := by
  have hSlot := hMounted.slot
  unfold IsSlot at hSlot
  exact hMounted.congr rfl
    (hSame _ _ hSetup.mountTable_aligned (by omega)
      hUnused.mountTable.symm)
    (hSame _ _ (root_aligned m) (by omega)
      hUnused.root.symm)

------------------------------------------------------------
-- Two Mounts
------------------------------------------------------------

/-
  The kernel's directory is mounted as the source, and the
  new one as the destination.
-/
structure Cloning
    (m : Machine)
    (d : PageDirectory)
    (t mt tk k p w p' w' new : Nat) : Prop where
  setup : Setup m d t mt tk k
  src : MountedAt m mt p w k
  dest : MountedAt m mt p' w' new
  unused : Unused m t mt tk k new

theorem Cloning.sameBut
    {ram : ByteMemory}
    (hCloning : Cloning m d t mt tk k p w p' w' new)
    (hUnused : Unused m t mt tk k f)
    (hSame : SameBut f m.ram ram) :
    Cloning (m.withRam ram) d t mt tk k p w p' w' new where
  setup := hCloning.setup.sameBut hUnused hSame
  src := hCloning.src.sameBut hCloning.setup hUnused hSame
  dest := hCloning.dest.sameBut hCloning.setup hUnused hSame
  unused := hCloning.unused.withRam ram

theorem Cloning.withFrames
    (hCloning : Cloning m d t mt tk k p w p' w' new)
    (frames : List Nat) :
    Cloning (m.withFrames frames) d t mt tk k p w p' w'
      new where
  setup :=
    hCloning.setup.congr (m.withFrames frames)
      rfl rfl rfl rfl rfl (fun _ _ _ _ _ => rfl)
  src := hCloning.src.congr rfl rfl rfl
  dest := hCloning.dest.congr rfl rfl rfl
  unused := hCloning.unused.congr rfl

theorem Cloning.loadAt_src
    (hCloning : Cloning m d t mt tk k p w p' w' new)
    (hi : i < 1024) :
    (loadAt (mountAt p w).directory i).run m =
      .ok (m.ram.word k i) m :=
  (hCloning.src.maps hCloning.setup).shows.loadAt hi

theorem Cloning.loadAt_kernel
    (hCloning : Cloning m d t mt tk k p w p' w' new)
    (hi : i < 1024) :
    (loadAt KERNEL_DIR_VIRTUAL i).run m =
      .ok (m.ram.word k i) m :=
  hCloning.setup.kernelMaps.shows.loadAt hi

theorem Cloning.storeAt_dest
    (hCloning : Cloning m d t mt tk k p w p' w' new)
    (hi : i < 1024) :
    (storeAt (mountAt p' w').directory i v).run m =
      .ok () (m.withRam (m.ram.setWord new i v)) :=
  (hCloning.dest.maps hCloning.setup).shows.storeAt hi

theorem Cloning.memset_dest
    (hCloning : Cloning m d t mt tk k p w p' w' new) :
    (memset (mountAt p' w').directory 0 PAGE_SIZE).run m =
      .ok () (m.withRam (m.ram.clearFrame new)) :=
  ((hCloning.dest.maps hCloning.setup).steady
    hCloning.unused.root.symm
    hCloning.unused.mountTable.symm).memset

------------------------------------------------------------
-- The Loop
------------------------------------------------------------

/- The memory after the entries below `n` are linked. -/
def linkRam
    (ram : ByteMemory)
    (k new : Nat) : Nat → ByteMemory
| 0 => ram
| n + 1 =>
    if ram.word k n = 0 then
      linkRam ram k new n
    else
      (linkRam ram k new n).setWord new n (ram.word k n)

theorem sameBut_linkRam
    {ram : ByteMemory}
    (hNew : new % 4096 = 0)
    (hn : n ≤ 1024) :
    SameBut new ram (linkRam ram k new n) := by
  induction n with
  | zero =>
      intro g j _ _ _
      rfl
  | succ n ih =>
      rw [linkRam]
      split
      · exact ih (by omega)
      · exact (ih (by omega)).trans
          (sameBut_setWord _ _ hNew (by omega))

/- Each entry of a cleared directory becomes the kernel's. -/
theorem word_linkRam
    {ram : ByteMemory}
    (hNew : new % 4096 = 0)
    (hClear : ∀ j, j < 1024 → ram.word new j = 0)
    (hn : n ≤ 1024)
    (hj : j < 1024) :
    (linkRam ram k new n).word new j =
      if j < n then ram.word k j else 0 := by
  induction n with
  | zero =>
      rw [if_neg (by omega)]
      exact hClear j hj
  | succ n ih =>
      have ih := ih (by omega)
      rw [linkRam]
      by_cases hLast : j = n
      · subst hLast
        rw [if_neg (Nat.lt_irrefl j)] at ih
        rw [if_pos (Nat.lt_succ_self j)]
        split
        · rename_i hZero
          rw [ih, hZero]
        · exact ByteMemory.word_setWord_self _ _ _
            (ByteMemory.word_lt _ _ _)
      · have hSame :
            (if j < n + 1 then ram.word k j else 0) =
              if j < n then ram.word k j else 0 := by
          by_cases hLt : j < n
          · rw [if_pos hLt, if_pos (by omega)]
          · rw [if_neg hLt, if_neg (by omega)]
        rw [hSame, ← ih]
        split
        · rfl
        · exact ByteMemory.word_setWord_of_ne _ _ hNew hNew
            (by omega) hj (.inr hLast)

variable (copy : Nat → Nat → VmM Unit)

/- An entry of the kernel's directory is linked. -/
theorem Cloning.run_cloneEntry
    (hCloning : Cloning m d t mt tk k p w p' w' new)
    (hi : i < 1024) :
    (cloneEntry copy (mountAt p w) (mountAt p' w') i).run m =
      .ok ()
        (m.withRam
          (if m.ram.word k i = 0 then
            m.ram
          else
            m.ram.setWord new i (m.ram.word k i))) := by
  have hLoad := hCloning.loadAt_src hi
  have hKernel := hCloning.loadAt_kernel hi
  unfold cloneEntry
  rw [EStateM.bind_of_ok hLoad]
  by_cases hZero : m.ram.word k i = 0
  · rw [if_neg (not_not.mpr hZero), if_pos hZero]
    rfl
  · rw [if_pos hZero, if_neg hZero,
      EStateM.bind_of_ok
        (run_readDirectory hCloning.setup.kernel),
      EStateM.bind_of_ok hLoad]
    dsimp only
    rw [EStateM.bind_of_ok hKernel, if_pos rfl,
      EStateM.bind_of_ok hLoad]
    exact hCloning.storeAt_dest hi

theorem Cloning.run_loop
    (hCloning : Cloning m d t mt tk k p w p' w' new) :
    (EStateM.upTo
        (cloneEntry copy (mountAt p w) (mountAt p' w'))
        1024).run m =
      .ok () (m.withRam (linkRam m.ram k new 1024)) := by
  have hNew := hCloning.unused.aligned
  refine EStateM.run_upTo
    (s := fun i => m.withRam (linkRam m.ram k new i)) ?_
  intro i hi
  have hSame :
      SameBut new m.ram (linkRam m.ram k new i) :=
    sameBut_linkRam hNew (by omega)
  have hCloning' := hCloning.sameBut hCloning.unused hSame
  have hWord :
      (linkRam m.ram k new i).word k i = m.ram.word k i :=
    hSame _ _ hCloning.setup.kernel_aligned hi
      hCloning.unused.kernel.symm
  have hRun := Cloning.run_cloneEntry copy hCloning' hi
  rw [withRam_ram, hWord] at hRun
  rw [linkRam]
  exact hRun

------------------------------------------------------------
-- Both Mounts
------------------------------------------------------------

/- The words that two mount points leave alone. -/
def OffSlots (root mt p w p' w' g j : Nat) : Prop :=
  (g ≠ mt ∨ (j ≠ p ∧ j ≠ p')) ∧
    (g ≠ root ∨ (j ≠ w ∧ j ≠ w'))

/- The memory with the source and the destination mounted. -/
def mountBoth
    (m : Machine)
    (mt k p w p' w' new : Nat) : ByteMemory :=
  mountRam (mountRam m.ram mt m.root p w k) mt m.root p' w' new

theorem Setup.word_mountBoth
    (hSetup : Setup m d t mt tk k)
    (hSlot : IsSlot p w)
    (hSlot' : IsSlot p' w')
    (hg : g % 4096 = 0)
    (hj : j < 1024)
    (hOff : OffSlots m.root mt p w p' w' g j) :
    (mountBoth m mt k p w p' w' new).word g j =
      m.ram.word g j := by
  have hmt := hSetup.mountTable_aligned
  have hRoot := root_aligned m
  rcases hOff with ⟨hPage, hWindow⟩
  unfold mountBoth
  rw [word_mountRam hmt hRoot hg hSlot' hj
      (hPage.imp_right And.right)
      (hWindow.imp_right And.right),
    word_mountRam hmt hRoot hg hSlot hj
      (hPage.imp_right And.left)
      (hWindow.imp_right And.left)]

/- What is empty once the first directory is mounted. -/
theorem Setup.empty_mount
    {x : Nat}
    {ps ws : List Nat}
    (hSetup : Setup m d t mt tk k)
    (hx : x < 2 ^ 32)
    (hPages : emptyPages m mt = p :: ps)
    (hWindows : emptyWindows m = w :: ws) :
    emptyPages
        (m.withRam (mountRam m.ram mt m.root p w x)) mt =
          ps ∧
      emptyWindows
        (m.withRam (mountRam m.ram mt m.root p w x)) =
          ws := by
  rcases isSlot_of_mem hPages hWindows with ⟨hSlot, _, _⟩
  have hMounted := hSetup.mountedAt hSlot hx
  have hmt := hSetup.mountTable_aligned
  have hRoot := root_aligned m
  have hApart := hSetup.apart
  constructor
  · refine emptyEntries_fill hPages
      (entry_ne_zero hMounted.page) ?_
    intro j hLo hHi hNe
    change j < 1019 + 4 at hHi
    exact word_mountRam hmt hRoot hmt hSlot (by omega)
      (.inr hNe) (.inl hApart)
  · refine emptyEntries_fill hWindows
      (entry_ne_zero hMounted.window) ?_
    intro j hLo hHi hNe
    change j < 1012 + 8 at hHi
    exact word_mountRam hmt hRoot hRoot hSlot (by omega)
      (.inl hApart.symm) (.inr hNe)

/- The slots of the two mounts, which differ. -/
theorem Setup.slots
    {ps ws : List Nat}
    (hSetup : Setup m d t mt tk k)
    (hPages : emptyPages m mt = p :: p' :: ps)
    (hWindows : emptyWindows m = w :: w' :: ws) :
    IsSlot p w ∧ IsSlot p' w' ∧ p ≠ p' ∧ w ≠ w' := by
  have hLt : 0 < 2 ^ 32 := by decide
  rcases isSlot_of_mem hPages hWindows with ⟨hSlot, _, _⟩
  have hMounted := hSetup.mountedAt hSlot hLt
  rcases hSetup.empty_mount hLt hPages hWindows with
    ⟨hPages', hWindows'⟩
  rcases isSlot_of_mem hPages' hWindows' with
    ⟨hSlot', hPageZero, hWindowZero⟩
  refine ⟨hSlot, hSlot', ?_, ?_⟩
  · rintro rfl
    exact entry_ne_zero hMounted.page hPageZero
  · rintro rfl
    exact entry_ne_zero hMounted.window hWindowZero

/- Both are mounted. -/
theorem Setup.cloning
    {ps ws : List Nat}
    (hSetup : Setup m d t mt tk k)
    (hPages : emptyPages m mt = p :: p' :: ps)
    (hWindows : emptyWindows m = w :: w' :: ws)
    (hk : k < 2 ^ 32)
    (hUnused : Unused m t mt tk k new) :
    Cloning (m.withRam (mountBoth m mt k p w p' w' new))
      d t mt tk k p w p' w' new := by
  have hmt := hSetup.mountTable_aligned
  have hRoot := root_aligned m
  have hApart := hSetup.apart
  rcases hSetup.slots hPages hWindows with
    ⟨hSlot, hSlot', hNePage, hNeWindow⟩
  have hSetup' := hSetup.mount (x := k) hSlot
  have hMounted := hSetup.mountedAt hSlot hk
  have hDest := hSetup'.mountedAt hSlot' hUnused.lt
  rw [pageAddr_of_aligned hSetup.kernel_aligned] at hMounted
  rw [pageAddr_of_aligned hUnused.aligned] at hDest
  have hIs := hSlot
  unfold IsSlot at hIs
  refine ⟨hSetup'.mount hSlot', ?_, hDest, hUnused.withRam _⟩
  refine hMounted.congr rfl ?_ ?_
  · exact word_mountRam hmt hRoot hmt hSlot' (by omega)
      (.inr hNePage) (.inl hApart)
  · exact word_mountRam hmt hRoot hRoot hSlot' (by omega)
      (.inl hApart.symm) (.inr hNeWindow)

theorem Setup.run_mountBoth
    {dir : DirPtr}
    {record : PageDirectory}
    {ps ws : List Nat}
    (hSetup : Setup m d t mt tk k)
    (hPages : emptyPages m mt = p :: p' :: ps)
    (hWindows : emptyWindows m = w :: w' :: ws)
    (hk : k < 2 ^ 32)
    (hRecord : m.dirAt dir = some record)
    (hUnused : Unused m t mt tk k record.physical) :
    ∃ mMid,
      (mountDirectory .kernelDirectory).run m =
          .ok (mountAt p w) mMid ∧
        (mountDirectory dir).run mMid =
          .ok (mountAt p' w')
            (m.withRam
              (mountBoth m mt k p w p' w'
                record.physical)) ∧
        Cloning
          (m.withRam
            (mountBoth m mt k p w p' w' record.physical))
          d t mt tk k p w p' w' record.physical := by
  have hFirst :=
    hSetup.run_mountDirectory hPages hWindows hSetup.kernel
  rcases isSlot_of_mem hPages hWindows with ⟨hSlot, _, _⟩
  rcases hSetup.empty_mount hk hPages hWindows with
    ⟨hPages', hWindows'⟩
  have hSetup' := hSetup.mount (x := k) hSlot
  have hSecond :=
    hSetup'.run_mountDirectory hPages' hWindows' hRecord
  exact ⟨_, hFirst, hSecond,
    hSetup.cloning hPages hWindows hk hUnused⟩

------------------------------------------------------------
-- The New Directory
------------------------------------------------------------

/- The memory with the new directory mapped into itself. -/
def selfRam
    (ram : ByteMemory)
    (new tab : Nat) : ByteMemory :=
  ((ram.setWord new 958 (tab + 3)).setWord
    tab 1023 (new + 3)).setWord new 959 (new + 3)

theorem Cloning.run_mapSelf
    (tab : Nat)
    (rest : List Nat)
    (hCloning : Cloning m d t mt tk k p w p' w' new)
    (hFrames : m.frames = tab :: rest)
    (hUnused : Unused m t mt tk k tab) :
    (mapSelf (mountAt p' w')
        ⟨new, USER_DIR_VIRTUAL, USER_TABLES_VIRTUAL⟩).run m =
      .ok ()
        ((m.withFrames rest).withRam
          (selfRam m.ram new tab)) := by
  have hNew := hCloning.unused
  have hTabAligned := hUnused.aligned
  have hTabLt := hUnused.lt
  have hFrames' := hCloning.withFrames rest
  -- the entry of the page table
  have hStore₁ :
      (storeAt (mountAt p' w').directory
          (pgdirIdxFromAddr USER_DIR_VIRTUAL)
          (tab ||| PAGE_PRESENT ||| PAGE_WRITE)).run
        (m.withFrames rest) =
      .ok ()
        ((m.withFrames rest).withRam
          (m.ram.setWord new 958 (tab + 3))) := by
    rw [or_present_write hTabAligned]
    exact hFrames'.storeAt_dest (by decide)
  have hFirst :=
    hFrames'.sameBut hFrames'.unused
      (sameBut_setWord m.ram (tab + 3) hNew.aligned
        (i := 958) (by decide))
  -- the page of the directory, through the window
  have hEntry :
      (m.ram.setWord new 958 (tab + 3)).entry new
        (pgNumFromAddr USER_DIR_VIRTUAL / 1024) =
          some tab := by
    have hIndex :
        pgNumFromAddr USER_DIR_VIRTUAL / 1024 = 958 := rfl
    rw [hIndex, ByteMemory.entry_of_word
      (ByteMemory.word_setWord_self _ _ _ (by omega))]
    exact ByteMemory.entryFrame_add hTabAligned (by decide)
      (by decide)
  have hStore₂ :
      (storeAt (mountAt p' w').pages
          (pgNumFromAddr USER_DIR_VIRTUAL)
          (new ||| PAGE_PRESENT ||| PAGE_WRITE)).run
        ((m.withFrames rest).withRam
          (m.ram.setWord new 958 (tab + 3))) =
      .ok ()
        ((m.withFrames rest).withRam
          ((m.ram.setWord new 958 (tab + 3)).setWord
            tab 1023 (new + 3))) := by
    rw [or_present_write hNew.aligned]
    exact (hFirst.dest.tables hFirst.setup).storeAt
      (by decide) hEntry
  have hTab : Unused (m.withFrames rest) t mt tk k tab :=
    hUnused.congr rfl
  have hSecond :=
    hFirst.sameBut (hTab.withRam _)
      (sameBut_setWord _ (new + 3) hTabAligned (i := 1023)
        (by decide))
  have hStore₃ :
      (storeAt (mountAt p' w').directory
          (pgdirIdxFromAddr USER_TABLES_VIRTUAL)
          (new ||| PAGE_PRESENT ||| PAGE_WRITE)).run
        ((m.withFrames rest).withRam
          ((m.ram.setWord new 958 (tab + 3)).setWord
            tab 1023 (new + 3))) =
      .ok ()
        ((m.withFrames rest).withRam
          (selfRam m.ram new tab)) := by
    rw [or_present_write hNew.aligned]
    exact hSecond.storeAt_dest (by decide)
  unfold mapSelf
  dsimp only
  rw [EStateM.bind_of_ok (run_pmmAllocPage hFrames),
    EStateM.bind_of_ok hStore₁, EStateM.bind_of_ok hStore₂]
  exact hStore₃

theorem sameBut_selfRam
    (ram : ByteMemory)
    (hNew : new % 4096 = 0)
    (hTab : tab % 4096 = 0)
    (hg : g % 4096 = 0)
    (hj : j < 1024)
    (hNeNew : g ≠ new)
    (hNeTab : g ≠ tab) :
    (selfRam ram new tab).word g j = ram.word g j := by
  unfold selfRam
  rw [sameBut_setWord _ _ hNew (by decide) g j hg hj hNeNew,
    sameBut_setWord _ _ hTab (by decide) g j hg hj hNeTab,
    sameBut_setWord _ _ hNew (by decide) g j hg hj hNeNew]

/- The words of the new directory and of its page table. -/
theorem word_selfRam
    (ram : ByteMemory)
    (hNew : new % 4096 = 0)
    (hTab : tab % 4096 = 0)
    (hNewLt : new < 2 ^ 32)
    (hTabLt : tab < 2 ^ 32)
    (hNe : tab ≠ new) :
    (selfRam ram new tab).word new 958 = tab + 3 ∧
      (selfRam ram new tab).word new 959 = new + 3 ∧
      (selfRam ram new tab).word tab 1023 = new + 3 ∧
      (∀ j, j < 1024 → j ≠ 958 → j ≠ 959 →
        (selfRam ram new tab).word new j =
          ram.word new j) ∧
      ∀ j, j < 1023 →
        (selfRam ram new tab).word tab j =
          ram.word tab j := by
  have hLast :
      ∀ g j, g % 4096 = 0 → j < 1024 →
        (g ≠ new ∨ j ≠ 959) →
        (selfRam ram new tab).word g j =
          ((ram.setWord new 958 (tab + 3)).setWord
            tab 1023 (new + 3)).word g j := by
    intro g j hg hj hOther
    exact ByteMemory.word_setWord_of_ne _ _ hNew hg
      (by decide) hj hOther
  have hMid :
      ∀ g j, g % 4096 = 0 → j < 1024 →
        (g ≠ tab ∨ j ≠ 1023) →
        ((ram.setWord new 958 (tab + 3)).setWord
            tab 1023 (new + 3)).word g j =
          (ram.setWord new 958 (tab + 3)).word g j := by
    intro g j hg hj hOther
    exact ByteMemory.word_setWord_of_ne _ _ hTab hg
      (by decide) hj hOther
  refine ⟨?_, ?_, ?_, ?_, ?_⟩
  · rw [hLast _ _ hNew (by decide) (.inr (by decide)),
      hMid _ _ hNew (by decide) (.inl hNe.symm)]
    exact ByteMemory.word_setWord_self _ _ _ (by omega)
  · exact ByteMemory.word_setWord_self _ _ _ (by omega)
  · rw [hLast _ _ hTab (by decide) (.inl hNe)]
    exact ByteMemory.word_setWord_self _ _ _ (by omega)
  · intro j hj hDir hPages
    rw [hLast _ _ hNew hj (.inr hPages),
      hMid _ _ hNew hj (.inl hNe.symm)]
    exact ByteMemory.word_setWord_of_ne _ _ hNew hNew
      (by decide) hj (.inr hDir)
  · intro j hj
    rw [hLast _ _ hTab (by omega) (.inl hNe),
      hMid _ _ hTab (by omega) (.inr (by omega))]
    exact ByteMemory.word_setWord_of_ne _ _ hNew hTab
      (by decide) (by omega) (.inl hNe)

------------------------------------------------------------
-- The Whole Call
------------------------------------------------------------

/- The memory with both mount points cleared. -/
def umountBoth
    (ram : ByteMemory)
    (root mt p w p' w' : Nat) : ByteMemory :=
  umountRam (umountRam ram mt root p w) mt root p' w'

theorem Cloning.run_umountBoth
    (hCloning : Cloning m d t mt tk k p w p' w' new) :
    ∃ mMid,
      (umountDirectory (mountAt p w)).run m = .ok () mMid ∧
        (umountDirectory (mountAt p' w')).run mMid =
          .ok ()
            (m.withRam
              (umountBoth m.ram m.root mt p w p' w')) := by
  have hSetup := hCloning.setup
  have hSlot := hCloning.src.slot
  have hFirst := hSetup.run_umountDirectory hSlot
  have hSecond :=
    (hSetup.umount hSlot).run_umountDirectory
      hCloning.dest.slot
  exact ⟨_, hFirst, hSecond⟩

theorem Setup.word_umountBoth
    {ram : ByteMemory}
    (hSetup : Setup m d t mt tk k)
    (hSlot : IsSlot p w)
    (hSlot' : IsSlot p' w')
    (hg : g % 4096 = 0)
    (hj : j < 1024)
    (hOff : OffSlots m.root mt p w p' w' g j) :
    (umountBoth ram m.root mt p w p' w').word g j =
      ram.word g j := by
  have hmt := hSetup.mountTable_aligned
  have hRoot := root_aligned m
  rcases hOff with ⟨hPage, hWindow⟩
  unfold umountBoth
  rw [word_umountRam hmt hRoot hg hSlot' hj
      (hPage.imp_right And.right)
      (hWindow.imp_right And.right),
    word_umountRam hmt hRoot hg hSlot hj
      (hPage.imp_right And.left)
      (hWindow.imp_right And.left)]

/- The four entries are zero. -/
theorem Setup.umountBoth_zero
    {ram : ByteMemory}
    (hSetup : Setup m d t mt tk k)
    (hSlot : IsSlot p w)
    (hSlot' : IsSlot p' w')
    (hg : g % 4096 = 0)
    (hj : j < 1024)
    (hOn : ¬ OffSlots m.root mt p w p' w' g j) :
    (umountBoth ram m.root mt p w p' w').word g j = 0 := by
  have hmt := hSetup.mountTable_aligned
  have hRoot := root_aligned m
  have hApart := hSetup.apart
  have hInner :
      ∀ ram : ByteMemory, ∀ p w, IsSlot p w →
        (umountRam ram mt m.root p w).word mt p = 0 ∧
          (umountRam ram mt m.root p w).word m.root w =
            0 := by
    intro ram p w hSlot
    unfold IsSlot at hSlot
    unfold umountRam
    constructor
    · rw [ByteMemory.word_setWord_of_ne _ _ hRoot hmt
        (by omega) (by omega) (.inl hApart)]
      exact ByteMemory.word_setWord_self _ _ _ (by decide)
    · exact ByteMemory.word_setWord_self _ _ _ (by decide)
  unfold umountBoth
  by_cases hLast :
      (g = mt ∧ j = p') ∨ (g = m.root ∧ j = w')
  · rcases hLast with ⟨rfl, rfl⟩ | ⟨rfl, rfl⟩
    · exact (hInner _ _ _ hSlot').1
    · exact (hInner _ _ _ hSlot').2
  · rcases not_or.mp hLast with ⟨hPage, hWindow⟩
    have hFirst :
        (g = mt ∧ j = p) ∨ (g = m.root ∧ j = w) := by
      by_contra hNone
      rcases not_or.mp hNone with ⟨hPage', hWindow'⟩
      refine hOn ⟨?_, ?_⟩
      · by_cases hSame : g = mt
        · exact .inr ⟨fun h => hPage' ⟨hSame, h⟩,
            fun h => hPage ⟨hSame, h⟩⟩
        · exact .inl hSame
      · by_cases hSame : g = m.root
        · exact .inr ⟨fun h => hWindow' ⟨hSame, h⟩,
            fun h => hWindow ⟨hSame, h⟩⟩
        · exact .inl hSame
    rw [word_umountRam hmt hRoot hg hSlot' hj
      (not_and_or.mp hPage) (not_and_or.mp hWindow)]
    rcases hFirst with ⟨rfl, rfl⟩ | ⟨rfl, rfl⟩
    · exact (hInner _ _ _ hSlot).1
    · exact (hInner _ _ _ hSlot).2

/-
  The clone of the kernel's directory in the frame `new`,
  with the page table `tab` for its own page.  All words
  outside these two frames are as they were.
-/
structure Cloned
    (m m' : Machine)
    (q k new tab : Nat)
    (rest qs : List Nat) : Prop where
  machine :
    m' =
      { m with
        ram := m'.ram
        frames := rest
        kmallocs := qs
        dirAt :=
          Function.update m.dirAt (.heap q)
            (some
              ⟨new, USER_DIR_VIRTUAL,
                USER_TABLES_VIRTUAL⟩) }
  others :
    ∀ g j, g % 4096 = 0 → j < 1024 → g ≠ new → g ≠ tab →
      m'.ram.word g j = m.ram.word g j
  linked :
    ∀ j, j < 1012 → j ≠ 958 → j ≠ 959 →
      m'.ram.word new j = m.ram.word k j
  table : m'.ram.word new 958 = tab + 3
  window : m'.ram.word new 959 = new + 3
  self : m'.ram.word tab 1023 = new + 3
  stale :
    ∀ j, j < 1023 →
      m'.ram.word tab j = m.ram.word tab j

theorem run_kmallocDirectory
    {q : Nat}
    {qs : List Nat}
    (hKmallocs : m.kmallocs = q :: qs)
    (hFree : m.dirAt (.heap q) = none) :
    kmallocDirectory.run m =
      .ok (.heap q) { m with kmallocs := qs } := by
  unfold kmallocDirectory
  rw [EStateM.bind_of_ok (EStateM.run_get m), hKmallocs]
  dsimp only
  rw [EStateM.bind_of_ok
    (EStateM.run_modify _ m), EStateM.bind_of_ok
    (EStateM.run_get _), if_neg]
  · rfl
  · dsimp only
    rw [hFree]
    exact Bool.false_ne_true

/- The machine with a record changed. -/
def Machine.withRecord
    (m : Machine)
    (dir : DirPtr)
    (record : PageDirectory) : Machine :=
  { m with
    dirAt := Function.update m.dirAt dir (some record) }

theorem withRecord_of_ne
    {dir dir' : DirPtr}
    {record : PageDirectory}
    (hNe : dir' ≠ dir) :
    (m.withRecord dir record).dirAt dir' = m.dirAt dir' := by
  unfold Machine.withRecord
  exact Function.update_of_ne hNe _ _

theorem Setup.withRecord
    {dir : DirPtr}
    {record : PageDirectory}
    (hSetup : Setup m d t mt tk k)
    (hCurrent : dir ≠ m.currentDirectory)
    (hKernel : dir ≠ .kernelDirectory) :
    Setup (m.withRecord dir record) d t mt tk k :=
  hSetup.congr (m.withRecord dir record) rfl rfl rfl
    (withRecord_of_ne hCurrent.symm)
    (withRecord_of_ne hKernel.symm)
    (fun _ _ _ _ _ => rfl)

/- The machine with a new record, and its frame taken. -/
def cloneStart
    (m : Machine)
    (q new : Nat)
    (qs frames : List Nat) : Machine :=
  (Machine.withFrames { m with kmallocs := qs }
    frames).withRecord (.heap q) ⟨new, 0, 0⟩

theorem Cloning.mapped
    (tab : Nat)
    (rest : List Nat)
    (hCloning : Cloning m d t mt tk k p w p' w' new)
    (hUnused : Unused m t mt tk k tab) :
    Cloning ((m.withFrames rest).withRam
      (selfRam m.ram new tab)) d t mt tk k p w p' w' new := by
  have hNew := hCloning.unused
  have hStart := hCloning.withFrames rest
  have hTab : Unused (m.withFrames rest) t mt tk k tab :=
    hUnused.congr rfl
  have hFirst :=
    hStart.sameBut hStart.unused
      (sameBut_setWord m.ram (tab + 3) hNew.aligned
        (i := 958) (by decide))
  have hSecond :=
    hFirst.sameBut (hTab.withRam _)
      (sameBut_setWord _ (new + 3) hUnused.aligned
        (i := 1023) (by decide))
  exact hSecond.sameBut hSecond.unused
    (sameBut_setWord _ (new + 3) hNew.aligned (i := 959)
      (by decide))

theorem Cloning.withRecord
    (dir : DirPtr)
    (record : PageDirectory)
    (hCloning : Cloning m d t mt tk k p w p' w' new)
    (hCurrent : dir ≠ m.currentDirectory)
    (hKernel : dir ≠ .kernelDirectory) :
    Cloning (m.withRecord dir record) d t mt tk k
      p w p' w' new where
  setup := hCloning.setup.withRecord hCurrent hKernel
  src := hCloning.src.congr rfl rfl rfl
  dest := hCloning.dest.congr rfl rfl rfl
  unused := hCloning.unused.congr rfl

/- The memory after the new directory has been filled. -/
def fillRam
    (m : Machine)
    (mt k p w p' w' new tab : Nat) : ByteMemory :=
  umountBoth
    (selfRam
      (linkRam (m.ram.clearFrame new) k new 1024) new tab)
    m.root mt p w p' w'

/- The part of the call after both directories are mounted. -/
theorem Cloning.run_fill
    (q tab : Nat)
    (rest : List Nat)
    (hCloning : Cloning m d t mt tk k p w p' w' new)
    (hCurrent : DirPtr.heap q ≠ m.currentDirectory)
    (hFrames : m.frames = tab :: rest)
    (hTab : Unused m t mt tk k tab) :
    (do
      memset (mountAt p' w').directory 0 PAGE_SIZE
      EStateM.upTo
        (cloneEntry copy (mountAt p w) (mountAt p' w')) 1024
      let record : PageDirectory :=
        ⟨new, USER_DIR_VIRTUAL, USER_TABLES_VIRTUAL⟩
      writeDirectory (.heap q) record
      mapSelf (mountAt p' w') record
      umountDirectory (mountAt p w)
      umountDirectory (mountAt p' w')
      return DirPtr.heap q : VmM DirPtr).run m =
      .ok (.heap q)
        (((m.withRecord (.heap q)
          ⟨new, USER_DIR_VIRTUAL,
            USER_TABLES_VIRTUAL⟩).withFrames rest).withRam
          (fillRam m mt k p w p' w' new tab)) := by
  have hCleared :=
    hCloning.sameBut hCloning.unused
      (sameBut_clearFrame m.ram hCloning.unused.aligned)
  have hLinked :=
    hCleared.sameBut hCleared.unused
      (sameBut_linkRam (k := k) (n := 1024)
        hCloning.unused.aligned (le_refl _))
  have hRecord :=
    Cloning.withRecord (.heap q)
      ⟨new, USER_DIR_VIRTUAL, USER_TABLES_VIRTUAL⟩ hLinked
      hCurrent nofun
  have hSelf :=
    Cloning.run_mapSelf tab rest hRecord hFrames
      (hTab.congr rfl)
  have hMapped :=
    Cloning.mapped tab rest hRecord (hTab.congr rfl)
  rcases hMapped.run_umountBoth with
    ⟨mLast, hUmountSrc, hUmountDest⟩
  rw [EStateM.bind_of_ok hCloning.memset_dest,
    EStateM.bind_of_ok (Cloning.run_loop copy hCleared)]
  dsimp only
  have hWrite (m : Machine) :
      (writeDirectory (.heap q)
          ⟨new, USER_DIR_VIRTUAL,
            USER_TABLES_VIRTUAL⟩).run m =
        .ok ()
          (m.withRecord (.heap q)
            ⟨new, USER_DIR_VIRTUAL,
              USER_TABLES_VIRTUAL⟩) := rfl
  refine (EStateM.bind_of_ok (hWrite _)).trans ?_
  refine (EStateM.bind_of_ok hSelf).trans ?_
  refine (EStateM.bind_of_ok hUmountSrc).trans ?_
  exact (EStateM.bind_of_ok hUmountDest).trans rfl

/- The machine with the record and both mounts. -/
def cloneMounted
    (m : Machine)
    (mt k p w p' w' q new : Nat)
    (qs frames : List Nat) : Machine :=
  (cloneStart m q new qs frames).withRam
    (mountBoth m mt k p w p' w' new)

/- The machine when the call returns. -/
def cloneEnd
    (m : Machine)
    (mt k p w p' w' q new tab : Nat)
    (qs rest : List Nat) : Machine :=
  (((cloneMounted m mt k p w p' w' q new qs
    (tab :: rest)).withRecord (.heap q)
      ⟨new, USER_DIR_VIRTUAL, USER_TABLES_VIRTUAL⟩).withFrames
        rest).withRam
    (fillRam
      (cloneMounted m mt k p w p' w' q new qs (tab :: rest))
      mt k p w p' w' new tab)

/- `clone_directory(&kernel_directory)` returns. -/
theorem Setup.run_cloneDirectory
    {q : Nat}
    {rest qs ps ws : List Nat}
    (hSetup : Setup m d t mt tk k)
    (hPages : emptyPages m mt = p :: p' :: ps)
    (hWindows : emptyWindows m = w :: w' :: ws)
    (hk : k < 2 ^ 32)
    (hKmallocs : m.kmallocs = q :: qs)
    (hFree : m.dirAt (.heap q) = none)
    (hFrames : m.frames = new :: tab :: rest)
    (hNew : Unused m t mt tk k new)
    (hTab : Unused m t mt tk k tab) :
    (cloneDirectory copy .kernelDirectory).run m =
      .ok (.heap q)
        (cloneEnd m mt k p w p' w' q new tab qs rest) := by
  have hCurrent : DirPtr.heap q ≠ m.currentDirectory := by
    intro hSame
    rw [hSame, hSetup.self.current] at hFree
    cases hFree
  -- the record and its frame
  have hAlloc :
      pmmAllocPage.run { m with kmallocs := qs } =
        .ok new
          (Machine.withFrames { m with kmallocs := qs }
            (tab :: rest)) :=
    run_pmmAllocPage hFrames
  have hWrite :
      (writeDirectory (.heap q) ⟨new, 0, 0⟩).run
          (Machine.withFrames { m with kmallocs := qs }
            (tab :: rest)) =
        .ok () (cloneStart m q new qs (tab :: rest)) := rfl
  have hTaken :
      Setup
        (Machine.withFrames { m with kmallocs := qs }
          (tab :: rest)) d t mt tk k :=
    hSetup.congr
      (Machine.withFrames { m with kmallocs := qs }
        (tab :: rest)) rfl rfl rfl rfl rfl
      (fun _ _ _ _ _ => rfl)
  have hStart :
      Setup (cloneStart m q new qs (tab :: rest))
        d t mt tk k :=
    hTaken.withRecord hCurrent nofun
  have hRecord :
      (cloneStart m q new qs (tab :: rest)).dirAt (.heap q) =
        some ⟨new, 0, 0⟩ := by
    unfold cloneStart Machine.withRecord
    exact Function.update_self _ _ _
  rcases hStart.run_mountBoth hPages hWindows hk hRecord
    (hNew.congr rfl) with
    ⟨mMid, hMountSrc, hMountDest, hCloning⟩
  have hFill :=
    Cloning.run_fill copy q tab rest hCloning hCurrent rfl
      (hTab.congr rfl)
  unfold cloneDirectory
  rw [EStateM.bind_of_ok
      (run_kmallocDirectory hKmallocs hFree),
    EStateM.bind_of_ok hAlloc, EStateM.bind_of_ok hWrite,
    EStateM.bind_of_ok hMountSrc,
    EStateM.bind_of_ok hMountDest]
  exact hFill

/- The slots were empty before the call. -/
theorem Setup.slots_zero
    {ps ws : List Nat}
    (hPages : emptyPages m mt = p :: p' :: ps)
    (hWindows : emptyWindows m = w :: w' :: ws)
    (hOn : ¬ OffSlots m.root mt p w p' w' g j) :
    m.ram.word g j = 0 := by
  have hPage :
      ∀ e, e = p ∨ e = p' → m.ram.word mt e = 0 := by
    intro e he
    have hMem : e ∈ emptyPages m mt := by
      rw [hPages]
      rcases he with rfl | rfl
      · exact List.mem_cons_self
      · exact List.mem_cons_of_mem _ List.mem_cons_self
    exact (mem_emptyEntries.mp hMem).2
  have hWindow :
      ∀ e, e = w ∨ e = w' → m.ram.word m.root e = 0 := by
    intro e he
    have hMem : e ∈ emptyWindows m := by
      rw [hWindows]
      rcases he with rfl | rfl
      · exact List.mem_cons_self
      · exact List.mem_cons_of_mem _ List.mem_cons_self
    exact (mem_emptyEntries.mp hMem).2
  unfold OffSlots at hOn
  by_cases hFirst : g = mt ∧ (j = p ∨ j = p')
  · rcases hFirst with ⟨rfl, hj⟩
    exact hPage j hj
  · have hSecond : g = m.root ∧ (j = w ∨ j = w') := by
      omega
    rcases hSecond with ⟨rfl, hj⟩
    exact hWindow j hj

/- The loop's entries of the clone are the source's. -/
theorem Setup.word_cloneEnd
    (q : Nat)
    (rest qs : List Nat)
    (hSetup : Setup m d t mt tk k)
    (hSlot : IsSlot p w)
    (hSlot' : IsSlot p' w')
    (hNew : Unused m t mt tk k new)
    (hTab : Unused m t mt tk k tab)
    (hNe : tab ≠ new)
    (hj : j < 1024)
    (hDir : j ≠ 958)
    (hTables : j ≠ 959) :
    (cloneEnd m mt k p w p' w' q new tab qs rest).ram.word
        new j =
      (mountBoth m mt k p w p' w' new).word k j := by
  have hk := hSetup.kernel_aligned
  rcases word_selfRam
    (linkRam
      ((mountBoth m mt k p w p' w' new).clearFrame new)
      k new 1024)
    hNew.aligned hTab.aligned hNew.lt hTab.lt hNe with
    ⟨_, _, _, hOther, _⟩
  have hUmount :
      (cloneEnd m mt k p w p' w' q new tab qs rest).ram.word
          new j =
        (selfRam
          (linkRam
            ((mountBoth m mt k p w p' w' new).clearFrame
              new) k new 1024) new tab).word new j :=
    hSetup.word_umountBoth hSlot hSlot' hNew.aligned hj
      ⟨.inl hNew.mountTable, .inl hNew.root⟩
  refine hUmount.trans ?_
  rw [hOther j hj hDir hTables,
    word_linkRam hNew.aligned
      (fun j hj => ByteMemory.word_clearFrame_self _ _ hj)
      (le_refl _) hj, if_pos hj]
  exact sameBut_clearFrame _ hNew.aligned k j hk hj
    hNew.kernel.symm

/-
  Every entry is the kernel's, but for the clone's own two
  and for those at which the two directories were mounted.
-/
theorem Setup.entry_cloneEnd
    {ps ws : List Nat}
    (q : Nat)
    (rest qs : List Nat)
    (hSetup : Setup m d t mt tk k)
    (hPages : emptyPages m mt = p :: p' :: ps)
    (hWindows : emptyWindows m = w :: w' :: ws)
    (hk : k < 2 ^ 32)
    (hNew : Unused m t mt tk k new)
    (hTab : Unused m t mt tk k tab)
    (hNe : tab ≠ new)
    (hj : j < 1024)
    (hDir : j ≠ 958)
    (hTables : j ≠ 959) :
    (cloneEnd m mt k p w p' w' q new tab qs rest).ram.word
          new j = m.ram.word k j ∨
      1012 ≤ j ∧ ∃ f, (f = k ∨ f = new) ∧
        (cloneEnd m mt k p w p' w' q new tab qs
          rest).ram.entry new j = some f := by
  have hAligned := hSetup.kernel_aligned
  rcases hSetup.slots hPages hWindows with
    ⟨hSlot, hSlot', _, _⟩
  have hCloning :=
    hSetup.cloning hPages hWindows hk hNew
  have hWord :=
    hSetup.word_cloneEnd q rest qs hSlot hSlot' hNew hTab
      hNe hj hDir hTables
  rw [hWord, ByteMemory.entry_of_word hWord]
  by_cases hOff : OffSlots m.root mt p w p' w' k j
  · exact .inl
      (hSetup.word_mountBoth hSlot hSlot' hAligned hj hOff)
  · have hMounted :
        k = m.root ∧ (j = w ∨ j = w') := by
      have hApart := hSetup.apartKernel
      unfold OffSlots at hOff
      omega
    have hHigh : 1012 ≤ j := by
      unfold IsSlot at hSlot hSlot'
      omega
    rcases hMounted with ⟨hRoot, rfl | rfl⟩
    · refine .inr ⟨hHigh, k, .inl rfl, ?_⟩
      have hWindow := hCloning.src.window
      change
        (mountBoth m mt k p j p' w' new).entry m.root j =
          some k at hWindow
      rw [← hRoot] at hWindow
      exact hWindow
    · refine .inr ⟨hHigh, new, .inr rfl, ?_⟩
      have hWindow := hCloning.dest.window
      change
        (mountBoth m mt k p w p' j new).entry m.root j =
          some new at hWindow
      rw [← hRoot] at hWindow
      exact hWindow

theorem Setup.cloned
    {ps ws : List Nat}
    (q : Nat)
    (rest qs : List Nat)
    (hSetup : Setup m d t mt tk k)
    (hPages : emptyPages m mt = p :: p' :: ps)
    (hWindows : emptyWindows m = w :: w' :: ws)
    (hNew : Unused m t mt tk k new)
    (hTab : Unused m t mt tk k tab)
    (hNe : tab ≠ new) :
    Cloned m (cloneEnd m mt k p w p' w' q new tab qs rest)
      q k new tab rest qs := by
  have hmt := hSetup.mountTable_aligned
  have hk := hSetup.kernel_aligned
  have hSlots :
      IsSlot p w ∧ IsSlot p' w' := by
    have hPage : p' ∈ emptyPages m mt := by
      rw [hPages]
      exact List.mem_cons_of_mem _ List.mem_cons_self
    have hWindow : w' ∈ emptyWindows m := by
      rw [hWindows]
      exact List.mem_cons_of_mem _ List.mem_cons_self
    exact ⟨(isSlot_of_mem hPages hWindows).1,
      (mem_emptyEntries.mp hPage).1,
      (mem_emptyEntries.mp hWindow).1⟩
  rcases hSlots with ⟨hSlot, hSlot'⟩
  -- the memory with the mounts, the linked entries, and the
  -- new directory mapped into itself
  have hClear :
      SameBut new (mountBoth m mt k p w p' w' new)
        ((mountBoth m mt k p w p' w' new).clearFrame new) :=
    sameBut_clearFrame _ hNew.aligned
  have hLink :=
    hClear.trans
      (sameBut_linkRam (k := k) (n := 1024) hNew.aligned
        (le_refl _))
  rcases word_selfRam
    (linkRam
      ((mountBoth m mt k p w p' w' new).clearFrame new)
      k new 1024)
    hNew.aligned hTab.aligned hNew.lt hTab.lt hNe with
    ⟨hTable, hWindow, hSelf, _, hStale⟩
  have hUmount :
      ∀ g j, g % 4096 = 0 → j < 1024 →
        OffSlots m.root mt p w p' w' g j →
        (cloneEnd m mt k p w p' w' q new tab qs
            rest).ram.word g j =
          (selfRam
            (linkRam
              ((mountBoth m mt k p w p' w' new).clearFrame
                new) k new 1024) new tab).word g j := by
    intro g j hg hj hOff
    exact hSetup.word_umountBoth hSlot hSlot' hg hj hOff
  have hNewOff :
      ∀ j, OffSlots m.root mt p w p' w' new j := fun _ =>
    ⟨.inl hNew.mountTable, .inl hNew.root⟩
  have hTabOff :
      ∀ j, OffSlots m.root mt p w p' w' tab j := fun _ =>
    ⟨.inl hTab.mountTable, .inl hTab.root⟩
  refine ⟨?_, ?_, ?_, ?_, ?_, ?_, ?_⟩
  · have hDirs :
        Function.update
            (Function.update m.dirAt (.heap q)
              (some ⟨new, 0, 0⟩)) (.heap q)
            (some
              ⟨new, USER_DIR_VIRTUAL,
                USER_TABLES_VIRTUAL⟩) =
          Function.update m.dirAt (.heap q)
            (some
              ⟨new, USER_DIR_VIRTUAL,
                USER_TABLES_VIRTUAL⟩) :=
      Function.update_idem _ _ _
    exact congrArg
      (fun dirs : DirPtr → Option PageDirectory =>
        { m with
          ram :=
            (cloneEnd m mt k p w p' w' q new tab qs
              rest).ram
          frames := rest
          kmallocs := qs
          dirAt := dirs }) hDirs
  · intro g j hg hj hNeNew hNeTab
    by_cases hOff : OffSlots m.root mt p w p' w' g j
    · rw [hUmount g j hg hj hOff,
        sameBut_selfRam _ hNew.aligned hTab.aligned hg hj
          hNeNew hNeTab, hLink g j hg hj hNeNew]
      exact hSetup.word_mountBoth hSlot hSlot' hg hj hOff
    · rw [Setup.slots_zero hPages hWindows hOff]
      exact hSetup.umountBoth_zero hSlot hSlot' hg hj hOff
  · intro j hj hDir hPagesNe
    have hKernelOff : OffSlots m.root mt p w p' w' k j := by
      unfold IsSlot at hSlot hSlot'
      exact ⟨.inl hSetup.apartKernel.symm,
        .inr ⟨by omega, by omega⟩⟩
    rw [hSetup.word_cloneEnd q rest qs hSlot hSlot' hNew hTab
      hNe (by omega) hDir hPagesNe]
    exact hSetup.word_mountBoth hSlot hSlot' hk (by omega)
      hKernelOff
  · rw [hUmount _ _ hNew.aligned (by decide) (hNewOff _)]
    exact hTable
  · rw [hUmount _ _ hNew.aligned (by decide) (hNewOff _)]
    exact hWindow
  · rw [hUmount _ _ hTab.aligned (by decide) (hTabOff _)]
    exact hSelf
  · intro j hj
    rw [hUmount _ _ hTab.aligned (by omega) (hTabOff j),
      hStale j hj, hLink _ _ hTab.aligned (by omega) hNe]
    exact hSetup.word_mountBoth hSlot hSlot' hTab.aligned
      (by omega) (hTabOff j)

end Vmm

end SosKernel
