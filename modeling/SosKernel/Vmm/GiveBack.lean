import Mathlib.Data.List.Perm.Basic
import SosKernel.Vmm.KernelClone

/-
  Cloning a directory and destroying the clone.

  Main declarations:
    * `GivesBack`: the frames given back are those taken
    * `staleFrames`: the frames named by an uncleared table
    * `Destroying.run_destroyDirectory`
    * `givesBack_iff`
    * `stale_table_freed`

  The page table that `clone_directory` allocates for the new
  directory's own page is never cleared, and
  `destroy_directory` frees whatever its words name.
-/

------------------------------------------------------------
-- Giving Back
------------------------------------------------------------

namespace SosKernel

namespace Vmm

variable {m m' : Machine}
variable {d d' : PageDirectory}
variable {t mt tk k f g i j n v w p : Nat}
variable {new tab q : Nat}

/- The machine with another directory current. -/
def Machine.switched
    (m : Machine)
    (dir : DirPtr)
    (record : PageDirectory) : Machine :=
  { m with currentDirectory := dir, cr3 := record.physical }

/-
  `src` is cloned, `cur` is made the current directory, and
  the clone is destroyed: both calls return, and the frames
  given to `pmm_free_page` are those that the clone took from
  `pmm_alloc_page`, each once.
-/
def GivesBack (m : Machine) (src cur : DirPtr) : Prop :=
  ∃ dir m₁ m₂ m₃ taken given,
    (cloneDirectory copyPagePhysical src).run m = .ok dir m₁ ∧
      cur ≠ dir ∧
      m.frames = taken ++ m₁.frames ∧
      (switchPageDirectory cur).run m₁ = .ok () m₂ ∧
      (destroyDirectory dir).run m₂ = .ok () m₃ ∧
      m₃.freed = given ++ m₁.freed ∧
      given.Perm taken ∧ given.Nodup

/- The frames named by the first `n` words of a table. -/
def staleFrames
    (ram : ByteMemory)
    (tab : Nat) : Nat → List Nat
| 0 => []
| n + 1 =>
    if ram.word tab n = 0 then
      staleFrames ram tab n
    else
      pageAddr (ram.word tab n) :: staleFrames ram tab n

theorem staleFrames_congr
    {ram ram' : ByteMemory}
    (hWord :
      ∀ j, j < n → ram'.word tab j = ram.word tab j) :
    staleFrames ram' tab n = staleFrames ram tab n := by
  induction n with
  | zero => rfl
  | succ n ih =>
      have hLess := ih (fun j hj => hWord j (by omega))
      rw [staleFrames, staleFrames, hLess,
        hWord n (by omega)]

theorem staleFrames_eq_nil_iff
    {ram : ByteMemory} :
    staleFrames ram tab n = [] ↔
      ∀ j, j < n → ram.word tab j = 0 := by
  induction n with
  | zero => simp [staleFrames]
  | succ n ih =>
      rw [staleFrames]
      constructor
      · intro hNil
        split at hNil
        · rename_i hZero
          intro j hj
          rcases Nat.lt_succ_iff_lt_or_eq.mp hj with hj | rfl
          · exact ih.mp hNil j hj
          · exact hZero
        · cases hNil
      · intro hAll
        rw [if_pos (hAll n (by omega))]
        exact ih.mpr (fun j hj => hAll j (by omega))

------------------------------------------------------------
-- Destroying the Clone
------------------------------------------------------------

def Machine.withFreed (m : Machine) (freed : List Nat) : Machine :=
  { m with freed := freed }

/-
  The clone in the frame `new` is mounted: its entries below
  the kernel's range are the kernel's, but for those of its
  own page and of its own page tables.
-/
structure Destroying
    (m : Machine)
    (d : PageDirectory)
    (t mt tk k p w new tab : Nat) : Prop where
  setup : Setup m d t mt tk k
  mount : MountedAt m mt p w new
  linked :
    ∀ j, j < 960 → j ≠ 958 → j ≠ 959 →
      m.ram.word new j = m.ram.word k j
  table : m.ram.word new 958 = tab + 3
  tabAligned : tab % 4096 = 0
  other : m.ram.word k 958 ≠ tab + 3

theorem Destroying.withFreed
    (hDestroying : Destroying m d t mt tk k p w new tab)
    (freed : List Nat) :
    Destroying (m.withFreed freed) d t mt tk k p w new
      tab where
  setup :=
    hDestroying.setup.congr (m.withFreed freed)
      rfl rfl rfl rfl rfl (fun _ _ _ _ _ => rfl)
  mount := hDestroying.mount.congr rfl rfl rfl
  linked := hDestroying.linked
  table := hDestroying.table
  tabAligned := hDestroying.tabAligned
  other := hDestroying.other

theorem Destroying.loadAt_directory
    (hDestroying : Destroying m d t mt tk k p w new tab)
    (hi : i < 1024) :
    (loadAt (mountAt p w).directory i).run m =
      .ok (m.ram.word new i) m :=
  (hDestroying.mount.maps hDestroying.setup).shows.loadAt hi

theorem Destroying.loadAt_kernel
    (hDestroying : Destroying m d t mt tk k p w new tab)
    (hi : i < 1024) :
    (loadAt KERNEL_DIR_VIRTUAL i).run m =
      .ok (m.ram.word k i) m :=
  hDestroying.setup.kernelMaps.shows.loadAt hi

theorem Destroying.loadAt_pages
    (hDestroying : Destroying m d t mt tk k p w new tab)
    (hi : i < 1024) :
    (loadAt (mountAt p w).pages (1024 * 958 + i)).run m =
      .ok (m.ram.word tab i) m := by
  have hEntry :
      m.ram.entry new ((1024 * 958 + i) / 1024) =
        some tab := by
    have hDiv : (1024 * 958 + i) / 1024 = 958 := by omega
    rw [hDiv, ByteMemory.entry_of_word hDestroying.table]
    exact ByteMemory.entryFrame_add hDestroying.tabAligned
      (by decide) (by decide)
  have hLoad :=
    (hDestroying.mount.tables hDestroying.setup).loadAt
      (n := 1024 * 958 + i) (by omega) hEntry
  have hMod : (1024 * 958 + i) % 1024 = i := by omega
  rw [hMod] at hLoad
  exact hLoad

/- The pages of the uncleared table. -/
theorem Destroying.run_freePages
    (hDestroying : Destroying m d t mt tk k p w new tab) :
    (EStateM.upTo
        (fun e => do
          let j := 1024 * 958 + e
          if (← loadAt (mountAt p w).pages j) ≠ 0 ∧
              j ≠ pgNumFromAddr USER_DIR_VIRTUAL then
            pmmFreePage
              (pageAddr
                (← loadAt (mountAt p w).pages j)))
        1024).run m =
      .ok ()
        (m.withFreed
          (staleFrames m.ram tab 1023 ++ m.freed)) := by
  have hLast : pgNumFromAddr USER_DIR_VIRTUAL = 982015 := rfl
  have hRun :
      (EStateM.upTo
          (fun e => do
            let j := 1024 * 958 + e
            if (← loadAt (mountAt p w).pages j) ≠ 0 ∧
                j ≠ pgNumFromAddr USER_DIR_VIRTUAL then
              pmmFreePage
                (pageAddr
                  (← loadAt (mountAt p w).pages j)))
          1024).run (m.withFreed ([] ++ m.freed)) =
        .ok ()
          (m.withFreed
            (staleFrames m.ram tab 1023 ++ m.freed)) := by
    refine EStateM.run_upTo
      (s := fun e =>
        m.withFreed
          (staleFrames m.ram tab (min e 1023) ++ m.freed)) ?_
    intro e he
    have hFreed :=
      hDestroying.withFreed
        (staleFrames m.ram tab (min e 1023) ++ m.freed)
    have hLoad := hFreed.loadAt_pages he
    dsimp only
    rw [EStateM.bind_of_ok hLoad]
    change
      (if m.ram.word tab e ≠ 0 ∧ 1024 * 958 + e ≠
            pgNumFromAddr USER_DIR_VIRTUAL then _ else _ :
        VmM Unit).run _ = _
    by_cases hEnd : e = 1023
    · subst hEnd
      rw [if_neg (by rw [hLast]; omega)]
      rfl
    · have hMin : min e 1023 = e := by omega
      have hMin' : min (e + 1) 1023 = e + 1 := by omega
      rw [hMin, hMin', staleFrames]
      rw [hMin] at hLoad
      by_cases hZero : m.ram.word tab e = 0
      · rw [if_neg (by rw [hZero]; simp), if_pos hZero]
        rfl
      · rw [if_pos ⟨hZero, by rw [hLast]; omega⟩,
          if_neg hZero, EStateM.bind_of_ok hLoad]
        rfl
  exact hRun

/- Below the table of its own page all entries are linked. -/
theorem Destroying.run_freeEntry_linked
    (hDestroying : Destroying m d t mt tk k p w new tab)
    (hi : i < 960)
    (hNe : i ≠ 958) :
    (freeEntry (mountAt p w)
        (pgdirIdxFromAddr USER_TABLES_VIRTUAL)
        (pgNumFromAddr USER_DIR_VIRTUAL) i).run m =
      .ok () m := by
  have hLoad :=
    hDestroying.loadAt_directory (i := i) (by omega)
  have hKernel :=
    hDestroying.loadAt_kernel (i := i) (by omega)
  unfold freeEntry
  rw [EStateM.bind_of_ok hLoad]
  split
  · rw [EStateM.bind_of_ok
        (run_readDirectory hDestroying.setup.kernel),
      EStateM.bind_of_ok hLoad]
    dsimp only
    rw [EStateM.bind_of_ok hKernel, if_neg]
    · rfl
    · rintro ⟨hDiffers, hNotSelf⟩
      by_cases hSelf : i = 959
      · exact hNotSelf hSelf
      · exact hDiffers (hDestroying.linked i hi hNe hSelf)
  · rfl

/- The table of its own page is freed with what it names. -/
theorem Destroying.run_freeEntry_table
    (hDestroying : Destroying m d t mt tk k p w new tab) :
    (freeEntry (mountAt p w)
        (pgdirIdxFromAddr USER_TABLES_VIRTUAL)
        (pgNumFromAddr USER_DIR_VIRTUAL) 958).run m =
      .ok ()
        (m.withFreed
          (tab ::
            (staleFrames m.ram tab 1023 ++ m.freed))) := by
  have hLoad :=
    hDestroying.loadAt_directory (i := 958) (by decide)
  have hKernel :=
    hDestroying.loadAt_kernel (i := 958) (by decide)
  have hFreed :=
    hDestroying.withFreed
      (staleFrames m.ram tab 1023 ++ m.freed)
  have hLoad' :=
    hFreed.loadAt_directory (i := 958) (by decide)
  have hWord :
      (m.withFreed
        (staleFrames m.ram tab 1023 ++ m.freed)).ram.word
          new 958 = tab + 3 := hDestroying.table
  rw [hWord] at hLoad'
  rw [hDestroying.table] at hLoad
  have hAddr : pageAddr (tab + 3) = tab := by
    have hAligned := hDestroying.tabAligned
    unfold pageAddr PAGE_SIZE
    omega
  unfold freeEntry
  rw [EStateM.bind_of_ok hLoad, if_pos (Nat.succ_ne_zero _),
    EStateM.bind_of_ok
      (run_readDirectory hDestroying.setup.kernel),
    EStateM.bind_of_ok hLoad]
  dsimp only
  rw [EStateM.bind_of_ok hKernel,
    if_pos ⟨hDestroying.other.symm, by decide⟩,
    EStateM.bind_of_ok hDestroying.run_freePages,
    EStateM.bind_of_ok hLoad', hAddr]
  rfl

/- The frames freed by the first `n` entries. -/
def freedBelow
    (m : Machine)
    (tab n : Nat) : List Nat :=
  if n ≤ 958 then
    m.freed
  else
    tab :: (staleFrames m.ram tab 1023 ++ m.freed)

theorem Destroying.run_freeEntries
    (hDestroying : Destroying m d t mt tk k p w new tab) :
    (EStateM.upTo
        (freeEntry (mountAt p w)
          (pgdirIdxFromAddr USER_TABLES_VIRTUAL)
          (pgNumFromAddr USER_DIR_VIRTUAL))
        (pgdirIdxFromAddr KERNEL_ADDRESS_SPACE)).run m =
      .ok ()
        (m.withFreed
          (tab ::
            (staleFrames m.ram tab 1023 ++ m.freed))) := by
  have hRun :
      (EStateM.upTo
          (freeEntry (mountAt p w)
            (pgdirIdxFromAddr USER_TABLES_VIRTUAL)
            (pgNumFromAddr USER_DIR_VIRTUAL)) 960).run
          (m.withFreed (freedBelow m tab 0)) =
        .ok () (m.withFreed (freedBelow m tab 960)) := by
    refine EStateM.run_upTo
      (s := fun i => m.withFreed (freedBelow m tab i)) ?_
    intro i hi
    have hFreed := hDestroying.withFreed (freedBelow m tab i)
    by_cases hTable : i = 958
    · subst hTable
      have hRun := hFreed.run_freeEntry_table
      exact hRun
    · have hSame :
          freedBelow m tab (i + 1) = freedBelow m tab i := by
        unfold freedBelow
        by_cases hLt : i < 958
        · rw [if_pos (by omega), if_pos (by omega)]
        · rw [if_neg (by omega), if_neg (by omega)]
      rw [hSame]
      exact hFreed.run_freeEntry_linked hi hTable
  exact hRun

------------------------------------------------------------
-- Both Calls
------------------------------------------------------------

theorem run_switchPageDirectory
    {dir : DirPtr}
    (hRecord : m.dirAt dir = some d) :
    (switchPageDirectory dir).run m =
      .ok () (m.switched dir d) := by
  unfold switchPageDirectory
  rw [EStateM.bind_of_ok (run_readDirectory hRecord)]
  rfl

/- The clone, mounted in the directory that is current. -/
theorem Cloned.destroying
    {dir : DirPtr}
    {rest qs : List Nat}
    (hCloned : Cloned m m' q k new tab rest qs)
    (hSetup :
      Setup (m'.switched dir d) d t mt tk k)
    (hSlot : IsSlot p w)
    (hNew : Unused (m.switched dir d) t mt tk k new)
    (hTab : Unused (m.switched dir d) t mt tk k tab)
    (hNamed : m.ram.entry k 958 ≠ some tab) :
    Destroying
      ((m'.switched dir d).withRam
        (mountRam m'.ram mt (m'.switched dir d).root p w new))
      d t mt tk k p w new tab := by
  have hmt := hSetup.mountTable_aligned
  have hk := hSetup.kernel_aligned
  have hRoot := root_aligned (m'.switched dir d)
  have hIs := hSlot
  unfold IsSlot at hIs
  have hNewWord :
      ∀ j, j < 1024 →
        (mountRam m'.ram mt (m'.switched dir d).root p w
          new).word new j = m'.ram.word new j := fun j hj =>
    word_mountRam hmt hRoot hNew.aligned hSlot hj
      (.inl hNew.mountTable) (.inl hNew.root)
  have hKernelWord :
      ∀ j, j < 960 →
        (mountRam m'.ram mt (m'.switched dir d).root p w
          new).word k j = m.ram.word k j := by
    intro j hj
    rw [word_mountRam hmt hRoot hk hSlot (by omega)
      (.inl hSetup.apartKernel.symm) (.inr (by omega))]
    exact hCloned.others k j hk (by omega) hNew.kernel.symm
      hTab.kernel.symm
  have hMounted := hSetup.mountedAt hSlot hNew.lt
  have hAddr : pageAddr new = new := by
    have hAligned := hNew.aligned
    unfold pageAddr PAGE_SIZE
    omega
  rw [hAddr] at hMounted
  refine ⟨hSetup.mount hSlot, hMounted, ?_, ?_,
    hTab.aligned, ?_⟩
  · intro j hj hDir hPages
    rw [withRam_ram, hNewWord j (by omega), hKernelWord j hj]
    exact hCloned.linked j (by omega) hDir hPages
  · rw [withRam_ram, hNewWord 958 (by decide)]
    exact hCloned.table
  · rw [withRam_ram, hKernelWord 958 (by decide)]
    intro hSame
    apply hNamed
    rw [ByteMemory.entry_of_word hSame]
    exact ByteMemory.entryFrame_add hTab.aligned (by decide)
      (by decide)

/- The clone is destroyed, with what its table names. -/
theorem Setup.run_destroyDirectory
    {ps ws : List Nat}
    (hSetup : Setup m d t mt tk k)
    (hPages : emptyPages m mt = p :: ps)
    (hWindows : emptyWindows m = w :: ws)
    (hRecord :
      m.dirAt (.heap q) =
        some
          ⟨new, USER_DIR_VIRTUAL, USER_TABLES_VIRTUAL⟩)
    (hDestroying :
      Destroying
        (m.withRam (mountRam m.ram mt m.root p w new))
        d t mt tk k p w new tab) :
    ∃ m',
      (destroyDirectory (.heap q)).run m = .ok () m' ∧
        m'.freed =
          new :: tab ::
            (staleFrames (mountRam m.ram mt m.root p w new)
              tab 1023 ++ m.freed) := by
  have hMount :=
    hSetup.run_mountDirectory hPages hWindows hRecord
  have hLoop := hDestroying.run_freeEntries
  have hFreed :=
    hDestroying.withFreed
      (new :: tab ::
        (staleFrames (mountRam m.ram mt m.root p w new)
          tab 1023 ++ m.freed))
  have hUmount :=
    hFreed.setup.run_umountDirectory hFreed.mount.slot
  have hRead :
      (readDirectory (.heap q)).run
          (m.withRam (mountRam m.ram mt m.root p w new)) =
        .ok
          ⟨new, USER_DIR_VIRTUAL, USER_TABLES_VIRTUAL⟩
          (m.withRam (mountRam m.ram mt m.root p w new)) :=
    run_readDirectory hRecord
  unfold destroyDirectory
  rw [if_neg nofun, EStateM.bind_of_ok hMount]
  have hFree :
      (pmmFreePage new).run
          ((m.withRam
            (mountRam m.ram mt m.root p w new)).withFreed
              (tab ::
                (staleFrames
                  (mountRam m.ram mt m.root p w new)
                  tab 1023 ++ m.freed))) =
        .ok ()
          ((m.withRam
            (mountRam m.ram mt m.root p w new)).withFreed
              (new :: tab ::
                (staleFrames
                  (mountRam m.ram mt m.root p w new)
                  tab 1023 ++ m.freed))) := rfl
  refine
    ⟨_,
      (EStateM.bind_of_ok hRead).trans
        ((EStateM.bind_of_ok hLoop).trans
          ((EStateM.bind_of_ok hFree).trans
            ((EStateM.bind_of_ok hUmount).trans rfl))),
      rfl⟩

/- The current directory can mount `n` others. -/
def CanMount
    (m : Machine)
    (k n : Nat)
    (frames : List Nat) : Prop :=
  ∃ d t mt tk,
    Setup m d t mt tk k ∧
      n ≤ (emptyPages m mt).length ∧
      n ≤ (emptyWindows m).length ∧
      ∀ f ∈ frames, Unused m t mt tk k f

/- The other directory rests on words that stay. -/
theorem Cloned.setup
    {dir : DirPtr}
    {rest qs : List Nat}
    (hCloned : Cloned m m' q k new tab rest qs)
    (hSetup : Setup (m.switched dir d) d t mt tk k)
    (hNew : Unused (m.switched dir d) t mt tk k new)
    (hTab : Unused (m.switched dir d) t mt tk k tab)
    (hDir : dir ≠ .heap q) :
    Setup (m'.switched dir d) d t mt tk k ∧
      emptyPages (m'.switched dir d) mt =
        emptyPages (m.switched dir d) mt ∧
      emptyWindows (m'.switched dir d) =
        emptyWindows (m.switched dir d) := by
  have hRecords :
      ∀ dir', dir' ≠ .heap q → m'.dirAt dir' = m.dirAt dir' := by
    intro dir' hNe
    rw [hCloned.machine]
    exact Function.update_of_ne hNe _ _
  have hRoot := root_aligned (m.switched dir d)
  have hmt := hSetup.mountTable_aligned
  refine ⟨?_, ?_, ?_⟩
  · refine hSetup.congr (m'.switched dir d) ?_ rfl rfl
      (hRecords dir hDir) (hRecords _ nofun) ?_
    · unfold Machine.switched
      rw [hCloned.machine]
    · intro g j hg hj hCritical
      apply hCloned.others g j hg hj
      · rcases hCritical with ⟨rfl, _⟩ | ⟨rfl, _⟩ |
          ⟨rfl | rfl, _⟩
        · exact hNew.root.symm
        · exact hNew.kernel.symm
        · exact hNew.table.symm
        · exact hNew.kernelTable.symm
      · rcases hCritical with ⟨rfl, _⟩ | ⟨rfl, _⟩ |
          ⟨rfl | rfl, _⟩
        · exact hTab.root.symm
        · exact hTab.kernel.symm
        · exact hTab.table.symm
        · exact hTab.kernelTable.symm
  · apply emptyEntries_congr
    intro j _ hHi
    change j < 1019 + 4 at hHi
    exact hCloned.others _ _ hmt (by omega)
      hNew.mountTable.symm hTab.mountTable.symm
  · apply emptyEntries_congr
    intro j _ hHi
    change j < 1012 + 8 at hHi
    exact hCloned.others _ _ hRoot (by omega)
      hNew.root.symm hTab.root.symm

/- A list of at least one element, or of two. -/
theorem exists_cons
    {xs : List Nat}
    (hLength : 1 ≤ xs.length) :
    ∃ x rest, xs = x :: rest :=
  List.exists_cons_of_length_pos hLength

theorem exists_cons_cons
    {xs : List Nat}
    (hLength : 2 ≤ xs.length) :
    ∃ x y rest, xs = x :: y :: rest := by
  rcases exists_cons (by omega : 1 ≤ xs.length) with
    ⟨x, xs, rfl⟩
  rw [List.length_cons] at hLength
  rcases exists_cons (by omega : 1 ≤ xs.length) with
    ⟨y, rest, rfl⟩
  exact ⟨x, y, rest, rfl⟩

/-
  Both calls return.  The frames given back are those taken,
  and those that the uncleared table names.
-/
theorem run_cloneAndDestroy
    {cur : DirPtr}
    {rest qs : List Nat}
    (hCurrent : CanMount m k 2 [new, tab])
    (hRecord : m.dirAt cur = some d)
    (hOther : CanMount (m.switched cur d) k 1 [new, tab])
    (hk : k < 2 ^ 32)
    (hKmallocs : m.kmallocs = q :: qs)
    (hFree : m.dirAt (.heap q) = none)
    (hFrames : m.frames = new :: tab :: rest)
    (hNamed : m.ram.entry k 958 ≠ some tab)
    (hNe : tab ≠ new) :
    cur ≠ .heap q ∧
      ∃ m₁ m₂ m₃,
        (cloneDirectory copyPagePhysical
            .kernelDirectory).run m = .ok (.heap q) m₁ ∧
          m₁.frames = rest ∧
          m₁.freed = m.freed ∧
          (switchPageDirectory cur).run m₁ = .ok () m₂ ∧
          (destroyDirectory (.heap q)).run m₂ = .ok () m₃ ∧
          m₃.freed =
            new :: tab ::
              (staleFrames m.ram tab 1023 ++ m.freed) := by
  have hCur : cur ≠ .heap q := by
    rintro rfl
    rw [hFree] at hRecord
    cases hRecord
  refine ⟨hCur, ?_⟩
  rcases hCurrent with
    ⟨d₁, t, mt, tk, hSetup, hPages, hWindows, hUnused⟩
  rcases exists_cons_cons hPages with ⟨p, p', ps, hPages⟩
  rcases exists_cons_cons hWindows with ⟨w, w', ws, hWindows⟩
  have hNew := hUnused new List.mem_cons_self
  have hTab :=
    hUnused tab (List.mem_cons_of_mem _ List.mem_cons_self)
  have hRun :=
    Setup.run_cloneDirectory copyPagePhysical hSetup hPages
      hWindows hk hKmallocs hFree hFrames hNew hTab
  have hCloned :=
    Setup.cloned q rest qs hSetup hPages hWindows hNew hTab
      hNe
  generalize
    cloneEnd m mt k p w p' w' q new tab qs rest = m₁
    at hRun hCloned
  have hFrames₁ : m₁.frames = rest := by
    rw [hCloned.machine]
  have hFreed₁ : m₁.freed = m.freed := by
    rw [hCloned.machine]
  have hRecord₁ : m₁.dirAt cur = some d := by
    rw [hCloned.machine]
    dsimp only
    rw [Function.update_of_ne hCur]
    exact hRecord
  have hClone₁ :
      m₁.dirAt (.heap q) =
        some
          ⟨new, USER_DIR_VIRTUAL, USER_TABLES_VIRTUAL⟩ := by
    rw [hCloned.machine]
    exact Function.update_self _ _ _
  -- the other directory is current
  rcases hOther with
    ⟨d₂, t₂, mt₂, tk₂, hSetup₂, hPages₂, hWindows₂,
      hUnused₂⟩
  have hSame : d₂ = d := by
    have hSelf := hSetup₂.self.current
    change m.dirAt cur = some d₂ at hSelf
    rw [hRecord] at hSelf
    exact (Option.some.inj hSelf).symm
  subst hSame
  have hNew₂ := hUnused₂ new List.mem_cons_self
  have hTab₂ :=
    hUnused₂ tab (List.mem_cons_of_mem _ List.mem_cons_self)
  rcases hCloned.setup hSetup₂ hNew₂ hTab₂ hCur with
    ⟨hSetup₃, hPages₃, hWindows₃⟩
  rcases exists_cons hPages₂ with ⟨p₂, ps₂, hPages₂⟩
  rcases exists_cons hWindows₂ with ⟨w₂, ws₂, hWindows₂⟩
  rw [hPages₂] at hPages₃
  rw [hWindows₂] at hWindows₃
  rcases isSlot_of_mem hPages₃ hWindows₃ with
    ⟨hSlot, _, _⟩
  have hDestroying :=
    hCloned.destroying hSetup₃ hSlot hNew₂ hTab₂ hNamed
  rcases hSetup₃.run_destroyDirectory (q := q) hPages₃
    hWindows₃ hClone₁ hDestroying with
    ⟨m₃, hDestroy, hFreed₃⟩
  refine ⟨m₁, m₁.switched cur d₂, m₃, hRun, hFrames₁,
    hFreed₁, run_switchPageDirectory hRecord₁, hDestroy, ?_⟩
  have hStale :
      staleFrames
          (mountRam (m₁.switched cur d₂).ram mt₂
            (m₁.switched cur d₂).root p₂ w₂ new) tab 1023 =
        staleFrames m.ram tab 1023 := by
    apply staleFrames_congr
    intro j hj
    have hRoot : tab ≠ (m₁.switched cur d₂).root :=
      hTab₂.root
    rw [word_mountRam hSetup₃.mountTable_aligned
      (root_aligned _) hTab.aligned hSlot (by omega)
      (.inl hTab₂.mountTable) (.inl hRoot)]
    exact hCloned.stale j hj
  rw [hFreed₃, hStale]
  change
    new :: tab :: (staleFrames m.ram tab 1023 ++ m₁.freed) =
      _
  rw [hFreed₁]

/- Frames that the table names are not among those taken. -/
theorem GivesBack.stale_nil
    {cur : DirPtr}
    {rest qs : List Nat}
    (hCurrent : CanMount m k 2 [new, tab])
    (hRecord : m.dirAt cur = some d)
    (hOther : CanMount (m.switched cur d) k 1 [new, tab])
    (hk : k < 2 ^ 32)
    (hKmallocs : m.kmallocs = q :: qs)
    (hFree : m.dirAt (.heap q) = none)
    (hFrames : m.frames = new :: tab :: rest)
    (hNamed : m.ram.entry k 958 ≠ some tab)
    (hNe : tab ≠ new)
    (hGives : GivesBack m .kernelDirectory cur) :
    staleFrames m.ram tab 1023 = [] := by
  rcases run_cloneAndDestroy hCurrent hRecord hOther hk
    hKmallocs hFree hFrames hNamed hNe with
    ⟨hCur, m₁, m₂, m₃, hClone, hFrames₁, hFreed₁, hSwitch,
      hDestroy, hFreed₃⟩
  rcases hGives with ⟨dir, n₁, n₂, n₃, taken, given, hClone',
    _, hTaken, hSwitch', hDestroy', hGiven, hPerm, _⟩
  rw [hClone] at hClone'
  cases hClone'
  rw [hSwitch] at hSwitch'
  cases hSwitch'
  rw [hDestroy] at hDestroy'
  cases hDestroy'
  have hTakenLength :=
    congrArg List.length (hFrames.symm.trans hTaken)
  have hGivenLength :=
    congrArg List.length (hFreed₃.symm.trans hGiven)
  have hLength := hPerm.length_eq
  rw [List.length_append, hFrames₁, List.length_cons,
    List.length_cons] at hTakenLength
  rw [List.length_append, hFreed₁, List.length_cons,
    List.length_cons, List.length_append] at hGivenLength
  apply List.eq_nil_of_length_eq_zero
  omega

/-
  Exactly the frames taken are given back if and only if the
  words of the table that the clone does not clear are zero.
-/
theorem givesBack_iff
    {cur : DirPtr}
    {rest qs : List Nat}
    (hCurrent : CanMount m k 2 [new, tab])
    (hRecord : m.dirAt cur = some d)
    (hOther : CanMount (m.switched cur d) k 1 [new, tab])
    (hk : k < 2 ^ 32)
    (hKmallocs : m.kmallocs = q :: qs)
    (hFree : m.dirAt (.heap q) = none)
    (hFrames : m.frames = new :: tab :: rest)
    (hNamed : m.ram.entry k 958 ≠ some tab)
    (hNe : tab ≠ new) :
    GivesBack m .kernelDirectory cur ↔
      ∀ j, j < 1023 → m.ram.word tab j = 0 := by
  rw [← staleFrames_eq_nil_iff]
  constructor
  · exact GivesBack.stale_nil hCurrent hRecord hOther hk
      hKmallocs hFree hFrames hNamed hNe
  · intro hNil
    rcases run_cloneAndDestroy hCurrent hRecord hOther hk
      hKmallocs hFree hFrames hNamed hNe with
      ⟨hCur, m₁, m₂, m₃, hClone, hFrames₁, hFreed₁, hSwitch,
        hDestroy, hFreed₃⟩
    rw [hNil] at hFreed₃
    refine ⟨_, m₁, m₂, m₃, [new, tab], [new, tab], hClone,
      hCur, ?_, hSwitch, hDestroy, ?_, List.Perm.refl _, ?_⟩
    · rw [hFrames, hFrames₁]
      rfl
    · rw [hFreed₃, hFreed₁]
      rfl
    · rw [List.nodup_cons]
      refine ⟨?_, List.pairwise_singleton _ _⟩
      rw [List.mem_singleton]
      exact hNe.symm

------------------------------------------------------------
-- The Kernel's Directory, Cloned
------------------------------------------------------------

/-
  The kernel's directory at 0x101000, with the tables for its
  own page and for the mount pages.
-/
def kernelRam : ByteMemory :=
  (((ByteMemory.setWord (fun _ => 0)
    0x101000 1022 0x102003).setWord
    0x102000 1023 0x101003).setWord
    0x101000 1023 0x101003).setWord
    0x101000 1021 0x103003

/- The frames behind the tables are cleared. -/
theorem kernelRam_zero
    {j : Nat}
    (hf : f % 4096 = 0)
    (hLo : 0x104000 ≤ f)
    (hj : j < 1024) :
    kernelRam.word f j = 0 := by
  unfold kernelRam
  rw [ByteMemory.word_setWord_of_ne _ _ (by decide) hf
      (by decide) hj (.inl (by omega)),
    ByteMemory.word_setWord_of_ne _ _ (by decide) hf
      (by decide) hj (.inl (by omega)),
    ByteMemory.word_setWord_of_ne _ _ (by decide) hf
      (by decide) hj (.inl (by omega)),
    ByteMemory.word_setWord_of_ne _ _ (by decide) hf
      (by decide) hj (.inl (by omega))]
  rfl

/- The second free frame has an old entry in it. -/
def staleRam : ByteMemory :=
  kernelRam.setWord 0x105000 0 0x106003

def kernelMachine (ram : ByteMemory) : Machine where
  ram := ram
  paging := true
  cr3 := 0x101000
  currentDirectory := .kernelDirectory
  dirAt := fun dir =>
    match dir with
    | .kernelDirectory =>
        some
          ⟨0x101000, KERNEL_DIR_VIRTUAL,
            KERNEL_TABLES_VIRTUAL⟩
    | .heap _ => none
  kmallocs := [0xF0000000]
  frames := [0x104000, 0x105000]
  freed := []

theorem root_kernelMachine (ram : ByteMemory) :
    (kernelMachine ram).root = 0x101000 := by
  change pageAddr 0x101000 = 0x101000
  decide

theorem unused_kernelMachine
    {ram : ByteMemory}
    (hAligned : f % 4096 = 0)
    (hLo : 0x104000 ≤ f)
    (hHi : f < 2 ^ 32) :
    Unused (kernelMachine ram) 0x102000 0x103000 0x102000
      0x101000 f := by
  refine ⟨hAligned, hHi, ?_, by omega, by omega, by omega,
    by omega⟩
  rw [root_kernelMachine]
  omega

/- What the memory needs for the kernel to be current. -/
theorem canMount_kernelMachine
    {ram : ByteMemory}
    (hDir : ram.entry 0x101000 1022 = some 0x102000)
    (hPage : ram.entry 0x102000 1023 = some 0x101000)
    (hTables : ram.entry 0x101000 1023 = some 0x101000)
    (hMount : ram.entry 0x101000 1021 = some 0x103000)
    (hPages :
      2 ≤ (emptyEntries ram 0x103000 1019 4).length)
    (hWindows :
      2 ≤ (emptyEntries ram 0x101000 1012 8).length) :
    CanMount (kernelMachine ram) 0x101000 2
      [0x104000, 0x105000] := by
  have hRoot := root_kernelMachine ram
  have hMaps :
      (kernelMachine ram).Maps KERNEL_DIR_VIRTUAL 0x102000
        0x101000 := by
    refine ⟨rfl, by decide, by decide, ?_, hPage⟩
    rw [hRoot]
    exact hDir
  have hWindow :
      (kernelMachine ram).ShowsTables KERNEL_TABLES_VIRTUAL
        0x101000 := by
    refine ⟨rfl, by decide, by decide, ?_⟩
    rw [hRoot]
    exact hTables
  refine ⟨⟨0x101000, KERNEL_DIR_VIRTUAL,
    KERNEL_TABLES_VIRTUAL⟩, 0x102000, 0x103000, 0x102000,
    ⟨.inl ⟨rfl, rfl⟩, ⟨rfl, ?_, ?_, ?_⟩, ?_, rfl, hMaps,
      hWindow, hMount, ?_, by decide⟩, hPages, ?_, ?_⟩
  · rw [hRoot]
    decide
  · rw [hRoot]
    exact hMaps
  · rw [hRoot]
    exact hWindow
  · rw [hRoot]
    exact hMount
  · rw [hRoot]
    decide
  · unfold emptyWindows
    rw [hRoot]
    exact hWindows
  · intro f hMem
    rcases List.mem_cons.mp hMem with rfl | hMem
    · exact unused_kernelMachine (by decide) (by decide)
        (by decide)
    · rw [List.mem_singleton] at hMem
      subst hMem
      exact unused_kernelMachine (by decide) (by decide)
        (by decide)

theorem canMount_kernelRam :
    CanMount (kernelMachine kernelRam) 0x101000 2
      [0x104000, 0x105000] := by
  apply canMount_kernelMachine <;> decide

theorem canMount_staleRam :
    CanMount (kernelMachine staleRam) 0x101000 2
      [0x104000, 0x105000] := by
  apply canMount_kernelMachine <;> decide

/- The kernel's directory is made current again. -/
theorem CanMount.switched_kernel
    {ram : ByteMemory}
    {frames : List Nat}
    (hMount : CanMount (kernelMachine ram) k 2 frames) :
    CanMount
      ((kernelMachine ram).switched .kernelDirectory
        ⟨0x101000, KERNEL_DIR_VIRTUAL,
          KERNEL_TABLES_VIRTUAL⟩) k 1 frames := by
  rcases hMount with
    ⟨d, t, mt, tk, hSetup, hPages, hWindows, hUnused⟩
  exact ⟨d, t, mt, tk, hSetup,
    Nat.le_trans (by decide) hPages,
    Nat.le_trans (by decide) hWindows, hUnused⟩

/- With cleared frames both frames come back. -/
theorem cleared_frames_given_back :
    GivesBack (kernelMachine kernelRam) .kernelDirectory
      .kernelDirectory :=
  (givesBack_iff canMount_kernelRam rfl
    canMount_kernelRam.switched_kernel (by decide) rfl rfl rfl
    (by decide) (by decide)).mpr fun _ hj =>
      kernelRam_zero (by decide) (by decide) (by omega)

/- With an old entry a third frame is freed. -/
theorem stale_table_freed :
    ¬ GivesBack (kernelMachine staleRam) .kernelDirectory
      .kernelDirectory := by
  intro hGives
  have hNil :=
    hGives.stale_nil canMount_staleRam rfl
      canMount_staleRam.switched_kernel (by decide) rfl rfl rfl
      (by decide +kernel) (by decide)
  have hWord : staleRam.word 0x105000 0 = 0 :=
    staleFrames_eq_nil_iff.mp hNil 0 (by decide)
  have hStored : staleRam.word 0x105000 0 = 0x106003 :=
    ByteMemory.word_setWord_self _ _ _ (by decide)
  rw [hStored] at hWord
  exact absurd hWord (by decide)

end Vmm

end SosKernel
