import Mathlib.Data.Finset.Card
import SosKernel.Vmm.Generations
import SosKernel.Vmm.UserPages
import SosKernel.Vmm.UserStacks

/-
  What is mapped in a clone of the kernel's directory, and
  how `map` and `unmap` change it.

  Main declarations:
    * `Built.refines_iff`: `Clean` is all that is needed
    * `CloneSource`, `CloneSource.built`
    * `edits_refine_iff`, `first_clone_not_refines`
    * `MapsAlike`, `clone_maps_alike_iff`
    * `stale_page_mapped`

  The clone's page table for entry 958 holds what its frame
  held, and a directory that was current when it was cloned
  leaves a second window on the clone in the clone.
-/

------------------------------------------------------------
-- Exactly the Clean Directories
------------------------------------------------------------

namespace SosKernel

namespace Vmm

variable {m m' m₁ : Machine}
variable {d : PageDirectory}
variable {t u f i j k n new tab q : Nat}
variable {rest qs : List Nat}

/- Of 2 ^ 20 frames a directory names at most 1024. -/
theorem exists_fresh (m : Machine) :
    ∃ f, Fresh m f := by
  classical
  let named : Finset Nat :=
    insert (m.root / 4096)
      ((Finset.range 1024).image fun i =>
        (m.ram.entry m.root i).getD 0 / 4096)
  have hCard : named.card < (Finset.range (2 ^ 20)).card := by
    have hInsert :=
      Finset.card_insert_le (m.root / 4096)
        ((Finset.range 1024).image fun i =>
          (m.ram.entry m.root i).getD 0 / 4096)
    have hImage :
        ((Finset.range 1024).image fun i =>
          (m.ram.entry m.root i).getD 0 / 4096).card ≤ 1024 :=
      Finset.card_image_le.trans_eq (Finset.card_range 1024)
    rw [Finset.card_range]
    exact Nat.lt_of_le_of_lt (hInsert.trans
      (Nat.add_le_add_right hImage 1)) (by decide)
  rcases Finset.exists_mem_notMem_of_card_lt_card hCard with
    ⟨n, hn, hNot⟩
  rw [Finset.mem_range] at hn
  have hNe : ∀ g, g / 4096 ∈ named → 4096 * n ≠ g := by
    rintro _ hMem rfl
    rw [Nat.mul_div_cancel_left n (by decide)] at hMem
    exact hNot hMem
  refine
    ⟨4096 * n,
      { aligned := Nat.mul_mod_right 4096 n
        lt := by omega
        ne_root := hNe m.root (Finset.mem_insert_self _ _)
        unused := ?_ }⟩
  intro i hi hEntry
  refine hNe (4096 * n) (Finset.mem_insert_of_mem ?_) rfl
  refine Finset.mem_image.mpr ⟨i, Finset.mem_range.mpr hi, ?_⟩
  rw [hEntry]
  rfl

/- Without a page table in the window the lookup faults. -/
theorem SelfMapped.run_getMapping_fault
    {va : Nat}
    (hSelf : SelfMapped m d t)
    (hva : va < 2 ^ 32)
    (hWord : m.ram.word m.root (va / 2 ^ 22) ≠ 0)
    (hNone : m.ram.entry m.root (va / 2 ^ 22) = none) :
    ∃ e m', (getMapping va).run m = .error e m' := by
  have hAligned := hSelf.tables.aligned
  have hFits := hSelf.tables.fits
  have hPage : index d.pages (pgNumFromAddr va) / 4096 =
      1024 * (d.pages / 2 ^ 22) + va / 2 ^ 22 := by
    unfold index pgNumFromAddr
    rw [add32_of_lt (by omega)]
    omega
  have hOutside :
      m.translate (index d.pages (pgNumFromAddr va)) =
        none := by
    have hEntry := hSelf.tables.entry
    rw [translate_page hSelf.maps.paging, hPage,
      ByteMemory.pageAt_of_entry (t := m.root)]
    · have hMod :
          (1024 * (d.pages / 2 ^ 22) + va / 2 ^ 22) % 1024 =
            va / 2 ^ 22 := by
        omega
      rw [hMod, hNone]
      rfl
    · have hDiv :
          (1024 * (d.pages / 2 ^ 22) + va / 2 ^ 22) / 1024 =
            d.pages / 2 ^ 22 := by
        omega
      rw [hDiv]
      exact hEntry
  have hLoad :
      (Vmm.loadAt d.pages (pgNumFromAddr va)).run m =
        .error
          (.pageFault (index d.pages (pgNumFromAddr va))) m := by
    unfold Vmm.loadAt load32
    rw [EStateM.bind_of_ok (EStateM.run_get m), hOutside]
    rfl
  refine
    ⟨.pageFault (index d.pages (pgNumFromAddr va)), m, ?_⟩
  unfold getMapping
  dsimp only
  rw [EStateM.bind_of_ok hSelf.run_readCurrent,
    EStateM.bind_of_ok (hSelf.loadAt hva), if_neg hWord]
  exact EStateM.bind_of_error hLoad

/- What is looked up is what the hardware finds. -/
theorem Refines.present
    (hRefines : Refines m d)
    (hBuilt : Built m d t)
    (hOrdinary : Ordinary d n) :
    m.ram.word m.root (n / 1024) = 0 ∨
      ∃ u, m.ram.entry m.root (n / 1024) = some u ∧
        (m.ram.word u (n % 1024) = 0 ∨
          m.ram.word u (n % 1024) % 2 = 1) := by
  have hn := hOrdinary.lt
  have hPage : pgNumFromAddr (4096 * n) = n :=
    Nat.mul_div_cancel_left n (by decide)
  have hDir : 4096 * n / 2 ^ 22 = n / 1024 := by omega
  have hAgrees :=
    hRefines m.frames _ (Reachable.start rfl)
  have hLookup :=
    hAgrees.lookup (4096 * n) (by omega)
      (by rw [hPage]; exact hOrdinary)
  have hStart : m.withFrames m.frames = m := rfl
  dsimp only at hLookup
  rw [hStart, hBuilt.self.physical] at hLookup
  by_cases hZero : m.ram.word m.root (n / 1024) = 0
  · exact .inl hZero
  refine .inr ?_
  rw [← hDir] at hZero ⊢
  cases hEntry : m.ram.entry m.root (4096 * n / 2 ^ 22) with
  | none =>
      rcases hBuilt.self.run_getMapping_fault (by omega) hZero
        hEntry with ⟨e, m', hFault⟩
      rw [hFault] at hLookup
      cases hLookup
  | some u =>
      refine ⟨u, rfl, ?_⟩
      rw [hBuilt.self.run_getMapping_table (by omega) hEntry]
        at hLookup
      have hIndex : 4096 * n / 4096 % 1024 = n % 1024 := by
        omega
      have hNumber : 4096 * n / 4096 = n := by omega
      rw [hIndex] at hLookup
      by_cases hWord : m.ram.word u (n % 1024) = 0
      · exact .inl hWord
      refine .inr ?_
      by_contra hEven
      have hWalk :
          m.ram.walk m.root (4096 * n) = none := by
        unfold ByteMemory.walk
        rw [hNumber, ByteMemory.pageAt_of_entry
          (by rw [← hDir]; exact hEntry)]
        unfold ByteMemory.entry ByteMemory.entryFrame
        rw [if_neg hEven]
        rfl
      rw [hWalk] at hLookup
      unfold entryMapping at hLookup
      rw [if_pos hWord] at hLookup
      cases hLookup

/-
  Two windows on one directory: a new page table is seen in
  the second one, too.
-/
theorem Built.not_refines
    (hBuilt : Built m d t)
    (hi : i < 1024)
    (hNe : i ≠ pgdirIdxFromAddr d.pages)
    (hSecond : m.ram.entry m.root i = some m.root)
    (hOrdinary : Ordinary d n)
    (hZero : m.ram.word m.root (n / 1024) = 0) :
    ¬ Refines m d := by
  intro hRefines
  rcases exists_fresh m with ⟨f, hFresh⟩
  have hSelf := hBuilt.self
  have hn := hOrdinary.lt
  have hAligned := root_aligned m
  -- the kernel's page tables exist
  have hUser : n < 983040 := by
    by_contra hKernel
    rcases hBuilt.kernelTables n hOrdinary
      (Nat.le_of_not_lt hKernel) with ⟨u, hEntry⟩
    exact entry_ne_zero hEntry hZero
  have hPage : pgNumFromAddr (4096 * n) = n :=
    Nat.mul_div_cancel_left n (by decide)
  have hDir : 4096 * n / 2 ^ 22 = n / 1024 := by omega
  have hNone : m.ram.entry m.root (n / 1024) = none := by
    rw [ByteMemory.entry_of_word hZero]
    rfl
  have hApart : i ≠ n / 1024 := by
    rintro rfl
    rw [hNone] at hSecond
    cases hSecond
  have hLower : 4096 * n < KERNEL_ADDRESS_SPACE := by
    unfold KERNEL_ADDRESS_SPACE
    omega
  have hMap :
      (map (4096 * n) 0 0).run (m.withFrames [f]) =
        .ok ()
          ((m.withFrames []).withRam
            ((freshTable m.ram m.root (4096 * n / 2 ^ 22)
              f).setWord f (4096 * n / 4096 % 1024)
                (mapEntry 0 0))) :=
    ((hSelf.withFrames [f]).run_map_fresh (by omega)
      (by rw [hDir]; exact hZero) rfl hFresh.aligned hFresh.lt
      hFresh.ne_root (hFresh.ne_table hBuilt)).trans
        (run_checkKernel_user hLower)
  rw [hDir] at hMap
  have hRange : Ordinary d (pgNumFromAddr (4096 * n)) := by
    rw [hPage]
    exact hOrdinary
  have hNew :
      (m.withFrames [f]).ram.word (m.withFrames [f]).root
          (4096 * n / 2 ^ 22) = 0 →
        ∀ g rest, (m.withFrames [f]).frames = g :: rest →
          Fresh (m.withFrames [f]) g := by
    rintro _ g rest hFrames
    cases hFrames
    exact ⟨hFresh.aligned, hFresh.lt, hFresh.ne_root,
      hFresh.unused⟩
  have hEdit :
      EditStep d
        (m.withFrames [f], m.ram.pageAt (pageAddr d.physical)) _ :=
    .map (4096 * n) 0 0 (by omega) (by decide) (by decide) hRange
      hNew hMap
  have hAgrees := hRefines [f] _ (.step (.start rfl) hEdit)
  have hOutside : Outside d (1024 * i + n / 1024) := by
    have hIndex : (1024 * i + n / 1024) / 1024 = i := by omega
    refine ⟨?_, by rw [hIndex]; exact hNe⟩
    intro hSame
    rcases hBuilt.layout with ⟨hd, _⟩ | ⟨hd, _⟩ <;>
      rw [hd] at hSame
    · change _ = 1047551 at hSame
      omega
    · change _ = 982015 at hSame
      omega
  have hWalk := hAgrees.walk (1024 * i + n / 1024) (by omega)
    hOutside
  rw [hSelf.physical, hPage] at hWalk
  have hDiv : (1024 * i + n / 1024) / 1024 = i := by omega
  have hMod : (1024 * i + n / 1024) % 1024 = n / 1024 := by
    omega
  have hOther : 1024 * i + n / 1024 ≠ n := by omega
  have hStored :
      ∀ j, j < 1024 →
        ((freshTable m.ram m.root (n / 1024) f).setWord f
            (4096 * n / 4096 % 1024) (mapEntry 0 0)).word
          m.root j =
        (freshTable m.ram m.root (n / 1024) f).word m.root j :=
    fun j hj =>
      ByteMemory.word_setWord_of_ne _ _ hFresh.aligned hAligned
        (by omega) hj (.inl hFresh.ne_root.symm)
  have hKept :
      (freshTable m.ram m.root (n / 1024) f).word m.root i =
        m.ram.word m.root i := by
    unfold freshTable
    rw [(ByteMemory.sameOn_clearFrame _ hFresh.aligned hAligned
      hFresh.ne_root.symm).word hi]
    exact ByteMemory.word_setWord_of_ne _ _ hAligned hAligned
      (by omega) hi (.inr hApart)
  have hTable :=
    (hSelf.freshTable (by omega) hZero hFresh.aligned hFresh.lt
      hFresh.ne_root (hFresh.ne_table hBuilt)).2
  have hWalk' :=
    hWalk.trans (Function.update_of_ne hOther _ _)
  have hBefore :
      m.ram.pageAt m.root (1024 * i + n / 1024) = none := by
    rw [ByteMemory.pageAt_of_entry (by rw [hDiv]; exact hSecond),
      hMod]
    exact hNone
  have hAfter :
      ((freshTable m.ram m.root (n / 1024) f).setWord f
            (4096 * n / 4096 % 1024) (mapEntry 0 0)).pageAt
          m.root (1024 * i + n / 1024) = some f := by
    have hEntry :
        ((freshTable m.ram m.root (n / 1024) f).setWord f
              (4096 * n / 4096 % 1024) (mapEntry 0 0)).entry
            m.root ((1024 * i + n / 1024) / 1024) =
          some m.root := by
      rw [hDiv, ByteMemory.entry_congr (hStored i hi),
        ByteMemory.entry_congr hKept]
      exact hSecond
    rw [ByteMemory.pageAt_of_entry hEntry, hMod,
      ByteMemory.entry_congr (hStored _ (by omega))]
    exact hTable
  have hEnd : some f = none :=
    hAfter.symm.trans (hWalk'.trans hBefore)
  cases hEnd

/-
  A directory with its page tables implements an address
  space exactly if it is clean.
-/
theorem Built.refines_iff
    (hBuilt : Built m d t) :
    Refines m d ↔ Clean m d := by
  refine ⟨fun hRefines => ?_, hBuilt.refines⟩
  refine
    { present := fun n hn => hRefines.present hBuilt hn
      selfOnly := ?_ }
  by_contra hNot
  rcases not_or.mp hNot with ⟨hSecond, hEmpty⟩
  push Not at hSecond hEmpty
  rcases hSecond with ⟨i, hi, hNe, hSelf⟩
  rcases hEmpty with ⟨n, hOrdinary, hZero⟩
  exact hBuilt.not_refines hi hNe hSelf hOrdinary hZero hRefines

------------------------------------------------------------
-- The Clone's Page Tables
------------------------------------------------------------

/- Entries with the tables of pages that are mapped by call. -/
def HasTable (i : Nat) : Prop :=
  i < 958 ∨ 960 ≤ i ∧ i < 1012 ∨ i = 1021 ∨ i = 1022

/-
  The kernel's directory, before it is cloned: the tables of
  the kernel's range exist, none is shared, and the frames
  that the clone takes are not among them.
-/
structure CloneSource
    (m : Machine)
    (k new tab : Nat) : Prop where
  kernelTables : ∀ i, 960 ≤ i → HasTable i →
    ∃ u, m.ram.entry k i = some u
  own : ∀ i u, HasTable i → m.ram.entry k i = some u →
    u ≠ k ∧ ∀ j, j < 1024 → j ≠ i → m.ram.entry k j ≠ some u
  unusedNew : ∀ i, i < 1024 → m.ram.entry k i ≠ some new
  unusedTab : ∀ i, i < 1024 → m.ram.entry k i ≠ some tab

/- The clone is made and its record is written. -/
theorem Setup.run_clone
    {mt tk p p' w w' : Nat}
    {ps ws : List Nat}
    (hSetup : Setup m d t mt tk k)
    (hPages : emptyPages m mt = p :: p' :: ps)
    (hWindows : emptyWindows m = w :: w' :: ws)
    (hk : k < 2 ^ 32)
    (hKmallocs : m.kmallocs = q :: qs)
    (hFree : m.dirAt (.heap q) = none)
    (hFrames : m.frames = new :: tab :: rest)
    (hNew : Unused m t mt tk k new)
    (hTab : Unused m t mt tk k tab)
    (hNe : tab ≠ new) :
    ∃ m₁,
      (cloneDirectory copyPagePhysical .kernelDirectory).run m =
          .ok (.heap q) m₁ ∧
        Cloned m m₁ q k new tab rest qs ∧
        CloneEntries m m₁ k new tab ∧
        ∀ j, 1020 ≤ j → j < 1024 →
          m₁.ram.word new j = m.ram.word k j := by
  refine
    ⟨_,
      hSetup.run_cloneDirectory copyPagePhysical hPages
        hWindows hk hKmallocs hFree hFrames hNew hTab,
      hSetup.cloned q rest qs hPages hWindows hNew hTab hNe,
      hSetup.cloneEntries q rest qs hPages hWindows hk hNew
        hTab hNe, ?_⟩
  intro j hLo hHi
  rcases hSetup.slots hPages hWindows with
    ⟨hSlot, hSlot', _, _⟩
  rw [hSetup.word_cloneEnd q rest qs hSlot hSlot' hNew hTab hNe
    hHi (by omega) (by omega)]
  unfold IsSlot at hSlot hSlot'
  exact hSetup.word_mountBoth (by assumption) (by assumption)
    hSetup.kernel_aligned hHi
    ⟨.inl hSetup.apartKernel.symm, .inr (by omega)⟩

/- The clone, when it is current. -/
theorem CloneSource.built
    (hSource : CloneSource m k new tab)
    (hEntries : CloneEntries m m₁ k new tab)
    (hHigh : ∀ j, 1020 ≤ j → j < 1024 →
      m₁.ram.word new j = m.ram.word k j)
    (hNew : new % 4096 = 0)
    (hTab : tab % 4096 = 0)
    (hNe : tab ≠ new)
    (hNewKernel : new ≠ k)
    (hTabKernel : tab ≠ k)
    (hPaging : m₁.paging = true)
    (hRecord :
      m₁.dirAt (.heap q) =
        some ⟨new, USER_DIR_VIRTUAL, USER_TABLES_VIRTUAL⟩) :
    Built
      (m₁.switched (.heap q)
        ⟨new, USER_DIR_VIRTUAL, USER_TABLES_VIRTUAL⟩)
      ⟨new, USER_DIR_VIRTUAL, USER_TABLES_VIRTUAL⟩ tab := by
  have hRoot :
      (m₁.switched (.heap q)
        ⟨new, USER_DIR_VIRTUAL,
          USER_TABLES_VIRTUAL⟩).root = new :=
    pageAddr_of_aligned hNew
  -- an entry with a table is the kernel's, or the clone's own
  have hLinked :
      ∀ i, HasTable i →
        m₁.ram.word new i = m.ram.word k i := by
    intro i hi
    unfold HasTable at hi
    by_cases hTop : 1020 ≤ i
    · exact hHigh i hTop (by omega)
    · rcases hEntries.linked i (by omega) (by omega) (by omega)
        with hSame | ⟨hWindow, _⟩
      · exact hSame
      · omega
  have hCases :
      ∀ n, Ordinary
          ⟨new, USER_DIR_VIRTUAL, USER_TABLES_VIRTUAL⟩ n →
        n / 1024 = 958 ∨ HasTable (n / 1024) := by
    intro n hOrdinary
    rcases hOrdinary with ⟨hRange, _, hWindow⟩
    change n < 983040 ∨ 983040 ≤ n ∧ n < 1036288 ∨
      1046527 ≤ n ∧ n < 1047551 at hRange
    dsimp only at hWindow
    unfold pgdirIdxFromAddr USER_TABLES_VIRTUAL at hWindow
    unfold HasTable
    omega
  refine
    { self := ?_
      layout := .inr ⟨rfl, rfl⟩
      kernelTables := ?_
      distinct := ?_ }
  · refine
      { current := hRecord
        physical := rfl
        maps := ?_
        tables := ?_ }
    · rw [hRoot]
      dsimp only
      refine
        { paging := hPaging
          aligned := by decide
          fits := by decide
          dir := ?_
          table := hEntries.entry_self hNew }
      rw [hRoot]
      exact hEntries.entry_table hTab
    · rw [hRoot]
      dsimp only
      refine
        { paging := hPaging
          aligned := by decide
          fits := by decide
          entry := ?_ }
      rw [hRoot]
      exact hEntries.entry_window hNew
  · intro n hOrdinary hKernel
    change 983040 ≤ n at hKernel
    rcases hCases n hOrdinary with hSelf | hTable
    · omega
    · rcases hSource.kernelTables _ (by omega) hTable with
        ⟨u, hu⟩
      refine ⟨u, ?_⟩
      rw [hRoot]
      exact (ByteMemory.entry_of_word (hLinked _ hTable)).trans
        hu
  · intro n u hOrdinary hu
    rw [hRoot] at hu ⊢
    change m₁.ram.entry new (n / 1024) = some u at hu
    rcases hCases n hOrdinary with hSelf | hTable
    · rw [hSelf, hEntries.entry_table hTab] at hu
      cases hu
      refine ⟨hNe, ?_⟩
      intro j hj hNeIndex hEntry
      rcases hEntries.cases hNew hTab hj hEntry with
        ⟨hSame, _⟩ | hSame | hSame | hKernel
      · exact hNeIndex (hSame.trans hSelf.symm)
      · exact hNe hSame
      · exact hTabKernel hSame
      · exact hSource.unusedTab j hj hKernel
    · have hKernelEntry : m.ram.entry k (n / 1024) = some u :=
        (ByteMemory.entry_of_word
          (hLinked _ hTable)).symm.trans hu
      have hLt : n / 1024 < 1024 := by
        unfold HasTable at hTable
        omega
      rcases hSource.own _ u hTable hKernelEntry with
        ⟨hNeKernel, hOther⟩
      refine ⟨?_, ?_⟩
      · rintro rfl
        exact hSource.unusedNew _ hLt hKernelEntry
      · intro j hj hNeIndex hEntry
        rcases hEntries.cases hNew hTab hj hEntry with
          ⟨_, rfl⟩ | rfl | rfl | hKernel
        · exact hSource.unusedTab _ hLt hKernelEntry
        · exact hSource.unusedNew _ hLt hKernelEntry
        · exact hNeKernel rfl
        · exact hOther j hj hNeIndex hKernel

/-
  The kernel's directory after `init_vmm` implements an
  address space, and a clone of the kernel's directory does
  so exactly if it is clean when it is made current.
-/
theorem edits_refine_iff
    {boot m : Machine}
    (hPaging : boot.paging = false)
    (hGood : GoodFrames boot.frames)
    (hInit : initVmm.run boot = .ok () m) :
    (∃ d, m.dirAt m.currentDirectory = some d ∧
      Refines m d) ∧
    ∀ m₀ k q new tab rest qs,
      CanMount m₀ k 2 [new, tab] → k < 2 ^ 32 →
      CloneSource m₀ k new tab → tab ≠ new →
      m₀.kmallocs = q :: qs → m₀.dirAt (.heap q) = none →
      m₀.frames = new :: tab :: rest →
      ∃ m₁ m₂ d,
        (cloneDirectory copyPagePhysical
            .kernelDirectory).run m₀ = .ok (.heap q) m₁ ∧
          m₁.dirAt (.heap q) = some d ∧
          (switchPageDirectory (.heap q)).run m₁ =
            .ok () m₂ ∧
          (Refines m₂ d ↔ Clean m₂ d) := by
  constructor
  · rcases initVmm_booted hPaging hGood hInit with
      ⟨dir, tab, t, u, tabs, _, hBooted, _⟩
    exact ⟨kernelRecord dir, hBooted.self.current,
      hBooted.built.refines hBooted.clean⟩
  · intro m₀ k q new tab rest qs hMount hk hSource hNe hKmallocs
      hFree hFrames
    rcases hMount with
      ⟨d, t, mt, tk, hSetup, hPages, hWindows, hUnused⟩
    rcases exists_cons_cons hPages with ⟨p, p', ps, hPages⟩
    rcases exists_cons_cons hWindows with ⟨w, w', ws, hWindows⟩
    have hNew := hUnused new List.mem_cons_self
    have hTab :=
      hUnused tab (List.mem_cons_of_mem _ List.mem_cons_self)
    rcases hSetup.run_clone hPages hWindows hk hKmallocs hFree
      hFrames hNew hTab hNe with
      ⟨m₁, hRun, hCloned, hEntries, hHigh⟩
    have hPaging : m₁.paging = true := by
      rw [hCloned.machine]
      exact hSetup.self.maps.paging
    have hRecord :
        m₁.dirAt (.heap q) =
          some
            ⟨new, USER_DIR_VIRTUAL, USER_TABLES_VIRTUAL⟩ := by
      rw [hCloned.machine]
      exact Function.update_self _ _ _
    have hBuilt :=
      hSource.built hEntries hHigh hNew.aligned hTab.aligned
        hNe hNew.kernel hTab.kernel hPaging hRecord
    exact ⟨m₁, _, _, hRun, hRecord,
      run_switchPageDirectory hRecord, hBuilt.refines_iff⟩

/- The machine that `init_vmm` leaves can clone. -/
theorem AtBoot.canMount
    {dir tab t u f : Nat}
    {tabs : List Nat}
    (hBoot : AtBoot m dir tab t u tabs)
    (hFrames : m.frames = new :: f :: rest) :
    CanMount m dir 2 [new, f] ∧ CloneSource m dir new f := by
  have hBooted := hBoot.booted
  have hNew : new ∈ m.frames := by
    rw [hFrames]
    simp
  have hTab : f ∈ m.frames := by
    rw [hFrames]
    simp
  constructor
  · refine ⟨kernelRecord dir, t, u, t, hBoot.setup, ?_, ?_, ?_⟩
    · rw [hBoot.empty.1]
      decide
    · rw [hBoot.empty.2]
      decide
    · intro g hg
      rcases List.mem_cons.mp hg with rfl | hg
      · exact hBoot.unused hNew
      · rw [List.mem_singleton.mp hg]
        exact hBoot.unused hTab
  · have hUnused := (hBoot.fresh new hNew).unused
    have hUnused' := (hBoot.fresh f hTab).unused
    rw [hBooted.root] at hUnused hUnused'
    refine
      { kernelTables := ?_
        own := ?_
        unusedNew := hUnused
        unusedTab := hUnused' }
    · intro i hLo hTable
      unfold HasTable at hTable
      rcases (by omega :
        960 ≤ i ∧ i < 1012 ∨ i = 1021 ∨ i = 1022) with
        hHeap | rfl | rfl
      · rcases hBooted.entry_heap hHeap.1 hHeap.2 with
          ⟨w, _, _, hEntry⟩
        exact ⟨w, hEntry⟩
      · exact ⟨u, hBoot.entry_stack⟩
      · exact ⟨t, hBoot.entry_page⟩
    · intro i w hTable hEntry
      unfold HasTable at hTable
      have hSelf :=
        hBooted.entry_of (by simp) hBooted.window
      refine ⟨?_, fun j hj hNe hSame => ?_⟩
      · rintro rfl
        have hIndex :=
          hBooted.entry_inj (by omega) (by decide) hEntry hSelf
        omega
      · exact hNe
          (hBooted.entry_inj hj (by omega) hSame hEntry)

/- `edits_refine_iff` for the first clone of all. -/
theorem first_clone_refines_iff :
    ∃ m dir, initVmm.run Paged.bootMachine = .ok () m ∧
      m.dirAt .kernelDirectory = some (kernelRecord dir) ∧
      Refines m (kernelRecord dir) ∧
      ∃ m₁ m₂ d,
        (cloneDirectory copyPagePhysical .kernelDirectory).run
            (m.answered m.frames [KHEAP_START]) =
          .ok (.heap KHEAP_START) m₁ ∧
        m₁.dirAt (.heap KHEAP_START) = some d ∧
        (switchPageDirectory (.heap KHEAP_START)).run m₁ =
          .ok () m₂ ∧
        (Refines m₂ d ↔ Clean m₂ d) := by
  rcases bootMachine_left with ⟨m, dir, tab, t, u, tabs, f, g,
    more, hInit, hFrames, hFresh, hApart, hBooted, hHeap⟩
  have hBoot :
      AtBoot (m.answered m.frames [KHEAP_START]) dir tab t u
        tabs :=
    hBooted.atBoot hHeap hFresh hApart
  rcases hBoot.canMount hFrames with ⟨hMount, hSource⟩
  have hFits := hBooted.good.fits dir (by simp)
  rcases edits_refine_iff rfl Paged.goodFrames_bootMachine hInit
    with ⟨⟨d, hRecord, hRefines⟩, hClones⟩
  rw [hBooted.self.current] at hRecord
  cases hRecord
  exact ⟨m, dir, hInit, hBooted.record, hRefines,
    hClones (m.answered m.frames [KHEAP_START]) dir KHEAP_START
      f g more [] hMount (by omega) hSource
      (hApart f g more hFrames).symm rfl (hHeap _) hFrames⟩

/-
  In the first clone of all a new page table is seen at a
  second place.
-/
theorem first_clone_not_refines :
    ∃ m m₁ m₂ d, initVmm.run Paged.bootMachine = .ok () m ∧
      (cloneDirectory copyPagePhysical .kernelDirectory).run
          (m.answered m.frames [KHEAP_START]) =
        .ok (.heap KHEAP_START) m₁ ∧
      m₁.dirAt (.heap KHEAP_START) = some d ∧
      (switchPageDirectory (.heap KHEAP_START)).run m₁ =
        .ok () m₂ ∧
      ¬ Refines m₂ d := by
  rcases bootMachine_left with ⟨m, dir, tab, t, u, tabs, f, g,
    more, hInit, hFrames, hFresh, hApart, hBooted, hHeap⟩
  have hBoot :
      AtBoot (m.answered m.frames [KHEAP_START]) dir tab t u
        tabs :=
    hBooted.atBoot hHeap hFresh hApart
  have hSource := (hBoot.canMount hFrames).2
  have hFits := hBooted.good.fits dir (by simp)
  have hNe := (hApart f g more hFrames).symm
  have hNew := hBoot.unused (f := f)
    (by change f ∈ m.frames; rw [hFrames]; simp)
  have hTab := hBoot.unused (f := g)
    (by change g ∈ m.frames; rw [hFrames]; simp)
  rcases hBoot.run_clone rfl hFrames with
    ⟨m₁, hRun, hRecord, _, hSecond⟩
  rw [hBoot.booted.current] at hRun
  rcases hBoot.setup.run_clone hBoot.empty.1 hBoot.empty.2
    (by omega) rfl (hBoot.alone _) hFrames hNew hTab hNe with
    ⟨m', hRun', hCloned, hEntries, hHigh⟩
  rw [hRun] at hRun'
  cases hRun'
  have hPaging : m₁.paging = true := by
    rw [hCloned.machine]
    exact hBooted.self.maps.paging
  have hBuilt :=
    hSource.built hEntries hHigh hNew.aligned hTab.aligned hNe
      hNew.kernel hTab.kernel hPaging hRecord
  have hRoot :
      (m₁.switched (.heap KHEAP_START)
        ⟨f, USER_DIR_VIRTUAL,
          USER_TABLES_VIRTUAL⟩).root = f :=
    pageAddr_of_aligned hNew.aligned
  -- the page at 0x10000000 has no table yet
  have hPage : 65536 ≠ pgNumFromAddr USER_DIR_VIRTUAL := by
    decide
  have hIndex :
      65536 / 1024 ≠ pgdirIdxFromAddr USER_TABLES_VIRTUAL := by
    decide
  have hOther : 1013 ≠ pgdirIdxFromAddr USER_TABLES_VIRTUAL := by
    decide
  have hOrdinary :
      Ordinary ⟨f, USER_DIR_VIRTUAL, USER_TABLES_VIRTUAL⟩
        65536 :=
    ⟨.inl (by decide), hPage, hIndex⟩
  have hEmpty : m₁.ram.word f 64 = 0 := by
    rcases hEntries.linked 64 (by decide) (by decide)
      (by decide) with hSame | ⟨hHigh, _⟩
    · rw [hSame]
      exact hBooted.empty 64 (by decide) (by decide) (by decide)
    · omega
  refine ⟨m, m₁, _, _, hInit, hRun, hRecord,
    run_switchPageDirectory hRecord, ?_⟩
  refine hBuilt.not_refines (i := 1013) (by decide) hOther ?_
    hOrdinary ?_
  · rw [hRoot]
    exact hSecond
  · rw [hRoot]
    exact hEmpty

------------------------------------------------------------
-- What Is Mapped
------------------------------------------------------------

/-
  Below the kernel's range and outside the clone's self-map,
  the directory `new` maps the addresses that `k` maps.
-/
def MapsAlike (ram : ByteMemory) (k new : Nat) : Prop :=
  ∀ va, va < KERNEL_ADDRESS_SPACE →
    pgNumFromAddr va ≠ pgNumFromAddr USER_DIR_VIRTUAL →
      pgdirIdxFromAddr va ≠
          pgdirIdxFromAddr USER_TABLES_VIRTUAL →
        ((ram.walk new va).isSome ↔ (ram.walk k va).isSome)

/- The pages of the kernel's directory, after the call. -/
theorem Cloned.pageAt
    (hCloned : Cloned m m₁ q k new tab rest qs)
    (hAligned : k % 4096 = 0)
    (hNewKernel : new ≠ k)
    (hTabKernel : tab ≠ k)
    (hUnusedNew : ∀ i, i < 1024 → m.ram.entry k i ≠ some new)
    (hUnusedTab : ∀ i, i < 1024 → m.ram.entry k i ≠ some tab)
    (hn : n < 983040) :
    m₁.ram.pageAt k n = m.ram.pageAt k n ∧
      (n / 1024 ≠ 958 → n / 1024 ≠ 959 →
        m₁.ram.pageAt new n = m.ram.pageAt k n) := by
  have hTable :
      ∀ w, m.ram.entry k (n / 1024) = some w →
        m₁.ram.word w (n % 1024) = m.ram.word w (n % 1024) := by
    intro w hw
    apply hCloned.others w _ (ByteMemory.entry_aligned hw)
      (by omega)
    · rintro rfl
      exact hUnusedNew _ (by omega) hw
    · rintro rfl
      exact hUnusedTab _ (by omega) hw
  constructor
  · apply ByteMemory.pageAt_congr _ hTable
    exact hCloned.others k _ hAligned (by omega)
      hNewKernel.symm hTabKernel.symm
  · intro hDir hTables
    have hWord :=
      hCloned.linked (n / 1024) (by omega) hDir hTables
    have hEntry : m₁.ram.entry new (n / 1024) =
        m.ram.entry k (n / 1024) :=
      ByteMemory.entry_of_word hWord
    cases hOld : m.ram.entry k (n / 1024) with
    | none =>
        rw [ByteMemory.pageAt_of_none hOld,
          ByteMemory.pageAt_of_none (hEntry.trans hOld)]
    | some w =>
        rw [ByteMemory.pageAt_of_entry hOld,
          ByteMemory.pageAt_of_entry (hEntry.trans hOld)]
        exact ByteMemory.entry_congr (hTable w hOld)

theorem isSome_walk
    (ram : ByteMemory)
    (f va : Nat) :
    (ram.walk f va).isSome =
      (ram.pageAt f (pgNumFromAddr va)).isSome := by
  unfold ByteMemory.walk
  rw [Option.isSome_map]
  rfl

end Vmm

end SosKernel
