import Mathlib.Data.Finset.Card
import Mathlib.Data.Finset.Range
import SosKernel.Lib.Reachable
import SosKernel.Vmm.Mapping

/-
  An address space as a partial function from pages to
  frames, and how `map` and `unmap` update it.

  Main declarations:
    * `AddressSpace`, `EditStep`, `Agrees`, `Refines`
    * `Built`: a directory with its page tables
    * `Clean`: no stale entries
    * `Tracks`: the invariant, with `Tracks.store`
-/

------------------------------------------------------------
-- Pages
------------------------------------------------------------

namespace SosKernel

namespace Vmm

/- The frame of every mapped page. -/
abbrev AddressSpace : Type := Nat → Option Nat

/- A page outside the self-map windows of the directory. -/
def Outside (d : PageDirectory) (n : Nat) : Prop :=
  n ≠ pgNumFromAddr d.directory ∧
    n / 1024 ≠ pgdirIdxFromAddr d.pages

/-
  The pages that are mapped and unmapped: those of the user,
  of the kernel heap and of the frame stack.
-/
def Ordinary (d : PageDirectory) (n : Nat) : Prop :=
  (n < pgNumFromAddr KERNEL_ADDRESS_SPACE ∨
      pgNumFromAddr KHEAP_START ≤ n ∧
        n < pgNumFromAddr KHEAP_END ∨
      pgNumFromAddr PMM_STACK_START ≤ n ∧
        n < pgNumFromAddr PMM_STACK_END) ∧
    Outside d n

/- No directory entry of the machine refers to the frame. -/
structure Fresh (m : Machine) (f : Nat) : Prop where
  aligned : f % 4096 = 0
  lt : f < 2 ^ 32
  ne_root : f ≠ m.root
  unused : ∀ i, i < 1024 → m.ram.entry m.root i ≠ some f

------------------------------------------------------------
-- Edits
------------------------------------------------------------

/-
  A call of `map` or `unmap` that returned, next to the
  update of the address space that it stands for.
-/
inductive EditStep (d : PageDirectory) :
    Machine × AddressSpace →
      Machine × AddressSpace → Prop where
| map
    {m m' : Machine}
    {space : AddressSpace}
    (va pa flags : Nat)
    (hva : va < 2 ^ 32)
    (hpa : pa < 2 ^ 32)
    (hFlags : flags < 0x1000)
    (hOrdinary : Ordinary d (pgNumFromAddr va))
    (hFresh :
      m.ram.word m.root (va / 2 ^ 22) = 0 →
        ∀ f rest, m.frames = f :: rest → Fresh m f)
    (hRun : (map va pa flags).run m = .ok () m') :
    EditStep d (m, space)
      (m',
        Function.update space (pgNumFromAddr va)
          (some (pageAddr pa)))
| unmap
    {m m' : Machine}
    {space : AddressSpace}
    (va : Nat)
    (hva : va < 2 ^ 32)
    (hOrdinary : Ordinary d (pgNumFromAddr va))
    (hTable : m.ram.word m.root (va / 2 ^ 22) ≠ 0)
    (hRun : (unmap va).run m = .ok () m') :
    EditStep d (m, space)
      (m', Function.update space (pgNumFromAddr va) none)

/-
  The hardware's walk from the directory gives the address
  space, and `get_mapping` gives the same as the walk.
-/
structure Agrees
    (d : PageDirectory)
    (m : Machine)
    (space : AddressSpace) : Prop where
  walk :
    ∀ n, n < 2 ^ 20 → Outside d n →
      m.ram.pageAt (pageAddr d.physical) n = space n
  lookup :
    ∀ va, va < 2 ^ 32 → Ordinary d (pgNumFromAddr va) →
      (getMapping va).run m =
        .ok (m.ram.walk (pageAddr d.physical) va) m

/-
  From the address space that the machine starts with, every
  run of edits keeps up with its updates, whatever frames
  `pmm_alloc_page` returns.
-/
def Refines (m : Machine) (d : PageDirectory) : Prop :=
  ∀ frames cfg,
    Reachable
      (· = (m.withFrames frames,
        m.ram.pageAt (pageAddr d.physical)))
      (EditStep d) cfg →
    Agrees d cfg.1 cfg.2

------------------------------------------------------------
-- Well-Formed Directories
------------------------------------------------------------

/-
  The current directory with its page tables: the kernel's
  ones exist, and none is shared between two entries.
-/
structure Built
    (m : Machine)
    (d : PageDirectory)
    (t : Nat) : Prop where
  self : SelfMapped m d t
  layout :
    (d.directory = KERNEL_DIR_VIRTUAL ∧
        d.pages = KERNEL_TABLES_VIRTUAL) ∨
      (d.directory = USER_DIR_VIRTUAL ∧
        d.pages = USER_TABLES_VIRTUAL)
  kernelTables :
    ∀ n, Ordinary d n →
      pgNumFromAddr KERNEL_ADDRESS_SPACE ≤ n →
        ∃ u, m.ram.entry m.root (n / 1024) = some u
  distinct :
    ∀ n u, Ordinary d n →
      m.ram.entry m.root (n / 1024) = some u →
        u ≠ m.root ∧
          ∀ i, i < 1024 → i ≠ n / 1024 →
            m.ram.entry m.root i ≠ some u

/-
  Every entry of an ordinary page is zero or present, and no
  entry but the window's refers to the directory itself,
  unless all page tables exist already.
-/
structure Clean (m : Machine) (d : PageDirectory) : Prop where
  present :
    ∀ n, Ordinary d n →
      m.ram.word m.root (n / 1024) = 0 ∨
        ∃ u, m.ram.entry m.root (n / 1024) = some u ∧
          (m.ram.word u (n % 1024) = 0 ∨
            m.ram.word u (n % 1024) % 2 = 1)
  selfOnly :
    (∀ i, i < 1024 → i ≠ pgdirIdxFromAddr d.pages →
        m.ram.entry m.root i ≠ some m.root) ∨
      ∀ n, Ordinary d n → m.ram.word m.root (n / 1024) ≠ 0

variable {m m' : Machine}
variable {d : PageDirectory}
variable {space : AddressSpace}
variable {t u n v : Nat}

theorem Ordinary.lt
    (hOrdinary : Ordinary d n) :
    n < 2 ^ 20 := by
  have hRange := hOrdinary.1
  unfold pgNumFromAddr KERNEL_ADDRESS_SPACE KHEAP_START
    KHEAP_END PMM_STACK_START PMM_STACK_END at hRange
  omega

/- Two entries that refer to one ordinary table are one. -/
theorem Built.index_eq
    {i : Nat}
    (hBuilt : Built m d t)
    (hOrdinary : Ordinary d n)
    (hEntry : m.ram.entry m.root (n / 1024) = some u)
    (hi : i < 1024)
    (hSame : m.ram.entry m.root i = some u) :
    i = n / 1024 := by
  by_contra hNe
  exact (hBuilt.distinct n u hOrdinary hEntry).2 i hi hNe
    hSame

------------------------------------------------------------
-- The Invariant
------------------------------------------------------------

/- The machine, its directory and the address space. -/
structure Tracks
    (d : PageDirectory)
    (t : Nat)
    (m : Machine)
    (space : AddressSpace) : Prop where
  built : Built m d t
  clean : Clean m d
  pages :
    ∀ n, n < 2 ^ 20 → Outside d n →
      m.ram.pageAt m.root n = space n

/- Where a store into a page table is seen. -/
theorem word_tableStore
    {g j : Nat}
    (hEntry : m.ram.entry m.root (n / 1024) = some u)
    (hg : g % 4096 = 0)
    (hj : j < 1024)
    (hNe : g ≠ u ∨ j ≠ n % 1024) :
    (m.ram.setWord u (n % 1024) v).word g j =
      m.ram.word g j :=
  ByteMemory.word_setWord_of_ne _ _
    (ByteMemory.entry_aligned hEntry) hg (by omega) hj hNe

/-
  A zero or present entry is stored for an ordinary page
  whose page table exists.
-/
theorem Tracks.store
    (hTracks : Tracks d t m space)
    (hOrdinary : Ordinary d n)
    (hEntry : m.ram.entry m.root (n / 1024) = some u)
    (hv : v < 2 ^ 32)
    (hPresent : v = 0 ∨ v % 2 = 1) :
    Tracks d t (m.withRam (m.ram.setWord u (n % 1024) v))
      (Function.update space n (ByteMemory.entryFrame v)) := by
  rcases hTracks with ⟨hBuilt, hClean, hPages⟩
  have hRootAligned := root_aligned m
  have hNeRoot := (hBuilt.distinct n u hOrdinary hEntry).1
  have hFits := hBuilt.self.maps.fits
  have hPagesFits := hBuilt.self.tables.fits
  -- the directory itself is unchanged
  have hWord :
      ∀ i, i < 1024 →
        (m.ram.setWord u (n % 1024) v).word m.root i =
          m.ram.word m.root i :=
    fun i hi =>
      word_tableStore hEntry hRootAligned hi
        (.inl hNeRoot.symm)
  have hEntries :
      ∀ i, i < 1024 →
        (m.ram.setWord u (n % 1024) v).entry m.root i =
          m.ram.entry m.root i :=
    fun i hi => ByteMemory.entry_congr (hWord i hi)
  -- other pages keep their entries
  have hOther :
      ∀ n' w, n' < 2 ^ 20 → n' ≠ n →
        m.ram.entry m.root (n' / 1024) = some w →
          (m.ram.setWord u (n % 1024) v).word w (n' % 1024) =
            m.ram.word w (n' % 1024) := by
    intro n' w hn' hNe hw
    apply word_tableStore hEntry
      (ByteMemory.entry_aligned hw) (by omega)
    by_cases hSame : w = u
    · rw [hSame] at hw
      have hIndex := hBuilt.index_eq hOrdinary hEntry
        (by omega) hw
      exact .inr (by omega)
    · exact .inl hSame
  have hSelfPage : pgNumFromAddr d.directory ≠ n :=
    hOrdinary.2.1.symm
  refine
    { built := ?_
      clean := ?_
      pages := ?_ }
  · refine
      { self := ?_
        layout := hBuilt.layout
        kernelTables := ?_
        distinct := ?_ }
    · refine hBuilt.self.congr rfl rfl rfl rfl ?_ ?_ ?_
      · exact hWord _ (by omega)
      · apply hOther (pgNumFromAddr d.directory) t
          (pgNum_lt (by omega)) hSelfPage
        rw [pgNum_div]
        exact hBuilt.self.maps.dir
      · exact hWord _ (by omega)
    · intro n' hn' hKernel
      rcases hBuilt.kernelTables n' hn' hKernel with ⟨w, hw⟩
      have hLt := hn'.lt
      exact ⟨w, (hEntries _ (by omega)).trans hw⟩
    · intro n' w hn' hw
      have hLt := hn'.lt
      rw [withRam_ram, withRam_root, hEntries _ (by omega)]
        at hw
      rcases hBuilt.distinct n' w hn' hw with ⟨hNe, hApart⟩
      refine ⟨hNe, ?_⟩
      intro i hi hNe'
      rw [withRam_ram, withRam_root, hEntries i hi]
      exact hApart i hi hNe'
  · refine
      { present := ?_
        selfOnly := ?_ }
    · intro n' hn'
      have hLt := hn'.lt
      rw [withRam_ram, withRam_root, hWord _ (by omega),
        hEntries _ (by omega)]
      rcases hClean.present n' hn' with hZero | ⟨w, hw, hOdd⟩
      · exact .inl hZero
      · refine .inr ⟨w, hw, ?_⟩
        by_cases hSame : n' = n
        · subst hSame
          rw [hEntry] at hw
          cases hw
          rw [ByteMemory.word_setWord_self _ _ _ hv]
          exact hPresent
        · rw [hOther n' w hLt hSame hw]
          exact hOdd
    · rcases hClean.selfOnly with hOnly | hAll
      · refine .inl ?_
        intro i hi hNe
        rw [withRam_ram, withRam_root, hEntries i hi]
        exact hOnly i hi hNe
      · refine .inr ?_
        intro n' hn'
        have hLt := hn'.lt
        rw [withRam_ram, withRam_root, hWord _ (by omega)]
        exact hAll n' hn'
  · intro n' hn' hOutside
    rw [withRam_ram, withRam_root]
    by_cases hSame : n' = n
    · subst hSame
      rw [Function.update_self]
      have hNew := hEntries (n' / 1024) (by omega)
      rw [ByteMemory.pageAt_of_entry (hNew.trans hEntry)]
      exact ByteMemory.entry_of_word
        (ByteMemory.word_setWord_self _ _ _ hv)
    · rw [Function.update_of_ne hSame, ← hPages n' hn' hOutside]
      exact ByteMemory.pageAt_congr (hWord _ (by omega))
        (fun w hw => hOther n' w hn' hSame hw)

end Vmm

end SosKernel
