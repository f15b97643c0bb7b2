import SosKernel.Vmm.Model

/-
  Accesses through pages and through windows of page tables.

  Main declarations:
    * `Machine.Shows`: a page that shows a frame
    * `Machine.Maps`: such a page, with its page table
    * `Machine.ShowsTables`: a window on all page tables
    * `Machine.Shows.loadAt`, `Machine.Shows.storeAt`,
      `Machine.Steady.memset`
-/

------------------------------------------------------------
-- Words and Bytes
------------------------------------------------------------

namespace SosKernel

namespace Vmm

/- The machine with another physical memory. -/
def Machine.withRam (m : Machine) (ram : ByteMemory) : Machine :=
  { m with ram := ram }

/- The machine with other answers of the page allocator. -/
def Machine.withFrames (m : Machine) (frames : List Nat) : Machine :=
  { m with frames := frames }

/- The directory that CR3 refers to. -/
def Machine.root (m : Machine) : Nat :=
  pageAddr m.cr3

variable {m m' : Machine}
variable {a b v pa : Nat}

@[simp] theorem withRam_ram (ram : ByteMemory) :
    (m.withRam ram).ram = ram := rfl

@[simp] theorem withRam_root (ram : ByteMemory) :
    (m.withRam ram).root = m.root := rfl

@[simp] theorem withRam_paging (ram : ByteMemory) :
    (m.withRam ram).paging = m.paging := rfl

@[simp] theorem withRam_frames (ram : ByteMemory) :
    (m.withRam ram).frames = m.frames := rfl

@[simp] theorem withRam_dirAt (ram : ByteMemory) :
    (m.withRam ram).dirAt = m.dirAt := rfl

@[simp] theorem withRam_currentDirectory (ram : ByteMemory) :
    (m.withRam ram).currentDirectory = m.currentDirectory :=
  rfl

@[simp] theorem withFrames_ram (frames : List Nat) :
    (m.withFrames frames).ram = m.ram := rfl

@[simp] theorem withFrames_root (frames : List Nat) :
    (m.withFrames frames).root = m.root := rfl

@[simp] theorem withFrames_paging (frames : List Nat) :
    (m.withFrames frames).paging = m.paging := rfl

@[simp] theorem withFrames_frames (frames : List Nat) :
    (m.withFrames frames).frames = frames := rfl

@[simp] theorem withFrames_dirAt (frames : List Nat) :
    (m.withFrames frames).dirAt = m.dirAt := rfl

@[simp] theorem withFrames_currentDirectory
    (frames : List Nat) :
    (m.withFrames frames).currentDirectory =
      m.currentDirectory := rfl

theorem run_pmmAllocPage
    {frame : Nat}
    {rest : List Nat}
    (hFrames : m.frames = frame :: rest) :
    pmmAllocPage.run m = .ok frame (m.withFrames rest) := by
  unfold pmmAllocPage
  rw [EStateM.bind_of_ok (EStateM.run_get m), hFrames]
  rfl

theorem pmmAllocPage_ok
    {frame : Nat}
    (hRun : pmmAllocPage.run m = .ok frame m') :
    ∃ rest, m.frames = frame :: rest ∧
      m' = m.withFrames rest := by
  unfold pmmAllocPage at hRun
  rw [EStateM.bind_of_ok (EStateM.run_get m)] at hRun
  split at hRun
  · cases hRun
  · rename_i g rest hFrames
    cases hRun
    exact ⟨rest, hFrames, rfl⟩

theorem run_readDirectory
    {dir : DirPtr}
    {record : PageDirectory}
    (hRecord : m.dirAt dir = some record) :
    (readDirectory dir).run m = .ok record m := by
  unfold readDirectory
  rw [EStateM.bind_of_ok (EStateM.run_get m), hRecord]
  rfl

theorem readDirectory_ok
    {dir : DirPtr}
    {record : PageDirectory}
    (hRun : (readDirectory dir).run m = .ok record m') :
    m.dirAt dir = some record ∧ m' = m := by
  unfold readDirectory at hRun
  rw [EStateM.bind_of_ok (EStateM.run_get m)] at hRun
  split at hRun
  · cases hRun
  · rename_i r hRecord
    cases hRun
    exact ⟨hRecord, rfl⟩

@[simp] theorem withRam_withRam (ram ram' : ByteMemory) :
    (m.withRam ram).withRam ram' = m.withRam ram' := rfl

@[simp] theorem withRam_self : m.withRam m.ram = m := rfl

theorem run_load32
    (hAt : m.translate a = some pa) :
    (load32 a).run m = .ok (m.ram.read32 pa) m := by
  unfold load32
  rw [EStateM.bind_of_ok (EStateM.run_get m), hAt]
  rfl

theorem load32_ok
    (hRun : (load32 a).run m = .ok v m') :
    ∃ pa, m.translate a = some pa ∧
      v = m.ram.read32 pa ∧ m' = m := by
  unfold load32 at hRun
  rw [EStateM.bind_of_ok (EStateM.run_get m)] at hRun
  split at hRun
  · cases hRun
  · rename_i pa hAt
    cases hRun
    exact ⟨pa, hAt, rfl, rfl⟩

theorem run_store32
    (hAt : m.translate a = some pa) :
    (store32 a v).run m =
      .ok () (m.withRam (m.ram.write32 pa v)) := by
  unfold store32
  rw [EStateM.bind_of_ok (EStateM.run_get m), hAt]
  rfl

theorem run_store8
    {x : UInt8}
    (hAt : m.translate a = some pa) :
    (store8 a x).run m =
      .ok ()
        (m.withRam fun y =>
          if y = pa then x else m.ram y) := by
  unfold store8
  rw [EStateM.bind_of_ok (EStateM.run_get m), hAt]
  rfl

------------------------------------------------------------
-- Pages
------------------------------------------------------------

/- The page at `base` shows the bytes of the frame `f`. -/
structure Machine.Shows
    (m : Machine)
    (base f : Nat) : Prop where
  aligned : base % 4096 = 0
  fits : base + 4096 ≤ 2 ^ 32
  translate :
    ∀ offset, offset < 4096 →
      m.translate (base + offset) = some (f + offset)

/-
  The page still shows the frame after any change of the
  bytes of the frame itself.
-/
def Machine.Steady (m : Machine) (base f : Nat) : Prop :=
  ∀ ram,
    (∀ x, ¬ (f ≤ x ∧ x < f + 4096) → ram x = m.ram x) →
      (m.withRam ram).Shows base f

variable {base f i n t : Nat}

theorem Machine.Steady.shows
    (hSteady : m.Steady base f) :
    m.Shows base f :=
  hSteady m.ram (fun _ _ => rfl)

/- The address of a word within a page. -/
theorem index_eq
    (hFits : base + 4096 ≤ 2 ^ 32)
    (hi : i < 1024) :
    index base i = base + 4 * i :=
  add32_of_lt (by omega)

theorem Machine.Shows.loadAt
    (hShows : m.Shows base f)
    (hi : i < 1024) :
    (loadAt base i).run m = .ok (m.ram.word f i) m := by
  unfold Vmm.loadAt
  rw [index_eq hShows.fits hi]
  exact run_load32 (hShows.translate _ (by omega))

theorem Machine.Shows.storeAt
    (hShows : m.Shows base f)
    (hi : i < 1024) :
    (storeAt base i v).run m =
      .ok () (m.withRam (m.ram.setWord f i v)) := by
  unfold Vmm.storeAt
  rw [index_eq hShows.fits hi]
  exact run_store32 (hShows.translate _ (by omega))

/- The frame with its first `k` bytes cleared. -/
def clearBytes
    (ram : ByteMemory)
    (f k : Nat) : ByteMemory :=
  fun x =>
    if f ≤ x ∧ x < f + k then
      0
    else
      ram x

theorem clearBytes_succ
    (ram : ByteMemory)
    (f k : Nat) :
    (fun x =>
      if x = f + k then 0 else clearBytes ram f k x) =
      clearBytes ram f (k + 1) := by
  funext x
  unfold clearBytes
  by_cases hx : x = f + k
  · rw [if_pos hx, if_pos (by omega)]
  · rw [if_neg hx]
    by_cases hIn : f ≤ x ∧ x < f + k
    · rw [if_pos hIn, if_pos (by omega)]
    · rw [if_neg hIn, if_neg (by omega)]

/- Clearing a page clears its frame. -/
theorem Machine.Steady.memset
    (hSteady : m.Steady base f) :
    (memset base 0 PAGE_SIZE).run m =
      .ok () (m.withRam (m.ram.clearFrame f)) := by
  have hStart : m = m.withRam (clearBytes m.ram f 0) := by
    have hSame : clearBytes m.ram f 0 = m.ram := by
      funext x
      unfold clearBytes
      rw [if_neg (by omega)]
    rw [hSame]
    rfl
  have hLoop :
      (Vmm.memset base 0 PAGE_SIZE).run
          (m.withRam (clearBytes m.ram f 0)) =
        .ok () (m.withRam (clearBytes m.ram f 4096)) := by
    refine EStateM.run_upTo (s := fun k =>
      m.withRam (clearBytes m.ram f k)) ?_
    intro k hk
    unfold PAGE_SIZE at hk
    have hShows :
        (m.withRam (clearBytes m.ram f k)).Shows base f := by
      apply hSteady
      intro x hx
      unfold clearBytes
      rw [if_neg (by omega)]
    have hFits := hShows.fits
    have hAddr : add32 base k = base + k :=
      add32_of_lt (by omega)
    have hByte :=
      run_store8 (x := 0) (hShows.translate k (by omega))
    rw [hAddr, hByte, withRam_withRam, withRam_ram,
      clearBytes_succ]
  exact (congrArg _ hStart).trans hLoop

------------------------------------------------------------
-- Paths Through the Tables
------------------------------------------------------------

/-
  The page at `base` is mapped to the frame `f` through the
  page table `t`.
-/
structure Machine.Maps
    (m : Machine)
    (base t f : Nat) : Prop where
  paging : m.paging = true
  aligned : base % 4096 = 0
  fits : base + 4096 ≤ 2 ^ 32
  dir : m.ram.entry m.root (base / 2 ^ 22) = some t
  table : m.ram.entry t (base / 4096 % 1024) = some f

theorem Machine.Maps.pageAt
    (hMaps : m.Maps base t f) :
    m.ram.pageAt m.root (base / 4096) = some f := by
  have hDir := hMaps.dir
  have hIndex : base / 2 ^ 22 = base / 4096 / 1024 := by
    omega
  rw [hIndex] at hDir
  rw [ByteMemory.pageAt_of_entry hDir]
  exact hMaps.table

theorem Machine.Maps.shows
    (hMaps : m.Maps base t f) :
    m.Shows base f where
  aligned := hMaps.aligned
  fits := hMaps.fits
  translate := by
    intro offset hOffset
    unfold Machine.translate
    rw [if_pos hMaps.paging]
    exact ByteMemory.walk_add hMaps.aligned hMaps.pageAt
      hOffset

/- A path depends on two words. -/
theorem Machine.Maps.congr
    (hMaps : m.Maps base t f)
    (hPaging : m'.paging = m.paging)
    (hRoot : m'.root = m.root)
    (hDir :
      m'.ram.word m.root (base / 2 ^ 22) =
        m.ram.word m.root (base / 2 ^ 22))
    (hTable :
      m'.ram.word t (base / 4096 % 1024) =
        m.ram.word t (base / 4096 % 1024)) :
    m'.Maps base t f where
  paging := hPaging.trans hMaps.paging
  aligned := hMaps.aligned
  fits := hMaps.fits
  dir := by
    rw [hRoot]
    exact (ByteMemory.entry_congr hDir).trans hMaps.dir
  table := (ByteMemory.entry_congr hTable).trans hMaps.table

/- A frame that is not on the path to itself. -/
theorem Machine.Maps.steady
    (hMaps : m.Maps base t f)
    (hRoot : m.root ≠ f)
    (hTable : t ≠ f) :
    m.Steady base f := by
  intro ram hSame
  have hRootAligned : m.root % 4096 = 0 := by
    unfold Machine.root pageAddr PAGE_SIZE
    omega
  have hf := ByteMemory.entry_aligned hMaps.table
  have ht := ByteMemory.entry_aligned hMaps.dir
  have hFits := hMaps.fits
  have hWord :
      ∀ g j, g % 4096 = 0 → g ≠ f → j < 1024 →
        ram.word g j = m.ram.word g j := by
    intro g j hg hNe hj
    have hOn : m.ram.SameOn g (g + 4096) ram := by
      intro x hLo hHi
      apply hSame
      omega
    exact hOn.word hj
  have hMaps' : (m.withRam ram).Maps base t f :=
    hMaps.congr rfl rfl
      (hWord _ _ hRootAligned hRoot (by omega))
      (hWord _ _ ht hTable (by omega))
  exact hMaps'.shows

------------------------------------------------------------
-- Windows on Page Tables
------------------------------------------------------------

/-
  The four mebibytes at `pages` show the page tables of the
  directory `d`.
-/
structure Machine.ShowsTables
    (m : Machine)
    (pages d : Nat) : Prop where
  paging : m.paging = true
  aligned : pages % 2 ^ 22 = 0
  fits : pages + 2 ^ 22 ≤ 2 ^ 32
  entry : m.ram.entry m.root (pages / 2 ^ 22) = some d

variable {pages d : Nat}

theorem Machine.ShowsTables.congr
    (hTables : m.ShowsTables pages d)
    (hPaging : m'.paging = m.paging)
    (hRoot : m'.root = m.root)
    (hDir :
      m'.ram.word m.root (pages / 2 ^ 22) =
        m.ram.word m.root (pages / 2 ^ 22)) :
    m'.ShowsTables pages d where
  paging := hPaging.trans hTables.paging
  aligned := hTables.aligned
  fits := hTables.fits
  entry := by
    rw [hRoot]
    exact (ByteMemory.entry_congr hDir).trans hTables.entry

/- The page of the window that shows one table. -/
theorem Machine.ShowsTables.maps
    (hTables : m.ShowsTables pages d)
    (hi : i < 1024)
    (hEntry : m.ram.entry d i = some t) :
    m.Maps (pages + 4096 * i) d t where
  paging := hTables.paging
  aligned := by
    have hAligned := hTables.aligned
    omega
  fits := by
    have hFits := hTables.fits
    omega
  dir := by
    have hAligned := hTables.aligned
    have hIndex :
        (pages + 4096 * i) / 2 ^ 22 = pages / 2 ^ 22 := by
      omega
    rw [hIndex]
    exact hTables.entry
  table := by
    have hAligned := hTables.aligned
    have hIndex :
        (pages + 4096 * i) / 4096 % 1024 = i := by
      omega
    rw [hIndex]
    exact hEntry

/- The address of a table entry within the window. -/
theorem index_pages (pages n : Nat) :
    index pages n =
      index (pages + 4096 * (n / 1024)) (n % 1024) := by
  have hSame :
      pages + 4 * n =
        pages + 4096 * (n / 1024) + 4 * (n % 1024) := by
    omega
  unfold index add32
  rw [hSame]

theorem Machine.ShowsTables.loadAt
    (hTables : m.ShowsTables pages d)
    (hn : n < 2 ^ 20)
    (hEntry : m.ram.entry d (n / 1024) = some t) :
    (loadAt pages n).run m =
      .ok (m.ram.word t (n % 1024)) m := by
  have hShows :=
    (hTables.maps (by omega) hEntry).shows
  have hLoad :
      (Vmm.loadAt (pages + 4096 * (n / 1024))
        (n % 1024)).run m = .ok (m.ram.word t (n % 1024)) m :=
    hShows.loadAt (by omega)
  unfold Vmm.loadAt at hLoad ⊢
  rw [index_pages]
  exact hLoad

theorem Machine.ShowsTables.storeAt
    (hTables : m.ShowsTables pages d)
    (hn : n < 2 ^ 20)
    (hEntry : m.ram.entry d (n / 1024) = some t) :
    (storeAt pages n v).run m =
      .ok () (m.withRam (m.ram.setWord t (n % 1024) v)) := by
  have hShows :=
    (hTables.maps (by omega) hEntry).shows
  have hStore :
      (Vmm.storeAt (pages + 4096 * (n / 1024))
        (n % 1024) v).run m =
        .ok () (m.withRam (m.ram.setWord t (n % 1024) v)) :=
    hShows.storeAt (by omega)
  unfold Vmm.storeAt at hStore ⊢
  rw [index_pages]
  exact hStore

/- Clearing a page table through the window. -/
theorem Machine.ShowsTables.memset
    (hTables : m.ShowsTables pages d)
    (hi : i < 1024)
    (hEntry : m.ram.entry d i = some t)
    (hRoot : m.root ≠ t)
    (hDir : d ≠ t) :
    (memset (index pages (i * 1024)) 0 PAGE_SIZE).run m =
      .ok () (m.withRam (m.ram.clearFrame t)) := by
  have hFits := hTables.fits
  have hBase :
      index pages (i * 1024) = pages + 4096 * i := by
    unfold index
    rw [add32_of_lt (by omega)]
    omega
  rw [hBase]
  exact ((hTables.maps hi hEntry).steady hRoot hDir).memset

------------------------------------------------------------
-- Physical Accesses
------------------------------------------------------------

/- Before paging every frame shows itself. -/
theorem steady_physical
    (hPaging : m.paging = false)
    (hf : f % 4096 = 0)
    (hFits : f + 4096 ≤ 2 ^ 32) :
    m.Steady f f := by
  intro ram _
  refine ⟨hf, hFits, ?_⟩
  intro offset _
  unfold Machine.translate
  rw [withRam_paging, hPaging]
  rfl

end Vmm

end SosKernel
