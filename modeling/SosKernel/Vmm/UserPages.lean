import SosKernel.Vmm.AllocateRange

/-
  The pages of the user, and what allocation and stores leave
  of them.

  Main declarations:
    * `SameTables`: memories with the same page tables
    * `UserSpace`: every page up to some can be allocated
    * `UserSpace.withRam`, `UserSpace.filled`
    * `Resident`: low memory that nothing reaches
-/

------------------------------------------------------------
-- Tables and Data
------------------------------------------------------------

namespace SosKernel

namespace Vmm

variable {m m' : Machine}
variable {d : PageDirectory}
variable {t u f g i j n lo hi va flags top : Nat}
variable {ram : ByteMemory}

/- The frame of the directory, or of a page table. -/
def IsTable (m : Machine) (g : Nat) : Prop :=
  g = m.root ∨ ∃ j, j < 1024 ∧ m.ram.entry m.root j = some g

/- The directory and its page tables are the same. -/
def SameTables (m : Machine) (ram : ByteMemory) : Prop :=
  ∀ g, IsTable m g → m.ram.SameOn g (g + 4096) ram

namespace SameTables

theorem word_root
    (hSame : SameTables m ram)
    (hi : i < 1024) :
    ram.word m.root i = m.ram.word m.root i :=
  (hSame m.root (.inl rfl)).word hi

theorem entry_root
    (hSame : SameTables m ram)
    (hi : i < 1024) :
    ram.entry m.root i = m.ram.entry m.root i :=
  ByteMemory.entry_congr (hSame.word_root hi)

theorem word
    (hSame : SameTables m ram)
    (hj : j < 1024)
    (hEntry : m.ram.entry m.root j = some u)
    (hi : i < 1024) :
    ram.word u i = m.ram.word u i :=
  (hSame u (.inr ⟨j, hj, hEntry⟩)).word hi

theorem pageAt
    (hSame : SameTables m ram)
    (hn : n < 2 ^ 20) :
    ram.pageAt m.root n = m.ram.pageAt m.root n := by
  apply ByteMemory.pageAt_congr
  · exact hSame.word_root (by omega)
  · intro w hw
    exact hSame.word (by omega) hw (by omega)

theorem isTable
    (hSame : SameTables m ram)
    (g : Nat) :
    IsTable (m.withRam ram) g ↔ IsTable m g := by
  have hEntry :
      ∀ j, j < 1024 →
        (m.withRam ram).ram.entry (m.withRam ram).root j =
          m.ram.entry m.root j :=
    fun j hj => hSame.entry_root hj
  unfold IsTable
  apply or_congr Iff.rfl
  apply exists_congr
  intro j
  apply and_congr_right
  intro hj
  rw [hEntry j hj]

end SameTables

theorem SelfMapped.withTables
    (hSelf : SelfMapped m d t)
    (hSame : SameTables m ram) :
    SelfMapped (m.withRam ram) d t := by
  have hFits := hSelf.maps.fits
  have hPagesFits := hSelf.tables.fits
  refine hSelf.congr rfl rfl rfl rfl ?_ ?_ ?_
  · exact hSame.word_root (by omega)
  · exact hSame.word (by omega) hSelf.maps.dir (by omega)
  · exact hSame.word_root (by omega)

/- What is ready stays so when only data changes. -/
theorem Ready.withTables
    (hReady : Ready m d t lo hi)
    (hSame : SameTables m ram) :
    Ready (m.withRam ram) d t lo hi := by
  have hBound := hReady.tables.bound
  have hEntry :
      ∀ j, j < 1024 →
        ram.entry m.root j = m.ram.entry m.root j :=
    fun j hj => hSame.entry_root hj
  have hPage :
      ∀ n, n < hi →
        ram.pageAt m.root n = m.ram.pageAt m.root n :=
    fun n hn => hSame.pageAt (by omega)
  refine
    { self := hReady.self.withTables hSame
      avoids := hReady.avoids
      tables := ?_
      spare := ?_
      nodup := hReady.nodup }
  · refine
      { aligned := hReady.tables.aligned
        bound := hBound
        own := ?_
        whole := ?_
        data := ?_ }
    · intro n hLo hHi
      exact (hReady.tables.own n hLo hHi).congr (by omega)
        fun j hj => hSame.word_root hj
    · intro n u hLo hHi hu
      change ram.entry m.root (n / 1024) = some u at hu
      rw [hEntry _ (by omega)] at hu
      change ram.word u (n % 1024) = 0 ∨
        ram.word u (n % 1024) % 2 = 1
      rw [hSame.word (by omega) hu (by omega)]
      exact hReady.tables.whole n u hLo hHi hu
    · intro n f hLo hHi hf
      change ram.pageAt m.root n = some f at hf
      rw [hPage n hHi] at hf
      rcases hReady.tables.data n f hLo hHi hf with
        ⟨hNe, hNoTable⟩
      refine ⟨hNe, ?_⟩
      intro j hj
      change ram.entry m.root j ≠ some f
      rw [hEntry j hj]
      exact hNoTable j hj
  · intro f hf
    have hSpare := hReady.spare f hf
    refine
      { aligned := hSpare.aligned
        lt := hSpare.lt
        ne_root := hSpare.ne_root
        noTable := ?_
        noPage := ?_ }
    · intro j hj
      change ram.entry m.root j ≠ some f
      rw [hEntry j hj]
      exact hSpare.noTable j hj
    · intro n hLo hHi
      change ram.pageAt m.root n ≠ some f
      rw [hPage n hHi]
      exact hSpare.noPage n hLo hHi

/- The range that is ready can be wider. -/
theorem Ready.narrow
    {lo' hi' : Nat}
    (hReady : Ready m d t lo hi)
    (hLo : lo ≤ lo')
    (hHi : hi' ≤ hi) :
    Ready m d t lo' hi' := by
  have hTables := hReady.tables
  refine
    { self := hReady.self
      avoids := fun n hn hn' =>
        hReady.avoids n (by omega) (by omega)
      tables := ?_
      spare := ?_
      nodup := hReady.nodup }
  · exact
      { aligned := hTables.aligned
        bound := Nat.le_trans hHi hTables.bound
        own := fun n hn hn' =>
          hTables.own n (by omega) (by omega)
        whole := fun n u hn hn' =>
          hTables.whole n u (by omega) (by omega)
        data := fun n f hn hn' =>
          hTables.data n f (by omega) (by omega) }
  · intro f hf
    have hSpare := hReady.spare f hf
    exact
      { aligned := hSpare.aligned
        lt := hSpare.lt
        ne_root := hSpare.ne_root
        noTable := hSpare.noTable
        noPage := fun n hn hn' =>
          hSpare.noPage n (by omega) (by omega) }

------------------------------------------------------------
-- The User's Pages
------------------------------------------------------------

/- The pages above low memory and below the self-map. -/
def userStart : Nat := pgNumFromAddr LOWMEM_ID_MAP_END

def userEnd : Nat := pgNumFromAddr USER_DIR_VIRTUAL

theorem userStart_eq : userStart = 1024 := rfl

theorem userEnd_eq : userEnd = 982015 := rfl

/-
  Where the pages of the last table start, in which the
  directory has its own page.
-/
def ownTableStart : Nat :=
  pgdirIdxFromAddr USER_DIR_VIRTUAL * 1024

theorem ownTableStart_eq : ownTableStart = 980992 := rfl

/-
  All pages of the user up to `top` can be allocated, and
  those that are mapped have different frames.

  The pages from `ownTableStart` on are another matter: the
  page table that `clone_directory` takes for the directory's
  own page is not cleared, so that they are not in `top` when
  `exec_elf` calls the loader.
-/
structure UserSpace
    (m : Machine)
    (d : PageDirectory)
    (t top : Nat) : Prop where
  below : top ≤ userEnd
  ready : Ready m d t userStart top
  distinct : m.ram.Distinct m.root userStart top

theorem UserSpace.withTables
    (hSpace : UserSpace m d t top)
    (hSame : SameTables m ram) :
    UserSpace (m.withRam ram) d t top := by
  refine ⟨hSpace.below, hSpace.ready.withTables hSame, ?_⟩
  have hEnd := userEnd_eq
  have hBelow := hSpace.below
  intro n n' f hLo hHi hLo' hHi' hf hf'
  change ram.pageAt m.root n = some f at hf
  change ram.pageAt m.root n' = some f at hf'
  rw [hSame.pageAt (by omega)] at hf hf'
  exact hSpace.distinct n n' f hLo hHi hLo' hHi' hf hf'

theorem UserSpace.wider
    (hSpace : UserSpace m d t top)
    (hLo : userStart ≤ lo)
    (hHi : hi ≤ top) :
    m.ram.Wider m.root lo hi userStart top m.frames where
  above := hLo
  below := hHi
  tables := hSpace.ready.tables
  spare := hSpace.ready.spare

/- A range of the user's pages has been allocated. -/
theorem UserSpace.filled
    (hSpace : UserSpace m d t top)
    (hLo : userStart ≤ lo)
    (hHi : hi ≤ top)
    (hFlags : flags < 4096)
    (hFilling : Filling m d t lo hi flags hi m') :
    UserSpace m' d t top := by
  have hRoot := hFilling.root
  have hEntered := hFilling.entered
  have hWider := hSpace.wider hLo hHi
  refine
    { below := hSpace.below
      ready :=
        { self := hFilling.self
          avoids := hSpace.ready.avoids
          tables := ?_
          spare := ?_
          nodup := hEntered.nodup }
      distinct := ?_ }
  · rw [hRoot]
    exact hWider.entered_tables hEntered
  · intro f hf
    rw [hRoot]
    exact hWider.entered_spare hEntered hf
  · rw [hRoot]
    exact hWider.entered_distinct (presentWith_lt hFlags)
      (presentWith_odd flags) hEntered hSpace.distinct

------------------------------------------------------------
-- Bytes of the User
------------------------------------------------------------

theorem UserSpace.paging
    (hSpace : UserSpace m d t top) :
    m.paging = true :=
  hSpace.ready.self.maps.paging

/- With paging an address is translated by its page. -/
theorem translate_page
    (hPaging : m.paging = true)
    (va : Nat) :
    m.translate va =
      (m.ram.pageAt m.root (va / 4096)).map
        fun f => f + va % 4096 := by
  unfold Machine.translate
  rw [if_pos hPaging]
  rfl

theorem translate_eq_some
    {x : Nat}
    (hPaging : m.paging = true)
    (hAt : m.translate va = some x) :
    ∃ f, m.ram.pageAt m.root (va / 4096) = some f ∧
      x = f + va % 4096 := by
  rw [translate_page hPaging] at hAt
  rcases Option.map_eq_some_iff.mp hAt with ⟨f, hf, hx⟩
  exact ⟨f, hf, hx.symm⟩

theorem SameTables.translate
    (hSame : SameTables m ram)
    (hPaging : m.paging = true)
    (hva : va < 2 ^ 32) :
    (m.withRam ram).translate va = m.translate va := by
  have hPaging' : (m.withRam ram).paging = true := hPaging
  have hPage :
      (m.withRam ram).ram.pageAt (m.withRam ram).root
          (va / 4096) =
        m.ram.pageAt m.root (va / 4096) :=
    hSame.pageAt (by omega)
  rw [translate_page hPaging', translate_page hPaging, hPage]

/- The frame of an address of the user is no table. -/
theorem UserSpace.frame_data
    (hSpace : UserSpace m d t top)
    (hLo : userStart ≤ n)
    (hHi : n < top)
    (hPage : m.ram.pageAt m.root n = some f) :
    f % 4096 = 0 ∧ ¬ IsTable m f := by
  rcases hSpace.ready.tables.data n f hLo hHi hPage with
    ⟨hNe, hNoTable⟩
  constructor
  · cases hEntry : m.ram.entry m.root (n / 1024) with
    | none =>
        rw [ByteMemory.pageAt_of_none hEntry] at hPage
        cases hPage
    | some u =>
        rw [ByteMemory.pageAt_of_entry hEntry] at hPage
        exact ByteMemory.entry_aligned hPage
  · rintro (hRoot | ⟨j, hj, hEntry⟩)
    · exact hNe hRoot
    · exact hNoTable j hj hEntry

theorem isTable_aligned
    (hTable : IsTable m g) :
    g % 4096 = 0 := by
  rcases hTable with rfl | ⟨j, _, hEntry⟩
  · exact root_aligned m
  · exact ByteMemory.entry_aligned hEntry

/- Different addresses of the user have different places. -/
theorem UserSpace.translate_inj
    {va' x : Nat}
    (hSpace : UserSpace m d t top)
    (hva : userStart ≤ va / 4096 ∧ va / 4096 < top)
    (hva' : userStart ≤ va' / 4096 ∧ va' / 4096 < top)
    (hAt : m.translate va = some x)
    (hAt' : m.translate va' = some x) :
    va = va' := by
  rcases translate_eq_some hSpace.paging hAt with
    ⟨f, hf, hx⟩
  rcases translate_eq_some hSpace.paging hAt' with
    ⟨f', hf', hx'⟩
  have hAligned :=
    (hSpace.frame_data hva.1 hva.2 hf).1
  have hAligned' :=
    (hSpace.frame_data hva'.1 hva'.2 hf').1
  have hSame : f = f' := by omega
  subst hSame
  have hPage :=
    hSpace.distinct _ _ f hva.1 hva.2 hva'.1 hva'.2 hf hf'
  omega

------------------------------------------------------------
-- Low Memory
------------------------------------------------------------

/-
  Low memory from `lo` up to `hi` is mapped to itself, and its
  frames are not used for anything else.
-/
structure Resident (m : Machine) (top lo hi : Nat) : Prop where
  below : top ≤ userEnd
  low : hi ≤ LOWMEM_ID_MAP_END
  identity : ∀ a, lo ≤ a → a < hi →
    m.ram.pageAt m.root (a / 4096) = some (a / 4096 * 4096)
  spare : ∀ a, lo ≤ a → a < hi →
    m.ram.Spare m.root userStart top (a / 4096 * 4096)
  taken : ∀ a, lo ≤ a → a < hi → a / 4096 * 4096 ∉ m.frames

namespace Resident

variable {a : Nat}

theorem translate
    (hResident : Resident m top lo hi)
    (hPaging : m.paging = true)
    (hLo : lo ≤ a)
    (hHi : a < hi) :
    m.translate a = some a := by
  rw [translate_page hPaging, hResident.identity a hLo hHi,
    Option.map_some]
  congr 1
  omega

/- The places of the user are apart from low memory. -/
theorem apart
    {x : Nat}
    (hResident : Resident m top lo hi)
    (hSpace : UserSpace m d t top)
    (hLo : lo ≤ a)
    (hHi : a < hi)
    (hva : userStart ≤ va / 4096 ∧ va / 4096 < top)
    (hAt : m.translate va = some x) :
    x ≠ a := by
  rintro rfl
  rcases translate_eq_some hSpace.paging hAt with
    ⟨f, hf, hx⟩
  have hAligned :=
    (hSpace.frame_data hva.1 hva.2 hf).1
  have hSame : x / 4096 * 4096 = f := by omega
  have hSpare := hResident.spare x hLo hHi
  rw [hSame] at hSpare
  exact hSpare.noPage _ hva.1 hva.2 hf

theorem narrow
    {lo' hi' : Nat}
    (hResident : Resident m top lo hi)
    (hLo : lo ≤ lo')
    (hHi : hi' ≤ hi) :
    Resident m top lo' hi' where
  below := hResident.below
  low := Nat.le_trans hHi hResident.low
  identity := fun a ha ha' =>
    hResident.identity a (by omega) (by omega)
  spare := fun a ha ha' =>
    hResident.spare a (by omega) (by omega)
  taken := fun a ha ha' =>
    hResident.taken a (by omega) (by omega)

theorem withTables
    (hResident : Resident m top lo hi)
    (hSame : SameTables m ram) :
    Resident (m.withRam ram) top lo hi := by
  have hLow : hi ≤ 4194304 := hResident.low
  have hBelow := hResident.below
  have hEnd := userEnd_eq
  refine
    { below := hResident.below
      low := hResident.low
      identity := ?_
      spare := ?_
      taken := hResident.taken }
  · intro a hLo hHi
    change ram.pageAt m.root (a / 4096) = _
    rw [hSame.pageAt (by omega)]
    exact hResident.identity a hLo hHi
  · intro a hLo hHi
    have hSpare := hResident.spare a hLo hHi
    refine
      { aligned := hSpare.aligned
        lt := hSpare.lt
        ne_root := hSpare.ne_root
        noTable := ?_
        noPage := ?_ }
    · intro j hj
      change ram.entry m.root j ≠ _
      rw [hSame.entry_root hj]
      exact hSpare.noTable j hj
    · intro n hLo' hHi'
      change ram.pageAt m.root n ≠ _
      rw [hSame.pageAt (by omega)]
      exact hSpare.noPage n hLo' hHi'

/- Its entry does not show the directory itself. -/
theorem no_window
    (hResident : Resident m top lo hi)
    (hLo : lo ≤ a)
    (hHi : a < hi) :
    m.ram.entry m.root (a / 4096 / 1024) ≠ some m.root := by
  intro hWindow
  have hPage := hResident.identity a hLo hHi
  rw [ByteMemory.pageAt_of_entry hWindow] at hPage
  exact (hResident.spare a hLo hHi).noTable _
    (Nat.mod_lt _ (by decide)) hPage

/- Allocation for the user leaves low memory alone. -/
theorem filled
    {lo' hi' : Nat}
    (hResident : Resident m top lo hi)
    (hSpace : UserSpace m d t top)
    (hLo : userStart ≤ lo')
    (hHi : hi' ≤ top)
    (hFlags : flags < 4096)
    (hFilling : Filling m d t lo' hi' flags hi' m') :
    Resident m' top lo hi ∧ m.ram.SameOn lo hi m'.ram := by
  have hRoot := hFilling.root
  have hEntered := hFilling.entered
  have hWider := hSpace.wider hLo hHi
  have hLow : hi ≤ 4194304 := hResident.low
  have hBelow := hResident.below
  have hStart := userStart_eq
  have hNoTable :
      ∀ a, lo ≤ a → a < hi → ∀ j, j < 1024 →
        m'.ram.entry m.root j ≠ some (a / 4096 * 4096) :=
    fun a ha ha' =>
      hEntered.noTable (hResident.spare a ha ha').noTable
        (hResident.taken a ha ha')
  constructor
  · refine
      { below := hResident.below
        low := hResident.low
        identity := ?_
        spare := ?_
        taken := ?_ }
    · intro a ha ha'
      rw [hRoot, hEntered.others (a / 4096) (by omega)
        (.inl (by omega)) (hResident.no_window ha ha')]
      exact hResident.identity a ha ha'
    · intro a ha ha'
      have hSpare := hResident.spare a ha ha'
      rw [hRoot]
      refine
        { aligned := hSpare.aligned
          lt := hSpare.lt
          ne_root := hSpare.ne_root
          noTable := hNoTable a ha ha'
          noPage := ?_ }
      intro n hn hn' hPage
      rcases hWider.pageAt_from (presentWith_lt hFlags)
        (presentWith_odd flags) hEntered hn hn' hPage with
        hOld | ⟨_, _, hMem⟩
      · exact hSpare.noPage n hn hn' hOld
      · exact hResident.taken a ha ha' hMem
    · intro a ha ha' hMem
      exact hResident.taken a ha ha' (hEntered.taken _ hMem)
  · intro x hx hx'
    have hSpare := hResident.spare x hx hx'
    refine hEntered.bytes (x / 4096 * 4096) hSpare.aligned
      hSpare.ne_root ?_ x (by omega) (by omega)
    intro n hn hn'
    have hEnd := userEnd_eq
    exact hNoTable x hx hx' _ (by omega)

end Resident

end Vmm

end SosKernel
