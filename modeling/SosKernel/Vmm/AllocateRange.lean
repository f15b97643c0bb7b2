import SosKernel.Lib.PageRange
import SosKernel.Vmm.AddressSpace
import SosKernel.Vmm.FindRange

/-
  `allocate_range`: every page of a range gets a frame.

  Main declarations:
    * `allocatePage`, `allocateRange`
    * `Filling`: the machine between two pages
    * `sat_allocateRange`
    * `RangeAllocated`, `allocate_range_maps`

  A page table that is created shows up in the directory's
  window on its own page tables.
-/

------------------------------------------------------------
-- The Loop
------------------------------------------------------------

namespace SosKernel

namespace Vmm

/- One pass: a page that is mapped gets new flags only. -/
def allocatePage (va flags : Nat) : VmM Unit := do
  match ← getMapping va with
  | some pa => map va pa flags
  | none => map va (← pmmAllocPage) flags

/- Both bounds are pages, so `va` ends at `va_end`. -/
@[irreducible]
def allocateRange (vaStart vaEnd flags : Nat) : VmM Nat := do
  let vaStart := pageRoundDown vaStart
  let vaEnd := pageRoundUp vaEnd
  EStateM.upTo
    (fun k =>
      allocatePage (add32 vaStart (k * PAGE_SIZE)) flags)
    ((vaEnd - vaStart) / PAGE_SIZE)
  return vaEnd

/- The message of an allocator that has no page. -/
def noFrames : Stop := .panic "PMM Stack: no free pages."

variable {m m' : Machine}
variable {d : PageDirectory}
variable {t u f g k lo hi va pa flags : Nat}
variable {rest spare : List Nat}

theorem run_pmmAllocPage_nil
    (hFrames : m.frames = []) :
    pmmAllocPage.run m = .error noFrames m := by
  unfold pmmAllocPage
  rw [EStateM.bind_of_ok (EStateM.run_get m), hFrames]
  rfl

/- A page table is needed, and there is no page for it. -/
theorem SelfMapped.run_map_nil
    (hSelf : SelfMapped m d t)
    (hva : va < 2 ^ 32)
    (hZero : m.ram.word m.root (va / 2 ^ 22) = 0)
    (hFrames : m.frames = []) :
    (map va pa flags).run m = .error noFrames m := by
  unfold map
  dsimp only
  rw [EStateM.bind_of_ok hSelf.run_readCurrent,
    EStateM.bind_of_ok (hSelf.loadAt hva), if_pos hZero]
  exact EStateM.bind_of_error (run_pmmAllocPage_nil hFrames)

------------------------------------------------------------
-- Entries
------------------------------------------------------------

/- The flags of the entry that `map` stores. -/
def presentWith (flags : Nat) : Nat :=
  PAGE_PRESENT ||| flags

theorem presentWith_lt
    (hFlags : flags < 4096) :
    presentWith flags < 4096 :=
  Nat.or_lt_two_pow (n := 12) (by decide) hFlags

theorem presentWith_odd (flags : Nat) :
    presentWith flags % 2 = 1 := by
  unfold presentWith
  rw [Nat.or_mod_two_eq_one]
  exact .inl rfl

theorem mapEntry_add
    (pa : Nat)
    (hFlags : flags < 4096) :
    mapEntry pa flags = pageAddr pa + presentWith flags := by
  unfold mapEntry
  rw [Nat.or_assoc]
  exact or_flags (pageAddr_aligned pa) (presentWith_lt hFlags)

/- The page number of the address of a page. -/
theorem page_index (k : Nat) :
    k * 4096 / 2 ^ 22 = k / 1024 ∧
      k * 4096 / 4096 % 1024 = k % 1024 := by
  omega

theorem entryMapping_page
    {e : Nat}
    (hEntry : e % 2 = 1)
    (hLt : e < 2 ^ 32) :
    entryMapping e (k * 4096) = some (pageAddr e) := by
  have hFlags : pageFlags (k * 4096) = 0 := by
    unfold pageFlags PAGE_SIZE
    omega
  have hLe := pageAddr_le e
  unfold entryMapping
  rw [if_pos (by omega), hFlags, add32_of_lt (by omega),
    Nat.add_zero]

------------------------------------------------------------
-- The Invariant
------------------------------------------------------------

/-
  The pages from `lo` up to `k` have been entered, and at
  most two frames a page were taken for that.
-/
structure Filling
    (m : Machine)
    (d : PageDirectory)
    (t lo hi flags k : Nat)
    (m' : Machine) : Prop where
  machine : m' = (m.withFrames m'.frames).withRam m'.ram
  self : SelfMapped m' d t
  entered : ByteMemory.Entered m.root lo hi k
    (presentWith flags) m.frames m'.frames m.ram m'.ram
  enough :
    m.frames.length ≤ m'.frames.length + 2 * (k - lo)

/- The range has none of the self-map's pages. -/
def Avoids (d : PageDirectory) (lo hi : Nat) : Prop :=
  ∀ n, lo ≤ n → n < hi → Outside d n

theorem Filling.root
    (hFilling : Filling m d t lo hi flags k m') :
    m'.root = m.root := by
  rw [hFilling.machine]
  rfl

/- Only the memory and the frames change. -/
theorem Filling.withRam_eq
    (hFilling : Filling m d t lo hi flags k m')
    (frames : List Nat)
    (ram : ByteMemory) :
    (m'.withFrames frames).withRam ram =
      (m.withFrames frames).withRam ram := by
  have hSame :=
    congrArg
      (fun x : Machine => (x.withFrames frames).withRam ram)
      hFilling.machine
  exact hSame

/- The self-map stays when a page outside it is entered. -/
theorem SelfMapped.store
    {v : Nat}
    (hSelf : SelfMapped m d t)
    (hOwn : m.ram.OwnTable m.root (k / 1024))
    (hOutside : Outside d k)
    (hEntry : m.ram.entry m.root (k / 1024) = some u) :
    SelfMapped (m.withRam (m.ram.setWord u (k % 1024) v))
      d t := by
  have hRoot := root_aligned m
  have hFits := hSelf.maps.fits
  have hPagesFits := hSelf.tables.fits
  have hDir := hSelf.maps.dir
  refine hSelf.congr rfl rfl rfl rfl ?_ ?_ ?_
  · exact ByteMemory.word_root_store hRoot hOwn hEntry
      (by omega)
  · apply ByteMemory.word_setWord_of_ne _ _
      (ByteMemory.entry_aligned hEntry)
      (ByteMemory.entry_aligned hDir) (by omega) (by omega)
    by_cases hSame : d.directory / 2 ^ 22 = k / 1024
    · refine .inr ?_
      intro hIndex
      apply hOutside.1
      unfold pgNumFromAddr
      omega
    · refine .inl ?_
      rintro rfl
      exact (hOwn.table hEntry).2 _ (by omega) hSame hDir
  · exact ByteMemory.word_root_store hRoot hOwn hEntry
      (by omega)

------------------------------------------------------------
-- One Page
------------------------------------------------------------

/- A page that is not mapped gets a frame. -/
theorem run_allocatePage_none
    (flags : Nat)
    (hGet : (getMapping va).run m = .ok none m) :
    (allocatePage va flags).run m =
      (do
        let page ← pmmAllocPage
        map va page flags : VmM Unit).run m :=
  EStateM.bind_of_ok hGet

/- A page of the user with a table. -/
theorem SelfMapped.run_map_page
    (hSelf : SelfMapped m d t)
    (hUser : k < pgNumFromAddr KERNEL_ADDRESS_SPACE)
    (hEntry : m.ram.entry m.root (k / 1024) = some u)
    (hf : f % 4096 = 0)
    (hFlags : flags < 4096) :
    (map (k * 4096) f flags).run m =
      .ok ()
        (m.withRam
          (m.ram.setWord u (k % 1024)
            (f + presentWith flags))) := by
  have hk : k < 983040 := hUser
  have hIndex := page_index k
  rw [← hIndex.1] at hEntry
  rw [hSelf.run_map_table (by omega) hEntry, hIndex.2,
    mapEntry_add f hFlags, pageAddr_of_aligned hf]
  apply run_checkKernel_user
  unfold KERNEL_ADDRESS_SPACE
  omega

/- The page has a frame already. -/
theorem Filling.keep
    (hAvoids : Avoids d lo hi)
    (hUser : hi ≤ pgNumFromAddr KERNEL_ADDRESS_SPACE)
    (hFlags : flags < 4096)
    (hFilling : Filling m d t lo hi flags k m')
    (hLo : lo ≤ k)
    (hHi : k < hi)
    (hEntry : m'.ram.entry m'.root (k / 1024) = some u)
    (hOdd : m'.ram.word u (k % 1024) % 2 = 1) :
    ∃ m'',
      (allocatePage (k * 4096) flags).run m' = .ok () m'' ∧
        Filling m d t lo hi flags (k + 1) m'' := by
  have hk : k < 983040 := Nat.lt_of_lt_of_le hHi hUser
  have hIndex := page_index k
  have hSelf := hFilling.self
  have hRoot := hFilling.root
  have hWordLt := m'.ram.word_lt u (k % 1024)
  have hEntryAt := hEntry
  rw [← hIndex.1] at hEntryAt
  have hva : k * 4096 < 2 ^ 32 := by omega
  have hGet := hSelf.run_getMapping_table hva hEntryAt
  rw [hIndex.2, entryMapping_page hOdd hWordLt] at hGet
  have hMap :=
    hSelf.run_map_page (Nat.lt_of_lt_of_le hHi hUser) hEntry
      (pageAddr_aligned (m'.ram.word u (k % 1024))) hFlags
  refine ⟨_, (EStateM.bind_of_ok hGet).trans hMap, ?_⟩
  have hEntered := hFilling.entered
  have hPage :
      m'.ram.pageAt m.root k =
        some (pageAddr (m'.ram.word u (k % 1024))) := by
    rw [← hRoot, ByteMemory.pageAt_of_entry hEntry,
      ByteMemory.entry_of_word rfl]
    exact if_pos hOdd
  rw [hRoot] at hEntry
  refine ⟨?_, ?_, ?_, ?_⟩
  · exact hFilling.withRam_eq m'.frames _
  · refine hSelf.store ?_ (hAvoids k hLo hHi) ?_
    · rw [hRoot]
      exact hEntered.tables.own k hLo hHi
    · rw [hRoot]
      exact hEntry
  · exact hEntered.keep hLo hHi hEntry
      (presentWith_lt hFlags) (presentWith_odd flags)
      (Nat.lt_of_le_of_lt (pageAddr_le _) hWordLt) hPage
  · have hEnough := hFilling.enough
    change m.frames.length ≤
      m'.frames.length + 2 * (k + 1 - lo)
    omega

/- The machine with the next frame taken. -/
theorem SelfMapped.run_map_taken
    (hSelf : SelfMapped m d t)
    (hUser : k < pgNumFromAddr KERNEL_ADDRESS_SPACE)
    (hEntry : m.ram.entry m.root (k / 1024) = some u)
    (hFrames : m.frames = f :: rest)
    (hf : f % 4096 = 0)
    (hFlags : flags < 4096) :
    (do
      let page ← pmmAllocPage
      map (k * 4096) page flags : VmM Unit).run m =
      .ok ()
        ((m.withFrames rest).withRam
          (m.ram.setWord u (k % 1024)
            (f + presentWith flags))) := by
  rw [EStateM.bind_of_ok (run_pmmAllocPage hFrames)]
  exact (hSelf.withFrames rest).run_map_page hUser hEntry hf
    hFlags

/- The page has a table, and gets a frame. -/
theorem Filling.take
    (hAvoids : Avoids d lo hi)
    (hUser : hi ≤ pgNumFromAddr KERNEL_ADDRESS_SPACE)
    (hFlags : flags < 4096)
    (hFilling : Filling m d t lo hi flags k m')
    (hLo : lo ≤ k)
    (hHi : k < hi)
    (hEntry : m'.ram.entry m'.root (k / 1024) = some u)
    (hZero : m'.ram.word u (k % 1024) = 0)
    (hFrames : m'.frames = f :: rest) :
    ∃ m'',
      (allocatePage (k * 4096) flags).run m' = .ok () m'' ∧
        Filling m d t lo hi flags (k + 1) m'' := by
  have hk : k < 983040 := Nat.lt_of_lt_of_le hHi hUser
  have hIndex := page_index k
  have hSelf := hFilling.self
  have hRoot := hFilling.root
  have hEntered := hFilling.entered
  rw [hFrames] at hEntered
  have hSpare := hEntered.isSpare f List.mem_cons_self
  have hEntryAt := hEntry
  rw [← hIndex.1] at hEntryAt
  have hva : k * 4096 < 2 ^ 32 := by omega
  have hGet := hSelf.run_getMapping_table hva hEntryAt
  rw [hIndex.2, hZero] at hGet
  have hMap :=
    hSelf.run_map_taken (Nat.lt_of_lt_of_le hHi hUser) hEntry
      hFrames hSpare.aligned hFlags
  refine ⟨_, (EStateM.bind_of_ok hGet).trans hMap, ?_⟩
  have hNone : m.ram.pageAt m.root k = none := by
    rw [← hEntered.next hLo hHi, ← hRoot,
      ByteMemory.pageAt_of_entry hEntry,
      ByteMemory.entry_of_word hZero]
    rfl
  rw [hRoot] at hEntry
  refine ⟨?_, ?_, ?_, ?_⟩
  · exact hFilling.withRam_eq rest _
  · refine (hSelf.withFrames rest).store ?_
      (hAvoids k hLo hHi) ?_
    · change m'.ram.OwnTable m'.root (k / 1024)
      rw [hRoot]
      exact hEntered.tables.own k hLo hHi
    · change m'.ram.entry m'.root (k / 1024) = some u
      rw [hRoot]
      exact hEntry
  · exact hEntered.take hLo hHi hEntry (presentWith_lt hFlags)
      (presentWith_odd flags) hNone
  · have hEnough := hFilling.enough
    rw [hFrames, List.length_cons] at hEnough
    change m.frames.length ≤
      rest.length + 2 * (k + 1 - lo)
    omega

/- The next frame becomes the table of the page. -/
theorem SelfMapped.run_map_create
    (hSelf : SelfMapped m d t)
    (hUser : k < pgNumFromAddr KERNEL_ADDRESS_SPACE)
    (hZero : m.ram.word m.root (k / 1024) = 0)
    (hFrames : m.frames = g :: rest)
    (hg : g % 4096 = 0)
    (hLt : g < 2 ^ 32)
    (hRoot : g ≠ m.root)
    (hTable : g ≠ t)
    (hf : f % 4096 = 0)
    (hFlags : flags < 4096) :
    (map (k * 4096) f flags).run m =
      .ok ()
        ((m.withFrames rest).withRam
          ((m.ram.addTable m.root (k / 1024) g
            (g + 3)).setWord g (k % 1024)
              (f + presentWith flags))) := by
  have hk : k < 983040 := hUser
  have hIndex := page_index k
  have hva : k * 4096 < 2 ^ 32 := by omega
  rw [← hIndex.1] at hZero
  rw [hSelf.run_map_fresh hva hZero hFrames hg hLt hRoot
    hTable, hIndex.1, hIndex.2, mapEntry_add f hFlags,
    pageAddr_of_aligned hf]
  apply run_checkKernel_user
  unfold KERNEL_ADDRESS_SPACE
  omega

/- The page has no table: a new one is taken for it. -/
theorem Filling.create
    (hAvoids : Avoids d lo hi)
    (hUser : hi ≤ pgNumFromAddr KERNEL_ADDRESS_SPACE)
    (hFlags : flags < 4096)
    (hFilling : Filling m d t lo hi flags k m')
    (hLo : lo ≤ k)
    (hHi : k < hi)
    (hZero : m'.ram.word m'.root (k / 1024) = 0)
    (hFrames : m'.frames = f :: g :: rest) :
    ∃ m'',
      (allocatePage (k * 4096) flags).run m' = .ok () m'' ∧
        Filling m d t lo hi flags (k + 1) m'' := by
  have hk : k < 983040 := Nat.lt_of_lt_of_le hHi hUser
  have hIndex := page_index k
  have hSelf := hFilling.self
  have hRoot := hFilling.root
  have hEntered := hFilling.entered
  rw [hFrames] at hEntered
  have hSpareF := hEntered.isSpare f List.mem_cons_self
  have hSpareG := hEntered.isSpare g
    (List.mem_cons_of_mem _ List.mem_cons_self)
  have hTable := hSelf.maps.dir
  have hFits := hSelf.maps.fits
  have hNeTable : g ≠ t := by
    rintro rfl
    rw [hRoot] at hTable
    exact hSpareG.noTable _ (by omega) hTable
  have hNeRoot : g ≠ m'.root := by
    rw [hRoot]
    exact hSpareG.ne_root
  have hva : k * 4096 < 2 ^ 32 := by omega
  have hZeroAt := hZero
  rw [← hIndex.1] at hZeroAt
  have hGet := hSelf.run_getMapping_none hva hZeroAt
  have hMap :=
    (hSelf.withFrames (g :: rest)).run_map_create
      (Nat.lt_of_lt_of_le hHi hUser) hZero rfl hSpareG.aligned
      hSpareG.lt hNeRoot hNeTable hSpareF.aligned hFlags
  have hTaken :=
    EStateM.bind_of_ok
      (f := fun page => map (k * 4096) page flags)
      (run_pmmAllocPage hFrames)
  refine ⟨_, (EStateM.bind_of_ok hGet).trans
    (hTaken.trans hMap), ?_⟩
  -- the table is entered first, then the page
  have hSwapped :=
    hEntered.perm (List.Perm.swap f g rest)
  rw [hRoot] at hZero
  have hFrame : ByteMemory.entryFrame (g + 3) = some g :=
    ByteMemory.entryFrame_add hSpareG.aligned (by decide)
      (by decide)
  have hgLt := hSpareG.lt
  have hgAligned := hSpareG.aligned
  have hAdded :=
    hSwapped.addTable hLo hHi hZero (by omega) hFrame
  have hNew :=
    hSwapped.newTable hHi hZero (by omega) hFrame
  have hNone : m.ram.pageAt m.root k = none := by
    rw [← hEntered.next hLo hHi]
    exact ByteMemory.pageAt_of_none
      (ByteMemory.entry_of_word hZero)
  have hSelf' :=
    (hSelf.freshTable (show k / 1024 < 1024 by omega)
      (by rw [hRoot]; exact hZero) hSpareG.aligned hSpareG.lt
      hNeRoot hNeTable).1
  have hDone :=
    hAdded.take hLo hHi hNew.entry_self
      (presentWith_lt hFlags) (presentWith_odd flags) hNone
  refine ⟨?_, ?_, ?_, ?_⟩
  · exact hFilling.withRam_eq rest _
  · refine (hSelf'.withFrames rest).store ?_
      (hAvoids k hLo hHi) ?_
    · change
        (m'.ram.addTable m'.root (k / 1024) g
          (g + 3)).OwnTable m'.root (k / 1024)
      rw [hRoot]
      exact hAdded.tables.own k hLo hHi
    · change
        (m'.ram.addTable m'.root (k / 1024) g
          (g + 3)).entry m'.root (k / 1024) = some g
      rw [hRoot]
      exact hNew.entry_self
  · change ByteMemory.Entered m.root lo hi (k + 1)
      (presentWith flags) m.frames rest m.ram
      ((m'.ram.addTable m'.root (k / 1024) g (g + 3)).setWord
        g (k % 1024) (f + presentWith flags))
    rw [hRoot]
    exact hDone
  · have hEnough := hFilling.enough
    rw [hFrames, List.length_cons, List.length_cons] at hEnough
    change m.frames.length ≤
      rest.length + 2 * (k + 1 - lo)
    omega

/-
  One pass enters the next page.  It stops only when the
  allocator has fewer than the two frames it may need.
-/
theorem Filling.sat_allocatePage
    (hAvoids : Avoids d lo hi)
    (hUser : hi ≤ pgNumFromAddr KERNEL_ADDRESS_SPACE)
    (hFlags : flags < 4096)
    (hFilling : Filling m d t lo hi flags k m')
    (hLo : lo ≤ k)
    (hHi : k < hi) :
    ((allocatePage (k * 4096) flags).run m').Sat
      (fun _ m'' => Filling m d t lo hi flags (k + 1) m'')
      (fun e _ =>
        e = noFrames ∧
          m.frames.length < 2 * (hi - lo)) := by
  have hk : k < 983040 := Nat.lt_of_lt_of_le hHi hUser
  have hIndex := page_index k
  have hva : k * 4096 < 2 ^ 32 := by omega
  have hSelf := hFilling.self
  have hRoot := hFilling.root
  have hEnough := hFilling.enough
  rcases hFilling.entered.tables.own k hLo hHi with
    hZero | ⟨u, hEntry, -⟩
  · rw [← hRoot] at hZero
    have hZeroAt := hZero
    rw [← hIndex.1] at hZeroAt
    have hGet := hSelf.run_getMapping_none hva hZeroAt
    cases hFrames : m'.frames with
    | nil =>
        rw [hFrames, List.length_nil] at hEnough
        rw [run_allocatePage_none flags hGet,
          EStateM.bind_of_error
            (run_pmmAllocPage_nil hFrames)]
        exact ⟨rfl, by omega⟩
    | cons f spare =>
        cases spare with
        | nil =>
            have hMap :
                (map (k * 4096) f flags).run
                    (m'.withFrames []) =
                  .error noFrames (m'.withFrames []) :=
              (hSelf.withFrames []).run_map_nil hva hZeroAt
                rfl
            rw [hFrames, List.length_singleton] at hEnough
            rw [run_allocatePage_none flags hGet,
              EStateM.bind_of_ok (run_pmmAllocPage hFrames),
              hMap]
            exact ⟨rfl, by omega⟩
        | cons g rest =>
            rcases hFilling.create hAvoids hUser hFlags hLo
                hHi hZero hFrames with ⟨m'', hRun, hNext⟩
            rw [hRun]
            exact hNext
  · have hWhole :=
      hFilling.entered.tables.whole k u hLo hHi hEntry
    rw [← hRoot] at hEntry
    have hEntryAt := hEntry
    rw [← hIndex.1] at hEntryAt
    rcases hWhole with hEmpty | hOdd
    · have hGet := hSelf.run_getMapping_table hva hEntryAt
      rw [hIndex.2, hEmpty] at hGet
      cases hFrames : m'.frames with
      | nil =>
          rw [hFrames, List.length_nil] at hEnough
          rw [run_allocatePage_none flags hGet,
            EStateM.bind_of_error
              (run_pmmAllocPage_nil hFrames)]
          exact ⟨rfl, by omega⟩
      | cons f rest =>
          rcases hFilling.take hAvoids hUser hFlags hLo hHi
              hEntry hEmpty hFrames with ⟨m'', hRun, hNext⟩
          rw [hRun]
          exact hNext
    · rcases hFilling.keep hAvoids hUser hFlags hLo hHi
          hEntry hOdd with ⟨m'', hRun, hNext⟩
      rw [hRun]
      exact hNext

------------------------------------------------------------
-- The Range
------------------------------------------------------------

/-
  The current directory, ready for pages from `lo` up to `hi`
  and for the frames that the allocator returns.
-/
structure Ready
    (m : Machine)
    (d : PageDirectory)
    (t lo hi : Nat) : Prop where
  self : SelfMapped m d t
  avoids : Avoids d lo hi
  tables : m.ram.RangeTables m.root lo hi
  spare : ∀ f ∈ m.frames, m.ram.Spare m.root lo hi f
  nodup : m.frames.Nodup

theorem Ready.filling
    (flags : Nat)
    (hReady : Ready m d t lo hi) :
    Filling m d t lo hi flags lo m where
  machine := rfl
  self := hReady.self
  entered :=
    ByteMemory.Entered.start hReady.tables hReady.spare
      hReady.nodup
  enough := Nat.le_add_right _ _

/- All pages of a range that starts and ends with a page. -/
theorem Ready.sat_pages
    (hReady : Ready m d t lo hi)
    (hUser : hi ≤ pgNumFromAddr KERNEL_ADDRESS_SPACE)
    (hFlags : flags < 4096)
    (hLe : lo ≤ hi) :
    ((EStateM.upTo
        (fun k =>
          allocatePage (add32 (lo * 4096) (k * PAGE_SIZE))
            flags)
        (hi - lo)).run m).Sat
      (fun _ m' => Filling m d t lo hi flags hi m')
      (fun e _ =>
        e = noFrames ∧
          m.frames.length < 2 * (hi - lo)) := by
  have hHi : hi ≤ 983040 := hUser
  have hStep :
      ∀ k m', k < hi - lo →
        Filling m d t lo hi flags (lo + k) m' →
          ((allocatePage (add32 (lo * 4096) (k * PAGE_SIZE))
              flags).run m').Sat
            (fun _ m'' =>
              Filling m d t lo hi flags (lo + (k + 1)) m'')
            (fun e _ =>
              e = noFrames ∧
                m.frames.length < 2 * (hi - lo)) := by
    intro k m' hk hFilling
    have hAddr :
        add32 (lo * 4096) (k * PAGE_SIZE) =
          (lo + k) * 4096 := by
      unfold PAGE_SIZE
      rw [add32_of_lt (by omega)]
      omega
    rw [hAddr]
    exact hFilling.sat_allocatePage hReady.avoids hUser
      hFlags (by omega) (by omega)
  have hLoop :=
    EStateM.sat_upTo (I := fun k m' =>
      Filling m d t lo hi flags (lo + k) m')
      (hReady.filling flags) hStep
  rw [Nat.add_sub_cancel' hLe] at hLoop
  exact hLoop

/- The pages of the rounded range. -/
def rangeStart (vaStart : Nat) : Nat :=
  pgNumFromAddr (pageRoundDown vaStart)

def rangeEnd (vaEnd : Nat) : Nat :=
  pgNumFromAddr (pageRoundUp vaEnd)

theorem rangeStart_eq (va : Nat) :
    rangeStart va = va / 4096 := by
  unfold rangeStart pgNumFromAddr pageRoundDown pageAddr
    PAGE_SIZE
  omega

theorem rangeEnd_eq
    (hva : va ≤ KERNEL_ADDRESS_SPACE) :
    rangeEnd va = (va + 4095) / 4096 := by
  unfold KERNEL_ADDRESS_SPACE at hva
  unfold rangeEnd pgNumFromAddr
  rw [pageRoundUp_eq (by omega)]
  omega

/- The passes of the loop, once both bounds are pages. -/
theorem rangeCount_eq (vaStart vaEnd : Nat) :
    (pageRoundUp vaEnd - pageRoundDown vaStart) / PAGE_SIZE =
      rangeEnd vaEnd - rangeStart vaStart := by
  unfold rangeEnd rangeStart pgNumFromAddr pageRoundUp
    pageRoundDown pageAddr PAGE_SIZE
  omega

/- The end may have wrapped, so that there is no page. -/
theorem run_allocateRange_empty
    {vaStart vaEnd : Nat}
    (hEmpty : rangeEnd vaEnd ≤ rangeStart vaStart)
    (flags : Nat)
    (m : Machine) :
    (allocateRange vaStart vaEnd flags).run m =
      .ok (pageRoundUp vaEnd) m := by
  unfold allocateRange
  dsimp only
  rw [rangeCount_eq, Nat.sub_eq_zero_of_le hEmpty]
  rfl

/- The pages of a range, from the first to the last. -/
theorem Ready.sat_allocateRange_pages
    {vaStart vaEnd : Nat}
    (hReady : Ready m d t (rangeStart vaStart) (rangeEnd vaEnd))
    (hLe : rangeStart vaStart ≤ rangeEnd vaEnd)
    (hEnd : vaEnd ≤ KERNEL_ADDRESS_SPACE)
    (hFlags : flags < 4096) :
    ((allocateRange vaStart vaEnd flags).run m).Sat
      (fun r m' =>
        r = pageRoundUp vaEnd ∧
          Filling m d t (rangeStart vaStart) (rangeEnd vaEnd)
            flags (rangeEnd vaEnd) m')
      (fun e _ =>
        e = noFrames ∧
          m.frames.length <
            2 * (rangeEnd vaEnd - rangeStart vaStart)) := by
  have hLast := rangeEnd_eq hEnd
  have hKernel : vaEnd ≤ 4026531840 := hEnd
  have hUser :
      rangeEnd vaEnd ≤ pgNumFromAddr KERNEL_ADDRESS_SPACE := by
    change rangeEnd vaEnd ≤ 983040
    omega
  have hAligned :
      pageRoundDown vaStart = rangeStart vaStart * 4096 := by
    rw [rangeStart_eq]
    rfl
  have hPages := hReady.sat_pages hUser hFlags hLe
  unfold allocateRange
  dsimp only
  rw [rangeCount_eq, hAligned]
  exact hPages.bind fun _ m' hFilling => ⟨rfl, hFilling⟩

/- The pages of a range that starts and ends anywhere. -/
theorem Ready.sat_allocateRange
    {vaStart vaEnd : Nat}
    (hReady : Ready m d t (rangeStart vaStart) (rangeEnd vaEnd))
    (hLe : vaStart ≤ vaEnd)
    (hEnd : vaEnd ≤ KERNEL_ADDRESS_SPACE)
    (hFlags : flags < 4096) :
    ((allocateRange vaStart vaEnd flags).run m).Sat
      (fun r m' =>
        r = pageRoundUp vaEnd ∧
          Filling m d t (rangeStart vaStart) (rangeEnd vaEnd)
            flags (rangeEnd vaEnd) m')
      (fun e _ =>
        e = noFrames ∧
          m.frames.length <
            2 * (rangeEnd vaEnd - rangeStart vaStart)) := by
  have hPages : rangeStart vaStart ≤ rangeEnd vaEnd := by
    rw [rangeStart_eq, rangeEnd_eq hEnd]
    omega
  exact hReady.sat_allocateRange_pages hPages hEnd hFlags

------------------------------------------------------------
-- What Is Allocated
------------------------------------------------------------

/-
  What the call makes of the pages from `lo` up to `hi`: they
  are mapped with the flags; those that were mapped keep
  their frames with the bytes in them, and the others, like
  the new page tables, get frames of their own from the
  allocator.  No other page changes, but for those that show
  the new tables.
-/
structure RangeAllocated
    (m m' : Machine)
    (lo hi flags : Nat) : Prop where
  mapped : ∀ n, lo ≤ n → n < hi →
    ∃ f, f % 4096 = 0 ∧
      m'.ram.HasEntry m.root n (f ||| PAGE_PRESENT ||| flags)
  kept : ∀ n f, lo ≤ n → n < hi →
    m.ram.pageAt m.root n = some f →
      m'.ram.pageAt m.root n = some f ∧
        m.ram.SameOn f (f + 4096) m'.ram
  pages : ∀ n, lo ≤ n → n < hi →
    m.ram.pageAt m.root n = none →
      ∃ f ∈ m.frames, m'.ram.pageAt m.root n = some f
  tables : ∀ i, i < 1024 →
    m.ram.word m.root i = 0 → m'.ram.word m.root i ≠ 0 →
      ∃ f ∈ m.frames, m'.ram.entry m.root i = some f
  pages_distinct : ∀ n n', lo ≤ n → n < hi →
    lo ≤ n' → n' < hi →
      m.ram.pageAt m.root n = none →
        m'.ram.pageAt m.root n' = m'.ram.pageAt m.root n →
          n' = n
  tables_distinct : ∀ i j, i < 1024 → j < 1024 →
    m.ram.word m.root i = 0 → m'.ram.word m.root i ≠ 0 →
      m'.ram.entry m.root j = m'.ram.entry m.root i → j = i
  apart : ∀ n i, lo ≤ n → n < hi → i < 1024 →
    m.ram.pageAt m.root n = none →
      m'.ram.entry m.root i ≠ m'.ram.pageAt m.root n
  others : ∀ n, n < 2 ^ 20 → n < lo ∨ hi ≤ n →
    m'.ram.pageAt m.root n = m.ram.pageAt m.root n ∨
      m.ram.entry m.root (n / 1024) = some m.root ∧
        m.ram.word m.root (n % 1024) = 0 ∧
          ∃ n', lo ≤ n' ∧ n' < hi ∧ n' / 1024 = n % 1024

theorem Filling.rangeAllocated
    (hFlags : flags < 4096)
    (hFilling : Filling m d t lo hi flags hi m') :
    RangeAllocated m m' lo hi flags := by
  have hEntered := hFilling.entered
  have hBound := hEntered.tables.bound
  have hPresent := presentWith_lt hFlags
  have hPage :
      ∀ n, lo ≤ n → n < hi →
        ∃ f, f % 4096 = 0 ∧
          m'.ram.HasEntry m.root n (f + presentWith flags) ∧
          m'.ram.pageAt m.root n = some f ∧
          (m.ram.pageAt m.root n = some f ∨
            m.ram.pageAt m.root n = none ∧ f ∈ m.frames) := by
    intro n hLo hHi
    rcases hEntered.done n hLo hHi with ⟨f, hf, hHas, hFrom⟩
    refine ⟨f, hf, hHas, ?_, hFrom⟩
    rw [hHas.pageAt]
    exact ByteMemory.entryFrame_add hf hPresent
      (presentWith_odd flags)
  -- an entry that was zero belongs to the range
  have hNewTable :
      ∀ i, i < 1024 → m.ram.word m.root i = 0 →
        m'.ram.word m.root i ≠ 0 →
          (∃ n, lo ≤ n ∧ n < hi ∧ n / 1024 = i) ∧
            ∃ f ∈ m.frames, m'.ram.entry m.root i = some f := by
    intro i hi hZero hNe
    rcases hEntered.entries i hi with hSame | ⟨_, hNew⟩
    · exact absurd (hSame.trans hZero) hNe
    · exact hNew
  refine
    { mapped := ?_
      kept := ?_
      pages := ?_
      tables := fun i hi hZero hNe =>
        (hNewTable i hi hZero hNe).2
      pages_distinct := ?_
      tables_distinct := ?_
      apart := ?_
      others := ?_ }
  · intro n hLo hHi
    rcases hPage n hLo hHi with ⟨f, hf, hHas, -⟩
    refine ⟨f, hf, ?_⟩
    rw [Nat.or_assoc]
    change m'.ram.HasEntry m.root n (f ||| presentWith flags)
    rw [or_flags hf hPresent]
    exact hHas
  · intro n f hLo hHi hOld
    rcases hPage n hLo hHi with ⟨x, hx, -, hNow, hFrom⟩
    have hSame : x = f := by
      rcases hFrom with hKept | ⟨hNone, _⟩
      · rw [hOld] at hKept
        exact (Option.some.inj hKept).symm
      · rw [hOld] at hNone
        cases hNone
    subst hSame
    have hData := hEntered.tables.data n x hLo hHi hNow
    refine ⟨hNow, hEntered.bytes x hx hData.1 ?_⟩
    intro n' hLo' hHi'
    exact hData.2 _ (by omega)
  · intro n hLo hHi hNone
    rcases hPage n hLo hHi with ⟨f, -, -, hNow, hFrom⟩
    rcases hFrom with hKept | ⟨_, hMem⟩
    · rw [hNone] at hKept
      cases hKept
    · exact ⟨f, hMem, hNow⟩
  · intro n n' hLo hHi hLo' hHi' hNone hSame
    rcases hPage n hLo hHi with ⟨f, -, -, hNow, -⟩
    exact hEntered.unique n n' f hLo hHi hLo' hHi' hNone hNow
      (hSame.trans hNow)
  · intro i j hi hj hZero hNe hSame
    rcases hNewTable i hi hZero hNe with
      ⟨⟨n, hLo, hHi, hn⟩, f, -, hEntry⟩
    have hOwn := hEntered.tables.own n hLo hHi
    rw [hn] at hOwn
    by_contra hApart
    exact (hOwn.table hEntry).2 j hj hApart
      (hSame.trans hEntry)
  · intro n i hLo hHi hi _ hSame
    rcases hPage n hLo hHi with ⟨f, -, -, hNow, -⟩
    exact (hEntered.tables.data n f hLo hHi hNow).2 i hi
      (hSame.trans hNow)
  · intro n hn hOut
    by_cases hWindow :
        m.ram.entry m.root (n / 1024) = some m.root
    · have hKept :
          m'.ram.entry m.root (n / 1024) = some m.root := by
        rcases hEntered.entries (n / 1024) (by omega) with
          hSame | ⟨hZero, _⟩
        · rw [ByteMemory.entry_congr hSame]
          exact hWindow
        · exact absurd hZero (entry_ne_zero hWindow)
      rcases hEntered.entries (n % 1024) (by omega) with
        hSame | ⟨hZero, hNew, _⟩
      · left
        rw [ByteMemory.pageAt_of_entry hWindow,
          ByteMemory.pageAt_of_entry hKept]
        exact ByteMemory.entry_congr hSame
      · exact .inr ⟨hWindow, hZero, hNew⟩
    · exact .inl (hEntered.others n hn hOut hWindow)

/-
  The call maps the range, or it stops because the allocator
  ran out of frames.
-/
theorem allocate_range_maps
    {vaStart vaEnd : Nat}
    (hLe : vaStart ≤ vaEnd)
    (hEnd : vaEnd ≤ KERNEL_ADDRESS_SPACE)
    (hFlags : flags < 0x1000)
    (hReady :
      Ready m d t (rangeStart vaStart) (rangeEnd vaEnd)) :
    ((allocateRange vaStart vaEnd flags).run m).Sat
      (fun r m' =>
        r = pageRoundUp vaEnd ∧
          RangeAllocated m m' (rangeStart vaStart)
            (rangeEnd vaEnd) flags)
      (fun e _ =>
        e = noFrames ∧
          m.frames.length <
            2 * (rangeEnd vaEnd - rangeStart vaStart)) :=
  (hReady.sat_allocateRange hLe hEnd hFlags).imp
    (fun _ _ h => ⟨h.1, h.2.rangeAllocated hFlags⟩)
    (fun _ _ h => h)

/- The empty directory, and an allocator with two frames. -/
def twoFrames : Machine :=
  bareMachine.withFrames [0x103000, 0x104000]

theorem entry_bareRam
    {j : Nat}
    (hj : j < 1024)
    (hEntry : bareRam.entry 0x101000 j = some f) :
    f = 0x102000 ∨ f = 0x101000 := by
  rcases Nat.lt_or_ge j 1022 with hLow | hHigh
  · exact absurd (bareRam_zero j hLow) (entry_ne_zero hEntry)
  · have hLast : j = 1022 ∨ j = 1023 := by omega
    rcases hLast with rfl | rfl
    · rw [bareRam_dir] at hEntry
      exact .inl (Option.some.inj hEntry).symm
    · rw [bareRam_self] at hEntry
      exact .inr (Option.some.inj hEntry).symm

theorem pageAt_bareRam
    {n : Nat}
    (hn : n < 1022 * 1024) :
    bareRam.pageAt 0x101000 n = none :=
  ByteMemory.pageAt_of_none
    (ByteMemory.entry_of_word (bareRam_zero _ (by omega)))

/- The kernel's windows are apart from the user's range. -/
theorem avoids_kernel
    (hHi : hi ≤ 983040) :
    Avoids
      ⟨0x101000, KERNEL_DIR_VIRTUAL, KERNEL_TABLES_VIRTUAL⟩
      lo hi := by
  have hDir : pgNumFromAddr KERNEL_DIR_VIRTUAL = 1047551 := rfl
  have hPages : pgdirIdxFromAddr KERNEL_TABLES_VIRTUAL = 1023 :=
    rfl
  intro n _ hn
  unfold Outside
  dsimp only
  rw [hDir, hPages]
  omega

/- Any part of the user's range can be allocated. -/
theorem ready_twoFrames
    (hHi : hi ≤ 983040) :
    Ready twoFrames
      ⟨0x101000, KERNEL_DIR_VIRTUAL, KERNEL_TABLES_VIRTUAL⟩
      0x102000 lo hi := by
  have hRoot : twoFrames.root = 0x101000 := root_bareMachine
  have hRam : twoFrames.ram = bareRam := rfl
  refine
    { self := selfMapped_bareMachine.withFrames _
      avoids := avoids_kernel hHi
      tables := ?_
      spare := ?_
      nodup := by decide }
  · rw [hRoot, hRam]
    refine
      { aligned := by decide
        bound := by omega
        own := ?_
        whole := ?_
        data := ?_ }
    · intro n _ hn
      exact .inl (bareRam_zero _ (by omega))
    · intro n u _ hn hu
      exact absurd (bareRam_zero _ (by omega))
        (entry_ne_zero hu)
    · intro n f _ hn hf
      rw [pageAt_bareRam (by omega)] at hf
      cases hf
  · rw [hRoot, hRam]
    intro f hf
    have hCases : f = 0x103000 ∨ f = 0x104000 := by
      rcases List.mem_cons.mp hf with hf | hf
      · exact .inl hf
      · exact .inr (List.mem_singleton.mp hf)
    refine
      { aligned := by omega
        lt := by omega
        ne_root := by omega
        noTable := ?_
        noPage := ?_ }
    · intro j hj hEntry
      have hTable := entry_bareRam hj hEntry
      omega
    · intro n _ hn
      rw [pageAt_bareRam (by omega)]
      nofun

/- A directory with one page, and four frames to take. -/
def textMachine : Machine :=
  (onePageMachine 64 0).withFrames
    [0x104000, 0x105000, 0x106000, 0x107000]

theorem mem_textFrames :
    ∀ f ∈ textMachine.frames,
      f % 4096 = 0 ∧ 0x104000 ≤ f ∧ f < 0x108000 := by
  decide

theorem entry_onePageRam_cases
    {i j k : Nat}
    (hi : i < 1022)
    (hj : j < 1024)
    (hk : k < 1024)
    (hEntry : (onePageRam i j).entry 0x101000 k = some f) :
    f = 0x103000 ∧ k = i ∨ f = 0x102000 ∨ f = 0x101000 := by
  rw [entry_onePageRam hi hj hk] at hEntry
  by_cases hSame : k = i
  · rw [if_pos hSame] at hEntry
    exact .inl ⟨(Option.some.inj hEntry).symm, hSame⟩
  · rw [if_neg hSame] at hEntry
    exact .inr (entry_bareRam hk hEntry)

theorem pageAt_onePageRam
    {i j n : Nat}
    (hi : i < 1022)
    (hj : j < 1024)
    (hn : n < 1022 * 1024) :
    (onePageRam i j).pageAt 0x101000 n =
      if n = i * 1024 + j then some 0x110000 else none := by
  have hEntry :=
    entry_onePageRam hi hj (by omega : n / 1024 < 1024)
  by_cases hTable : n / 1024 = i
  · rw [if_pos hTable] at hEntry
    rw [ByteMemory.pageAt_of_entry hEntry]
    have hWord :=
      word_onePageTable hi hj (by omega : n % 1024 < 1024)
    rw [ByteMemory.entry_of_word hWord]
    by_cases hPage : n % 1024 = j
    · rw [if_pos hPage, if_pos (by omega)]
      rfl
    · rw [if_neg hPage, if_neg (by omega)]
      rfl
  · rw [if_neg hTable,
      ByteMemory.entry_of_word (bareRam_zero _ (by omega))]
      at hEntry
    rw [ByteMemory.pageAt_of_none hEntry, if_neg (by omega)]

/- One page in a table of its own. -/
theorem rangeTables_onePageRam
    {i j : Nat}
    (hi' : i < 1022)
    (hj : j < 1024)
    (hHi : hi ≤ 983040) :
    (onePageRam i j).RangeTables 0x101000 lo hi := by
  refine
    { aligned := by decide
      bound := by omega
      own := ?_
      whole := ?_
      data := ?_ }
  · intro n _ hn
    by_cases hSame : n / 1024 = i
    · refine .inr ⟨0x103000, ?_, by decide, ?_⟩
      · rw [entry_onePageRam hi' hj (by omega), if_pos hSame]
      · intro k hk hNe hEntry
        have hFrame := entry_onePageRam_cases hi' hj hk hEntry
        omega
    · left
      rw [word_onePageRam hi' hj (by omega), if_neg hSame]
      exact bareRam_zero _ (by omega)
  · intro n u _ hn hu
    rw [entry_onePageRam hi' hj (by omega)] at hu
    split at hu
    · cases hu
      rw [word_onePageTable hi' hj (by omega)]
      split
      · exact .inr (by decide)
      · exact .inl rfl
    · exact absurd (bareRam_zero _ (by omega))
        (entry_ne_zero hu)
  · intro n f _ hn hf
    rw [pageAt_onePageRam hi' hj (by omega)] at hf
    split at hf
    · cases hf
      refine ⟨by decide, ?_⟩
      intro k hk hEntry
      have hFrame := entry_onePageRam_cases hi' hj hk hEntry
      omega
    · cases hf

/- The frames between the tables and that page. -/
theorem spare_onePageRam
    {i j : Nat}
    (hi' : i < 1022)
    (hj : j < 1024)
    (hHi : hi ≤ 983040)
    (hAligned : f % 4096 = 0)
    (hLo : 0x104000 ≤ f)
    (hLt : f < 0x110000) :
    (onePageRam i j).Spare 0x101000 lo hi f := by
  refine
    { aligned := hAligned
      lt := by omega
      ne_root := by omega
      noTable := ?_
      noPage := ?_ }
  · intro k hk hEntry
    have hFrame := entry_onePageRam_cases hi' hj hk hEntry
    omega
  · intro n _ hn hPage
    rw [pageAt_onePageRam hi' hj (by omega)] at hPage
    split at hPage
    · cases hPage
      omega
    · cases hPage

theorem ready_textMachine
    (hHi : hi ≤ 983040) :
    Ready textMachine
      ⟨0x101000, KERNEL_DIR_VIRTUAL, KERNEL_TABLES_VIRTUAL⟩
      0x102000 lo hi := by
  have hRoot : textMachine.root = 0x101000 := root_bareMachine
  have hRam : textMachine.ram = onePageRam 64 0 := rfl
  refine
    { self :=
        (selfMapped_onePageMachine (by decide)
          (by decide)).withFrames _
      avoids := avoids_kernel hHi
      tables := ?_
      spare := ?_
      nodup := by decide }
  · rw [hRoot, hRam]
    exact rangeTables_onePageRam (by decide) (by decide) hHi
  · rw [hRoot, hRam]
    intro f hf
    rcases mem_textFrames f hf with ⟨hAligned, hLo, hLt⟩
    exact spare_onePageRam (by decide) (by decide) hHi hAligned
      hLo (by omega)

/- Two pages of the user's text, the first one mapped. -/
theorem text_page_allocated :
    ((allocateRange 0x10000000 0x10002000
        (PAGE_WRITE ||| PAGE_USER)).run textMachine).Sat
      (fun r m' =>
        r = pageRoundUp 0x10002000 ∧
          RangeAllocated textMachine m'
            (rangeStart 0x10000000) (rangeEnd 0x10002000)
            (PAGE_WRITE ||| PAGE_USER))
      (fun e _ =>
        e = noFrames ∧
          textMachine.frames.length <
            2 * (rangeEnd 0x10002000 -
              rangeStart 0x10000000)) :=
  allocate_range_maps (by decide) (by decide) (by decide)
    (ready_textMachine (by decide))

/- The pages of a window show the tables of the entries. -/
theorem pageAt_window
    {ram : ByteMemory}
    {root i j : Nat}
    (hWindow : ram.entry root i = some root)
    (hj : j < 1024) :
    ram.pageAt root (i * 1024 + j) = ram.entry root j := by
  have hDiv : (i * 1024 + j) / 1024 = i := by omega
  have hMod : (i * 1024 + j) % 1024 = j := by omega
  rw [← hDiv] at hWindow
  rw [ByteMemory.pageAt_of_entry hWindow, hMod]

/-
  The table of that page shows up in the window of the
  directory, outside the range.
-/
theorem window_page_changes :
    Ready twoFrames
        ⟨0x101000, KERNEL_DIR_VIRTUAL,
          KERNEL_TABLES_VIRTUAL⟩ 0x102000
        (rangeStart 0x10000000) (rangeEnd 0x10001000) ∧
      ∃ r m',
        (allocateRange 0x10000000 0x10001000
            (PAGE_WRITE ||| PAGE_USER)).run twoFrames =
          .ok r m' ∧
          ∃ n, n < 2 ^ 20 ∧
            (n < rangeStart 0x10000000 ∨
              rangeEnd 0x10001000 ≤ n) ∧
            m'.ram.pageAt twoFrames.root n ≠
              twoFrames.ram.pageAt twoFrames.root n := by
  have hFlags : PAGE_WRITE ||| PAGE_USER < 4096 := by decide
  have hReady :
      Ready twoFrames
        ⟨0x101000, KERNEL_DIR_VIRTUAL,
          KERNEL_TABLES_VIRTUAL⟩ 0x102000
        (rangeStart 0x10000000) (rangeEnd 0x10001000) :=
    ready_twoFrames (by decide)
  have hSat :=
    hReady.sat_allocateRange (by decide) (by decide) hFlags
  cases hRun :
      (allocateRange 0x10000000 0x10001000
        (PAGE_WRITE ||| PAGE_USER)).run twoFrames with
  | error e m' =>
      rw [hRun] at hSat
      exact absurd hSat.2 (by decide)
  | ok r m' =>
      rw [hRun] at hSat
      have hRoot : twoFrames.root = 0x101000 :=
        root_bareMachine
      have hRam : twoFrames.ram = bareRam := rfl
      have hEntered := hSat.2.entered
      have hFirst : rangeStart 0x10000000 ≤ 0x10000 := by
        decide
      have hLast : 0x10000 < rangeEnd 0x10001000 := by decide
      rcases hEntered.done 0x10000 hFirst hLast with
        ⟨f, _, ⟨u, hEntry, _⟩, _⟩
      rw [hRoot] at hEntry hEntered
      have hKept :
          m'.ram.entry 0x101000 1023 = some 0x101000 := by
        rcases hEntered.entries 1023 (by decide) with
          hSame | ⟨hZero, _⟩
        · rw [ByteMemory.entry_congr hSame]
          exact bareRam_self
        · exact absurd hZero (entry_ne_zero bareRam_self)
      -- the page that shows the table number 64
      refine ⟨hReady, r, m', rfl, 1023 * 1024 + 64,
        by decide, .inr (by decide), ?_⟩
      have hNew : m'.ram.entry 0x101000 64 = some u := hEntry
      rw [hRoot, hRam, pageAt_window bareRam_self (by decide),
        pageAt_window hKept (by decide), hNew,
        ByteMemory.entry_of_word (bareRam_zero 64 (by decide))]
      nofun

end Vmm

end SosKernel
