import Mathlib.Order.Interval.Finset.Nat
import SosKernel.Lib.Reachable
import SosKernel.Vmm.AllocateRange
import SosKernel.Vmm.GiveBack

/-
  `allocate_stack` in a directory that shows itself inside
  the region of the stacks.

  Main declarations:
    * `allocateStack`
    * `NewStack`, `GoodCall`: a stack apart from all others
    * `KeepsClear`: the search stays below the window
    * `StackSpace`: the directory from call to call
    * `StackSpace.goodCall`

  A page of the window on the page tables is unmapped when
  the table that it would show does not exist, so that the
  search can come upon it.
-/

------------------------------------------------------------
-- The Function
------------------------------------------------------------

namespace SosKernel

namespace Vmm

/- `bound` is for the loops of `find_free_range`. -/
def allocateStack (bound size : Nat) : VmM Nat := do
  let va ←
    findFreeRange bound USER_STACKS_START USER_STACKS_END size 1
  if va = USER_STACKS_END then
    throw (.panic "No place for stacks.")
  let _ ←
    allocateRange va (add32 va size) (PAGE_USER ||| PAGE_WRITE)
  return add32 va size

/- The sizes are pages, and they divide the region. -/
structure StackSize (size : Nat) : Prop where
  pos : 0 < size
  pages : size % 4096 = 0
  divides : (USER_STACKS_END - USER_STACKS_START) % size = 0

/- The candidate `k` of the search. -/
def stackAt (size k : Nat) : Nat :=
  USER_STACKS_START + k * size

------------------------------------------------------------
-- Stacks
------------------------------------------------------------

/-
  From `start` on there was nothing for `size` bytes, there
  is no other stack, nor the directory or its page tables,
  and now there are pages.
-/
structure NewStack
    (m : Machine)
    (others : List (Nat × Nat))
    (start size : Nat)
    (m' : Machine) : Prop where
  above : USER_STACKS_START ≤ start
  below : start + size ≤ USER_STACKS_END
  unmapped : Unmapped m size start
  apart : ∀ s ∈ others,
    start + size ≤ s.1 ∨ s.1 + s.2 ≤ start
  mapped : ∀ va, start ≤ va → va < start + size →
    ∃ f, m'.ram.pageAt m'.root (va / 4096) = some f
  directory :
    start + size ≤ USER_DIR_VIRTUAL ∨
      USER_DIR_VIRTUAL + 4096 ≤ start
  tables :
    start + size ≤ USER_TABLES_VIRTUAL ∨
      USER_TABLES_VIRTUAL + 2 ^ 22 ≤ start

/- The call panics, or it returns the top of a new stack. -/
def GoodCall
    (m : Machine)
    (others : List (Nat × Nat))
    (size : Nat) : Prop :=
  ∃ n, ∀ bound, n ≤ bound →
    ((allocateStack bound size).run m).Sat
      (fun top m' =>
        ∃ start, top = start + size ∧
          NewStack m others start size m')
      (fun e _ => ∃ msg, e = .panic msg)

/-
  A call that is allowed and that returned, next to the
  stacks there are, each with its start and its size.
-/
inductive StackStep (allowed : Machine → Nat → Prop) :
    Machine × List (Nat × Nat) →
      Machine × List (Nat × Nat) → Prop where
| call
    {m m' : Machine}
    {others : List (Nat × Nat)}
    (start size : Nat)
    (hSize : StackSize size)
    (hAllowed : allowed m size)
    (hRun : ∃ n, ∀ bound, n ≤ bound →
      (allocateStack bound size).run m =
        .ok (start + size) m') :
    StackStep allowed (m, others)
      (m', (start, size) :: others)

/-
  `src` is cloned and the clone made current.  In every run
  of allowed calls from there, each allowed call is good.
-/
def StacksApart
    (allowed : Machine → Nat → Prop)
    (m : Machine)
    (src : DirPtr) : Prop :=
  ∀ dir m₁ m₂ cfg size,
    (cloneDirectory copyPagePhysical src).run m =
        .ok dir m₁ →
      (switchPageDirectory dir).run m₁ = .ok () m₂ →
        Reachable (· = (m₂, [])) (StackStep allowed) cfg →
          StackSize size → allowed cfg.1 size →
            GoodCall cfg.1 cfg.2 size

/-
  Below the window on the page tables some candidate is
  unmapped, or no candidate within the window is.
-/
def KeepsClear (m : Machine) (size : Nat) : Prop :=
  (∃ k, stackAt size (k + 1) ≤ USER_TABLES_VIRTUAL ∧
      Unmapped m size (stackAt size k)) ∨
    ∀ k, USER_TABLES_VIRTUAL ≤ stackAt size k →
      stackAt size k < USER_STACKS_END →
        ¬ Unmapped m size (stackAt size k)

variable {m m' : Machine}
variable {d : PageDirectory}
variable {others : List (Nat × Nat)}
variable {t k n f lo hi flags size start : Nat}

------------------------------------------------------------
-- The Search
------------------------------------------------------------

theorem StackSize.le
    (hSize : StackSize size) :
    size ≤ 0x10000000 := by
  have hMod : 0x10000000 % size = 0 := hSize.divides
  exact Nat.le_of_dvd (by decide)
    (Nat.dvd_of_mod_eq_zero hMod)

theorem StackSize.rounded
    (hSize : StackSize size) :
    pageRoundUp size = size := by
  have hLe := hSize.le
  have hPages := hSize.pages
  rw [pageRoundUp_eq (by omega)]
  omega

theorem StackSize.step
    (hSize : StackSize size) :
    rangeStep (pageRoundUp size) 1 = size := by
  rw [hSize.rounded]
  rfl

/- A candidate that starts in the region ends there. -/
theorem StackSize.fits
    (hSize : StackSize size)
    (hk : stackAt size k < USER_STACKS_END) :
    stackAt size (k + 1) ≤ USER_STACKS_END := by
  have hMod : 0x10000000 % size = 0 := hSize.divides
  rcases Nat.dvd_of_mod_eq_zero hMod with ⟨c, hc⟩
  have hBelow : k * size < size * c := by
    unfold stackAt USER_STACKS_START USER_STACKS_END at hk
    omega
  have hLt : k < c := by
    rw [Nat.mul_comm] at hBelow
    exact Nat.lt_of_mul_lt_mul_left hBelow
  have hMul : (k + 1) * size ≤ c * size :=
    Nat.mul_le_mul_right size hLt
  rw [Nat.mul_comm c] at hMul
  unfold stackAt USER_STACKS_START USER_STACKS_END
  omega

theorem stackAt_succ (size k : Nat) :
    stackAt size (k + 1) = stackAt size k + size := by
  unfold stackAt
  rw [Nat.add_mul, Nat.one_mul, Nat.add_assoc]

theorem StackSize.aligned
    (k : Nat)
    (hSize : StackSize size) :
    stackAt size k % 4096 = 0 := by
  have hMul : k * size % 4096 = 0 := by
    rw [Nat.mul_mod, hSize.pages, Nat.mul_zero, Nat.zero_mod]
  unfold stackAt USER_STACKS_START
  omega

/- The first candidate that is unmapped. -/
structure FirstStack (m : Machine) (size k : Nat) : Prop where
  inside : stackAt size k < USER_STACKS_END
  unmapped : Unmapped m size (stackAt size k)
  first : ∀ i, i < k → ¬ Unmapped m size (stackAt size i)

theorem StackSize.free_iff
    (hSize : StackSize size)
    (hk : stackAt size k < USER_STACKS_END) :
    Free m size (stackAt size k) ↔
      Unmapped m size (stackAt size k) := by
  have hFits := hSize.fits hk
  rw [stackAt_succ] at hFits
  unfold USER_STACKS_END at hFits
  exact and_iff_right (by omega)

/- The search finds the first unmapped candidate. -/
theorem FirstStack.finds
    (hFirst : FirstStack m size k)
    (hReadable : Readable m)
    (hSize : StackSize size) :
    Finds m USER_STACKS_START USER_STACKS_END size 1
      (stackAt size k) := by
  have hNe : pageRoundUp size ≠ 0 := by
    rw [hSize.rounded]
    exact hSize.pos.ne'
  refine (finds_iff hReadable (by decide) hNe).mpr (.inl ?_)
  rw [hSize.step, hSize.rounded]
  refine ⟨k, rfl, hFirst.inside,
    (hSize.free_iff hFirst.inside).mpr hFirst.unmapped, ?_⟩
  intro i hi hFree
  exact hFirst.first i hi hFree.2

/- The search finds that, or it fails. -/
theorem StackSize.search
    (hSize : StackSize size)
    (hReadable : Readable m) :
    (∃ k, FirstStack m size k) ∨
      Finds m USER_STACKS_START USER_STACKS_END size 1
        USER_STACKS_END := by
  have hMod : 0x10000000 % size = 0 := hSize.divides
  rcases Nat.dvd_of_mod_eq_zero hMod with ⟨c, hc⟩
  have hNe : pageRoundUp size ≠ 0 := by
    rw [hSize.rounded]
    exact hSize.pos.ne'
  have hLeave :
      Leaves (rangeStep (pageRoundUp size) 1)
        (pageRoundUp USER_STACKS_END)
        (pageRoundDown USER_STACKS_START) := by
    have hEnd : 0xE0000000 + c * size = 0xF0000000 := by
      rw [Nat.mul_comm, ← hc]
    refine ⟨c, ?_⟩
    rw [hSize.step]
    change 0xF0000000 ≤ candidate 0xE0000000 size c
    rw [candidate_of_lt (by omega), hEnd]
  have hSearch :
      ∃ r,
        Outcome m (pageRoundUp size)
          (rangeStep (pageRoundUp size) 1)
          (pageRoundUp USER_STACKS_END)
          (pageRoundDown USER_STACKS_START) r :=
    exists_outcome (.inr hLeave)
  rcases hSearch with ⟨r, hOutcome⟩
  have hFinds :=
    (finds_iff hReadable (by decide) hNe).mpr hOutcome
  rw [hSize.step, hSize.rounded] at hOutcome
  rcases hOutcome with
    ⟨k, hr, hInside, hFree, hBefore⟩ | ⟨hr, _⟩
  · have hAt : r = stackAt size k := hr
    subst hAt
    refine .inl ⟨k, hInside, hFree.2, ?_⟩
    intro i hi hUnmapped
    have hMul := Nat.mul_le_mul_right size (le_of_lt hi)
    have hLt : stackAt size i < USER_STACKS_END := by
      refine Nat.lt_of_le_of_lt ?_ hInside
      exact Nat.add_le_add_left hMul USER_STACKS_START
    exact hBefore i hi ((hSize.free_iff hLt).mpr hUnmapped)
  · have hEnd : r = USER_STACKS_END := hr
    rw [hEnd] at hFinds
    exact .inr hFinds

------------------------------------------------------------
-- The Directory
------------------------------------------------------------

/-
  The current directory maps itself at `USER_DIR_VIRTUAL`
  and at `USER_TABLES_VIRTUAL`, no page table of the stacks
  is shared, and the frames of the allocator are fresh.
-/
structure StackSpace
    (m : Machine)
    (d : PageDirectory)
    (t : Nat) : Prop where
  self : SelfMapped m d t
  directory : d.directory = USER_DIR_VIRTUAL
  pages : d.pages = USER_TABLES_VIRTUAL
  tables : ∀ i, i < 1024 →
    m.ram.word m.root i = 0 ∨
      ∃ u, m.ram.entry m.root i = some u
  own : ∀ i, 896 ≤ i → i < 959 → m.ram.OwnTable m.root i
  fresh : ∀ f ∈ m.frames, Fresh m f
  nodup : m.frames.Nodup

/- A page with a frame has an entry. -/
theorem mapped_of_pageAt
    (hPage : m.ram.pageAt m.root (start / 4096) = some f) :
    m.Mapped start := by
  have hDir : start / 4096 / 1024 = start / 2 ^ 22 := by omega
  cases hEntry : m.ram.entry m.root (start / 4096 / 1024) with
  | none =>
      rw [ByteMemory.pageAt_of_none hEntry] at hPage
      cases hPage
  | some u =>
      rw [ByteMemory.pageAt_of_entry hEntry] at hPage
      rw [hDir] at hEntry
      exact ⟨u, hEntry, entry_ne_zero hPage⟩

/- The pages of an unmapped range have no frames. -/
theorem Unmapped.pageAt
    (hUnmapped : Unmapped m size start)
    (hStart : start % 4096 = 0)
    (hLo : start / 4096 ≤ n)
    (hHi : n < (start + size) / 4096) :
    m.ram.pageAt m.root n = none := by
  have hPage : n * 4096 / 4096 = n := by omega
  by_contra hSome
  rcases Option.ne_none_iff_exists'.mp hSome with ⟨f, hf⟩
  rw [← hPage] at hf
  exact hUnmapped (n * 4096) (by omega) (by omega) (by omega)
    (mapped_of_pageAt hf)

/- The entry of an unmapped page is zero. -/
theorem Unmapped.word
    {u : Nat}
    (hUnmapped : Unmapped m size start)
    (hStart : start % 4096 = 0)
    (hLo : start / 4096 ≤ n)
    (hHi : n < (start + size) / 4096)
    (hEntry : m.ram.entry m.root (n / 1024) = some u) :
    m.ram.word u (n % 1024) = 0 := by
  have hIndex := page_index n
  by_contra hNe
  rw [← hIndex.1] at hEntry
  rw [← hIndex.2] at hNe
  exact hUnmapped (n * 4096) (by omega) (by omega) (by omega)
    ⟨u, hEntry, hNe⟩

namespace StackSpace

theorem readable
    (hSpace : StackSpace m d t) :
    Readable m where
  self := ⟨d, t, hSpace.self⟩
  tables := hSpace.tables

/- The page of the directory is mapped. -/
theorem mapped_directory
    (hSpace : StackSpace m d t) :
    m.Mapped USER_DIR_VIRTUAL := by
  have hMaps := hSpace.self.maps
  have hDir := hMaps.dir
  have hTable := hMaps.table
  rw [hSpace.directory] at hDir hTable
  exact ⟨t, hDir, entry_ne_zero hTable⟩

/- An unmapped range below the page of the directory. -/
theorem ready
    (hSpace : StackSpace m d t)
    (hStart : start % 4096 = 0)
    (hAbove : USER_STACKS_START ≤ start)
    (hBelow : start + size ≤ USER_DIR_VIRTUAL)
    (hUnmapped : Unmapped m size start) :
    Ready m d t (start / 4096) ((start + size) / 4096) := by
  have hFirst : 3758096384 ≤ start := hAbove
  have hLast : start + size ≤ 4022333440 := hBelow
  refine
    { self := hSpace.self
      avoids := ?_
      tables := ?_
      spare := ?_
      nodup := hSpace.nodup }
  · intro n hLo hHi
    have hDir : pgNumFromAddr d.directory = 982015 := by
      rw [hSpace.directory]
      rfl
    have hPages : pgdirIdxFromAddr d.pages = 959 := by
      rw [hSpace.pages]
      rfl
    unfold Outside
    rw [hDir, hPages]
    omega
  · refine
      { aligned := root_aligned m
        bound := by omega
        own := ?_
        whole := ?_
        data := ?_ }
    · intro n hLo hHi
      exact hSpace.own _ (by omega) (by omega)
    · intro n u hLo hHi hu
      exact .inl (hUnmapped.word hStart hLo hHi hu)
    · intro n f hLo hHi hf
      rw [hUnmapped.pageAt hStart hLo hHi] at hf
      cases hf
  · intro f hf
    have hFresh := hSpace.fresh f hf
    refine
      { aligned := hFresh.aligned
        lt := hFresh.lt
        ne_root := hFresh.ne_root
        noTable := hFresh.unused
        noPage := ?_ }
    intro n hLo hHi
    rw [hUnmapped.pageAt hStart hLo hHi]
    nofun

/- The directory stays as it is, but for new page tables. -/
theorem filled
    (hSpace : StackSpace m d t)
    (hFilling : Filling m d t lo hi flags hi m') :
    StackSpace m' d t := by
  have hEntered := hFilling.entered
  have hRoot := hFilling.root
  refine
    { self := hFilling.self
      directory := hSpace.directory
      pages := hSpace.pages
      tables := ?_
      own := ?_
      fresh := ?_
      nodup := hEntered.nodup }
  · intro i hi
    rw [hRoot]
    rcases hEntered.entries i hi with
      hSame | ⟨_, _, f, _, hEntry⟩
    · rw [hSame, ByteMemory.entry_congr hSame]
      exact hSpace.tables i hi
    · exact .inr ⟨f, hEntry⟩
  · intro i hLo hHi
    rw [hRoot]
    exact hEntered.ownTable (by omega)
      (fun f hf => (hSpace.fresh f hf).unused)
      (hSpace.own i hLo hHi)
  · intro f hf
    have hSpare := hEntered.isSpare f hf
    exact
      { aligned := hSpare.aligned
        lt := hSpare.lt
        ne_root := by
          rw [hRoot]
          exact hSpare.ne_root
        unused := by
          rw [hRoot]
          exact hSpare.noTable }

/- Pages of the stacks stay mapped. -/
theorem pageAt_filled
    (hSpace : StackSpace m d t)
    (hFlags : flags < 4096)
    (hFilling : Filling m d t lo hi flags hi m')
    (hLo : 896 * 1024 ≤ n)
    (hHi : n < 959 * 1024)
    (hPage :
      lo ≤ n ∧ n < hi ∨
        ∃ f, m.ram.pageAt m.root n = some f) :
    ∃ f, m'.ram.pageAt m'.root n = some f := by
  have hEntered := hFilling.entered
  rw [hFilling.root]
  by_cases hInside : lo ≤ n ∧ n < hi
  · rcases hEntered.done n hInside.1 hInside.2 with
      ⟨f, hf, hHas, _⟩
    refine ⟨f, ?_⟩
    rw [hHas.pageAt]
    exact ByteMemory.entryFrame_add hf
      (presentWith_lt hFlags) (presentWith_odd flags)
  · rcases hPage with hNew | ⟨f, hf⟩
    · exact absurd hNew hInside
    · refine ⟨f, ?_⟩
      rw [hEntered.others n (by omega) (by omega)]
      · exact hf
      · intro hWindow
        exact ((hSpace.own (n / 1024) (by omega)
          (by omega)).table hWindow).1 rfl

end StackSpace

------------------------------------------------------------
-- One Call
------------------------------------------------------------

/- The flags of a stack. -/
def stackFlags : Nat := PAGE_USER ||| PAGE_WRITE

/-
  What a call does when it takes its stack from below the
  page of the directory.
-/
structure Taken
    (m : Machine)
    (d : PageDirectory)
    (t start size : Nat)
    (m' : Machine) : Prop where
  aligned : start % 4096 = 0
  above : USER_STACKS_START ≤ start
  below : start + size ≤ USER_DIR_VIRTUAL
  unmapped : Unmapped m size start
  filling :
    Filling m d t (start / 4096) ((start + size) / 4096)
      stackFlags ((start + size) / 4096) m'

/- The range of an unmapped candidate gets its frames. -/
theorem StackSpace.sat_allocateRange
    (hSpace : StackSpace m d t)
    (hStart : start % 4096 = 0)
    (hPages : size % 4096 = 0)
    (hAbove : USER_STACKS_START ≤ start)
    (hBelow : start + size ≤ USER_DIR_VIRTUAL)
    (hUnmapped : Unmapped m size start) :
    ((allocateRange start (add32 start size)
        stackFlags).run m).Sat
      (fun _ m' => Taken m d t start size m')
      (fun e _ =>
        e = noFrames ∧
          m.frames.length < 2 * (size / 4096)) := by
  have hLast : start + size ≤ 4022333440 := hBelow
  have hReady :=
    hSpace.ready hStart hAbove hBelow hUnmapped
  have hEnd : add32 start size = start + size :=
    add32_of_lt (by omega)
  have hKernel : start + size ≤ KERNEL_ADDRESS_SPACE :=
    Nat.le_trans hBelow (by decide)
  have hLo : rangeStart start = start / 4096 :=
    rangeStart_eq start
  have hHi :
      rangeEnd (start + size) = (start + size) / 4096 := by
    rw [rangeEnd_eq hKernel]
    omega
  have hCount :
      (start + size) / 4096 - start / 4096 = size / 4096 := by
    omega
  have hFlags : stackFlags < 4096 := by decide
  rw [← hLo, ← hHi] at hReady
  have hSat :=
    hReady.sat_allocateRange (Nat.le_add_right start size)
      hKernel hFlags
  rw [hLo, hHi, hCount] at hSat
  rw [hEnd]
  exact hSat.imp
    (fun _ _ h => ⟨hStart, hAbove, hBelow, hUnmapped, h.2⟩)
    (fun _ _ h => h)

/-
  Where the search stays clear of the window, the candidate
  that it finds ends before the page of the directory.
-/
theorem FirstStack.below
    (hFirst : FirstStack m size k)
    (hSpace : StackSpace m d t)
    (hSize : StackSize size)
    (hClear : KeepsClear m size) :
    stackAt size k + size ≤ USER_DIR_VIRTUAL := by
  have hAligned := hSize.aligned k
  have hStart : stackAt size k < USER_TABLES_VIRTUAL := by
    rcases hClear with ⟨i, hInside, hUnmapped⟩ | hNone
    · have hLe : k ≤ i := by
        by_contra hLt
        exact hFirst.first i (by omega) hUnmapped
      have hMul := Nat.mul_le_mul_right size hLe
      rw [stackAt_succ] at hInside
      have hPos := hSize.pos
      unfold stackAt at hInside ⊢
      omega
    · by_contra hLt
      exact hNone k (Nat.le_of_not_lt hLt) hFirst.inside
        hFirst.unmapped
  have hTables : stackAt size k < 4022337536 := hStart
  -- a longer one would have the page of the directory in it
  by_contra hLong
  have hEnd : 4022333440 < stackAt size k + size :=
    Nat.lt_of_not_le hLong
  refine hFirst.unmapped USER_DIR_VIRTUAL ?_ ?_ (by decide)
    hSpace.mapped_directory
  · change stackAt size k ≤ 4022333440
    omega
  · exact hEnd

/- The call is the allocation of the first candidate. -/
theorem FirstStack.run_allocateStack
    (hFirst : FirstStack m size k)
    (hReadable : Readable m)
    (hSize : StackSize size) :
    ∃ n, ∀ bound, n ≤ bound →
      (allocateStack bound size).run m =
        (do
          let _ ←
            allocateRange (stackAt size k)
              (add32 (stackAt size k) size) stackFlags
          return add32 (stackAt size k) size : VmM Nat).run
            m := by
  rcases hFirst.finds hReadable hSize with ⟨n, hFinds⟩
  refine ⟨n, ?_⟩
  intro bound hBound
  unfold allocateStack
  rw [EStateM.bind_of_ok (hFinds bound hBound),
    if_neg (Nat.ne_of_lt hFirst.inside)]
  rfl

/- The call takes a stack, or it panics. -/
theorem StackSpace.sat_allocateStack
    (hSpace : StackSpace m d t)
    (hSize : StackSize size)
    (hClear : KeepsClear m size) :
    ∃ n, ∀ bound, n ≤ bound →
      ((allocateStack bound size).run m).Sat
        (fun top m' =>
          ∃ start, top = start + size ∧
            Taken m d t start size m')
        (fun e _ => ∃ msg, e = .panic msg) := by
  rcases hSize.search hSpace.readable with
    ⟨k, hFirst⟩ | ⟨n, hEnd⟩
  · have hBelow := hFirst.below hSpace hSize hClear
    have hLast : stackAt size k + size ≤ 4022333440 := hBelow
    have hTop :
        add32 (stackAt size k) size = stackAt size k + size :=
      add32_of_lt (by omega)
    have hSat :=
      hSpace.sat_allocateRange (hSize.aligned k) hSize.pages
        (Nat.le_add_right _ _) hBelow hFirst.unmapped
    rcases hFirst.run_allocateStack hSpace.readable hSize with
      ⟨n, hRun⟩
    refine ⟨n, ?_⟩
    intro bound hBound
    rw [hRun bound hBound]
    refine (hSat.imp (fun _ _ h => h) ?_).bind ?_
    · rintro _ _ ⟨rfl, _⟩
      exact ⟨_, rfl⟩
    · intro _ m' hTaken
      exact ⟨stackAt size k, hTop, hTaken⟩
  · refine ⟨n, ?_⟩
    intro bound hBound
    unfold allocateStack
    rw [EStateM.bind_of_ok (hEnd bound hBound), if_pos rfl]
    exact ⟨_, rfl⟩

------------------------------------------------------------
-- All Calls
------------------------------------------------------------

/- A stack that is mapped, below the page of the directory. -/
structure Holds (m : Machine) (start size : Nat) : Prop where
  pos : 0 < size
  pages : size % 4096 = 0
  aligned : start % 4096 = 0
  above : USER_STACKS_START ≤ start
  below : start + size ≤ USER_DIR_VIRTUAL
  mapped : ∀ n, start / 4096 ≤ n → n < (start + size) / 4096 →
    ∃ f, m.ram.pageAt m.root n = some f

/- The directory, and the stacks so far. -/
structure Running
    (d : PageDirectory)
    (t : Nat)
    (cfg : Machine × List (Nat × Nat)) : Prop where
  space : StackSpace cfg.1 d t
  holds : ∀ s ∈ cfg.2, Holds cfg.1 s.1 s.2

theorem Taken.holds
    (hTaken : Taken m d t start size m')
    (hSpace : StackSpace m d t)
    (hSize : StackSize size) :
    Holds m' start size where
  pos := hSize.pos
  pages := hSize.pages
  aligned := hTaken.aligned
  above := hTaken.above
  below := hTaken.below
  mapped := by
    have hFirst : 3758096384 ≤ start := hTaken.above
    have hLast : start + size ≤ 4022333440 := hTaken.below
    intro n hLo hHi
    exact hSpace.pageAt_filled (by decide) hTaken.filling
      (by omega) (by omega) (.inl ⟨hLo, hHi⟩)

/- An earlier stack stays. -/
theorem Holds.kept
    {start' size' : Nat}
    (hHolds : Holds m start' size')
    (hTaken : Taken m d t start size m')
    (hSpace : StackSpace m d t) :
    Holds m' start' size' where
  pos := hHolds.pos
  pages := hHolds.pages
  aligned := hHolds.aligned
  above := hHolds.above
  below := hHolds.below
  mapped := by
    have hFirst : 3758096384 ≤ start' := hHolds.above
    have hLast : start' + size' ≤ 4022333440 := hHolds.below
    intro n hLo hHi
    exact hSpace.pageAt_filled (by decide) hTaken.filling
      (by omega) (by omega) (.inr (hHolds.mapped n hLo hHi))

/- An unmapped range and a stack have no page in common. -/
theorem Holds.apart
    {start' size' : Nat}
    (hHolds : Holds m start' size')
    (hStart : start % 4096 = 0)
    (hPos : 0 < size)
    (hUnmapped : Unmapped m size start) :
    start + size ≤ start' ∨ start' + size' ≤ start := by
  have hAligned := hHolds.aligned
  have hPages := hHolds.pages
  have hPos' := hHolds.pos
  by_contra hMeet
  -- the later of the two starts is in both
  rcases hHolds.mapped (max start start' / 4096) (by omega)
    (by omega) with ⟨f, hf⟩
  refine hUnmapped (max start start') (by omega) (by omega)
    (by omega) (mapped_of_pageAt hf)

theorem Taken.newStack
    {cfg : Machine × List (Nat × Nat)}
    (hTaken : Taken cfg.1 d t start size m')
    (hRunning : Running d t cfg)
    (hSize : StackSize size) :
    NewStack cfg.1 cfg.2 start size m' where
  above := hTaken.above
  below := Nat.le_trans hTaken.below (by decide)
  unmapped := hTaken.unmapped
  apart := by
    intro s hs
    exact (hRunning.holds s hs).apart hTaken.aligned
      hSize.pos hTaken.unmapped
  mapped := by
    have hHolds := hTaken.holds hRunning.space hSize
    have hAligned := hTaken.aligned
    have hPages := hSize.pages
    intro va hLo hHi
    exact hHolds.mapped (va / 4096) (by omega) (by omega)
  directory := .inl hTaken.below
  tables := .inl (Nat.le_trans hTaken.below (by decide))

/- Where the search stays clear, the next stack is apart. -/
theorem Running.goodCall
    {cfg : Machine × List (Nat × Nat)}
    (hRunning : Running d t cfg)
    (hSize : StackSize size)
    (hClear : KeepsClear cfg.1 size) :
    GoodCall cfg.1 cfg.2 size := by
  rcases hRunning.space.sat_allocateStack hSize hClear with
    ⟨n, hn⟩
  refine ⟨n, ?_⟩
  intro bound hBound
  refine (hn bound hBound).imp ?_ (fun _ _ h => h)
  rintro top m' ⟨start, hTop, hTaken⟩
  exact ⟨start, hTop, hTaken.newStack hRunning hSize⟩

theorem Running.step
    {cfg cfg' : Machine × List (Nat × Nat)}
    (hRunning : Running d t cfg)
    (hStep : StackStep KeepsClear cfg cfg') :
    Running d t cfg' := by
  cases hStep with
  | @call m m' others start size hSize hClear hRun =>
      rcases hRunning.space.sat_allocateStack hSize hClear with
        ⟨n, hn⟩
      rcases hRun with ⟨n', hn'⟩
      have hSat := hn (max n n') (Nat.le_max_left n n')
      rw [hn' (max n n') (Nat.le_max_right n n')] at hSat
      rcases hSat with ⟨start', hTop, hTaken⟩
      have hSame : start' = start := by omega
      subst hSame
      have hFilling := hTaken.filling
      refine ⟨hRunning.space.filled hFilling, ?_⟩
      intro s hs
      rcases List.mem_cons.mp hs with rfl | hs
      · exact hTaken.holds hRunning.space hSize
      · exact (hRunning.holds s hs).kept hTaken
          hRunning.space

------------------------------------------------------------
-- A Clone of the Kernel's Directory
------------------------------------------------------------

/-
  The kernel's directory, before it is cloned: its entries
  are zero or present, the stacks' page tables, if any, are
  not shared, and the allocator's frames are no tables.
-/
structure StackSource (m : Machine) (k : Nat) : Prop where
  tables : ∀ i, i < 1024 →
    m.ram.word k i = 0 ∨ ∃ u, m.ram.entry k i = some u
  own : ∀ i, 896 ≤ i → i < 958 → m.ram.OwnTable k i
  aligned : ∀ f ∈ m.frames, f % 4096 = 0
  lt : ∀ f ∈ m.frames, f < 2 ^ 32
  ne_kernel : ∀ f ∈ m.frames, f ≠ k
  unused : ∀ f ∈ m.frames, ∀ i, i < 1024 →
    m.ram.entry k i ≠ some f
  nodup : m.frames.Nodup

/-
  The clone's entries: those of its own two pages, those at
  which the two directories were mounted, and the kernel's.
-/
structure CloneEntries
    (m m' : Machine)
    (k new tab : Nat) : Prop where
  table : m'.ram.word new 958 = tab + 3
  window : m'.ram.word new 959 = new + 3
  self : m'.ram.word tab 1023 = new + 3
  linked : ∀ j, j < 1024 → j ≠ 958 → j ≠ 959 →
    m'.ram.word new j = m.ram.word k j ∨
      1012 ≤ j ∧ ∃ f, (f = k ∨ f = new) ∧
        m'.ram.entry new j = some f

variable {new tab q : Nat}
variable {rest qs : List Nat}

namespace CloneEntries

theorem entry_table
    (hEntries : CloneEntries m m' k new tab)
    (hTab : tab % 4096 = 0) :
    m'.ram.entry new 958 = some tab := by
  rw [ByteMemory.entry_of_word hEntries.table]
  exact ByteMemory.entryFrame_add hTab (by decide) (by decide)

theorem entry_window
    (hEntries : CloneEntries m m' k new tab)
    (hNew : new % 4096 = 0) :
    m'.ram.entry new 959 = some new := by
  rw [ByteMemory.entry_of_word hEntries.window]
  exact ByteMemory.entryFrame_add hNew (by decide) (by decide)

theorem entry_self
    (hEntries : CloneEntries m m' k new tab)
    (hNew : new % 4096 = 0) :
    m'.ram.entry tab 1023 = some new := by
  rw [ByteMemory.entry_of_word hEntries.self]
  exact ByteMemory.entryFrame_add hNew (by decide) (by decide)

/- The table of an entry. -/
theorem cases
    {i : Nat}
    (hEntries : CloneEntries m m' k new tab)
    (hNew : new % 4096 = 0)
    (hTab : tab % 4096 = 0)
    (hi : i < 1024)
    (hEntry : m'.ram.entry new i = some f) :
    i = 958 ∧ f = tab ∨ f = new ∨ f = k ∨
      m.ram.entry k i = some f := by
  by_cases hDir : i = 958
  · subst hDir
    rw [hEntries.entry_table hTab] at hEntry
    exact .inl ⟨rfl, (Option.some.inj hEntry).symm⟩
  · by_cases hTables : i = 959
    · subst hTables
      rw [hEntries.entry_window hNew] at hEntry
      exact .inr (.inl (Option.some.inj hEntry).symm)
    · rcases hEntries.linked i hi hDir hTables with
        hSame | ⟨_, x, hx, hMount⟩
      · rw [ByteMemory.entry_of_word hSame] at hEntry
        exact .inr (.inr (.inr hEntry))
      · rw [hMount] at hEntry
        cases hEntry
        rcases hx with rfl | rfl
        · exact .inr (.inr (.inl rfl))
        · exact .inr (.inl rfl)

end CloneEntries

/- The clone, when it is current. -/
theorem StackSource.space
    (hSource : StackSource m k)
    (hEntries : CloneEntries m m' k new tab)
    (hFrames : m.frames = new :: tab :: rest)
    (hRest : m'.frames = rest)
    (hPaging : m'.paging = true)
    (hRecord :
      m'.dirAt (.heap q) =
        some ⟨new, USER_DIR_VIRTUAL, USER_TABLES_VIRTUAL⟩) :
    StackSpace
      (m'.switched (.heap q)
        ⟨new, USER_DIR_VIRTUAL, USER_TABLES_VIRTUAL⟩)
      ⟨new, USER_DIR_VIRTUAL, USER_TABLES_VIRTUAL⟩ tab := by
  have hMemNew : new ∈ m.frames := by
    rw [hFrames]
    exact List.mem_cons_self
  have hMemTab : tab ∈ m.frames := by
    rw [hFrames]
    exact List.mem_cons_of_mem _ List.mem_cons_self
  have hNew := hSource.aligned new hMemNew
  have hTab := hSource.aligned tab hMemTab
  have hNodup := hSource.nodup
  rw [hFrames, List.nodup_cons, List.nodup_cons] at hNodup
  rcases hNodup with ⟨hNotNew, hNotTab, hNodup⟩
  have hNe : tab ≠ new := by
    rintro rfl
    exact hNotNew List.mem_cons_self
  have hRoot :
      (m'.switched (.heap q)
        ⟨new, USER_DIR_VIRTUAL,
          USER_TABLES_VIRTUAL⟩).root = new :=
    pageAddr_of_aligned hNew
  refine
    { self := ?_
      directory := rfl
      pages := rfl
      tables := ?_
      own := ?_
      fresh := ?_
      nodup := ?_ }
  · refine
      { current := hRecord
        physical := rfl
        maps := ?_
        tables := ?_ }
    · rw [hRoot]
      dsimp only
      refine
        { paging := hPaging
          aligned := by decide
          fits := by decide
          dir := ?_
          table := hEntries.entry_self hNew }
      rw [hRoot]
      exact hEntries.entry_table hTab
    · rw [hRoot]
      dsimp only
      refine
        { paging := hPaging
          aligned := by decide
          fits := by decide
          entry := ?_ }
      rw [hRoot]
      exact hEntries.entry_window hNew
  · intro i hi
    rw [hRoot]
    by_cases hDir : i = 958
    · subst hDir
      exact .inr ⟨tab, hEntries.entry_table hTab⟩
    · by_cases hTables : i = 959
      · subst hTables
        exact .inr ⟨new, hEntries.entry_window hNew⟩
      · rcases hEntries.linked i hi hDir hTables with
          hSame | ⟨_, f, _, hEntry⟩
        · rcases hSource.tables i hi with hZero | ⟨u, hu⟩
          · exact .inl (hSame.trans hZero)
          · refine .inr ⟨u, ?_⟩
            exact (ByteMemory.entry_of_word hSame).trans hu
        · exact .inr ⟨f, hEntry⟩
  · intro i hLo hHi
    rw [hRoot]
    by_cases hDir : i = 958
    · subst hDir
      refine .inr ⟨tab, hEntries.entry_table hTab, hNe, ?_⟩
      intro j hj hNeIndex hEntry
      rcases hEntries.cases hNew hTab hj hEntry with
        ⟨hSame, _⟩ | hSame | hSame | hKernel
      · exact hNeIndex hSame
      · exact hNe hSame
      · exact hSource.ne_kernel tab hMemTab hSame
      · exact hSource.unused tab hMemTab j hj hKernel
    · have hSame : m'.ram.word new i = m.ram.word k i := by
        rcases hEntries.linked i (by omega) hDir (by omega)
          with hSame | ⟨hHigh, _⟩
        · exact hSame
        · omega
      rcases hSource.own i hLo (by omega) with
        hZero | ⟨u, hu, hNeU, hOther⟩
      · exact .inl (hSame.trans hZero)
      · refine .inr ⟨u, ?_, ?_, ?_⟩
        · exact (ByteMemory.entry_of_word hSame).trans hu
        · rintro rfl
          exact hSource.unused u hMemNew i (by omega) hu
        · intro j hj hNeIndex hEntry
          rcases hEntries.cases hNew hTab hj hEntry with
            ⟨_, rfl⟩ | rfl | rfl | hKernel
          · exact hSource.unused u hMemTab i (by omega) hu
          · exact hSource.unused u hMemNew i (by omega) hu
          · exact hNeU rfl
          · exact hOther j hj hNeIndex hKernel
  · intro f hf
    have hMem : f ∈ rest := by
      rw [← hRest]
      exact hf
    have hMemF : f ∈ m.frames := by
      rw [hFrames]
      exact List.mem_cons_of_mem _ (List.mem_cons_of_mem _ hMem)
    refine
      { aligned := hSource.aligned f hMemF
        lt := hSource.lt f hMemF
        ne_root := ?_
        unused := ?_ }
    · rw [hRoot]
      rintro rfl
      exact hNotNew (List.mem_cons_of_mem _ hMem)
    · intro i hi hEntry
      rw [hRoot] at hEntry
      rcases hEntries.cases hNew hTab hi hEntry with
        ⟨_, rfl⟩ | rfl | rfl | hKernel
      · exact hNotTab hMem
      · exact hNotNew (List.mem_cons_of_mem _ hMem)
      · exact hSource.ne_kernel f hMemF rfl
      · exact hSource.unused f hMemF i hi hKernel
  · have hNodup' : m'.frames.Nodup := by
      rw [hRest]
      exact hNodup
    exact hNodup'

theorem Setup.cloneEntries
    {mt tk p p' w w' : Nat}
    {ps ws : List Nat}
    (q : Nat)
    (rest qs : List Nat)
    (hSetup : Setup m d t mt tk k)
    (hPages : emptyPages m mt = p :: p' :: ps)
    (hWindows : emptyWindows m = w :: w' :: ws)
    (hk : k < 2 ^ 32)
    (hNew : Unused m t mt tk k new)
    (hTab : Unused m t mt tk k tab)
    (hNe : tab ≠ new) :
    CloneEntries m (cloneEnd m mt k p w p' w' q new tab qs rest)
      k new tab := by
  have hCloned :=
    Setup.cloned q rest qs hSetup hPages hWindows hNew hTab
      hNe
  exact
    { table := hCloned.table
      window := hCloned.window
      self := hCloned.self
      linked := fun j hj hDir hTables =>
        hSetup.entry_cloneEnd q rest qs hPages hWindows hk
          hNew hTab hNe hj hDir hTables }

/- The kernel's directory is cloned, and the clone current. -/
theorem StackSource.run_clone
    (hSource : StackSource m k)
    (hCurrent : CanMount m k 2 [new, tab])
    (hk : k < 2 ^ 32)
    (hKmallocs : m.kmallocs = q :: qs)
    (hFree : m.dirAt (.heap q) = none)
    (hFrames : m.frames = new :: tab :: rest) :
    ∃ m₁,
      (cloneDirectory copyPagePhysical .kernelDirectory).run m =
          .ok (.heap q) m₁ ∧
        m₁.frames = rest ∧
        CloneEntries m m₁ k new tab ∧
        (switchPageDirectory (.heap q)).run m₁ =
          .ok ()
            (m₁.switched (.heap q)
              ⟨new, USER_DIR_VIRTUAL,
                USER_TABLES_VIRTUAL⟩) ∧
        StackSpace
          (m₁.switched (.heap q)
            ⟨new, USER_DIR_VIRTUAL, USER_TABLES_VIRTUAL⟩)
          ⟨new, USER_DIR_VIRTUAL, USER_TABLES_VIRTUAL⟩
          tab := by
  rcases hCurrent with
    ⟨d, t, mt, tk, hSetup, hPages, hWindows, hUnused⟩
  rcases exists_cons_cons hPages with ⟨p, p', ps, hPages⟩
  rcases exists_cons_cons hWindows with ⟨w, w', ws, hWindows⟩
  have hNew := hUnused new List.mem_cons_self
  have hTab :=
    hUnused tab (List.mem_cons_of_mem _ List.mem_cons_self)
  have hNe : tab ≠ new := by
    have hNodup := hSource.nodup
    rw [hFrames, List.nodup_cons] at hNodup
    rintro rfl
    exact hNodup.1 List.mem_cons_self
  have hRun :=
    Setup.run_cloneDirectory copyPagePhysical hSetup hPages
      hWindows hk hKmallocs hFree hFrames hNew hTab
  have hCloned :=
    Setup.cloned q rest qs hSetup hPages hWindows hNew hTab
      hNe
  have hEntries :=
    hSetup.cloneEntries q rest qs hPages hWindows hk hNew
      hTab hNe
  generalize
    cloneEnd m mt k p w p' w' q new tab qs rest = m₁
    at hRun hCloned hEntries
  have hMachine := hCloned.machine
  have hRest : m₁.frames = rest := by
    rw [hMachine]
  have hPaging : m₁.paging = true := by
    rw [hMachine]
    exact hSetup.self.maps.paging
  have hRecord :
      m₁.dirAt (.heap q) =
        some
          ⟨new, USER_DIR_VIRTUAL, USER_TABLES_VIRTUAL⟩ := by
    rw [hMachine]
    exact Function.update_self _ _ _
  exact ⟨m₁, hRun, hRest, hEntries,
    run_switchPageDirectory hRecord,
    hSource.space hEntries hFrames hRest hPaging hRecord⟩

/-
  In a clone of the kernel's directory the stacks are apart
  as long as each search stays clear of the window.
-/
theorem stacks_apart
    (hCurrent : CanMount m k 2 [new, tab])
    (hk : k < 2 ^ 32)
    (hKmallocs : m.kmallocs = q :: qs)
    (hFree : m.dirAt (.heap q) = none)
    (hFrames : m.frames = new :: tab :: rest)
    (hSource : StackSource m k) :
    StacksApart KeepsClear m .kernelDirectory := by
  rcases hSource.run_clone hCurrent hk hKmallocs hFree hFrames
    with ⟨m₁, hRun, _, _, hSwitch, hSpace⟩
  intro dir n₁ n₂ cfg size hRun' hSwitch' hReach hSize hClear
  rw [hRun] at hRun'
  cases hRun'
  rw [hSwitch] at hSwitch'
  cases hSwitch'
  have hRunning :
      Running
        ⟨new, USER_DIR_VIRTUAL, USER_TABLES_VIRTUAL⟩ tab
        cfg := by
    refine hReach.invariant ?_ ?_
    · rintro _ rfl
      exact ⟨hSpace, nofun⟩
    · intro s s' _ hRunning hStep
      exact hRunning.step hStep
  exact hRunning.goodCall hSize hClear

------------------------------------------------------------
-- A Stack in the Window
------------------------------------------------------------

/- With enough frames the call takes the first candidate. -/
theorem StackSpace.run_allocateStack
    (hSpace : StackSpace m d t)
    (hSize : StackSize size)
    (hFirst : FirstStack m size k)
    (hBelow : stackAt size k + size ≤ USER_DIR_VIRTUAL)
    (hFrames : 2 * (size / 4096) ≤ m.frames.length) :
    ∃ m', Taken m d t (stackAt size k) size m' ∧
      ∃ n, ∀ bound, n ≤ bound →
        (allocateStack bound size).run m =
          .ok (stackAt size k + size) m' := by
  have hLast : stackAt size k + size ≤ 4022333440 := hBelow
  have hTop :
      add32 (stackAt size k) size = stackAt size k + size :=
    add32_of_lt (by omega)
  have hSat :=
    hSpace.sat_allocateRange (hSize.aligned k) hSize.pages
      (Nat.le_add_right _ _) hBelow hFirst.unmapped
  rcases hFirst.run_allocateStack hSpace.readable hSize with
    ⟨n, hRun⟩
  cases hRange :
      (allocateRange (stackAt size k)
        (add32 (stackAt size k) size) stackFlags).run m with
  | error e m' =>
      rw [hRange] at hSat
      exact absurd hSat.2 (Nat.not_lt.mpr hFrames)
  | ok r m' =>
      rw [hRange] at hSat
      refine ⟨m', hSat, n, ?_⟩
      intro bound hBound
      rw [hRun bound hBound, EStateM.bind_of_ok hRange, hTop]
      rfl

/- The pages below the directory's that have no frame. -/
def emptyStackPages (m : Machine) : Finset Nat :=
  (Finset.Ico 917504 982015).filter fun n =>
    m.ram.pageAt m.root n = none

/- A new stack takes some of them. -/
theorem Taken.emptyStackPages_lt
    (hTaken : Taken m d t start size m')
    (hSpace : StackSpace m d t)
    (hSize : StackSize size) :
    (emptyStackPages m').card < (emptyStackPages m).card := by
  have hFirst : 3758096384 ≤ start := hTaken.above
  have hLast : start + size ≤ 4022333440 := hTaken.below
  have hAligned := hTaken.aligned
  have hPos := hSize.pos
  have hPages := hSize.pages
  have hHolds := hTaken.holds hSpace hSize
  apply Finset.card_lt_card
  rw [Finset.ssubset_iff_of_subset]
  · refine ⟨start / 4096, ?_, ?_⟩
    · refine Finset.mem_filter.mpr
        ⟨Finset.mem_Ico.mpr (by omega), ?_⟩
      exact hTaken.unmapped.pageAt hAligned (le_refl _)
        (by omega)
    · intro hMem
      rcases hHolds.mapped (start / 4096) (le_refl _)
        (by omega) with ⟨f, hf⟩
      rw [(Finset.mem_filter.mp hMem).2] at hf
      cases hf
  · intro n hMem
    rcases Finset.mem_filter.mp hMem with ⟨hRange, hNone⟩
    have hBounds := Finset.mem_Ico.mp hRange
    refine Finset.mem_filter.mpr ⟨hRange, ?_⟩
    by_contra hSome
    rcases hSpace.pageAt_filled (by decide) hTaken.filling
      (by omega) (by omega)
      (.inr (Option.ne_none_iff_exists'.mp hSome)) with
      ⟨f, hf⟩
    rw [hNone] at hf
    cases hf

/-
  The first four mebibytes are mapped, and the next four have
  no page table.
-/
structure LowMemory (m : Machine) : Prop where
  table : m.ram.word m.root 0 ≠ 0
  next : m.ram.word m.root 1 = 0

theorem Taken.lowMemory
    (hTaken : Taken m d t start size m')
    (hLow : LowMemory m) :
    LowMemory m' := by
  have hFirst : 3758096384 ≤ start := hTaken.above
  have hWord :
      ∀ i, i < 2 →
        m'.ram.word m'.root i = m.ram.word m.root i := by
    intro i hi
    rw [hTaken.filling.root]
    rcases hTaken.filling.entered.entries i (by omega) with
      hSame | ⟨_, ⟨n, hLo, _, hn⟩, _⟩
    · exact hSame
    · omega
  exact
    { table := by
        rw [hWord 0 (by decide)]
        exact hLow.table
      next := by
        rw [hWord 1 (by decide)]
        exact hLow.next }

/- One page. -/
theorem stackSize_page : StackSize 4096 :=
  ⟨by decide, by decide, by decide⟩

/- There is a first one among the candidates below `n`. -/
theorem exists_firstStack
    (hInside : ∀ k, k < n → stackAt size k < USER_STACKS_END)
    (hSome : ∃ k, k < n ∧ Unmapped m size (stackAt size k)) :
    ∃ k, k < n ∧ FirstStack m size k := by
  classical
  rcases Nat.find_spec hSome with ⟨hLt, hUnmapped⟩
  refine ⟨Nat.find hSome, hLt, hInside _ hLt, hUnmapped, ?_⟩
  intro i hi hFree
  exact Nat.find_min hSome hi ⟨by omega, hFree⟩

/- A call for one page, while there are pages. -/
theorem Running.one_more
    {cfg : Machine × List (Nat × Nat)}
    (hRunning : Running d t cfg)
    (hLow : LowMemory cfg.1)
    (hFrames : 2 ≤ cfg.1.frames.length)
    (hSome : ∃ k, k < 64511 ∧
      Unmapped cfg.1 4096 (stackAt 4096 k)) :
    ∃ cfg',
      StackStep (fun _ _ => True) cfg cfg' ∧
        Running d t cfg' ∧ LowMemory cfg'.1 ∧
          (emptyStackPages cfg'.1).card <
              (emptyStackPages cfg.1).card ∧
            cfg.1.frames.length ≤
              cfg'.1.frames.length + 2 := by
  have hInside :
      ∀ k, k < 64511 → stackAt 4096 k < USER_STACKS_END := by
    intro k hk
    unfold stackAt USER_STACKS_START USER_STACKS_END
    omega
  rcases exists_firstStack hInside hSome with ⟨k, hk, hFirst⟩
  have hSpace := hRunning.space
  have hBelow : stackAt 4096 k + 4096 ≤ USER_DIR_VIRTUAL := by
    unfold stackAt USER_STACKS_START USER_DIR_VIRTUAL
    omega
  rcases hSpace.run_allocateStack stackSize_page hFirst hBelow
    hFrames with ⟨m', hTaken, hRun⟩
  rcases cfg with ⟨m, others⟩
  have hStep :
      StackStep (fun _ _ => True) (m, others)
        (m', (stackAt 4096 k, 4096) :: others) :=
    .call _ _ stackSize_page trivial hRun
  have hClear :
      StackStep KeepsClear (m, others)
        (m', (stackAt 4096 k, 4096) :: others) := by
    refine .call _ _ stackSize_page ?_ hRun
    refine .inl ⟨k, ?_, hFirst.unmapped⟩
    rw [stackAt_succ]
    exact Nat.le_trans hBelow (by decide)
  refine ⟨_, hStep, hRunning.step hClear,
    hTaken.lowMemory hLow,
    hTaken.emptyStackPages_lt hSpace stackSize_page, ?_⟩
  have hEnough :
      m.frames.length ≤
        m'.frames.length +
          2 * ((stackAt 4096 k + 4096) / 4096 -
            stackAt 4096 k / 4096) :=
    hTaken.filling.enough
  change m.frames.length ≤ m'.frames.length + 2
  omega

/- Calls for one page take all pages below the window. -/
theorem Running.exhaust
    {cfg₀ cfg : Machine × List (Nat × Nat)}
    (n : Nat)
    (hReach :
      Reachable (· = cfg₀) (StackStep fun _ _ => True) cfg)
    (hRunning : Running d t cfg)
    (hLow : LowMemory cfg.1)
    (hEmpty : (emptyStackPages cfg.1).card ≤ n)
    (hFrames : 2 * n + 2 ≤ cfg.1.frames.length) :
    ∃ cfg',
      Reachable (· = cfg₀) (StackStep fun _ _ => True) cfg' ∧
        Running d t cfg' ∧ LowMemory cfg'.1 ∧
          2 ≤ cfg'.1.frames.length ∧
            ∀ k, k < 64511 →
              ¬ Unmapped cfg'.1 4096 (stackAt 4096 k) := by
  induction n generalizing cfg with
  | zero =>
      refine ⟨cfg, hReach, hRunning, hLow, by omega, ?_⟩
      intro k hk hUnmapped
      rcases hRunning.one_more hLow (by omega)
        ⟨k, hk, hUnmapped⟩ with ⟨_, _, _, _, hLess, _⟩
      omega
  | succ n ih =>
      by_cases hSome :
          ∃ k, k < 64511 ∧
            Unmapped cfg.1 4096 (stackAt 4096 k)
      · rcases hRunning.one_more hLow (by omega) hSome with
          ⟨cfg', hStep, hRunning', hLow', hLess, hLeft⟩
        exact ih (hReach.step hStep) hRunning' hLow'
          (by omega) (by omega)
      · refine ⟨cfg, hReach, hRunning, hLow, by omega, ?_⟩
        intro k hk hUnmapped
        exact hSome ⟨k, hk, hUnmapped⟩

/- The page of the window that shows the entry `j`. -/
theorem Running.mapped_window
    {cfg : Machine × List (Nat × Nat)}
    {j : Nat}
    (hRunning : Running d t cfg)
    (hj : j < 1024) :
    cfg.1.Mapped (USER_TABLES_VIRTUAL + j * 4096) ↔
      cfg.1.ram.word cfg.1.root j ≠ 0 := by
  have hTables := hRunning.space.self.tables.entry
  rw [hRunning.space.pages] at hTables
  have hIndex :
      (USER_TABLES_VIRTUAL + j * 4096) / 2 ^ 22 =
          USER_TABLES_VIRTUAL / 2 ^ 22 ∧
        (USER_TABLES_VIRTUAL + j * 4096) / 4096 % 1024 =
          j := by
    unfold USER_TABLES_VIRTUAL
    omega
  unfold Machine.Mapped
  rw [hIndex.1, hIndex.2]
  constructor
  · rintro ⟨u, hu, hWord⟩
    rw [hTables] at hu
    cases hu
    exact hWord
  · intro hWord
    exact ⟨_, hTables, hWord⟩

/- Then the search goes on into the window. -/
theorem Running.first_window
    {cfg : Machine × List (Nat × Nat)}
    (hRunning : Running d t cfg)
    (hLow : LowMemory cfg.1)
    (hFull : ∀ k, k < 64511 →
      ¬ Unmapped cfg.1 4096 (stackAt 4096 k)) :
    FirstStack cfg.1 4096 64513 := by
  have hZero : USER_TABLES_VIRTUAL + 0 * 4096 =
      stackAt 4096 64512 := rfl
  have hOne : USER_TABLES_VIRTUAL + 1 * 4096 =
      stackAt 4096 64513 := rfl
  refine ⟨by decide, ?_, ?_⟩
  · intro va hLo hHi hAligned hMapped
    have hStart : stackAt 4096 64513 = 4022341632 := rfl
    have hSame : va = 4022341632 := by omega
    rw [hSame, ← hStart, ← hOne,
      hRunning.mapped_window (by decide)] at hMapped
    exact hMapped hLow.next
  · intro k hk hUnmapped
    have hSelf :=
      hUnmapped (stackAt 4096 k) (le_refl _) (by omega)
        (stackSize_page.aligned k)
    have hCases : k < 64511 ∨ k = 64511 ∨ k = 64512 := by
      omega
    rcases hCases with hBelow | rfl | rfl
    · exact hFull k hBelow hUnmapped
    · exact hSelf hRunning.space.mapped_directory
    · rw [← hZero, hRunning.mapped_window (by decide)]
        at hSelf
      exact hSelf hLow.table

/- A range of one page. -/
theorem run_allocateRange_page
    {va : Nat}
    (hva : va < KERNEL_ADDRESS_SPACE)
    (hAligned : va % 4096 = 0)
    (hPage : (allocatePage va flags).run m = .ok () m') :
    (allocateRange va (add32 va 4096) flags).run m =
      .ok (va + 4096) m' := by
  have hKernel : va < 4026531840 := hva
  have hEnd : add32 va 4096 = va + 4096 :=
    add32_of_lt (by omega)
  have hUp : pageRoundUp (va + 4096) = va + 4096 := by
    rw [pageRoundUp_eq (by omega)]
    omega
  have hDown : pageRoundDown va = va :=
    pageAddr_of_aligned hAligned
  have hCount : (va + 4096 - va) / PAGE_SIZE = 1 := by
    unfold PAGE_SIZE
    omega
  have hAddr : add32 va (0 * PAGE_SIZE) = va := by
    rw [Nat.zero_mul, add32_of_lt (by omega)]
    rfl
  have hLoop :
      (EStateM.upTo
          (fun k => allocatePage (add32 va (k * PAGE_SIZE))
            flags) 1).run m =
        .ok () m' := by
    rw [EStateM.upTo, EStateM.upTo,
      EStateM.bind_of_ok (EStateM.run_pure () m), hAddr]
    exact hPage
  unfold allocateRange
  dsimp only
  rw [hEnd, hUp, hDown, hCount, EStateM.bind_of_ok hLoop]
  rfl

/- One page of the window is entered in the directory. -/
theorem SelfMapped.run_allocateWindow
    {va : Nat}
    (hSelf : SelfMapped m d t)
    (hva : va < KERNEL_ADDRESS_SPACE)
    (hAligned : va % 4096 = 0)
    (hWindow : m.ram.entry m.root (va / 2 ^ 22) = some m.root)
    (hZero : m.ram.word m.root (va / 4096 % 1024) = 0)
    (hFrames : m.frames = f :: rest) :
    ∃ m',
      (allocateRange va (add32 va 4096) stackFlags).run m =
        .ok (va + 4096) m' := by
  have hKernel : va < 4026531840 := hva
  have hGet :=
    hSelf.run_getMapping_table (by omega) hWindow
  rw [hZero] at hGet
  have hMap :
      (map va f stackFlags).run (m.withFrames rest) =
        .ok ()
          ((m.withFrames rest).withRam
            (m.ram.setWord m.root (va / 4096 % 1024)
              (mapEntry f stackFlags))) :=
    ((hSelf.withFrames rest).run_map_table (by omega)
      hWindow).trans (run_checkKernel_user hva)
  have hPage :=
    (run_allocatePage_none stackFlags hGet).trans
      ((EStateM.bind_of_ok (run_pmmAllocPage hFrames)).trans
        hMap)
  exact ⟨_, run_allocateRange_page hva hAligned hPage⟩

/- The next stack is in the window. -/
theorem Running.not_goodCall
    {cfg : Machine × List (Nat × Nat)}
    (hRunning : Running d t cfg)
    (hLow : LowMemory cfg.1)
    (hFrames : 2 ≤ cfg.1.frames.length)
    (hFull : ∀ k, k < 64511 →
      ¬ Unmapped cfg.1 4096 (stackAt 4096 k)) :
    ¬ GoodCall cfg.1 cfg.2 4096 := by
  have hFirst := hRunning.first_window hLow hFull
  have hSpace := hRunning.space
  have hStart : stackAt 4096 64513 = 4022341632 := rfl
  have hTables := hSpace.self.tables.entry
  rw [hSpace.pages] at hTables
  rcases hFirst.run_allocateStack hSpace.readable
    stackSize_page with ⟨n, hRun⟩
  rcases exists_cons_cons hFrames with ⟨f, g, rest, hRest⟩
  have hRange :
      ∃ m',
        (allocateRange (stackAt 4096 64513)
            (add32 (stackAt 4096 64513) 4096)
            stackFlags).run cfg.1 =
          .ok (stackAt 4096 64513 + 4096) m' :=
    hSpace.self.run_allocateWindow (by decide) (by decide)
      hTables hLow.next hRest
  rcases hRange with ⟨m', hRange⟩
  rintro ⟨n', hGood⟩
  have hSat := hGood (max n n') (Nat.le_max_right n n')
  rw [hRun (max n n') (Nat.le_max_left n n'),
    EStateM.bind_of_ok hRange] at hSat
  rcases hSat with ⟨start, hTop, hNew⟩
  have hSame : start = 4022341632 := by
    have hEnd : add32 (stackAt 4096 64513) 4096 =
        4022345728 := rfl
    omega
  have hApart := hNew.tables
  unfold USER_TABLES_VIRTUAL at hApart
  omega

/- Frames from 0x400000 on. -/
def highFrames (n : Nat) : List Nat :=
  (List.range' 1024 n).map (4096 * ·)

/-
  The kernel's directory with low memory mapped, and an
  allocator with more than half a gibibyte.
-/
def lowRam : ByteMemory :=
  kernelRam.setWord 0x101000 0 0x107003

def stackMachine : Machine :=
  (kernelMachine lowRam).withFrames
    (0x104000 :: 0x105000 :: highFrames 140000)

theorem mem_highFrames
    (hMem : f ∈ highFrames n) :
    f % 4096 = 0 ∧ 0x400000 ≤ f ∧ f < 4096 * (1024 + n) := by
  rcases List.mem_map.mp hMem with ⟨i, hi, rfl⟩
  rw [List.mem_range'_1] at hi
  omega

theorem nodup_highFrames (n : Nat) : (highFrames n).Nodup := by
  refine List.Nodup.map ?_ List.nodup_range'
  intro i j hij
  dsimp only at hij
  omega

theorem mem_stackFrames
    (hMem : f ∈ stackMachine.frames) :
    f = 0x104000 ∨ f = 0x105000 ∨
      f % 4096 = 0 ∧ 0x400000 ≤ f ∧ f < 0x30000000 := by
  rcases List.mem_cons.mp hMem with rfl | hMem
  · exact .inl rfl
  · rcases List.mem_cons.mp hMem with rfl | hMem
    · exact .inr (.inl rfl)
    · have hHigh := mem_highFrames hMem
      omega

/- The entries of the kernel's directory. -/
theorem word_lowRam
    {i : Nat}
    (hi : i < 1024) :
    lowRam.word 0x101000 i =
      if i = 0 then 0x107003
      else if i = 1021 then 0x103003
      else bareRam.word 0x101000 i := by
  have hKernel :
      kernelRam = bareRam.setWord 0x101000 1021 0x103003 := rfl
  unfold lowRam
  split
  · rename_i hZero
    subst hZero
    exact ByteMemory.word_setWord_self _ _ _ (by decide)
  · rename_i hNe
    rw [ByteMemory.word_setWord_of_ne _ _ (by decide)
      (by decide) (by decide) hi (.inr hNe), hKernel]
    split
    · rename_i hMount
      subst hMount
      exact ByteMemory.word_setWord_self _ _ _ (by decide)
    · rename_i hNe'
      exact ByteMemory.word_setWord_of_ne _ _ (by decide)
        (by decide) (by decide) hi (.inr hNe')

theorem entry_lowRam
    {i : Nat}
    (hi : i < 1024) :
    (1 ≤ i ∧ i < 1021 ∧ lowRam.word 0x101000 i = 0) ∨
      ∃ u, lowRam.entry 0x101000 i = some u ∧
        (u < 0x104000 ∨ u = 0x107000) := by
  have hWord := word_lowRam hi
  by_cases hZero : i = 0
  · rw [if_pos hZero] at hWord
    exact .inr ⟨0x107000, ByteMemory.entry_of_word hWord,
      .inr rfl⟩
  · rw [if_neg hZero] at hWord
    by_cases hMount : i = 1021
    · rw [if_pos hMount] at hWord
      exact .inr ⟨0x103000, ByteMemory.entry_of_word hWord,
        .inl (by decide)⟩
    · rw [if_neg hMount] at hWord
      by_cases hLow : i < 1022
      · exact .inl ⟨by omega, by omega,
          hWord.trans (bareRam_zero i hLow)⟩
      · have hCases : i = 1022 ∨ i = 1023 := by omega
        rcases hCases with rfl | rfl
        · exact .inr ⟨0x102000,
            (ByteMemory.entry_of_word hWord).trans
              bareRam_dir, .inl (by decide)⟩
        · exact .inr ⟨0x101000,
            (ByteMemory.entry_of_word hWord).trans
              bareRam_self, .inl (by decide)⟩

theorem stackSource_stackMachine :
    StackSource stackMachine 0x101000 where
  tables := by
    intro i hi
    rcases entry_lowRam hi with ⟨_, _, hZero⟩ | ⟨u, hu, _⟩
    · exact .inl hZero
    · exact .inr ⟨u, hu⟩
  own := by
    intro i hLo hHi
    have hWord := word_lowRam (i := i) (by omega)
    rw [if_neg (by omega), if_neg (by omega),
      bareRam_zero i (by omega)] at hWord
    exact .inl hWord
  aligned := by
    intro f hf
    have hFrame := mem_stackFrames hf
    omega
  lt := by
    intro f hf
    have hFrame := mem_stackFrames hf
    omega
  ne_kernel := by
    intro f hf
    have hFrame := mem_stackFrames hf
    omega
  unused := by
    intro f hf i hi hEntry
    have hFrame := mem_stackFrames hf
    rcases entry_lowRam hi with ⟨_, _, hZero⟩ | ⟨u, hu, hLt⟩
    · exact entry_ne_zero hEntry hZero
    · have hSame := hEntry.symm.trans hu
      have hEq : f = u := Option.some.inj hSame
      omega
  nodup := by
    refine List.nodup_cons.mpr ⟨?_, List.nodup_cons.mpr
      ⟨?_, nodup_highFrames _⟩⟩
    · intro hMem
      rcases List.mem_cons.mp hMem with hSame | hMem
      · exact absurd hSame (by decide)
      · have hHigh := (mem_highFrames hMem).2.1
        omega
    · intro hMem
      have hHigh := (mem_highFrames hMem).2.1
      omega

/- Other frames to take do not matter for mounting. -/
theorem CanMount.withFrames
    {frames : List Nat}
    (taken : List Nat)
    (hMount : CanMount m k n frames) :
    CanMount (m.withFrames taken) k n frames := by
  rcases hMount with
    ⟨d, t, mt, tk, hSetup, hPages, hWindows, hUnused⟩
  exact ⟨d, t, mt, tk,
    hSetup.congr (m.withFrames taken) rfl rfl rfl rfl rfl
      (fun _ _ _ _ _ => rfl),
    hPages, hWindows, fun f hf => (hUnused f hf).congr rfl⟩

theorem canMount_stackMachine :
    CanMount stackMachine 0x101000 2 [0x104000, 0x105000] := by
  have hLow :
      CanMount (kernelMachine lowRam) 0x101000 2
        [0x104000, 0x105000] := by
    apply canMount_kernelMachine <;> decide
  exact hLow.withFrames _

theorem stacks_apart_stackMachine :
    StacksApart KeepsClear stackMachine .kernelDirectory :=
  stacks_apart canMount_stackMachine (by decide) rfl rfl rfl
    stackSource_stackMachine

/- The clone has the kernel's low memory. -/
theorem CloneEntries.lowMemory
    (hEntries :
      CloneEntries stackMachine m' 0x101000 0x104000 tab) :
    LowMemory
      (m'.switched (.heap q)
        ⟨0x104000, USER_DIR_VIRTUAL,
          USER_TABLES_VIRTUAL⟩) := by
  have hRoot :
      (m'.switched (.heap q)
        ⟨0x104000, USER_DIR_VIRTUAL,
          USER_TABLES_VIRTUAL⟩).root = 0x104000 := by
    have hAligned : 0x104000 % 4096 = 0 := by decide
    exact pageAddr_of_aligned hAligned
  have hWord :
      ∀ i, i < 2 →
        m'.ram.word 0x104000 i = lowRam.word 0x101000 i := by
    intro i hi
    rcases hEntries.linked i (by omega) (by omega) (by omega)
      with hSame | ⟨hHigh, _⟩
    · exact hSame
    · omega
  constructor
  · rw [hRoot]
    intro hZero
    have hLow := (hWord 0 (by decide)).symm.trans hZero
    rw [word_lowRam (by decide), if_pos rfl] at hLow
    exact absurd hLow (by decide)
  · rw [hRoot]
    refine (hWord 1 (by decide)).trans ?_
    rw [word_lowRam (by decide), if_neg (by decide),
      if_neg (by decide)]
    exact bareRam_zero 1 (by decide)

theorem card_emptyStackPages_le (m : Machine) :
    (emptyStackPages m).card ≤ 64511 := by
  refine Nat.le_trans (Finset.card_filter_le _ _) ?_
  rw [Nat.card_Ico]

theorem length_highFrames (n : Nat) :
    (highFrames n).length = n := by
  unfold highFrames
  rw [List.length_map, List.length_range']

/-
  Without the condition a stack ends up in the window that
  shows the page tables.
-/
theorem stack_in_window :
    ¬ StacksApart (fun _ _ => True) stackMachine
      .kernelDirectory := by
  intro hApart
  have hFrames :
      stackMachine.frames =
        0x104000 :: 0x105000 :: highFrames 140000 := rfl
  rcases stackSource_stackMachine.run_clone
    canMount_stackMachine (by decide) rfl rfl hFrames with
    ⟨m₁, hRun, hRest, hEntries, hSwitch, hSpace⟩
  have hLow := hEntries.lowMemory (q := 0xF0000000)
  generalize hSwitched : m₁.switched _ _ = m₂
    at hSwitch hSpace hLow
  have hLength : m₂.frames.length = 140000 := by
    rw [← hSwitched]
    change m₁.frames.length = 140000
    rw [hRest, length_highFrames]
  have hRunning : Running _ _ (m₂, []) := ⟨hSpace, nofun⟩
  rcases hRunning.exhaust 64511 (.start rfl) hLow
    (card_emptyStackPages_le _) (by rw [hLength]; decide) with
    ⟨cfg, hReach, hRunning', hLow', hTwo, hFull⟩
  exact hRunning'.not_goodCall hLow' hTwo hFull
    (hApart _ _ _ _ _ hRun hSwitch hReach stackSize_page
      trivial)

end Vmm

end SosKernel
