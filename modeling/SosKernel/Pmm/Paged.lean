import Mathlib.Data.List.Perm.Subperm
import SosKernel.Pmm.Safety
import SosKernel.Vmm.Init

/-
  The page allocator over the page tables that `init_vmm`
  has set up.

  Main declarations:
    * `Allocator`, `pmmAllocPage`, `map`, `pmmFreePage`
    * `AfterInit`, `Step`: runs of the allocator
    * `Allocator.state`: the allocator with a map of pages
    * `Sound`: the bounds of the stack
    * `paged_sound`

  `map` is given the function that it calls for a new page
  table, so that one can say that it never calls it.
-/

------------------------------------------------------------
-- The Allocator
------------------------------------------------------------

namespace SosKernel

namespace Paged

open Vmm (VmM Machine)

/- The machine with the variables of `pmm.c`. -/
structure Allocator where
  machine : Machine
  pagingActive : Bool
  stackLoc : Nat
  stackMax : Nat
  location : Nat

abbrev PagedM := EStateM Stop Allocator

/- A computation that does not use the variables. -/
def onMachine {α : Type} (x : VmM α) : PagedM α := fun s =>
  match x.run s.machine with
  | .ok a m => .ok a { s with machine := m }
  | .error e m => .error e { s with machine := m }

def pmmAllocPage : PagedM Nat := do
  if ¬ (← get).pagingActive then
    let addr := (← get).location
    modify fun s =>
      { s with location := add32 s.location PAGE_SIZE }
    return addr
  else
    if (← get).stackLoc ≤ PMM_STACK_START then
      throw (.panic "PMM Stack: no free pages.")
    modify fun s =>
      { s with stackLoc := sub32 s.stackLoc 4 }
    onMachine (Vmm.load32 (← get).stackLoc)

/- `map`, with `alloc` for `pmm_alloc_page`. -/
def map (alloc : PagedM Nat) (va pa flags : Nat) :
    PagedM Unit := do
  let dirEntry := Vmm.pgdirIdxFromAddr va
  let pageNum := Vmm.pgNumFromAddr va
  let current ← onMachine Vmm.readCurrent
  if (← onMachine (Vmm.loadAt current.directory dirEntry)) = 0
  then
    let page ← alloc
    onMachine
      (Vmm.storeAt current.directory dirEntry
        (page ||| Vmm.PAGE_PRESENT ||| Vmm.PAGE_WRITE))
    onMachine
      (Vmm.memset (Vmm.index current.pages (dirEntry * 1024)) 0
        PAGE_SIZE)
  onMachine
    (Vmm.storeAt current.pages pageNum
      (pageAddr pa ||| Vmm.PAGE_PRESENT ||| flags))
  onMachine (Vmm.checkKernel current va)

/- `pmm_free_page`, with `alloc` for the call inside `map`. -/
def pmmFreePage (alloc : PagedM Nat) (p : Nat) :
    PagedM Unit := do
  let p := pageAddr p
  if (← get).location ≤ p then
    if (← get).stackMax ≤ (← get).stackLoc then
      if PMM_STACK_END ≤ (← get).stackMax then
        throw
          (.panic "PMM Stack: out of mem for free pages.")
      map alloc (← get).stackMax p
        (Vmm.PAGE_PRESENT ||| Vmm.PAGE_WRITE)
      modify fun s =>
        { s with stackMax := add32 s.stackMax PAGE_SIZE }
    else
      onMachine (Vmm.store32 (← get).stackLoc p)
      modify fun s =>
        { s with stackLoc := add32 s.stackLoc 4 }

------------------------------------------------------------
-- Runs
------------------------------------------------------------

/-
  The allocator with the frames that its callers own, those
  that have been freed and not handed out since, and the
  frames of RAM it has been given.
-/
structure Config where
  state : Allocator
  owned : List Nat
  freed : List Nat
  seeded : List Nat

/- The answers of `pmm_alloc_page` before paging. -/
def bumpFrames (location n : Nat) : List Nat :=
  (List.range n).map fun k => location + PAGE_SIZE * k

/-
  `init_vmm` has returned: it has taken `taken` pages from
  the location that `init_pmm` has set.
-/
def AfterInit (cfg : Config) : Prop :=
  ∃ m location taken more,
    m.paging = false ∧
      location % PAGE_SIZE = 0 ∧
      location + PAGE_SIZE * (taken + more) ≤ 2 ^ 32 ∧
      m.frames = bumpFrames location (taken + more) ∧
      Vmm.initVmm.run m = .ok () cfg.state.machine ∧
      cfg.state.machine.frames.length = more ∧
      cfg.state.pagingActive = true ∧
      cfg.state.stackLoc = PMM_STACK_START ∧
      cfg.state.stackMax = PMM_STACK_START ∧
      cfg.state.location = location + PAGE_SIZE * taken ∧
      cfg.owned = [] ∧ cfg.freed = [] ∧ cfg.seeded = []

/-
  A call that returned: frames are freed by their owners, or
  are RAM that the allocator has not been given yet.  Else an
  owner writes to its frames.
-/
inductive Step : Config → Config → Prop where
| alloc
    {cfg : Config}
    {f : Nat}
    {s' : Allocator}
    (hRun : pmmAllocPage.run cfg.state = .ok f s') :
    Step cfg
      ⟨s', f :: cfg.owned, cfg.freed.filter (· ≠ f),
        cfg.seeded⟩
| free
    {cfg : Config}
    {s' : Allocator}
    (p : Nat)
    (hOwned : p ∈ cfg.owned)
    (hRun :
      (pmmFreePage pmmAllocPage p).run cfg.state =
        .ok () s') :
    Step cfg
      ⟨s', cfg.owned.erase p, p :: cfg.freed, cfg.seeded⟩
| seed
    {cfg : Config}
    {s' : Allocator}
    (p : Nat)
    (hWord : p < 2 ^ 32)
    (hNew : pageAddr p ∉ cfg.seeded)
    (hRun :
      (pmmFreePage pmmAllocPage p).run cfg.state =
        .ok () s') :
    Step cfg
      ⟨s', cfg.owned, pageAddr p :: cfg.freed,
        pageAddr p :: cfg.seeded⟩
| write
    {cfg : Config}
    (ram : ByteMemory)
    (hOwned :
      ∀ x,
        (∀ f ∈ cfg.owned, ¬ (f ≤ x ∧ x < f + PAGE_SIZE)) →
          ram x = cfg.state.machine.ram x) :
    Step cfg
      { cfg with
        state :=
          { cfg.state with
            machine := cfg.state.machine.withRam ram } }

/-
  The bounds of the stack, and what cannot happen: there is
  always room for a frame, and `map` never asks for one.
-/
structure Sound (s : Allocator) : Prop where
  start : PMM_STACK_START ≤ s.stackLoc
  loc : s.stackLoc ≤ s.stackMax
  max : s.stackMax ≤ PMM_STACK_END
  aligned : s.stackLoc % 4 = 0
  mapped :
    ∀ a, PMM_STACK_START ≤ a → a < s.stackMax →
      (s.machine.translate a).isSome = true
  noPanic :
    ∀ p s', p < 2 ^ 32 →
      (pmmFreePage pmmAllocPage p).run s ≠
        .error
          (.panic "PMM Stack: out of mem for free pages.") s'
  noReentry :
    ∀ alloc p, p < 2 ^ 32 →
      (pmmFreePage alloc p).run s =
        (pmmFreePage pmmAllocPage p).run s

------------------------------------------------------------
-- The Tables of the Stack
------------------------------------------------------------

/- The allocator, with the map of pages that the walk gives. -/
def Allocator.state (s : Allocator) : Pmm.State where
  ram := s.machine.ram
  mapping := fun n => s.machine.ram.pageAt s.machine.root n
  pagingActive := s.pagingActive
  stackLoc := s.stackLoc
  stackMax := s.stackMax
  location := s.location

/- A page of the frame stack. -/
def StackPage (n : Nat) : Prop :=
  PMM_STACK_START / PAGE_SIZE ≤ n ∧
    n < PMM_STACK_END / PAGE_SIZE

/-
  The page tables of the frame stack are there, and no frame
  that can be freed is one of them.
-/
structure Provided (s : Allocator) (dir t u : Nat) : Prop where
  kernel : Vmm.KernelDirectory s.machine dir t u
  active : s.pagingActive = true
  dirLow : dir < s.location
  tLow : t < s.location
  uLow : u < s.location

variable {s s' : Allocator}
variable {m : Machine}
variable {dir t u n p : Nat}

theorem stackPage_iff :
    StackPage n ↔ 0xFF7FF ≤ n ∧ n < 0xFFBFF :=
  Iff.rfl

/- The page table of a stack page, and its place in it. -/
theorem stackTable
    (hKernel : Vmm.KernelDirectory m dir t u)
    (hPage : StackPage n) :
    ∃ w, m.ram.entry dir (n / 1024) = some w ∧
      (w = u ∨ w = t ∧ n % 1024 ≠ 1023) ∧
      ∀ n', StackPage n' →
        m.ram.entry dir (n' / 1024) = some w →
          n' / 1024 = n / 1024 := by
  have hT : m.ram.entry dir 1022 = some t := by
    have hDir := hKernel.self.maps.dir
    rw [hKernel.root, Vmm.kernelRecord_directory] at hDir
    exact hDir
  have hU := hKernel.stackTable
  have hOther :
      ∀ n', StackPage n' →
        n' / 1024 = 1021 ∨ n' / 1024 = 1022 := by
    intro n' hn'
    rw [stackPage_iff] at hn'
    omega
  rcases hOther n hPage with hLow | hHigh
  · refine ⟨u, by rw [hLow]; exact hU, .inl rfl, ?_⟩
    intro n' hn' hEntry
    rcases hOther n' hn' with hLow' | hHigh'
    · rw [hLow, hLow']
    · rw [hHigh', hT] at hEntry
      cases hEntry
      exact absurd rfl hKernel.apart
  · rw [stackPage_iff] at hPage
    refine ⟨t, by rw [hHigh]; exact hT,
      .inr ⟨rfl, by omega⟩, ?_⟩
    intro n' hn' hEntry
    rcases hOther n' hn' with hLow' | hHigh'
    · rw [hLow', hU] at hEntry
      cases hEntry
      exact absurd rfl hKernel.apart
    · rw [hHigh, hHigh']

theorem dir_aligned
    (hKernel : Vmm.KernelDirectory m dir t u) :
    dir % 4096 = 0 := by
  rw [← hKernel.root]
  exact Vmm.root_aligned m

theorem t_aligned
    (hKernel : Vmm.KernelDirectory m dir t u) :
    t % 4096 = 0 :=
  ByteMemory.entry_aligned hKernel.self.maps.dir

theorem u_aligned
    (hKernel : Vmm.KernelDirectory m dir t u) :
    u % 4096 = 0 :=
  ByteMemory.entry_aligned hKernel.stackTable

/- The directory depends on four words. -/
theorem kernelDirectory_congr
    {ram : ByteMemory}
    (hKernel : Vmm.KernelDirectory m dir t u)
    (hDir :
      ∀ i, 1021 ≤ i → i < 1024 →
        ram.word dir i = m.ram.word dir i)
    (hT : ram.word t 1023 = m.ram.word t 1023) :
    Vmm.KernelDirectory (m.withRam ram) dir t u where
  current := hKernel.current
  self := by
    have hRoot := hKernel.root
    refine hKernel.self.congr rfl rfl rfl rfl ?_ ?_ ?_
    · rw [hRoot, Vmm.kernelRecord_directory]
      exact hDir _ (by decide) (by decide)
    · rw [Vmm.kernelRecord_directory]
      exact hT
    · rw [hRoot, Vmm.kernelRecord_pages]
      exact hDir _ (by decide) (by decide)
  root := hKernel.root
  stackTable := by
    rw [← hKernel.stackTable]
    exact ByteMemory.entry_congr
      (hDir 1021 (by decide) (by decide))
  t_ne := hKernel.t_ne
  u_ne := hKernel.u_ne
  apart := hKernel.apart

/- Memory in other frames does not matter to the stack. -/
theorem kernelDirectory_frame
    {ram : ByteMemory}
    (hKernel : Vmm.KernelDirectory m dir t u)
    (hSame :
      ∀ g, g = dir ∨ g = t ∨ g = u →
        m.ram.SameOn g (g + 4096) ram) :
    Vmm.KernelDirectory (m.withRam ram) dir t u ∧
      ∀ n, StackPage n →
        ram.pageAt dir n = m.ram.pageAt dir n := by
  constructor
  · refine kernelDirectory_congr hKernel ?_ ?_
    · intro i _ hi
      exact (hSame dir (.inl rfl)).word hi
    · exact (hSame t (.inr (.inl rfl))).word (by decide)
  · intro n hPage
    rcases stackTable hKernel hPage with ⟨w, hEntry, hw, _⟩
    have hIndex : n / 1024 < 1024 := by
      rw [stackPage_iff] at hPage
      omega
    apply ByteMemory.pageAt_congr
    · exact (hSame dir (.inl rfl)).word hIndex
    · intro w' hEntry'
      rw [hEntry] at hEntry'
      cases hEntry'
      have hTable : w = dir ∨ w = t ∨ w = u := by
        rcases hw with rfl | ⟨rfl, _⟩
        · exact .inr (.inr rfl)
        · exact .inr (.inl rfl)
      exact (hSame w hTable).word (Nat.mod_lt _ (by decide))

/- A page of the stack is mapped. -/
theorem kernelDirectory_map
    {w f flags : Nat}
    (hKernel : Vmm.KernelDirectory m dir t u)
    (hPage : StackPage n)
    (hEntry : m.ram.entry dir (n / 1024) = some w)
    (hf : f % 4096 = 0)
    (hLt : f < 2 ^ 32)
    (hFlags : flags < 4096) :
    let ram :=
      m.ram.setWord w (n % 1024) (Vmm.mapEntry f flags)
    Vmm.KernelDirectory (m.withRam ram) dir t u ∧
      ram.entry dir (n / 1024) = some w ∧
      ∀ n', StackPage n' →
        ram.pageAt dir n' =
          if n' = n then some f else m.ram.pageAt dir n' := by
  intro ram
  have hDir := dir_aligned hKernel
  have ht := t_aligned hKernel
  have hw := ByteMemory.entry_aligned hEntry
  have hi : n % 1024 < 1024 := Nat.mod_lt _ (by decide)
  rcases stackTable hKernel hPage with
    ⟨w', hEntry', hTable, hOnly⟩
  rw [hEntry] at hEntry'
  cases hEntry'
  have hNeDir : w ≠ dir := by
    rcases hTable with rfl | ⟨rfl, _⟩
    · exact hKernel.u_ne
    · exact hKernel.t_ne
  have hDirWord :
      ∀ i, i < 1024 → ram.word dir i = m.ram.word dir i := by
    intro i hi'
    exact ByteMemory.word_setWord_of_ne _ _ hw hDir hi hi'
      (.inl hNeDir.symm)
  refine ⟨?_, ?_, ?_⟩
  · refine kernelDirectory_congr hKernel
      (fun i _ hi' => hDirWord i hi') ?_
    apply ByteMemory.word_setWord_of_ne _ _ hw ht hi
      (by decide)
    rcases hTable with rfl | ⟨rfl, hLast⟩
    · exact .inl hKernel.apart.symm
    · exact .inr hLast.symm
  · have hIndex : n / 1024 < 1024 := by
      rw [stackPage_iff] at hPage
      omega
    exact (ByteMemory.entry_congr (hDirWord _ hIndex)).trans
      hEntry
  · intro n' hPage'
    have hIndex' : n' / 1024 < 1024 := by
      rw [stackPage_iff] at hPage'
      omega
    have hRamEntry :
        ∀ i, i < 1024 →
          ram.entry dir i = m.ram.entry dir i :=
      fun i hi' => ByteMemory.entry_congr (hDirWord i hi')
    split
    · rename_i hSame
      subst hSame
      have hEntryRam : ram.entry dir (n' / 1024) = some w :=
        (hRamEntry _ hIndex').trans hEntry
      rw [ByteMemory.pageAt_of_entry hEntryRam,
        ByteMemory.entry_of_word
          (ByteMemory.word_setWord_self _ _ _
            (Vmm.mapEntry_lt hLt hFlags)),
        Vmm.entryFrame_mapEntry hFlags]
      unfold pageAddr PAGE_SIZE
      congr 1
      omega
    · rename_i hOther
      apply ByteMemory.pageAt_congr (hDirWord _ hIndex')
      intro w' hEntry'
      apply ByteMemory.word_setWord_of_ne _ _ hw
        (ByteMemory.entry_aligned hEntry') hi
        (Nat.mod_lt _ (by decide))
      by_cases hTables : w' = w
      · subst hTables
        have hDiv := hOnly n' hPage' hEntry'
        exact .inr (by omega)
      · exact .inl hTables

------------------------------------------------------------
-- The Calls
------------------------------------------------------------

theorem run_onMachine
    {α : Type}
    {x : VmM α}
    {a : α}
    (hRun : x.run s.machine = .ok a m) :
    (onMachine x).run s = .ok a { s with machine := m } := by
  change onMachine x s = _
  unfold onMachine
  rw [hRun]

theorem onMachine_ok
    {α : Type}
    {x : VmM α}
    {a : α}
    (hRun : (onMachine x).run s = .ok a s') :
    ∃ m, x.run s.machine = .ok a m ∧
      s' = { s with machine := m } := by
  change onMachine x s = _ at hRun
  unfold onMachine at hRun
  split at hRun
  · rename_i b m hx
    cases hRun
    exact ⟨m, hx, rfl⟩
  · cases hRun

theorem run_onMachine_same
    {α : Type}
    {x : VmM α}
    {a : α}
    (hRun : x.run s.machine = .ok a s.machine) :
    (onMachine x).run s = .ok a s :=
  run_onMachine hRun

/- A page of the stack is mapped without a new page table. -/
theorem run_map
    {w va f flags : Nat}
    (alloc : PagedM Nat)
    (hKernel : Vmm.KernelDirectory s.machine dir t u)
    (hPage : StackPage (va / 4096))
    (hEntry :
      s.machine.ram.entry dir (va / 4096 / 1024) = some w)
    (hf : f % 4096 = 0)
    (hLt : f < 2 ^ 32)
    (hFlags : flags < 4096) :
    (map alloc va f flags).run s =
      .ok ()
        { s with
          machine :=
            s.machine.withRam
              (s.machine.ram.setWord w (va / 4096 % 1024)
                (Vmm.mapEntry f flags)) } := by
  have hva : va < 2 ^ 32 := by
    rw [stackPage_iff] at hPage
    omega
  have hIndex : va / 4096 / 1024 = va / 2 ^ 22 := by omega
  have hSelf := hKernel.self
  have hRoot := hKernel.root
  have hRecord := hSelf.current
  rw [hKernel.current] at hRecord
  rcases kernelDirectory_map hKernel hPage hEntry hf hLt
    hFlags with ⟨hAfter, hEntry', _⟩
  rw [hIndex] at hEntry hEntry'
  rw [← hRoot] at hEntry hEntry'
  have hRead := run_onMachine_same hSelf.run_readCurrent
  have hLoad := run_onMachine_same (hSelf.loadAt hva)
  have hNe := Vmm.entry_ne_zero hEntry
  have hNumber :
      s.machine.ram.entry s.machine.root
        (Vmm.pgNumFromAddr va / 1024) = some w := by
    rw [Vmm.pgNum_div]
    exact hEntry
  have hStore :=
    hSelf.tables.storeAt (v := Vmm.mapEntry f flags)
      (Vmm.pgNum_lt hva) hNumber
  have hCheck :=
    Vmm.run_checkKernel hAfter.self.tables hRecord
      hAfter.self.tables hva hEntry' hEntry'
  unfold map
  dsimp only
  rw [EStateM.bind_of_ok hRead, EStateM.bind_of_ok hLoad,
    if_neg hNe]
  refine (EStateM.bind_of_ok (run_onMachine hStore)).trans ?_
  exact run_onMachine_same hCheck

/- Frames below `pmm_location` are ignored. -/
theorem run_free_below
    (alloc : PagedM Nat)
    (hBelow : pageAddr p < s.location) :
    (pmmFreePage alloc p).run s = .ok () s := by
  unfold pmmFreePage
  dsimp only
  rw [EStateM.bind_of_ok (EStateM.run_get s),
    if_neg (by omega)]
  rfl

theorem pageAddr_frame (p : Nat) :
    pageAddr p % 4096 = 0 := by
  unfold pageAddr PAGE_SIZE
  omega

/- The frame becomes storage. -/
theorem run_free_map
    {w : Nat}
    (alloc : PagedM Nat)
    (hKernel : Vmm.KernelDirectory s.machine dir t u)
    (hWord : p < 2 ^ 32)
    (hAbove : s.location ≤ pageAddr p)
    (hFull : s.stackMax ≤ s.stackLoc)
    (hPage : StackPage (s.stackMax / 4096))
    (hEntry :
      s.machine.ram.entry dir (s.stackMax / 4096 / 1024) =
        some w) :
    (pmmFreePage alloc p).run s =
      .ok ()
        { s with
          machine :=
            s.machine.withRam
              (s.machine.ram.setWord w
                (s.stackMax / 4096 % 1024)
                (Vmm.mapEntry (pageAddr p)
                  (Vmm.PAGE_PRESENT ||| Vmm.PAGE_WRITE)))
          stackMax := add32 s.stackMax PAGE_SIZE } := by
  have hRoom : ¬ PMM_STACK_END ≤ s.stackMax := by
    rw [stackPage_iff] at hPage
    unfold PMM_STACK_END
    omega
  have hLt : pageAddr p < 2 ^ 32 :=
    Nat.lt_of_le_of_lt (Vmm.pageAddr_le p) hWord
  have hFlags : Vmm.PAGE_PRESENT ||| Vmm.PAGE_WRITE < 4096 := by
    decide
  have hMap :=
    run_map alloc hKernel hPage hEntry (pageAddr_frame p) hLt
      hFlags
  unfold pmmFreePage
  dsimp only
  rw [EStateM.bind_of_ok (EStateM.run_get s), if_pos hAbove,
    EStateM.bind_of_ok (EStateM.run_get s),
    EStateM.bind_of_ok (EStateM.run_get s), if_pos hFull,
    EStateM.bind_of_ok (EStateM.run_get s), if_neg hRoom,
    EStateM.bind_of_ok (EStateM.run_get s),
    EStateM.bind_of_ok hMap]
  rfl

/- The frame is pushed. -/
theorem run_free_push
    {pa : Nat}
    (alloc : PagedM Nat)
    (hAbove : s.location ≤ pageAddr p)
    (hSpace : s.stackLoc < s.stackMax)
    (hAt : s.machine.translate s.stackLoc = some pa) :
    (pmmFreePage alloc p).run s =
      .ok ()
        { s with
          machine :=
            s.machine.withRam
              (s.machine.ram.write32 pa (pageAddr p))
          stackLoc := add32 s.stackLoc 4 } := by
  unfold pmmFreePage
  dsimp only
  rw [EStateM.bind_of_ok (EStateM.run_get s), if_pos hAbove,
    EStateM.bind_of_ok (EStateM.run_get s),
    EStateM.bind_of_ok (EStateM.run_get s),
    if_neg (Nat.not_le.mpr hSpace),
    EStateM.bind_of_ok (EStateM.run_get s),
    EStateM.bind_of_ok (run_onMachine (Vmm.run_store32 hAt))]
  rfl

------------------------------------------------------------
-- The Map of Pages
------------------------------------------------------------

theorem translate_eq
    (hKernel : Vmm.KernelDirectory s.machine dir t u)
    (a : Nat) :
    s.machine.translate a = s.state.physical a := by
  unfold Vmm.Machine.translate
  rw [if_pos hKernel.self.maps.paging]
  rfl

/- What is popped from the stack. -/
theorem state_alloc
    {f : Nat}
    (hKernel : Vmm.KernelDirectory s.machine dir t u)
    (hActive : s.pagingActive = true)
    (hRun : pmmAllocPage.run s = .ok f s') :
    Pmm.pmmAllocPage.run s.state = .ok f s'.state ∧
      ∃ loc, s' = { s with stackLoc := loc } := by
  unfold pmmAllocPage at hRun
  rw [EStateM.bind_of_ok (EStateM.run_get s),
    if_neg (by rw [hActive]; simp),
    EStateM.bind_of_ok (EStateM.run_get s)] at hRun
  split at hRun
  · cases hRun
  · rename_i hSome
    rw [EStateM.bind_of_ok (EStateM.run_modify _ _),
      EStateM.bind_of_ok (EStateM.run_get _)] at hRun
    rcases onMachine_ok hRun with ⟨m, hLoad, rfl⟩
    rcases Vmm.load32_ok hLoad with ⟨pa, hAt, hf, rfl⟩
    dsimp only at hAt hf
    rw [translate_eq hKernel] at hAt
    have hWord :
        s.state.peek (sub32 s.stackLoc 4) = some f := by
      unfold Pmm.State.peek
      rw [hAt, hf]
      rfl
    refine ⟨?_, _, rfl⟩
    exact Pmm.run_alloc_pop hActive (Nat.lt_of_not_le hSome)
      hWord

------------------------------------------------------------
-- The Invariant
------------------------------------------------------------

/- The run, with the map of pages. -/
def Config.abstract (cfg : Config) : Pmm.Config :=
  ⟨cfg.state.state, cfg.owned, cfg.freed, cfg.seeded⟩

/-
  The tables of the stack are there, and every frame has one
  owner.
-/
structure Inv
    (cfg : Config)
    (dir t u : Nat)
    (entries storage : List Nat) : Prop where
  provided : Provided cfg.state dir t u
  owned : Pmm.Owned cfg.abstract entries storage
  high : ∀ f ∈ cfg.owned, cfg.state.location ≤ f

variable {cfg cfg' : Config}
variable {entries storage : List Nat}

/- Frames from `pmm_location` on are not page tables. -/
theorem Provided.frame
    {ram : ByteMemory}
    (hProvided : Provided s dir t u)
    (hSame :
      ∀ g, g % 4096 = 0 → g < s.location →
        s.machine.ram.SameOn g (g + 4096) ram) :
    Vmm.KernelDirectory (s.machine.withRam ram) dir t u ∧
      ∀ n, StackPage n →
        ram.pageAt dir n = s.machine.ram.pageAt dir n := by
  have hKernel := hProvided.kernel
  apply kernelDirectory_frame hKernel
  rintro g (rfl | rfl | rfl)
  · exact hSame g (dir_aligned hKernel) hProvided.dirLow
  · exact hSame g (t_aligned hKernel) hProvided.tLow
  · exact hSame g (u_aligned hKernel) hProvided.uLow

/- The bounds of the stack, from its entries. -/
theorem Inv.bounds
    (hInv : Inv cfg dir t u entries storage) :
    cfg.state.stackLoc = PMM_STACK_START + 4 * entries.length ∧
      cfg.state.stackMax =
        PMM_STACK_START + PAGE_SIZE * storage.length ∧
      cfg.state.stackLoc ≤ cfg.state.stackMax ∧
      cfg.state.stackMax ≤ PMM_STACK_END :=
  ⟨hInv.owned.stacked.loc, hInv.owned.stacked.max,
    hInv.owned.stacked.le, hInv.owned.stacked.maxLe⟩

/- Different frames below 4 GiB are at most 2^20. -/
theorem length_frames_le
    {l : List Nat}
    (hNodup : l.Nodup)
    (hFrames : ∀ f ∈ l, f % PAGE_SIZE = 0 ∧ f < 2 ^ 32) :
    l.length ≤ 2 ^ 20 := by
  have hMap : (l.map (· / PAGE_SIZE)).Nodup := by
    refine (List.nodup_map_iff_inj_on hNodup).mpr ?_
    intro f hf g hg hSame
    have hfPage := (hFrames f hf).1
    have hgPage := (hFrames g hg).1
    unfold PAGE_SIZE at hSame hfPage hgPage
    omega
  have hSub :
      (l.map (· / PAGE_SIZE)).Subperm (List.range (2 ^ 20)) := by
    apply List.subperm_of_subset hMap
    intro n hn
    rcases List.mem_map.mp hn with ⟨f, hf, rfl⟩
    have hLt := (hFrames f hf).2
    rw [List.mem_range]
    unfold PAGE_SIZE
    omega
  have hLength := hSub.length_le
  rw [List.length_map, List.length_range] at hLength
  exact hLength

/- The stack is never full up to its end. -/
theorem Inv.room
    (hInv : Inv cfg dir t u entries storage)
    (hFull : cfg.state.stackMax ≤ cfg.state.stackLoc) :
    StackPage (cfg.state.stackMax / 4096) := by
  rcases hInv.bounds with ⟨hLoc, hMax, hLe, hEnd⟩
  have hNodup :=
    (List.nodup_append.mp hInv.owned.nodup).1
  have hCount :=
    length_frames_le hNodup (fun f hf =>
      hInv.owned.aligned f
        (List.mem_append_left cfg.owned hf))
  rw [List.length_append] at hCount
  rw [stackPage_iff]
  unfold PMM_STACK_START at hLoc hMax
  unfold PAGE_SIZE at hMax
  unfold PMM_STACK_END at hEnd
  omega

/- The next entry goes to a frame of the storage. -/
theorem Inv.place
    (hInv : Inv cfg dir t u entries storage)
    (hSpace : cfg.state.stackLoc < cfg.state.stackMax) :
    ∃ f offset, f ∈ storage ∧ f % 4096 = 0 ∧
      cfg.state.location ≤ f ∧ offset + 4 ≤ 4096 ∧
      cfg.state.state.physical cfg.state.stackLoc =
        some (f + offset) := by
  rcases hInv.bounds with ⟨hLoc, hMax, _, _⟩
  have hIndex : entries.length / 1024 < storage.length := by
    unfold PAGE_SIZE at hMax
    omega
  have hMem := List.getElem_mem hIndex
  have hAligned :=
    (hInv.owned.aligned (storage[entries.length / 1024])
      (by simp [hMem])).1
  have hAbove :=
    hInv.owned.above (storage[entries.length / 1024])
      (List.mem_append_right entries hMem)
  refine ⟨storage[entries.length / 1024],
    4 * (entries.length % 1024), hMem, hAligned, hAbove,
    by omega, ?_⟩
  rw [hLoc]
  exact hInv.owned.stacked.physical hIndex

/- What must stay the same for the stack to do so. -/
theorem sparesStack
    {σ : Pmm.State}
    {ram : ByteMemory}
    {mapping : Nat → Option Nat}
    (hStacked : Pmm.Stacked σ entries storage)
    (hRam :
      ∀ f ∈ storage, σ.ram.SameOn f (f + PAGE_SIZE) ram)
    (hMapping :
      ∀ n, StackPage n → mapping n = σ.mapping n) :
    Pmm.SparesStack σ ram mapping where
  ram := by
    rw [hStacked.storageFrames]
    exact hRam
  mapping := fun n hLo hHi => hMapping n ⟨hLo, hHi⟩

/-
  `pmm_free_page` does to the page tables and to memory what
  it does to the map of pages.
-/
theorem Inv.free
    (hInv : Inv cfg dir t u entries storage)
    (hWord : p < 2 ^ 32)
    (hRun :
      (pmmFreePage pmmAllocPage p).run cfg.state =
        .ok () s') :
    ∃ σ, (Pmm.pmmFreePage p).run cfg.state.state = .ok () σ ∧
      Provided s' dir t u ∧
      s'.location = cfg.state.location ∧
      ∀ owned freed seeded entries' storage',
        Pmm.Owned ⟨σ, owned, freed, seeded⟩ entries' storage' →
          Pmm.Owned ⟨s'.state, owned, freed, seeded⟩ entries'
            storage' := by
  have hProvided := hInv.provided
  have hKernel := hProvided.kernel
  have hRoot := hKernel.root
  have hLt : pageAddr p < 2 ^ 32 :=
    Nat.lt_of_le_of_lt (Vmm.pageAddr_le p) hWord
  rcases Nat.lt_or_ge (pageAddr p) cfg.state.location with
    hBelow | hAbove
  · rw [run_free_below pmmAllocPage hBelow] at hRun
    cases hRun
    exact ⟨_, Pmm.run_free_below hBelow, hProvided, rfl,
      fun _ _ _ _ _ h => h⟩
  · rcases Nat.lt_or_ge cfg.state.stackLoc
      cfg.state.stackMax with hSpace | hFull
    · -- the frame is pushed
      rcases hInv.place hSpace with
        ⟨f, offset, _, hfAligned, hfAbove, hOffset, hAt⟩
      have hAt' := hAt
      rw [← translate_eq hKernel] at hAt'
      rw [run_free_push pmmAllocPage hAbove hSpace hAt']
        at hRun
      cases hRun
      have hOther :
          ∀ g, g % 4096 = 0 → g < cfg.state.location →
            cfg.state.machine.ram.SameOn g (g + 4096)
              (cfg.state.machine.ram.write32 (f + offset)
                (pageAddr p)) := by
        intro g hg hgLow
        apply ByteMemory.sameOn_write32
        omega
      rcases hProvided.frame hOther with ⟨hAfter, hPages⟩
      refine ⟨_, Pmm.run_free_push hAbove hSpace hAt,
        ⟨hAfter, hProvided.active, hProvided.dirLow,
          hProvided.tLow, hProvided.uLow⟩, rfl, ?_⟩
      intro owned freed seeded entries' storage' hOwned
      refine hOwned.world (sparesStack hOwned.stacked
        ?_ ?_)
      · intro g _
        exact ByteMemory.SameOn.refl _ _ _
      · intro n hn
        have hMapped := hPages n hn
        rw [← hRoot] at hMapped
        exact hMapped
    · -- the frame becomes storage
      have hPage := hInv.room hFull
      rcases stackTable hKernel hPage with
        ⟨w, hEntry, hTable, _⟩
      have hw := ByteMemory.entry_aligned hEntry
      have hwLow : w < cfg.state.location := by
        rcases hTable with rfl | ⟨rfl, _⟩
        · exact hProvided.uLow
        · exact hProvided.tLow
      rw [run_free_map pmmAllocPage hKernel hWord hAbove hFull
        hPage hEntry] at hRun
      cases hRun
      rcases kernelDirectory_map hKernel hPage hEntry
        (pageAddr_frame p) hLt (show 3 < 4096 by decide) with
        ⟨hAfter, _, hPages⟩
      have hRoom : cfg.state.stackMax < PMM_STACK_END := by
        rw [stackPage_iff] at hPage
        unfold PMM_STACK_END
        omega
      refine ⟨_, Pmm.run_free_grow hProvided.active hAbove
        hFull hRoom, ⟨hAfter, hProvided.active,
          hProvided.dirLow, hProvided.tLow, hProvided.uLow⟩,
        rfl, ?_⟩
      intro owned freed seeded entries' storage' hOwned
      refine hOwned.world (sparesStack hOwned.stacked
        ?_ ?_)
      · intro f hf
        have hIn :
            f ∈ entries' ++ storage' ++ owned := by
          simp [hf]
        have hfAligned := (hOwned.aligned f hIn).1
        have hfAbove :=
          hOwned.above f (List.mem_append_right entries' hf)
        have hNe : f ≠ w := by
          intro hSame
          have hfAbove' : cfg.state.location ≤ f := hfAbove
          omega
        exact ByteMemory.sameOn_setWord _ _ hw hfAligned
          (Nat.mod_lt _ (by decide)) hNe
      · intro n hn
        have hMapped := hPages n hn
        rw [← hRoot] at hMapped
        exact hMapped

/- Every step keeps the invariant. -/
theorem Inv.step
    (hInv : Inv cfg dir t u entries storage)
    (hStep : Step cfg cfg') :
    ∃ entries' storage', Inv cfg' dir t u entries' storage' := by
  have hProvided := hInv.provided
  cases hStep with
  | alloc hRun =>
      rcases state_alloc hProvided.kernel hProvided.active hRun
        with ⟨hRun', loc, rfl⟩
      have hActive := hProvided.active
      have hBelow : Pmm.BelowTop cfg.abstract.state := by
        intro hInactive
        exact absurd (hActive.symm.trans hInactive) (by simp)
      rcases Pmm.pmmAllocPage_pop hInv.owned.stacked hActive
        hRun' with ⟨rest, hEntries, _⟩
      rcases hInv.owned.alloc hBelow hRun' with
        ⟨entries', hOwned⟩
      refine ⟨entries', storage, ⟨hProvided.kernel, hActive,
        hProvided.dirLow, hProvided.tLow, hProvided.uLow⟩,
        hOwned, ?_⟩
      intro g hg
      rcases List.mem_cons.mp hg with rfl | hg
      · apply hInv.owned.above g
        rw [hEntries]
        simp
      · exact hInv.high g hg
  | free p hMem hRun =>
      have hFrame := hInv.owned.aligned p (by
        apply List.mem_append_right
        exact hMem)
      rcases hInv.free hFrame.2 hRun with
        ⟨σ, hRun', hProvided', hLocation, hLift⟩
      rcases hInv.owned.free hMem hRun' with
        ⟨entries', storage', hOwned⟩
      refine ⟨entries', storage', hProvided',
        hLift _ _ _ _ _ hOwned, ?_⟩
      intro f hf
      dsimp only
      rw [hLocation]
      exact hInv.high f (List.mem_of_mem_erase hf)
  | seed p hWord hNew hRun =>
      rcases hInv.free hWord hRun with
        ⟨σ, hRun', hProvided', hLocation, hLift⟩
      rcases hInv.owned.seed hWord hNew hRun' with
        ⟨entries', storage', hOwned⟩
      refine ⟨entries', storage', hProvided',
        hLift _ _ _ _ _ hOwned, ?_⟩
      intro f hf
      dsimp only
      rw [hLocation]
      exact hInv.high f hf
  | write ram hWrites =>
      have hKernel := hProvided.kernel
      -- a frame that no caller owns is not written to
      have hSame :
          ∀ g, g % 4096 = 0 → g ∉ cfg.owned →
            cfg.state.machine.ram.SameOn g (g + 4096) ram := by
        intro g hg hNot x hLo hHi
        apply hWrites
        intro f hf hIn
        have hfPage := (hInv.owned.aligned f (by
          apply List.mem_append_right
          exact hf)).1
        unfold PAGE_SIZE at hIn hfPage
        have hEq : f = g := by omega
        exact hNot (hEq ▸ hf)
      have hTables :
          ∀ g, g % 4096 = 0 → g < cfg.state.location →
            cfg.state.machine.ram.SameOn g (g + 4096) ram := by
        intro g hg hLow
        apply hSame g hg
        intro hMem
        have hHigh := hInv.high g hMem
        omega
      rcases hProvided.frame hTables with ⟨hAfter, hPages⟩
      refine ⟨entries, storage, ⟨hAfter, hProvided.active,
        hProvided.dirLow, hProvided.tLow, hProvided.uLow⟩,
        ?_, hInv.high⟩
      refine hInv.owned.world
        (sparesStack hInv.owned.stacked ?_ ?_)
      · intro f hf
        have hfPage := (hInv.owned.aligned f (by
          apply List.mem_append_left
          exact List.mem_append_right entries hf)).1
        apply hSame f hfPage
        intro hMem
        exact (List.nodup_append.mp hInv.owned.nodup).2.2 f
          (List.mem_append_right entries hf) f hMem rfl
      · intro n hn
        have hMapped := hPages n hn
        rw [← hKernel.root] at hMapped
        exact hMapped

theorem goodFrames_bump
    {location n : Nat}
    (hAligned : location % PAGE_SIZE = 0)
    (hFits : location + PAGE_SIZE * n ≤ 2 ^ 32) :
    Vmm.GoodFrames (bumpFrames location n) := by
  unfold PAGE_SIZE at hAligned hFits
  refine ⟨?_, ?_, ?_⟩
  · apply List.Nodup.map _ List.nodup_range
    intro k k' hSame
    unfold PAGE_SIZE at hSame
    dsimp only at hSame
    omega
  · intro f hf
    rcases List.mem_map.mp hf with ⟨k, _, rfl⟩
    unfold PAGE_SIZE
    omega
  · intro f hf
    rcases List.mem_map.mp hf with ⟨k, hk, rfl⟩
    rw [List.mem_range] at hk
    unfold PAGE_SIZE
    omega

/- The pages that were taken first are the lowest ones. -/
theorem bumpFrames_taken
    {location n f : Nat}
    {used rest : List Nat}
    (hFrames : bumpFrames location n = used ++ rest)
    (hf : f ∈ used) :
    f < location + PAGE_SIZE * used.length := by
  rcases List.getElem_of_mem hf with ⟨k, hk, rfl⟩
  have hLength : k < (bumpFrames location n).length := by
    rw [hFrames, List.length_append]
    omega
  have hAt :
      (bumpFrames location n)[k] = location + PAGE_SIZE * k := by
    simp [bumpFrames]
  have hUsed : used[k] = location + PAGE_SIZE * k := by
    rw [← hAt]
    simp only [hFrames]
    rw [List.getElem_append_left hk]
  rw [hUsed]
  unfold PAGE_SIZE
  omega

/- `init_vmm` establishes the invariant. -/
theorem AfterInit.inv
    (hStart : AfterInit cfg) :
    ∃ dir t u, Inv cfg dir t u [] [] := by
  rcases cfg with ⟨s, owned, freed, seeded⟩
  rcases hStart with
    ⟨m, location, taken, more, hPaging, hAligned, hFits,
      hFrames, hRun, hMore, hActive, hLoc, hMax, hLocation,
      hOwned, hFreed, hSeeded⟩
  dsimp only at *
  have hGood : Vmm.GoodFrames m.frames := by
    rw [hFrames]
    exact goodFrames_bump hAligned hFits
  rcases Vmm.initVmm_ok hPaging hGood hRun with
    ⟨dir, t, u, used, hKernel, hUsed, hDir, hT, hU⟩
  rw [hFrames] at hUsed
  have hTaken : used.length = taken := by
    have hLength := congrArg List.length hUsed
    rw [List.length_append, hMore] at hLength
    unfold bumpFrames at hLength
    rw [List.length_map, List.length_range] at hLength
    omega
  have hLow : ∀ f ∈ used, f < s.location := by
    intro f hf
    rw [hLocation, ← hTaken]
    exact bumpFrames_taken hUsed hf
  refine ⟨dir, t, u, ⟨hKernel, hActive, hLow dir hDir,
    hLow t hT, hLow u hU⟩, ?_, ?_⟩
  · refine
      { stacked := ?_
        nodup := ?_
        aligned := ?_
        above := ?_
        known := ?_
        kept := ?_
        inactive := ?_ }
    · exact
        { loc := hLoc
          max := hMax
          le := Nat.le_of_eq (hLoc.trans hMax.symm)
          maxLe := by
            change s.stackMax ≤ PMM_STACK_END
            rw [hMax]
            decide
          mapped := fun k hk => absurd hk (Nat.not_lt_zero k)
          words := fun k hk => absurd hk (Nat.not_lt_zero k) }
    · change ([] ++ [] ++ owned).Nodup
      rw [hOwned]
      exact List.nodup_nil
    · change ∀ f ∈ [] ++ [] ++ owned, _
      rw [hOwned]
      intro f hf
      cases hf
    · intro f hf
      cases hf
    · change ∀ f ∈ [] ++ [] ++ owned, _
      rw [hOwned]
      intro f hf
      cases hf
    · change ∀ f ∈ freed, _
      rw [hFreed]
      intro f hf
      cases hf
    · intro hInactive
      exact absurd (hActive.symm.trans hInactive) (by simp)
  · dsimp only
    rw [hOwned]
    intro f hf
    cases hf

/- A frame that finds no room on the stack becomes storage. -/
theorem Inv.run_grow
    (hInv : Inv cfg dir t u entries storage)
    (hWord : p < 2 ^ 32)
    (hAbove : cfg.state.location ≤ pageAddr p)
    (hFull : cfg.state.stackMax ≤ cfg.state.stackLoc) :
    ∃ s₁,
      (∀ alloc,
        (pmmFreePage alloc p).run cfg.state = .ok () s₁) ∧
      s₁.location = cfg.state.location ∧
      s₁.stackLoc = cfg.state.stackLoc ∧
      s₁.stackMax = cfg.state.stackMax + PAGE_SIZE := by
  have hKernel := hInv.provided.kernel
  have hPage := hInv.room hFull
  rcases stackTable hKernel hPage with ⟨w, hEntry, _⟩
  have hMax :
      add32 cfg.state.stackMax PAGE_SIZE =
        cfg.state.stackMax + PAGE_SIZE := by
    rw [stackPage_iff] at hPage
    apply add32_of_lt
    unfold PAGE_SIZE
    omega
  exact ⟨_, fun alloc =>
    run_free_map alloc hKernel hWord hAbove hFull hPage hEntry,
    rfl, rfl, hMax⟩

/- A frame for which there is room is pushed. -/
theorem Inv.run_push
    (hInv : Inv cfg dir t u entries storage)
    (hAbove : cfg.state.location ≤ pageAddr p)
    (hSpace : cfg.state.stackLoc < cfg.state.stackMax) :
    ∃ s₁,
      (∀ alloc,
        (pmmFreePage alloc p).run cfg.state = .ok () s₁) ∧
      s₁.location = cfg.state.location ∧
      s₁.stackLoc = cfg.state.stackLoc + 4 ∧
      s₁.stackMax = cfg.state.stackMax := by
  have hKernel := hInv.provided.kernel
  rcases hInv.place hSpace with ⟨f, offset, _, _, _, _, hAt⟩
  rw [← translate_eq hKernel] at hAt
  have hLoc :
      add32 cfg.state.stackLoc 4 = cfg.state.stackLoc + 4 := by
    rcases hInv.bounds with ⟨_, _, _, hEnd⟩
    unfold PMM_STACK_END at hEnd
    apply add32_of_lt
    omega
  exact ⟨_, fun alloc => run_free_push alloc hAbove hSpace hAt,
    rfl, hLoc, rfl⟩

/- A call returns, whatever it might ask for a page. -/
theorem Inv.free_cases
    (hInv : Inv cfg dir t u entries storage)
    (hWord : p < 2 ^ 32) :
    ∃ s₁, ∀ alloc,
      (pmmFreePage alloc p).run cfg.state = .ok () s₁ := by
  rcases Nat.lt_or_ge (pageAddr p) cfg.state.location with
    hBelow | hAbove
  · exact ⟨_, fun alloc => run_free_below alloc hBelow⟩
  · rcases Nat.lt_or_ge cfg.state.stackLoc
      cfg.state.stackMax with hSpace | hFull
    · rcases hInv.run_push hAbove hSpace with ⟨s₁, hRun, _⟩
      exact ⟨s₁, hRun⟩
    · rcases hInv.run_grow hWord hAbove hFull with
        ⟨s₁, hRun, _⟩
      exact ⟨s₁, hRun⟩

/- The stack is empty, or its last frame is popped. -/
theorem Inv.alloc_cases
    (hInv : Inv cfg dir t u entries storage) :
    entries = [] ∧
        (∃ s₁, pmmAllocPage.run cfg.state =
          .error (.panic "PMM Stack: no free pages.") s₁) ∨
      entries ≠ [] ∧
        ∃ f, pmmAllocPage.run cfg.state =
          .ok f
            { cfg.state with
              stackLoc := cfg.state.stackLoc - 4 } := by
  have hKernel := hInv.provided.kernel
  have hActive := hInv.provided.active
  rcases hInv.bounds with ⟨hLoc, hMax, hLe, hEnd⟩
  have hStart :
      pmmAllocPage.run cfg.state =
        (do
          if (← get).stackLoc ≤ PMM_STACK_START then
            throw (.panic "PMM Stack: no free pages.")
          modify fun s =>
            { s with stackLoc := sub32 s.stackLoc 4 }
          onMachine (Vmm.load32 (← get).stackLoc) :
            PagedM Nat).run cfg.state := by
    unfold pmmAllocPage
    rw [EStateM.bind_of_ok (EStateM.run_get cfg.state),
      if_neg (by rw [hActive]; simp)]
  rw [hStart, EStateM.bind_of_ok (EStateM.run_get cfg.state)]
  split
  · next hNone =>
      refine .inl ⟨?_, _, rfl⟩
      apply List.eq_nil_of_length_eq_zero
      omega
  · next hSome =>
      have hPos : 0 < entries.length := by omega
      have hWord :=
        hInv.owned.stacked.words (entries.length - 1) (by omega)
      have hLast :
          sub32 cfg.state.stackLoc 4 =
            cfg.state.stackLoc - 4 := by
        unfold PMM_STACK_END at hEnd
        exact sub32_of_le
          (by unfold PMM_STACK_START at hLoc; omega) (by omega)
      have hIndex :
          cfg.state.stackLoc - 4 =
            PMM_STACK_START + 4 * (entries.length - 1) := by
        omega
      have hPeek :
          cfg.state.state.peek (cfg.state.stackLoc - 4) =
            some entries[entries.length - 1] := by
        rw [hIndex]
        exact hWord
      unfold Pmm.State.peek at hPeek
      rw [← translate_eq hKernel] at hPeek
      rcases Option.map_eq_some_iff.mp hPeek with
        ⟨pa, hAt, hRead⟩
      refine .inr ⟨List.ne_nil_of_length_pos hPos,
        cfg.state.machine.ram.read32 pa, ?_⟩
      rw [EStateM.bind_of_ok (EStateM.run_modify _ _),
        EStateM.bind_of_ok (EStateM.run_get _), hLast]
      exact run_onMachine_same (Vmm.run_load32 hAt)

/- The invariant gives the bounds of the stack. -/
theorem Inv.sound
    (hInv : Inv cfg dir t u entries storage) :
    Sound cfg.state := by
  have hProvided := hInv.provided
  have hKernel := hProvided.kernel
  rcases hInv.bounds with ⟨hLoc, hMax, hLe, hEnd⟩
  refine
    { start := by omega
      loc := hLe
      max := hEnd
      aligned := ?_
      mapped := ?_
      noPanic := ?_
      noReentry := ?_ }
  · rw [hLoc]
    unfold PMM_STACK_START
    omega
  · intro a hLo hHi
    have hk :
        a / 4096 - 0xFF7FF < storage.length := by
      unfold PMM_STACK_START at hLo hMax
      unfold PAGE_SIZE at hMax
      omega
    have hPage :
        PMM_STACK_START / PAGE_SIZE + (a / 4096 - 0xFF7FF) =
          a / PAGE_SIZE := by
      unfold PMM_STACK_START at hLo ⊢
      unfold PAGE_SIZE
      omega
    have hMapped := hInv.owned.stacked.mapped _ hk
    rw [hPage] at hMapped
    have hMapped' :
        cfg.state.state.mapping (a / PAGE_SIZE) = _ := hMapped
    rw [translate_eq hKernel]
    unfold Pmm.State.physical
    rw [hMapped']
    rfl
  · intro p s' hWord hRun
    rcases hInv.free_cases hWord with ⟨s₁, hOk⟩
    rw [hOk pmmAllocPage] at hRun
    cases hRun
  · intro alloc p hWord
    rcases hInv.free_cases hWord with ⟨s₁, hOk⟩
    rw [hOk alloc, hOk pmmAllocPage]

/- The invariant holds in every run. -/
theorem reachable_inv
    (hReach : Reachable AfterInit Step cfg) :
    ∃ dir t u entries storage,
      Inv cfg dir t u entries storage := by
  apply hReach.invariant
  · intro cfg hStart
    rcases hStart.inv with ⟨dir, t, u, hInv⟩
    exact ⟨dir, t, u, [], [], hInv⟩
  · rintro cfg cfg' _ ⟨dir, t, u, entries, storage, hInv⟩
      hStep
    rcases hInv.step hStep with ⟨entries', storage', hInv'⟩
    exact ⟨dir, t, u, entries', storage', hInv'⟩

/-
  In every run after `init_vmm` the stack keeps its bounds,
  has room for every frame, and grows without a new page
  table.
-/
theorem paged_sound
    (hReach : Reachable AfterInit Step cfg) :
    Sound cfg.state := by
  rcases reachable_inv hReach with
    ⟨dir, t, u, entries, storage, hInv⟩
  exact hInv.sound

/- A machine before `init_vmm`, with 128 pages to hand out. -/
def bootMachine : Machine where
  ram := fun _ => 0
  paging := false
  cr3 := 0
  currentDirectory := .kernelDirectory
  dirAt := fun _ => none
  kmallocs := []
  frames := bumpFrames 0x101000 128
  freed := []

/- The allocator when `init_vmm` has left the machine `m`. -/
def startState (m : Machine) : Allocator where
  machine := m
  pagingActive := true
  stackLoc := PMM_STACK_START
  stackMax := PMM_STACK_START
  location := 0x101000 + PAGE_SIZE * (128 - m.frames.length)

theorem goodFrames_bootMachine :
    Vmm.GoodFrames bootMachine.frames :=
  goodFrames_bump (by decide) (by decide)

theorem length_bootMachine :
    bootMachine.frames.length = 128 := by
  change (bumpFrames 0x101000 128).length = 128
  simp [bumpFrames]

theorem afterInit_start
    (hRun : Vmm.initVmm.run bootMachine = .ok () m) :
    AfterInit ⟨startState m, [], [], []⟩ := by
  rcases Vmm.initVmm_ok rfl goodFrames_bootMachine hRun with
    ⟨_, _, _, used, _, hUsed, _⟩
  have hLength := congrArg List.length hUsed
  rw [length_bootMachine, List.length_append] at hLength
  have hSum :
      128 - m.frames.length + m.frames.length = 128 := by
    omega
  refine ⟨bootMachine, 0x101000, 128 - m.frames.length,
    m.frames.length, rfl, by decide, ?_, ?_, hRun, rfl, rfl,
    rfl, rfl, rfl, rfl, rfl, rfl⟩
  · rw [hSum]
    decide
  · rw [hSum]
    rfl

/- The frames of RAM from 4 MiB on, the last one first. -/
def seedFrames : Nat → List Nat
| 0 => [0x400000]
| k + 1 => (0x400000 + PAGE_SIZE * (k + 1)) :: seedFrames k

theorem le_of_mem_seedFrames
    {k f : Nat}
    (hf : f ∈ seedFrames k) :
    f ≤ 0x400000 + PAGE_SIZE * k := by
  induction k with
  | zero => exact Nat.le_of_eq (List.mem_singleton.mp hf)
  | succ k ih =>
      rcases List.mem_cons.mp hf with rfl | hf
      · exact Nat.le_refl _
      · have hLe := ih hf
        unfold PAGE_SIZE at hLe ⊢
        omega

/-
  The allocator has been given `k + 1` frames.  The first one
  stores the stack, and the others are on it.
-/
structure Seeded (s : Allocator) (k : Nat) : Prop where
  reach :
    Reachable AfterInit Step
      ⟨s, [], seedFrames k, seedFrames k⟩
  location : s.location ≤ 0x400000
  stackLoc : s.stackLoc = PMM_STACK_START + 4 * k
  stackMax : s.stackMax = PMM_STACK_START + PAGE_SIZE

theorem seeded_first
    (hRun : Vmm.initVmm.run bootMachine = .ok () m) :
    ∃ s₁,
      (pmmFreePage pmmAllocPage 0x400000).run (startState m) =
          .ok () s₁ ∧
        Seeded s₁ 0 := by
  have hStart := afterInit_start hRun
  have hLocation : (startState m).location ≤ 0x400000 := by
    unfold startState PAGE_SIZE
    dsimp only
    omega
  rcases hStart.inv with ⟨dir, t, u, hInv⟩
  rcases hInv.run_grow (p := 0x400000) (by decide) hLocation
      (Nat.le_refl PMM_STACK_START) with
    ⟨s₁, hFree, hLow, hLoc, hMax⟩
  refine ⟨s₁, hFree pmmAllocPage,
    { reach :=
        .step (.start hStart)
          (.seed 0x400000 (by decide) (by simp)
            (hFree pmmAllocPage))
      location := ?_
      stackLoc := hLoc
      stackMax := hMax }⟩
  rw [hLow]
  exact hLocation

theorem Seeded.more
    {k : Nat}
    (hSeeded : Seeded s k)
    (hk : k < 1000) :
    ∃ s₁,
      (pmmFreePage pmmAllocPage
          (0x400000 + PAGE_SIZE * (k + 1))).run s =
          .ok () s₁ ∧
        Seeded s₁ (k + 1) := by
  have hAddr :
      pageAddr (0x400000 + PAGE_SIZE * (k + 1)) =
        0x400000 + PAGE_SIZE * (k + 1) := by
    unfold pageAddr PAGE_SIZE
    omega
  have hLow := hSeeded.location
  have hLoc := hSeeded.stackLoc
  have hMax := hSeeded.stackMax
  rcases reachable_inv hSeeded.reach with
    ⟨dir, t, u, entries, storage, hInv⟩
  rcases hInv.run_push (p := 0x400000 + PAGE_SIZE * (k + 1))
      (by rw [hAddr]; dsimp only; omega)
      (by
        dsimp only
        rw [hLoc, hMax]
        unfold PAGE_SIZE
        omega) with
    ⟨s₁, hFree, hLow', hLoc', hMax'⟩
  have hStep :=
    @Step.seed ⟨s, [], seedFrames k, seedFrames k⟩ s₁
      (0x400000 + PAGE_SIZE * (k + 1))
      (by unfold PAGE_SIZE; omega)
      (by
        rw [hAddr]
        intro hMem
        have hLe := le_of_mem_seedFrames hMem
        unfold PAGE_SIZE at hLe
        omega)
      (hFree pmmAllocPage)
  rw [hAddr] at hStep
  refine ⟨s₁, hFree pmmAllocPage,
    { reach := .step hSeeded.reach hStep
      location := ?_
      stackLoc := ?_
      stackMax := hMax'.trans hMax }⟩
  · rw [hLow']
    exact hLow
  · rw [hLoc']
    dsimp only
    rw [hLoc]
    omega

/-
  The first frame that is freed becomes storage, the second
  one is pushed, and a call pops it again.
-/
theorem paged_sound_seeded :
    ∃ m s₁ s₂ f s₃,
      Vmm.initVmm.run bootMachine = .ok () m ∧
        (pmmFreePage pmmAllocPage 0x400000).run (startState m) =
          .ok () s₁ ∧
        (pmmFreePage pmmAllocPage 0x401000).run s₁ =
          .ok () s₂ ∧
        s₂.stackLoc = PMM_STACK_START + 4 ∧
        pmmAllocPage.run s₂ = .ok f s₃ ∧
        s₃.stackLoc = PMM_STACK_START ∧
        Sound s₃ := by
  rcases Vmm.initVmm_total rfl goodFrames_bootMachine
    (by rw [length_bootMachine]; decide) with ⟨m, hInit⟩
  rcases seeded_first hInit with ⟨s₁, hFirst, hSeeded₁⟩
  rcases hSeeded₁.more (by decide) with ⟨s₂, hSecond, hSeeded⟩
  rcases reachable_inv hSeeded.reach with
    ⟨dir, t, u, entries, storage, hInv⟩
  have hLoc := hSeeded.stackLoc
  rcases hInv.alloc_cases with ⟨hNone, _⟩ | ⟨_, f, hAlloc⟩
  · have hEmpty := hInv.bounds.1
    rw [hNone] at hEmpty
    exact absurd (hLoc.symm.trans hEmpty) (by decide)
  · refine ⟨m, s₁, s₂, f, _, hInit, hFirst, hSecond, hLoc,
      hAlloc, ?_, paged_sound (.step hSeeded.reach
        (.alloc hAlloc))⟩
    dsimp only
    rw [hLoc]
    rfl

end Paged

end SosKernel
