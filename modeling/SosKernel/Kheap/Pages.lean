import Mathlib.Data.List.Infix
import SosKernel.Pmm.Paged
import SosKernel.Vmm.HeapTables

/-
  The pages of the heap: the loops of `alloc_chunk` and
  `free_chunk` over the page tables and the allocator.

  Main declarations:
    * `State`, `allocChunk`, `releaseLoop`
    * `Event`, `replay`: which frames the heap holds
    * `Start`, `Step`: runs of the heap's pages
    * `Grown`, `Shrunk`: what the calls do
    * `Sound`
    * `heap_pages_sound`
-/

------------------------------------------------------------
-- The Loops
------------------------------------------------------------

namespace SosKernel

namespace Kheap

namespace Pages

open Paged (PagedM)

/-
  The heap takes the frame from the allocator for the page at
  `va`, or gives it back.
-/
inductive Event where
| took (va frame : Nat)
| gave (va frame : Nat)
deriving DecidableEq, Repr

/-
  The allocator over the page tables, with the owners of the
  frames, and `kheap_max`.  The owners and `log` are what a
  reader follows the frames by; no branch depends on them.
-/
structure State where
  pmm : Paged.Config
  kheapMax : Nat
  log : List Event

abbrev PagesM := EStateM Stop State

/- A computation that does not use `kheap_max`. -/
def onAllocator {α : Type} (x : PagedM α) : PagesM α := fun s =>
  match x.run s.pmm.state with
  | .ok a t =>
      .ok a { s with pmm := { s.pmm with state := t } }
  | .error e t =>
      .error e { s with pmm := { s.pmm with state := t } }

/- `pmm_alloc_page`, for the page at `va`. -/
def takePage (va : Nat) : PagesM Nat := do
  let page ← onAllocator Paged.pmmAllocPage
  modify fun s =>
    { s with
      pmm :=
        { s.pmm with
          owned := page :: s.pmm.owned
          freed := s.pmm.freed.filter (· ≠ page) }
      log := s.log ++ [.took va page] }
  return page

/- `pmm_free_page`, for the page at `va`. -/
def givePage (va page : Nat) : PagesM Unit := do
  onAllocator (Paged.pmmFreePage Paged.pmmAllocPage page)
  modify fun s =>
    { s with
      pmm :=
        { s.pmm with
          owned := s.pmm.owned.erase page
          freed := page :: s.pmm.freed }
      log := s.log ++ [.gave va page] }

/- The body of the loop of `alloc_chunk`. -/
def growPage : PagesM Unit := do
  let kheapMax := (← get).kheapMax
  let page ← takePage kheapMax
  onAllocator
    (Paged.map Paged.pmmAllocPage kheapMax page
      (Vmm.PAGE_PRESENT ||| Vmm.PAGE_WRITE))
  modify fun s =>
    { s with kheapMax := add32 s.kheapMax PAGE_SIZE }

def growLoop : Nat → Nat → PagesM Unit
| 0, _ => throw .hang
| fuel + 1, target => do
    if (← get).kheapMax < target then
      growPage
      growLoop fuel target

def allocChunk (fuel start len : Nat) : PagesM Unit := do
  if sub32 KHEAP_END start < len then
    throw (.panic "Heap: out of memory.")
  growLoop fuel (add32 start len)

/- `get_mapping`; without one `page` would not be set. -/
def mappedFrame (va : Nat) : PagesM Nat := do
  match ← onAllocator (Paged.onMachine (Vmm.getMapping va)) with
  | none => throw (.badPointer va)
  | some page => return page

/- The body of the loop of `free_chunk`. -/
def releasePage : PagesM Unit := do
  modify fun s =>
    { s with kheapMax := sub32 s.kheapMax PAGE_SIZE }
  let kheapMax := (← get).kheapMax
  let page ← mappedFrame kheapMax
  givePage kheapMax page
  onAllocator (Paged.onMachine (Vmm.unmap kheapMax))

def releaseLoop : Nat → Nat → PagesM Unit
| 0, _ => throw .hang
| fuel + 1, chunk => do
    if chunk ≤ sub32 (← get).kheapMax PAGE_SIZE then
      releasePage
      releaseLoop fuel chunk

------------------------------------------------------------
-- Runs
------------------------------------------------------------

/-
  What the heap holds after an event.  A frame is taken for a
  page that has none, and it is given back for the page that
  it was taken for.
-/
def Event.apply (held : List (Nat × Nat)) :
    Event → Option (List (Nat × Nat))
| .took va frame =>
    if ∀ p ∈ held, p.1 ≠ va ∧ p.2 ≠ frame then
      some (held ++ [(va, frame)])
    else
      none
| .gave va frame =>
    if (va, frame) ∈ held then
      some (held.erase (va, frame))
    else
      none

/-
  The pages that the heap holds with their frames, if every
  frame in the log was given back at most once.
-/
def replay (log : List Event) : Option (List (Nat × Nat)) :=
  log.foldlM Event.apply []

/- `init_vmm` has returned, and the heap has no page. -/
def Start (s : State) : Prop :=
  Paged.AfterInit s.pmm ∧ s.kheapMax = KHEAP_START ∧ s.log = []

/-
  A call that returned, or a step of the other owners of
  frames, who do not free the frames of the heap.
-/
inductive Step : State → State → Prop where
| alloc
    {s s' : State}
    (fuel start len : Nat)
    (hStart : KHEAP_START ≤ start)
    (hMax : start ≤ s.kheapMax)
    (hLen : len < 2 ^ 32)
    (hRun : (allocChunk fuel start len).run s = .ok () s') :
    Step s s'
| release
    {s s' : State}
    (fuel chunk : Nat)
    (hStart : KHEAP_START ≤ chunk)
    (hMax : chunk < s.kheapMax)
    (hRun : (releaseLoop fuel chunk).run s = .ok () s') :
    Step s s'
| others
    {s : State}
    {pmm : Paged.Config}
    (hStep : Paged.Step s.pmm pmm)
    (hHeap :
      ∀ held, replay s.log = some held →
        ∀ p ∈ held, p.2 ∈ pmm.owned) :
    Step s { s with pmm := pmm }

/- The frame of the page at `va` in the current directory. -/
def State.frameAt (s : State) (va : Nat) : Option Nat :=
  s.pmm.state.machine.translate va

/- The pages from `lo` on, with their frames. -/
def pagesFrom (lo : Nat) (frames : List Nat) :
    List (Nat × Nat) :=
  frames.mapIdx fun k f => (lo + PAGE_SIZE * k, f)

/-
  The heap goes up to `target`, and no page further.  Each
  page that is new has got one of the frames.
-/
structure Grown
    (s s' : State)
    (target : Nat)
    (frames : List Nat) : Prop where
  reached : target ≤ s'.kheapMax
  least :
    s'.kheapMax = s.kheapMax ∨ s'.kheapMax < target + PAGE_SIZE
  max : s'.kheapMax = s.kheapMax + PAGE_SIZE * frames.length
  log :
    s'.log =
      s.log ++
        (pagesFrom s.kheapMax frames).map fun p =>
          .took p.1 p.2
  owned : s'.pmm.owned = frames.reverse ++ s.pmm.owned
  mapped :
    ∀ p ∈ pagesFrom s.kheapMax frames,
      s'.frameAt p.1 = some p.2
  kept :
    ∀ a, KHEAP_START ≤ a → a < s.kheapMax →
      s'.frameAt a = s.frameAt a

/-
  The heap goes down to the page boundary at or above
  `chunk`.  The frame of each page that is gone was given
  back, the last page first.
-/
structure Shrunk
    (s s' : State)
    (chunk : Nat)
    (frames : List Nat) : Prop where
  above : chunk ≤ s'.kheapMax
  least : s'.kheapMax < chunk + PAGE_SIZE
  max : s.kheapMax = s'.kheapMax + PAGE_SIZE * frames.length
  log :
    s'.log =
      s.log ++
        (pagesFrom s'.kheapMax frames).reverse.map fun p =>
          .gave p.1 p.2
  freed : s'.pmm.freed = frames ++ s.pmm.freed
  mapped :
    ∀ p ∈ pagesFrom s'.kheapMax frames,
      s.frameAt p.1 = some p.2
  kept :
    ∀ a, KHEAP_START ≤ a → a < s'.kheapMax →
      s'.frameAt a = s.frameAt a

/- The frames that `pmm_alloc_page` can still return. -/
def State.freeFrames (s : State) : Nat :=
  (s.pmm.state.stackLoc - PMM_STACK_START) / 4

/-
  The two panics that `alloc_chunk` may end in: the range of
  the heap ends below `target`, or there are too few frames
  for the pages up to it.
-/
def OutOfMemory (s : State) (target : Nat) (e : Stop) : Prop :=
  e = .panic "Heap: out of memory." ∧ KHEAP_END < target ∨
    e = .panic "PMM Stack: no free pages." ∧
      s.kheapMax + PAGE_SIZE * s.freeFrames < target

/-
  The boundary of the heap, the pages below it, the frames
  that the heap holds, and what each call does next.
-/
structure Sound (s : State) : Prop where
  aligned : s.kheapMax % PAGE_SIZE = 0
  start : KHEAP_START ≤ s.kheapMax
  fits : s.kheapMax ≤ KHEAP_END
  mapped :
    ∀ a, KHEAP_START ≤ a → a < KHEAP_END →
      ((s.frameAt a).isSome = true ↔ a < s.kheapMax)
  held :
    ∃ held, replay s.log = some held ∧
      ∀ va f, (va, f) ∈ held ↔
        KHEAP_START ≤ va ∧ va < KHEAP_END ∧
          va % PAGE_SIZE = 0 ∧ s.frameAt va = some f
  alloc :
    ∀ more start len, KHEAP_START ≤ start →
      start ≤ s.kheapMax → len < 2 ^ 32 →
        ((allocChunk (0xD001 + more) start len).run s).Sat
          (fun _ s' => ∃ frames, Grown s s' (start + len) frames)
          (fun e _ => OutOfMemory s (start + len) e)
  release :
    ∀ more chunk, KHEAP_START ≤ chunk → chunk < s.kheapMax →
      ∃ s' frames,
        (releaseLoop (0xD001 + more) chunk).run s =
            .ok () s' ∧
          Shrunk s s' chunk frames

------------------------------------------------------------
-- The Invariant
------------------------------------------------------------

variable {s s' : State}
variable {dir t u : Nat}
variable {entries storage tabs frames : List Nat}

/- The word for page `k` of the heap in its table. -/
def pageWord (frames : List Nat) (k : Nat) : Nat :=
  match frames[k]? with
  | some f => f + 3
  | none => 0

/- The pages of the heap with their frames. -/
def heldPages (frames : List Nat) : List (Nat × Nat) :=
  pagesFrom KHEAP_START frames

/-
  The tables `tabs` have an entry for each of the first pages
  of the heap, with the frames `frames`, and none for the
  others.
-/
structure Inv
    (s : State)
    (dir t u : Nat)
    (entries storage tabs frames : List Nat) : Prop where
  pmm : Paged.Inv s.pmm dir t u entries storage
  length_eq : tabs.length = 52
  tabs_nodup : tabs.Nodup
  tabs_low :
    ∀ w ∈ tabs, w % 4096 = 0 ∧ w < s.pmm.state.location
  tabs_apart : ∀ w ∈ tabs, w ≠ dir ∧ w ≠ t ∧ w ≠ u
  tables :
    ∀ i (hi : i < tabs.length),
      s.pmm.state.machine.ram.word dir (960 + i) =
        tabs[i] + 3
  words :
    ∀ k (hk : k / 1024 < tabs.length),
      s.pmm.state.machine.ram.word tabs[k / 1024]
          (k % 1024) = pageWord frames k
  max_eq : s.kheapMax = KHEAP_START + PAGE_SIZE * frames.length
  max_le : frames.length ≤ 0xD000
  nodup : frames.Nodup
  owned : ∀ f ∈ frames, f ∈ s.pmm.owned
  log : replay s.log = some (heldPages frames)

theorem Inv.kernel
    (hInv : Inv s dir t u entries storage tabs frames) :
    Vmm.KernelDirectory s.pmm.state.machine dir t u :=
  hInv.pmm.provided.kernel

/- The page table of page `k`, in the directory. -/
theorem Inv.entry
    (hInv : Inv s dir t u entries storage tabs frames)
    {k : Nat}
    (hk : k / 1024 < tabs.length) :
    s.pmm.state.machine.ram.entry dir
        ((KHEAP_START + PAGE_SIZE * k) / 2 ^ 22) =
      some tabs[k / 1024] := by
  have hWord := hInv.tables (k / 1024) hk
  have hIndex :
      (KHEAP_START + PAGE_SIZE * k) / 2 ^ 22 =
        960 + k / 1024 := by
    unfold KHEAP_START PAGE_SIZE
    omega
  rw [hIndex, ByteMemory.entry_of_word hWord]
  exact ByteMemory.entryFrame_add
    (hInv.tabs_low _ (List.getElem_mem hk)).1 (by decide)
    (by decide)

theorem page_index (k : Nat) :
    (KHEAP_START + PAGE_SIZE * k) / 4096 % 1024 =
      k % 1024 := by
  unfold KHEAP_START PAGE_SIZE
  omega

/- The frames of the heap can be handed out. -/
theorem Inv.frame
    (hInv : Inv s dir t u entries storage tabs frames)
    {f : Nat}
    (hf : f ∈ frames) :
    f % 4096 = 0 ∧ f < 2 ^ 32 ∧ s.pmm.state.location ≤ f := by
  have hOwned := hInv.owned f hf
  have hPage := hInv.pmm.owned.aligned f
    (List.mem_append_right _ hOwned)
  exact ⟨hPage.1, hPage.2, hInv.pmm.high f hOwned⟩

/- Where an access to page `k` of the heap goes. -/
theorem Inv.frameAt
    (hInv : Inv s dir t u entries storage tabs frames)
    {k offset : Nat}
    (hk : k < 0xD000)
    (hOffset : offset < 4096) :
    s.frameAt (KHEAP_START + PAGE_SIZE * k + offset) =
      frames[k]?.map (· + offset) := by
  have hKernel := hInv.kernel
  have hLength := hInv.length_eq
  have hTable : k / 1024 < tabs.length := by omega
  have hEntry := hInv.entry hTable
  have hWord := hInv.words k hTable
  have hPage :
      (KHEAP_START + PAGE_SIZE * k + offset) / 4096 / 1024 =
        (KHEAP_START + PAGE_SIZE * k) / 2 ^ 22 := by
    unfold KHEAP_START PAGE_SIZE
    omega
  have hIndex :
      (KHEAP_START + PAGE_SIZE * k + offset) / 4096 % 1024 =
        k % 1024 := by
    unfold KHEAP_START PAGE_SIZE
    omega
  have hRest :
      (KHEAP_START + PAGE_SIZE * k + offset) % 4096 =
        offset := by
    unfold KHEAP_START PAGE_SIZE
    omega
  rw [← hPage] at hEntry
  have hPageAt :
      s.pmm.state.machine.ram.pageAt dir
          ((KHEAP_START + PAGE_SIZE * k + offset) / 4096) =
        frames[k]? := by
    rw [ByteMemory.pageAt_of_entry hEntry, hIndex,
      ByteMemory.entry_of_word hWord]
    unfold pageWord
    cases hFrame : frames[k]? with
    | none => rfl
    | some f =>
        exact ByteMemory.entryFrame_add
          (hInv.frame (List.mem_of_getElem? hFrame)).1
          (by decide) (by decide)
  unfold State.frameAt
  rw [Paged.translate_eq hKernel]
  unfold Pmm.State.physical
  have hMapping :
      s.pmm.state.state.mapping
          ((KHEAP_START + PAGE_SIZE * k + offset) /
            PAGE_SIZE) = frames[k]? := by
    rw [← hPageAt, ← hKernel.root]
    rfl
  have hMod :
      (KHEAP_START + PAGE_SIZE * k + offset) % PAGE_SIZE =
        offset := hRest
  rw [hMapping, hMod]

theorem Inv.frameAt_page
    (hInv : Inv s dir t u entries storage tabs frames)
    {k : Nat}
    (hk : k < 0xD000) :
    s.frameAt (KHEAP_START + PAGE_SIZE * k) = frames[k]? := by
  have hAt := hInv.frameAt hk (show 0 < 4096 by decide)
  rw [Nat.add_zero] at hAt
  rw [hAt]
  cases frames[k]? with
  | none => rfl
  | some f => rfl

------------------------------------------------------------
-- One Store
------------------------------------------------------------

/- The allocator after a store to a page table. -/
def withWord
    (cfg : Paged.Config)
    (w i v : Nat) : Paged.Config :=
  { cfg with
    state :=
      { cfg.state with
        machine :=
          cfg.state.machine.withRam
            (cfg.state.machine.ram.setWord w i v) } }

/-
  A store to a table that is not one of the directory's own
  is nothing to the allocator.
-/
theorem storeTable
    {cfg : Paged.Config}
    {w i v : Nat}
    (hInv : Paged.Inv cfg dir t u entries storage)
    (hw : w % 4096 = 0)
    (hLow : w < cfg.state.location)
    (hApart : w ≠ dir ∧ w ≠ t ∧ w ≠ u)
    (hi : i < 1024) :
    Paged.Inv (withWord cfg w i v) dir t u entries
      storage := by
  have hProvided := hInv.provided
  have hKernel := hProvided.kernel
  have hSame :
      ∀ g, g % 4096 = 0 → g ≠ w →
        cfg.state.machine.ram.SameOn g (g + 4096)
          (cfg.state.machine.ram.setWord w i v) :=
    fun g hg hNe =>
      ByteMemory.sameOn_setWord _ _ hw hg hi hNe
  have hOwn :
      ∀ g, g = dir ∨ g = t ∨ g = u →
        cfg.state.machine.ram.SameOn g (g + 4096)
          (cfg.state.machine.ram.setWord w i v) := by
    rintro g (rfl | rfl | rfl)
    · exact hSame g (Paged.dir_aligned hKernel) hApart.1.symm
    · exact hSame g (Paged.t_aligned hKernel) hApart.2.1.symm
    · exact hSame g (Paged.u_aligned hKernel) hApart.2.2.symm
  have hFrame := Paged.kernelDirectory_frame hKernel hOwn
  refine ⟨⟨hFrame.1, hProvided.active, hProvided.dirLow,
    hProvided.tLow, hProvided.uLow⟩, ?_, hInv.high⟩
  refine hInv.owned.world
    (Paged.sparesStack hInv.owned.stacked ?_ ?_)
  · intro f hf
    have hfPage := (hInv.owned.aligned f (by
      apply List.mem_append_left
      exact List.mem_append_right entries hf)).1
    have hfAbove :=
      hInv.owned.above f (List.mem_append_right entries hf)
    apply hSame f hfPage
    have hfAbove' : cfg.state.location ≤ f := hfAbove
    omega
  · intro n hn
    have hMapped := hFrame.2 n hn
    rw [← hKernel.root] at hMapped
    exact hMapped

/- The log of the heap goes on. -/
theorem replay_append
    {log : List Event}
    {held : List (Nat × Nat)}
    (hLog : replay log = some held)
    (event : Event) :
    replay (log ++ [event]) = event.apply held := by
  unfold replay at hLog ⊢
  rw [List.foldlM_append, hLog]
  exact bind_pure (event.apply held)

theorem mem_pagesFrom
    {lo va f : Nat} :
    (va, f) ∈ pagesFrom lo frames ↔
      ∃ k, frames[k]? = some f ∧
        va = lo + PAGE_SIZE * k := by
  unfold pagesFrom
  rw [List.mem_mapIdx]
  constructor
  · rintro ⟨k, hk, hPair⟩
    cases hPair
    exact ⟨k, List.getElem?_eq_getElem hk, rfl⟩
  · rintro ⟨k, hFrame, rfl⟩
    rcases List.getElem?_eq_some_iff.mp hFrame with ⟨hk, rfl⟩
    exact ⟨k, hk, rfl⟩

theorem mem_heldPages
    {va f : Nat} :
    (va, f) ∈ heldPages frames ↔
      ∃ k, frames[k]? = some f ∧
        va = KHEAP_START + PAGE_SIZE * k :=
  mem_pagesFrom

theorem pagesFrom_cons (lo f : Nat) :
    pagesFrom lo (f :: frames) =
      (lo, f) :: pagesFrom (lo + PAGE_SIZE) frames := by
  have hNext :
      ∀ k, lo + PAGE_SIZE * (k + 1) =
        lo + PAGE_SIZE + PAGE_SIZE * k := by
    intro k
    unfold PAGE_SIZE
    omega
  unfold pagesFrom
  rw [List.mapIdx_cons]
  simp only [hNext, Nat.mul_zero, Nat.add_zero]

theorem pagesFrom_concat (lo f : Nat) :
    pagesFrom lo (frames ++ [f]) =
      pagesFrom lo frames ++
        [(lo + PAGE_SIZE * frames.length, f)] := by
  unfold pagesFrom
  rw [List.mapIdx_append]
  simp

theorem heldPages_append (f : Nat) :
    heldPages (frames ++ [f]) =
      heldPages frames ++
        [(KHEAP_START + PAGE_SIZE * frames.length, f)] :=
  pagesFrom_concat KHEAP_START f

/- A frame that is not held, for the page behind the last. -/
theorem apply_took
    {f : Nat}
    (hNew : f ∉ frames) :
    Event.apply (heldPages frames)
        (.took (KHEAP_START + PAGE_SIZE * frames.length) f) =
      some (heldPages (frames ++ [f])) := by
  rw [heldPages_append]
  refine if_pos ?_
  rintro ⟨va, g⟩ hMem
  rcases mem_heldPages.mp hMem with ⟨k, hFrame, rfl⟩
  rcases List.getElem?_eq_some_iff.mp hFrame with ⟨hk, rfl⟩
  refine ⟨?_, ?_⟩
  · dsimp only
    unfold PAGE_SIZE
    omega
  · rintro rfl
    exact hNew (List.getElem_mem hk)

/- The frame of the last page. -/
theorem apply_gave (f : Nat) :
    Event.apply (heldPages (frames ++ [f]))
        (.gave (KHEAP_START + PAGE_SIZE * frames.length) f) =
      some (heldPages frames) := by
  have hNot :
      (KHEAP_START + PAGE_SIZE * frames.length, f) ∉
        heldPages frames := by
    intro hMem
    rcases mem_heldPages.mp hMem with ⟨k, hFrame, hPage⟩
    rcases List.getElem?_eq_some_iff.mp hFrame with ⟨hk, _⟩
    unfold PAGE_SIZE at hPage
    omega
  rw [heldPages_append]
  refine (if_pos (List.mem_append_right _
    List.mem_cons_self)).trans ?_
  rw [List.erase_append_right _ hNot, List.erase_cons_head,
    List.append_nil]

------------------------------------------------------------
-- One Page
------------------------------------------------------------

theorem run_onAllocator
    {α : Type}
    {x : PagedM α}
    {a : α}
    {σ : Paged.Allocator}
    (hRun : x.run s.pmm.state = .ok a σ) :
    (onAllocator x).run s =
      .ok a { s with pmm := { s.pmm with state := σ } } := by
  change onAllocator x s = _
  unfold onAllocator
  rw [hRun]

theorem run_onAllocator_error
    {α : Type}
    {x : PagedM α}
    {e : Stop}
    {σ : Paged.Allocator}
    (hRun : x.run s.pmm.state = .error e σ) :
    (onAllocator x).run s =
      .error e { s with pmm := { s.pmm with state := σ } } := by
  change onAllocator x s = _
  unfold onAllocator
  rw [hRun]

/- Freeing a frame changes the storage of the stack only. -/
theorem free_keeps
    {cfg : Paged.Config}
    {p : Nat}
    (hInv : Paged.Inv cfg dir t u entries storage)
    (hWord : p < 2 ^ 32) :
    ∃ σ,
      (Paged.pmmFreePage Paged.pmmAllocPage p).run cfg.state =
          .ok () σ ∧
        σ.location = cfg.state.location ∧
        ∀ g, g % 4096 = 0 → g ∉ storage → g ≠ t → g ≠ u →
          cfg.state.machine.ram.SameOn g (g + 4096)
            σ.machine.ram := by
  have hKernel := hInv.provided.kernel
  rcases Nat.lt_or_ge (pageAddr p) cfg.state.location with
    hBelow | hAbove
  · exact ⟨_, Paged.run_free_below _ hBelow, rfl,
      fun g _ _ _ _ => ByteMemory.SameOn.refl _ _ _⟩
  · rcases Nat.lt_or_ge cfg.state.stackLoc
      cfg.state.stackMax with hSpace | hFull
    · rcases hInv.place hSpace with
        ⟨f, offset, hMem, hfAligned, hfAbove, hOffset, hAt⟩
      rw [← Paged.translate_eq hKernel] at hAt
      refine ⟨_, Paged.run_free_push _ hAbove hSpace hAt, rfl,
        ?_⟩
      intro g hg hNot _ _
      have hNe : g ≠ f := fun hSame => hNot (hSame ▸ hMem)
      apply ByteMemory.sameOn_write32
      omega
    · have hPage := hInv.room hFull
      rcases Paged.stackTable hKernel hPage with
        ⟨w, hEntry, hTable, _⟩
      refine ⟨_, Paged.run_free_map _ hKernel hWord hAbove hFull
        hPage hEntry, rfl, ?_⟩
      intro g hg _ hgt hgu
      apply ByteMemory.sameOn_setWord _ _
        (ByteMemory.entry_aligned hEntry) hg
        (Nat.mod_lt _ (by decide))
      rcases hTable with rfl | ⟨rfl, _⟩
      · exact hgu
      · exact hgt

/- Frames that were never given to the allocator. -/
theorem low_not_storage
    {cfg : Paged.Config}
    {g : Nat}
    (hInv : Paged.Inv cfg dir t u entries storage)
    (hLow : g < cfg.state.location) :
    g ∉ storage := fun hMem =>
  absurd
    (hInv.owned.above g (List.mem_append_right entries hMem))
    (Nat.not_le.mpr hLow)

/- Freeing a frame is nothing to the tables of the heap. -/
theorem free_low
    {cfg : Paged.Config}
    {p : Nat}
    (hInv : Paged.Inv cfg dir t u entries storage)
    (hWord : p < 2 ^ 32) :
    ∃ σ,
      (Paged.pmmFreePage Paged.pmmAllocPage p).run cfg.state =
          .ok () σ ∧
        σ.location = cfg.state.location ∧
        ∀ g, g % 4096 = 0 → g < cfg.state.location →
          g ≠ t → g ≠ u →
            cfg.state.machine.ram.SameOn g (g + 4096)
              σ.machine.ram := by
  rcases free_keeps hInv hWord with ⟨σ, hRun, hLoc, hSame⟩
  exact ⟨σ, hRun, hLoc, fun g hg hLow =>
    hSame g hg (low_not_storage hInv hLow)⟩

/- A page is mapped in a table that is there. -/
theorem run_map
    {cfg : Paged.Config}
    {va w f : Nat}
    (alloc : PagedM Nat)
    (hInv : Paged.Inv cfg dir t u entries storage)
    (hva : va < 2 ^ 32)
    (hEntry :
      cfg.state.machine.ram.entry dir (va / 2 ^ 22) = some w)
    (hLow : w < cfg.state.location)
    (hApart : w ≠ dir ∧ w ≠ t ∧ w ≠ u)
    (hf : f % 4096 = 0) :
    (Paged.map alloc va f
        (Vmm.PAGE_PRESENT ||| Vmm.PAGE_WRITE)).run cfg.state =
      .ok ()
        (withWord cfg w (va / 4096 % 1024) (f + 3)).state := by
  have hKernel := hInv.provided.kernel
  have hSelf := hKernel.self
  have hRecord := hSelf.current
  rw [hKernel.current] at hRecord
  have hw := ByteMemory.entry_aligned hEntry
  have hAfter :=
    (storeTable (v := f + 3) hInv hw hLow hApart
      (show va / 4096 % 1024 < 1024 by omega)).provided.kernel
  have hEntry' :
      (cfg.state.machine.ram.setWord w (va / 4096 % 1024)
          (f + 3)).entry dir (va / 2 ^ 22) = some w := by
    refine (ByteMemory.entry_congr ?_).trans hEntry
    exact ByteMemory.word_setWord_of_ne _ _ hw
      (Paged.dir_aligned hKernel) (by omega) (by omega)
      (.inl hApart.1.symm)
  have hValue :
      pageAddr f ||| Vmm.PAGE_PRESENT |||
          (Vmm.PAGE_PRESENT ||| Vmm.PAGE_WRITE) = f + 3 := by
    rw [Vmm.pageAddr_of_aligned hf, Nat.or_assoc]
    exact Vmm.or_flags hf (by decide)
  have hRead := Paged.run_onMachine_same hSelf.run_readCurrent
  have hLoad := Paged.run_onMachine_same (hSelf.loadAt hva)
  have hTable := hEntry
  rw [← hKernel.root] at hTable
  have hNe := Vmm.entry_ne_zero hTable
  rw [← Vmm.pgNum_div va] at hTable
  have hStore :=
    hSelf.tables.storeAt (v := f + 3) (Vmm.pgNum_lt hva) hTable
  rw [← hAfter.root] at hEntry'
  have hCheck :=
    Vmm.run_checkKernel hAfter.self.tables hRecord
      hAfter.self.tables hva hEntry' hEntry'
  unfold Paged.map
  dsimp only
  rw [EStateM.bind_of_ok hRead, EStateM.bind_of_ok hLoad,
    if_neg hNe, hValue]
  refine (EStateM.bind_of_ok
    (Paged.run_onMachine hStore)).trans ?_
  exact Paged.run_onMachine_same hCheck

/- A store to one page's word, as the other pages see it. -/
theorem word_store
    {ram : ByteMemory}
    {k k' v : Nat}
    (hNodup : tabs.Nodup)
    (hAligned : ∀ w ∈ tabs, w % 4096 = 0)
    (hk : k / 1024 < tabs.length)
    (hk' : k' / 1024 < tabs.length)
    (hv : v < 2 ^ 32) :
    (ram.setWord tabs[k / 1024] (k % 1024) v).word
        tabs[k' / 1024] (k' % 1024) =
      if k' = k then v
      else ram.word tabs[k' / 1024] (k' % 1024) := by
  split
  · next hSame =>
      subst hSame
      exact ByteMemory.word_setWord_self _ _ _ hv
  · next hNe =>
      refine ByteMemory.word_setWord_of_ne _ _
        (hAligned _ (List.getElem_mem hk))
        (hAligned _ (List.getElem_mem hk'))
        (Nat.mod_lt _ (by decide)) (Nat.mod_lt _ (by decide))
        ?_
      by_cases hTable : k' / 1024 = k / 1024
      · right
        omega
      · left
        intro hEq
        exact hTable ((hNodup.getElem_inj_iff).mp hEq)

theorem pageWord_append (f k : Nat) :
    pageWord (frames ++ [f]) k =
      if k = frames.length then f + 3 else pageWord frames k := by
  unfold pageWord
  by_cases hLast : k = frames.length
  · rw [if_pos hLast, hLast, List.getElem?_concat_length]
  · rw [if_neg hLast]
    rcases Nat.lt_or_ge k frames.length with hLt | hGe
    · rw [List.getElem?_append_left hLt]
    · have hEnd : (frames ++ [f]).length ≤ k := by
        rw [List.length_append, List.length_singleton]
        omega
      rw [List.getElem?_eq_none hEnd,
        List.getElem?_eq_none hGe]

/- The state after a frame has been taken. -/
def State.afterTake (s : State) (f loc : Nat) : State :=
  { s with
    pmm :=
      ⟨{ s.pmm.state with stackLoc := loc },
        f :: s.pmm.owned, s.pmm.freed.filter (· ≠ f),
        s.pmm.seeded⟩
    log := s.log ++ [.took s.kheapMax f] }

theorem run_takePage
    {f loc : Nat}
    (hRun :
      Paged.pmmAllocPage.run s.pmm.state =
        .ok f { s.pmm.state with stackLoc := loc }) :
    (takePage s.kheapMax).run s = .ok f (s.afterTake f loc) := by
  unfold takePage
  rw [EStateM.bind_of_ok (run_onAllocator hRun)]
  rfl

/- One page more, unless the allocator has no frame. -/
theorem Inv.growPage
    (hInv : Inv s dir t u entries storage tabs frames)
    (hRoom : frames.length < 0xD000) :
    entries = [] ∧
        (∃ s', Pages.growPage.run s =
          .error (.panic "PMM Stack: no free pages.") s') ∨
      ∃ s' f entries' storage',
        Pages.growPage.run s = .ok () s' ∧
          Inv s' dir t u entries' storage' tabs
              (frames ++ [f]) ∧
            entries.length = entries'.length + 1 ∧
            s'.log = s.log ++ [.took s.kheapMax f] ∧
            s'.pmm.owned = f :: s.pmm.owned ∧
            s'.pmm.state.location = s.pmm.state.location ∧
            ∀ g, g % 4096 = 0 → s.pmm.state.location ≤ g →
              s.pmm.state.machine.ram.SameOn g (g + 4096)
                s'.pmm.state.machine.ram := by
  unfold Pages.growPage
  rw [EStateM.bind_of_ok (EStateM.run_get s)]
  rcases hInv.pmm.alloc_cases with
    ⟨hEmpty, σ, hNone⟩ | ⟨hSome, f, hRun⟩
  · refine .inl ⟨hEmpty, ?_⟩
    have hTake :
        (takePage s.kheapMax).run s =
          .error (.panic "PMM Stack: no free pages.")
            { s with pmm := { s.pmm with state := σ } } :=
      EStateM.bind_of_error (run_onAllocator_error hNone)
    exact ⟨_, EStateM.bind_of_error hTake⟩
  · right
    rcases hInv.pmm.step (.alloc hRun) with
      ⟨entries', storage', hPmm⟩
    have hLength := hInv.length_eq
    have hTable : frames.length / 1024 < tabs.length := by
      omega
    have hMem := List.getElem_mem hTable
    have hMax := hInv.max_eq
    have hva : s.kheapMax < 2 ^ 32 := by
      unfold KHEAP_START PAGE_SIZE at hMax
      omega
    have hEntry := hInv.entry hTable
    rw [← hMax] at hEntry
    have hOwned :
        f ∈ (s.afterTake f
          (s.pmm.state.stackLoc - 4)).pmm.owned :=
      List.mem_cons_self
    have hPage := hPmm.owned.aligned f
      (List.mem_append_right _ hOwned)
    have hMap :=
      run_map Paged.pmmAllocPage hPmm hva hEntry
        (hInv.tabs_low _ hMem).2 (hInv.tabs_apart _ hMem)
        hPage.1
    have hIndex :
        s.kheapMax / 4096 % 1024 = frames.length % 1024 := by
      rw [hMax]
      exact page_index _
    rw [hIndex] at hMap
    have hRun₂ :
        (onAllocator
          (Paged.map Paged.pmmAllocPage s.kheapMax f
            (Vmm.PAGE_PRESENT ||| Vmm.PAGE_WRITE))).run
            (s.afterTake f (s.pmm.state.stackLoc - 4)) = _ :=
      run_onAllocator hMap
    rw [EStateM.bind_of_ok (run_takePage hRun),
      EStateM.bind_of_ok hRun₂]
    have hLeft : entries.length = entries'.length + 1 := by
      have hBefore := hInv.pmm.bounds.1
      have hAfter := hPmm.bounds.1
      have hPos := List.length_pos_of_ne_nil hSome
      dsimp only at hAfter
      omega
    refine ⟨_, f, entries', storage', rfl, ?_, hLeft, rfl,
      rfl, rfl, ?_⟩
    rotate_left
    · intro g hg hAbove
      have hw := hInv.tabs_low _ hMem
      exact ByteMemory.sameOn_setWord _ _ hw.1 hg
        (Nat.mod_lt _ (by decide)) (by omega)
    have hNew : f ∉ s.pmm.owned :=
      (List.nodup_cons.mp
        (List.nodup_append.mp hPmm.owned.nodup).2.1).1
    have hDirAligned := Paged.dir_aligned hInv.kernel
    refine
      { pmm := ?_
        length_eq := hLength
        tabs_nodup := hInv.tabs_nodup
        tabs_low := hInv.tabs_low
        tabs_apart := hInv.tabs_apart
        tables := ?_
        words := ?_
        max_eq := ?_
        max_le := ?_
        nodup := ?_
        owned := ?_
        log := ?_ }
    · exact storeTable hPmm (hInv.tabs_low _ hMem).1
        (hInv.tabs_low _ hMem).2 (hInv.tabs_apart _ hMem)
        (Nat.mod_lt _ (by decide))
    · intro i hi
      refine Eq.trans ?_ (hInv.tables i hi)
      exact ByteMemory.word_setWord_of_ne _ _
        (hInv.tabs_low _ hMem).1 hDirAligned
        (Nat.mod_lt _ (by decide)) (by omega)
        (.inl (hInv.tabs_apart _ hMem).1.symm)
    · intro k hk
      rw [pageWord_append, ← hInv.words k hk]
      exact word_store hInv.tabs_nodup
        (fun w hw => (hInv.tabs_low w hw).1) hTable hk
        (by
          have hLt := hPage.2
          have hAligned := hPage.1
          unfold PAGE_SIZE at hAligned
          omega)
    · change add32 s.kheapMax PAGE_SIZE = _
      rw [hMax, List.length_append, List.length_singleton,
        add32_of_lt (by
          unfold KHEAP_START PAGE_SIZE
          omega)]
      unfold PAGE_SIZE
      omega
    · rw [List.length_append, List.length_singleton]
      omega
    · rw [List.nodup_append]
      refine ⟨hInv.nodup, List.nodup_singleton f, ?_⟩
      intro g hg g' hg' hEq
      rw [List.mem_singleton] at hg'
      subst hg' hEq
      exact hNew (hInv.owned g hg)
    · intro g hg
      rcases List.mem_append.mp hg with hOld | hLast
      · exact List.mem_cons_of_mem f (hInv.owned g hOld)
      · rw [List.mem_singleton.mp hLast]
        exact hOwned
    · refine (replay_append hInv.log _).trans ?_
      rw [hMax]
      exact apply_took fun hMem =>
        hNew (hInv.owned f hMem)

/- The state after a frame has been given back. -/
def State.afterGive
    (s : State)
    (f : Nat)
    (σ : Paged.Allocator) : State :=
  { s with
    pmm :=
      ⟨σ, s.pmm.owned.erase f, f :: s.pmm.freed,
        s.pmm.seeded⟩
    log := s.log ++ [.gave s.kheapMax f] }

theorem run_givePage
    {f : Nat}
    {σ : Paged.Allocator}
    (hRun :
      (Paged.pmmFreePage Paged.pmmAllocPage f).run
        s.pmm.state = .ok () σ) :
    (givePage s.kheapMax f).run s =
      .ok () (s.afterGive f σ) := by
  unfold givePage
  rw [EStateM.bind_of_ok (run_onAllocator hRun)]
  rfl

/- The frame of the last page is looked up. -/
theorem Inv.run_mappedFrame
    {f : Nat}
    (hInv : Inv s dir t u entries storage tabs (frames ++ [f]))
    (s' : State)
    (hSame : s'.pmm = s.pmm) :
    (mappedFrame (KHEAP_START + PAGE_SIZE * frames.length)).run
        s' = .ok f s' := by
  have hKernel := hInv.kernel
  have hLe := hInv.max_le
  have hLength := hInv.length_eq
  rw [List.length_append, List.length_singleton] at hLe
  have hTable : frames.length / 1024 < tabs.length := by omega
  have hva :
      KHEAP_START + PAGE_SIZE * frames.length < 2 ^ 32 := by
    unfold KHEAP_START PAGE_SIZE
    omega
  have hEntry := hInv.entry hTable
  rw [← hKernel.root] at hEntry
  have hWord := hInv.words frames.length hTable
  have hPageWord :
      pageWord (frames ++ [f]) frames.length = f + 3 := by
    rw [pageWord_append, if_pos rfl]
  have hf :=
    hInv.frame (List.mem_append_right frames
      (List.mem_singleton.mpr rfl))
  have hMapping :
      Vmm.entryMapping (f + 3)
          (KHEAP_START + PAGE_SIZE * frames.length) =
        some f := by
    have hAddr : pageAddr (f + 3) = f := by
      unfold pageAddr PAGE_SIZE
      omega
    have hOffset :
        Vmm.pageFlags
          (KHEAP_START + PAGE_SIZE * frames.length) = 0 := by
      unfold Vmm.pageFlags KHEAP_START PAGE_SIZE
      omega
    unfold Vmm.entryMapping
    rw [if_pos (by omega), hAddr, hOffset,
      add32_of_lt (by omega)]
    rfl
  have hGet := hKernel.self.run_getMapping_table hva hEntry
  rw [page_index, hWord, hPageWord, hMapping] at hGet
  have hRun :
      (onAllocator (Paged.onMachine
        (Vmm.getMapping
          (KHEAP_START + PAGE_SIZE * frames.length)))).run s' =
        .ok (some f) s' := by
    rw [← hSame] at hGet
    exact run_onAllocator (Paged.run_onMachine_same hGet)
  unfold mappedFrame
  rw [EStateM.bind_of_ok hRun]
  rfl

/-
  Freeing one of the heap's frames changes neither the
  directory nor the heap's tables, nor what its frames hold.
-/
theorem Inv.run_free
    {f : Nat}
    (hInv : Inv s dir t u entries storage tabs frames)
    (hf : f ∈ frames) :
    ∃ σ,
      (Paged.pmmFreePage Paged.pmmAllocPage f).run
          s.pmm.state = .ok () σ ∧
        σ.location = s.pmm.state.location ∧
        (∀ w ∈ tabs, ∀ j, j < 1024 →
          σ.machine.ram.word w j =
            s.pmm.state.machine.ram.word w j) ∧
        (∀ j, j < 1024 →
          σ.machine.ram.word dir j =
            s.pmm.state.machine.ram.word dir j) ∧
        ∀ g ∈ frames,
          s.pmm.state.machine.ram.SameOn g (g + 4096)
            σ.machine.ram := by
  have hKernel := hInv.kernel
  rcases free_keeps hInv.pmm (hInv.frame hf).2.1 with
    ⟨σ, hFree, hLocation, hKeep⟩
  have hLow {g : Nat} (hLt : g < s.pmm.state.location) :=
    low_not_storage hInv.pmm hLt
  refine ⟨σ, hFree, hLocation, ?_, ?_, ?_⟩
  · intro w hw j hj
    rcases hInv.tabs_low w hw with ⟨hAligned, hLt⟩
    rcases hInv.tabs_apart w hw with ⟨_, hwt, hwu⟩
    exact (hKeep w hAligned (hLow hLt) hwt hwu).word hj
  · intro j hj
    exact (hKeep dir (Paged.dir_aligned hKernel)
      (hLow hInv.pmm.provided.dirLow) hKernel.t_ne.symm
      hKernel.u_ne.symm).word hj
  · -- the storage of the stack is none of the heap's frames
    intro g hg
    have hFrame := hInv.frame hg
    have hNot : g ∉ storage := fun hStorage =>
      (List.nodup_append.mp hInv.pmm.owned.nodup).2.2 g
        (List.mem_append_right entries hStorage) g
        (hInv.owned g hg) rfl
    have htLow := hInv.pmm.provided.tLow
    have huLow := hInv.pmm.provided.uLow
    exact hKeep g hFrame.1 hNot (by omega) (by omega)

/- The last page goes, and its frame with it. -/
theorem Inv.releasePage
    {f : Nat}
    (hInv : Inv s dir t u entries storage tabs
      (frames ++ [f])) :
    ∃ s' entries' storage',
      Pages.releasePage.run s = .ok () s' ∧
        Inv s' dir t u entries' storage' tabs frames ∧
          s'.log = s.log ++ [.gave s'.kheapMax f] ∧
          s'.pmm.freed = f :: s.pmm.freed ∧
          ∀ g ∈ frames,
            s.pmm.state.machine.ram.SameOn g (g + 4096)
              s'.pmm.state.machine.ram := by
  have hKernel := hInv.kernel
  have hLength := hInv.length_eq
  have hLe := hInv.max_le
  rw [List.length_append, List.length_singleton] at hLe
  have hTable : frames.length / 1024 < tabs.length := by omega
  have hMem := List.getElem_mem hTable
  have hIn : f ∈ frames ++ [f] :=
    List.mem_append_right frames (List.mem_singleton.mpr rfl)
  have hMax := hInv.max_eq
  rw [List.length_append, List.length_singleton] at hMax
  have hDown :
      sub32 s.kheapMax PAGE_SIZE =
        KHEAP_START + PAGE_SIZE * frames.length := by
    rw [hMax, sub32_of_le (by unfold PAGE_SIZE; omega)
      (by unfold KHEAP_START PAGE_SIZE; omega)]
    unfold PAGE_SIZE
    omega
  rcases hInv.run_free hIn with
    ⟨σ, hFree, hLocation, hTabs, hDir, hKeep⟩
  rcases hInv.pmm.step (.free f (hInv.owned f hIn) hFree) with
    ⟨entries', storage', hPmm⟩
  have hNodup := hInv.nodup
  rw [List.nodup_append] at hNodup
  have hNew : f ∉ frames := by
    intro hOld
    exact hNodup.2.2 f hOld f (List.mem_singleton.mpr rfl) rfl
  have hva :
      KHEAP_START + PAGE_SIZE * frames.length < 2 ^ 32 := by
    unfold KHEAP_START PAGE_SIZE
    omega
  have hEntry :
      σ.machine.ram.entry dir
          ((KHEAP_START + PAGE_SIZE * frames.length) /
            2 ^ 22) = some tabs[frames.length / 1024] :=
    (ByteMemory.entry_congr (hDir _ (by omega))).trans
      (hInv.entry hTable)
  have hUnmap :
      (Vmm.unmap
          (KHEAP_START + PAGE_SIZE * frames.length)).run
            σ.machine = _ :=
    hPmm.provided.kernel.self.run_unmap hva (by
      rw [hPmm.provided.kernel.root]
      exact hEntry)
  rw [page_index] at hUnmap
  let s₀ : State :=
    { s with
      kheapMax := KHEAP_START + PAGE_SIZE * frames.length }
  have hModify :
      (modify fun s =>
        { s with kheapMax := sub32 s.kheapMax PAGE_SIZE } :
          PagesM Unit).run s = .ok () s₀ := by
    change EStateM.Result.ok ()
      { s with kheapMax := sub32 s.kheapMax PAGE_SIZE } = _
    rw [hDown]
  have hGive :
      (givePage (KHEAP_START + PAGE_SIZE * frames.length)
        f).run s₀ = .ok () (s₀.afterGive f σ) :=
    run_givePage (s := s₀) hFree
  have hLast :
      (onAllocator (Paged.onMachine
        (Vmm.unmap
          (KHEAP_START + PAGE_SIZE * frames.length)))).run
            (s₀.afterGive f σ) = _ :=
    run_onAllocator (Paged.run_onMachine hUnmap)
  unfold Pages.releasePage
  rw [EStateM.bind_of_ok hModify,
    EStateM.bind_of_ok (EStateM.run_get s₀),
    EStateM.bind_of_ok (hInv.run_mappedFrame s₀ rfl),
    EStateM.bind_of_ok hGive, hLast]
  refine ⟨_, entries', storage', rfl, ?_, rfl, rfl, ?_⟩
  rotate_left
  · -- the table does not lie in the other frames
    intro g hg
    have hgIn := List.mem_append_left [f] hg
    have hgFrame := hInv.frame hgIn
    have hw := hInv.tabs_low _ hMem
    exact (hKeep g hgIn).trans
      (ByteMemory.sameOn_setWord _ _ hw.1 hgFrame.1
        (Nat.mod_lt _ (by decide)) (by omega))
  have hLow :
      ∀ w ∈ tabs, w % 4096 = 0 ∧ w < σ.location := by
    rw [hLocation]
    exact hInv.tabs_low
  refine
    { pmm := ?_
      length_eq := hLength
      tabs_nodup := hInv.tabs_nodup
      tabs_low := hLow
      tabs_apart := hInv.tabs_apart
      tables := ?_
      words := ?_
      max_eq := rfl
      max_le := by omega
      nodup := hNodup.1
      owned := ?_
      log := ?_ }
  · exact storeTable hPmm (hLow _ hMem).1 (hLow _ hMem).2
      (hInv.tabs_apart _ hMem) (Nat.mod_lt _ (by decide))
  · intro i hi
    refine Eq.trans ?_
      ((hDir (960 + i) (by omega)).trans (hInv.tables i hi))
    exact ByteMemory.word_setWord_of_ne _ _ (hLow _ hMem).1
      (Paged.dir_aligned hKernel) (Nat.mod_lt _ (by decide))
      (by omega) (.inl (hInv.tabs_apart _ hMem).1.symm)
  · intro k hk
    have hOld := hInv.words k hk
    rw [pageWord_append] at hOld
    refine (word_store hInv.tabs_nodup
      (fun w hw => (hLow w hw).1) hTable hk
      (by decide)).trans ?_
    by_cases hSameK : k = frames.length
    · rw [if_pos hSameK, hSameK]
      unfold pageWord
      rw [List.getElem?_eq_none (le_refl _)]
    · rw [if_neg hSameK] at hOld ⊢
      exact (hTabs _ (List.getElem_mem hk) _
        (Nat.mod_lt _ (by decide))).trans hOld
  · intro g hg
    refine (List.mem_erase_of_ne ?_).mpr
      (hInv.owned g (List.mem_append_left _ hg))
    rintro rfl
    exact hNew hg
  · exact (replay_append hInv.log _).trans (apply_gave f)

------------------------------------------------------------
-- What the Loops Do
------------------------------------------------------------

/- The invariant, for some frames. -/
def Kept (dir t u : Nat) (tabs : List Nat) (s : State) : Prop :=
  ∃ entries storage frames,
    Inv s dir t u entries storage tabs frames

/- What the loop of `alloc_chunk` does with any bound. -/
theorem Inv.growLoop
    {target : Nat}
    (hInv : Inv s dir t u entries storage tabs frames)
    (fuel : Nat)
    (hTarget : target ≤ KHEAP_END) :
    ((Pages.growLoop fuel target).run s).Sat
      (fun _ s' =>
        target ≤ s'.kheapMax ∧
          (s'.kheapMax = s.kheapMax ∨
            s'.kheapMax < target + PAGE_SIZE) ∧
          ∃ entries' storage' more,
            Inv s' dir t u entries' storage' tabs
                (frames ++ more) ∧
              s'.log =
                  s.log ++
                    (pagesFrom s.kheapMax more).map (fun p =>
                      .took p.1 p.2) ∧
                s'.pmm.owned = more.reverse ++ s.pmm.owned)
      (fun e _ =>
        e = .panic "PMM Stack: no free pages." ∧
            s.kheapMax + PAGE_SIZE * entries.length < target ∨
          e = .hang ∧ fuel + frames.length ≤ 0xD000) := by
  induction fuel generalizing s entries storage frames with
  | zero =>
      right
      have hLe := hInv.max_le
      exact ⟨rfl, by omega⟩
  | succ fuel ih =>
      have hMax := hInv.max_eq
      rw [Pages.growLoop,
        EStateM.bind_of_ok (EStateM.run_get s)]
      split
      · next hMore =>
          have hRoom : frames.length < 0xD000 := by
            unfold KHEAP_START PAGE_SIZE at hMax
            unfold KHEAP_END at hTarget
            omega
          rcases hInv.growPage hRoom with
            ⟨hEmpty, s', hNone⟩ |
              ⟨s', f, entries', storage', hRun, hInv', hLeft,
                hLog, hOwned, _⟩
          · rw [EStateM.bind_of_error hNone]
            refine .inl ⟨rfl, ?_⟩
            rw [hEmpty]
            exact hMore
          · have hNext :
                s'.kheapMax = s.kheapMax + PAGE_SIZE := by
              rw [hInv'.max_eq, hMax, List.length_append,
                List.length_singleton, Nat.mul_add,
                Nat.mul_one, Nat.add_assoc]
            rw [EStateM.bind_of_ok hRun]
            refine (ih hInv').imp ?_ ?_
            · rintro _ s'' ⟨hReached, hLeast, entries'',
                storage'', more, hInv'', hLog', hOwned'⟩
              refine ⟨hReached, .inr ?_, entries'', storage'',
                f :: more, ?_, ?_, ?_⟩
              · rcases hLeast with hSame | hLt
                · omega
                · exact hLt
              · rw [List.append_cons]
                exact hInv''
              · rw [hLog', hLog, hNext, pagesFrom_cons,
                  List.map_cons, List.append_assoc]
                rfl
              · rw [hOwned', hOwned, List.reverse_cons,
                  List.append_assoc]
                rfl
            · rintro e _ (⟨hPanic, hShort⟩ | ⟨hHang, hFuel⟩)
              · rw [hNext] at hShort
                refine .inl ⟨hPanic, ?_⟩
                rw [hLeft]
                unfold PAGE_SIZE at hShort ⊢
                omega
              · rw [List.length_append,
                  List.length_singleton] at hFuel
                exact .inr ⟨hHang, by omega⟩
      · next hDone =>
          refine ⟨Nat.le_of_not_lt hDone, .inl rfl, entries,
            storage, [], ?_, ?_, rfl⟩
          · rw [List.append_nil]
            exact hInv
          · exact (List.append_nil s.log).symm

/- What the loop of `free_chunk` does with any bound. -/
theorem Inv.releaseLoop
    {chunk : Nat}
    (hInv : Inv s dir t u entries storage tabs frames)
    (fuel : Nat)
    (hStart : KHEAP_START ≤ chunk)
    (hMax : chunk ≤ s.kheapMax) :
    ((Pages.releaseLoop fuel chunk).run s).Sat
      (fun _ s' =>
        chunk ≤ s'.kheapMax ∧
          s'.kheapMax < chunk + PAGE_SIZE ∧
          ∃ entries' storage' rest gone,
            frames = rest ++ gone ∧
              Inv s' dir t u entries' storage' tabs rest ∧
              s'.log =
                  s.log ++
                    (pagesFrom s'.kheapMax gone).reverse.map
                      (fun p => .gave p.1 p.2) ∧
                s'.pmm.freed = gone ++ s.pmm.freed)
      (fun e _ => e = .hang ∧ fuel ≤ frames.length) := by
  induction fuel generalizing s entries storage frames with
  | zero => exact ⟨rfl, Nat.zero_le _⟩
  | succ fuel ih =>
      have hEq := hInv.max_eq
      have hLe := hInv.max_le
      have hPage : PAGE_SIZE ≤ s.kheapMax := by
        unfold KHEAP_START at hEq
        unfold PAGE_SIZE at hEq ⊢
        omega
      have hDown :
          sub32 s.kheapMax PAGE_SIZE =
            s.kheapMax - PAGE_SIZE :=
        sub32_of_le hPage
          (by
            unfold KHEAP_START PAGE_SIZE at hEq
            omega)
      rw [Pages.releaseLoop,
        EStateM.bind_of_ok (EStateM.run_get s), hDown]
      split
      · next hMore =>
          rcases List.eq_nil_or_concat frames with
            hNil | ⟨rest, f, hFrames⟩
          · -- there is no page to release
            rw [hNil, List.length_nil] at hEq
            unfold KHEAP_START PAGE_SIZE at *
            omega
          · rw [List.concat_eq_append] at hFrames
            subst hFrames
            rcases hInv.releasePage with
              ⟨s', entries', storage', hRun, hInv', hLog,
                hFreed, _⟩
            have hEq' := hInv'.max_eq
            rw [List.length_append,
              List.length_singleton] at hEq
            rw [EStateM.bind_of_ok hRun]
            refine (ih hInv' ?_).imp ?_ ?_
            · unfold KHEAP_START PAGE_SIZE at *
              omega
            · rintro _ s'' ⟨hAbove, hLeast, entries'',
                storage'', rest', gone, hRest, hInv'', hLog',
                hFreed'⟩
              refine ⟨hAbove, hLeast, entries'', storage'',
                rest', gone ++ [f], ?_, hInv'', ?_, ?_⟩
              · rw [hRest, List.append_assoc]
              · have hTop :
                    s'.kheapMax =
                      s''.kheapMax + PAGE_SIZE * gone.length := by
                  rw [hEq', hInv''.max_eq, hRest,
                    List.length_append, Nat.mul_add,
                    Nat.add_assoc]
                rw [hLog', hLog, pagesFrom_concat,
                  List.reverse_append, List.map_append,
                  List.append_assoc, hTop]
                rfl
              · rw [hFreed', hFreed, List.append_assoc]
                rfl
            · rintro e _ ⟨hHang, hFuel⟩
              rw [List.length_append, List.length_singleton]
              exact ⟨hHang, by omega⟩
      · next hDone =>
          refine ⟨hMax, by omega, entries, storage, frames, [],
            (List.append_nil frames).symm, hInv, ?_, rfl⟩
          exact (List.append_nil s.log).symm

/- The pages of two states of the heap, one a part of the other. -/
theorem Inv.apart
    {entries' storage' more : List Nat}
    (hInv : Inv s dir t u entries storage tabs frames)
    (hInv' :
      Inv s' dir t u entries' storage' tabs (frames ++ more)) :
    s'.kheapMax = s.kheapMax + PAGE_SIZE * more.length ∧
      (∀ p ∈ pagesFrom s.kheapMax more,
        s'.frameAt p.1 = some p.2) ∧
      ∀ a, KHEAP_START ≤ a → a < s.kheapMax →
        s'.frameAt a = s.frameAt a := by
  have hMax := hInv.max_eq
  have hMax' := hInv'.max_eq
  have hLe := hInv'.max_le
  rw [List.length_append] at hMax' hLe
  rw [Nat.mul_add, ← Nat.add_assoc, ← hMax] at hMax'
  refine ⟨hMax', ?_, ?_⟩
  · rintro ⟨va, f⟩ hp
    rcases mem_pagesFrom.mp hp with ⟨k, hFrame, rfl⟩
    rcases List.getElem?_eq_some_iff.mp hFrame with ⟨hk, _⟩
    have hNumber : frames.length + k < 0xD000 := by omega
    have hAt := hInv'.frameAt_page hNumber
    rw [List.getElem?_append_right (Nat.le_add_right _ _),
      Nat.add_sub_cancel_left, hFrame, Nat.mul_add,
      ← Nat.add_assoc, ← hMax] at hAt
    exact hAt
  · intro a hLow hHigh
    have hSplit :
        a = KHEAP_START +
          PAGE_SIZE * ((a - KHEAP_START) / 4096) + a % 4096 := by
      unfold KHEAP_START PAGE_SIZE at *
      omega
    have hk : (a - KHEAP_START) / 4096 < frames.length := by
      unfold KHEAP_START PAGE_SIZE at *
      omega
    have hFits : (a - KHEAP_START) / 4096 < 0xD000 := by omega
    have hOffset := Nat.mod_lt a (show 0 < 4096 by decide)
    have hAt := hInv.frameAt hFits hOffset
    have hAt' := hInv'.frameAt hFits hOffset
    rw [← hSplit] at hAt hAt'
    rw [hAt, hAt', List.getElem?_append_left hk]

theorem Inv.max_bounds
    (hInv : Inv s dir t u entries storage tabs frames) :
    KHEAP_START ≤ s.kheapMax ∧ s.kheapMax ≤ KHEAP_END ∧
      s.kheapMax % PAGE_SIZE = 0 := by
  have hMax := hInv.max_eq
  have hLe := hInv.max_le
  unfold KHEAP_START KHEAP_END PAGE_SIZE at *
  omega

theorem Inv.allocChunk
    {start : Nat}
    (hInv : Inv s dir t u entries storage tabs frames)
    (fuel len : Nat)
    (hMax : start ≤ s.kheapMax) :
    ((Pages.allocChunk fuel start len).run s).Sat
      (fun _ s' =>
        (∃ more, Grown s s' (start + len) more) ∧
          Kept dir t u tabs s')
      (fun e _ =>
        OutOfMemory s (start + len) e ∨
          e = .hang ∧ fuel + frames.length ≤ 0xD000) := by
  have hFits := hInv.max_bounds.2.1
  have hLeft : sub32 KHEAP_END start = KHEAP_END - start :=
    sub32_of_le (by omega) (by decide)
  unfold Pages.allocChunk
  rw [hLeft]
  split
  · next hLen => exact .inl (.inl ⟨rfl, by omega⟩)
  · next hLen =>
      have hEnd : start + len ≤ KHEAP_END := by omega
      have hSum : add32 start len = start + len :=
        add32_of_lt (by
          unfold KHEAP_END at hEnd
          omega)
      have hFree : s.freeFrames = entries.length := by
        have hLoc := hInv.pmm.bounds.1
        unfold State.freeFrames
        omega
      rw [hSum]
      refine (hInv.growLoop fuel hEnd).imp ?_ ?_
      · rintro _ s' ⟨hReached, hLeast, entries', storage',
          more, hInv', hLog, hOwned⟩
        rcases hInv.apart hInv' with ⟨hTop, hMapped, hKept⟩
        exact ⟨⟨more, hReached, hLeast, hTop, hLog, hOwned,
          hMapped, hKept⟩, entries', storage', _, hInv'⟩
      · rintro e _ (⟨hPanic, hShort⟩ | hHang)
        · refine .inl (.inr ⟨hPanic, ?_⟩)
          rw [hFree]
          exact hShort
        · exact .inr hHang

/- A call of the loop of `free_chunk`. -/
theorem Inv.shrinks
    {chunk : Nat}
    (hInv : Inv s dir t u entries storage tabs frames)
    (fuel : Nat)
    (hStart : KHEAP_START ≤ chunk)
    (hMax : chunk ≤ s.kheapMax) :
    ((Pages.releaseLoop fuel chunk).run s).Sat
      (fun _ s' =>
        (∃ gone, Shrunk s s' chunk gone) ∧ Kept dir t u tabs s')
      (fun e _ => e = .hang ∧ fuel ≤ frames.length) := by
  refine (hInv.releaseLoop fuel hStart hMax).imp ?_
    (fun _ _ h => h)
  rintro _ s' ⟨hAbove, hLeast, entries', storage', rest, gone,
    rfl, hInv', hLog, hFreed⟩
  rcases hInv'.apart hInv with ⟨hTop, hMapped, hKept⟩
  exact ⟨⟨gone, hAbove, hLeast, hTop, hLog, hFreed, hMapped,
    fun a hLow hHigh => (hKept a hLow hHigh).symm⟩,
    entries', storage', rest, hInv'⟩

------------------------------------------------------------
-- Runs Keep the Invariant
------------------------------------------------------------

/- The other owners do not touch the low page tables. -/
theorem others_low
    {cfg cfg' : Paged.Config}
    (hInv : Paged.Inv cfg dir t u entries storage)
    (hStep : Paged.Step cfg cfg') :
    cfg'.state.location = cfg.state.location ∧
      ∀ g, g % 4096 = 0 → g < cfg.state.location →
        g ≠ t → g ≠ u →
          cfg.state.machine.ram.SameOn g (g + 4096)
            cfg'.state.machine.ram := by
  have hKernel := hInv.provided.kernel
  cases hStep with
  | alloc hRun =>
      rcases Paged.state_alloc hKernel hInv.provided.active hRun
        with ⟨_, loc, rfl⟩
      exact ⟨rfl, fun g _ _ _ _ =>
        ByteMemory.SameOn.refl _ _ _⟩
  | free p hMem hRun =>
      have hFrame := hInv.owned.aligned p
        (List.mem_append_right _ hMem)
      rcases free_low hInv hFrame.2 with
        ⟨σ, hRun', hLocation, hSame⟩
      cases hRun'.symm.trans hRun
      exact ⟨hLocation, hSame⟩
  | seed p hWord hNew hRun =>
      rcases free_low hInv hWord with
        ⟨σ, hRun', hLocation, hSame⟩
      cases hRun'.symm.trans hRun
      exact ⟨hLocation, hSame⟩
  | write ram hWrites =>
      refine ⟨rfl, ?_⟩
      intro g hg hLow _ _ x hLo hHi
      apply hWrites
      intro f hf hIn
      have hfPage := (hInv.owned.aligned f
        (List.mem_append_right _ hf)).1
      have hfHigh := hInv.high f hf
      unfold PAGE_SIZE at hIn hfPage
      omega

theorem Inv.others
    {pmm : Paged.Config}
    (hInv : Inv s dir t u entries storage tabs frames)
    (hStep : Paged.Step s.pmm pmm)
    (hHeap :
      ∀ held, replay s.log = some held →
        ∀ p ∈ held, p.2 ∈ pmm.owned) :
    Kept dir t u tabs { s with pmm := pmm } := by
  have hKernel := hInv.kernel
  rcases others_low hInv.pmm hStep with ⟨hLocation, hSame⟩
  rcases hInv.pmm.step hStep with ⟨entries', storage', hPmm⟩
  have hDir := hSame dir (Paged.dir_aligned hKernel)
    hInv.pmm.provided.dirLow hKernel.t_ne.symm
    hKernel.u_ne.symm
  have hLength := hInv.length_eq
  refine ⟨entries', storage', frames,
    { pmm := hPmm
      length_eq := hLength
      tabs_nodup := hInv.tabs_nodup
      tabs_low := ?_
      tabs_apart := hInv.tabs_apart
      tables := ?_
      words := ?_
      max_eq := hInv.max_eq
      max_le := hInv.max_le
      nodup := hInv.nodup
      owned := ?_
      log := hInv.log }⟩
  · intro w hw
    change _ ∧ w < pmm.state.location
    rw [hLocation]
    exact hInv.tabs_low w hw
  · intro i hi
    exact (hDir.word (by omega)).trans (hInv.tables i hi)
  · intro k hk
    have hMem := List.getElem_mem hk
    rcases hInv.tabs_low _ hMem with ⟨hAligned, hLow⟩
    rcases hInv.tabs_apart _ hMem with ⟨_, hwt, hwu⟩
    exact ((hSame _ hAligned hLow hwt hwu).word
      (Nat.mod_lt _ (by decide))).trans (hInv.words k hk)
  · intro f hf
    rcases List.getElem_of_mem hf with ⟨k, hk, rfl⟩
    exact hHeap _ hInv.log _
      (mem_heldPages.mpr
        ⟨k, List.getElem?_eq_getElem hk, rfl⟩)

/- `init_vmm` has left the heap's range empty. -/
theorem Start.kept
    (hStart : Start s) :
    ∃ dir t u tabs, Kept dir t u tabs s := by
  rcases hStart with ⟨hInit, hMax, hLog⟩
  rcases hInit.inv with ⟨dir, t, u, hPmm⟩
  rcases hInit with
    ⟨m, location, taken, more, hPaging, hAligned, hFits,
      hFrames, hRun, hMore, _, _, _, hLocation, _, _, _⟩
  have hGood : Vmm.GoodFrames m.frames := by
    rw [hFrames]
    exact Paged.goodFrames_bump hAligned hFits
  rcases Vmm.initVmm_heapTables hPaging hGood hRun with
    ⟨tabs, used, hUsed, hReady⟩
  have hKernel := hPmm.provided.kernel
  have hLength := hReady.length_eq
  have hUsed' := hUsed
  rw [hFrames] at hUsed'
  have hTaken : used.length = taken := by
    have hCount := congrArg List.length hUsed'
    rw [List.length_append, hMore] at hCount
    unfold Paged.bumpFrames at hCount
    rw [List.length_map, List.length_range] at hCount
    omega
  refine ⟨dir, t, u, tabs, [], [], [],
    { pmm := hPmm
      length_eq := hLength
      tabs_nodup := hReady.nodup
      tabs_low := ?_
      tabs_apart := hReady.apart dir t u hKernel
      tables := ?_
      words := ?_
      max_eq := hMax
      max_le := Nat.zero_le _
      nodup := List.nodup_nil
      owned := fun f hf => absurd hf List.not_mem_nil
      log := by
        rw [hLog]
        rfl }⟩
  · intro w hw
    have hIn := hReady.used w hw
    refine ⟨hGood.aligned w ?_, ?_⟩
    · rw [hUsed]
      exact List.mem_append_left _ hIn
    · rw [hLocation, ← hTaken]
      exact Paged.bumpFrames_taken hUsed' hIn
  · intro i hi
    rw [← hKernel.root]
    exact hReady.tables.entries i hi
  · intro k hk
    exact hReady.tables.empty _ (List.getElem_mem hk) _
      (Nat.mod_lt _ (by decide))

theorem Kept.step
    (hKept : Kept dir t u tabs s)
    (hStep : Step s s') :
    Kept dir t u tabs s' := by
  rcases hKept with ⟨entries, storage, frames, hInv⟩
  cases hStep with
  | alloc fuel start len hStart hMax hLen hRun =>
      have hSat := hInv.allocChunk fuel len hMax
      rw [hRun] at hSat
      exact hSat.2
  | release fuel chunk hStart hMax hRun =>
      have hSat :=
        hInv.shrinks fuel hStart (Nat.le_of_lt hMax)
      rw [hRun] at hSat
      exact hSat.2
  | others hStep hHeap => exact hInv.others hStep hHeap

/- What is mapped, and what the heap holds. -/
theorem Inv.mapped_iff
    (hInv : Inv s dir t u entries storage tabs frames)
    {a : Nat}
    (hLow : KHEAP_START ≤ a)
    (hHigh : a < KHEAP_END) :
    (s.frameAt a).isSome = true ↔ a < s.kheapMax := by
  have hMax := hInv.max_eq
  have hSplit :
      a = KHEAP_START + PAGE_SIZE * ((a - KHEAP_START) / 4096) +
        a % 4096 := by
    unfold KHEAP_START PAGE_SIZE at *
    omega
  have hk : (a - KHEAP_START) / 4096 < 0xD000 := by
    unfold KHEAP_START KHEAP_END at *
    omega
  have hAt :=
    hInv.frameAt hk (Nat.mod_lt a (show 0 < 4096 by decide))
  rw [← hSplit] at hAt
  rw [hAt, Option.isSome_map, Option.isSome_iff_ne_none,
    ne_eq, List.getElem?_eq_none_iff]
  unfold KHEAP_START PAGE_SIZE at *
  omega

theorem Inv.held_iff
    (hInv : Inv s dir t u entries storage tabs frames)
    (va f : Nat) :
    (va, f) ∈ heldPages frames ↔
      KHEAP_START ≤ va ∧ va < KHEAP_END ∧
        va % PAGE_SIZE = 0 ∧ s.frameAt va = some f := by
  have hLe := hInv.max_le
  rw [mem_heldPages]
  constructor
  · rintro ⟨k, hFrame, rfl⟩
    rcases List.getElem?_eq_some_iff.mp hFrame with ⟨hLt, _⟩
    have hk : k < 0xD000 := by omega
    refine ⟨?_, ?_, ?_, ?_⟩
    · omega
    · unfold KHEAP_START PAGE_SIZE KHEAP_END
      omega
    · unfold KHEAP_START PAGE_SIZE
      omega
    · rw [hInv.frameAt_page hk]
      exact hFrame
  · rintro ⟨hLow, hHigh, hPage, hFrame⟩
    have hSplit :
        va = KHEAP_START +
          PAGE_SIZE * ((va - KHEAP_START) / 4096) := by
      unfold KHEAP_START PAGE_SIZE at *
      omega
    have hk : (va - KHEAP_START) / 4096 < 0xD000 := by
      unfold KHEAP_START KHEAP_END at *
      omega
    rw [hSplit, hInv.frameAt_page hk] at hFrame
    exact ⟨_, hFrame, hSplit⟩

theorem Kept.sound
    (hKept : Kept dir t u tabs s) :
    Sound s := by
  rcases hKept with ⟨entries, storage, frames, hInv⟩
  rcases hInv.max_bounds with ⟨hStart, hFits, hAligned⟩
  have hLe := hInv.max_le
  refine
    { aligned := hAligned
      start := hStart
      fits := hFits
      mapped := fun a hLow hHigh => hInv.mapped_iff hLow hHigh
      held := ⟨_, hInv.log, hInv.held_iff⟩
      alloc := ?_
      release := ?_ }
  · intro more start len _ hMax _
    refine (hInv.allocChunk (0xD001 + more) len hMax).imp
      (fun _ _ h => h.1) ?_
    rintro e _ (hPanic | ⟨_, hFuel⟩)
    · exact hPanic
    · omega
  · intro more chunk hChunk hMax
    have hSat :=
      hInv.shrinks (0xD001 + more) hChunk (Nat.le_of_lt hMax)
    cases hRun :
        (Pages.releaseLoop (0xD001 + more) chunk).run s with
    | ok _ s' =>
        rw [hRun] at hSat
        rcases hSat.1 with ⟨gone, hShrunk⟩
        exact ⟨s', gone, rfl, hShrunk⟩
    | error e s' =>
        rw [hRun] at hSat
        have hFuel := hSat.2
        omega

/- The invariant holds in every run. -/
theorem reachable_kept
    (hReach : Reachable Start Step s) :
    ∃ dir t u tabs, Kept dir t u tabs s := by
  refine hReach.invariant (fun s hStart => hStart.kept) ?_
  rintro s s' _ ⟨dir, t, u, tabs, hKept⟩ hStep
  exact ⟨dir, t, u, tabs, hKept.step hStep⟩

/-
  In every run of `alloc_chunk` and of the loop of
  `free_chunk` after `init_vmm`, whatever the other owners of
  frames do: the boundary of the heap is a page boundary in
  its range, exactly the pages below it are mapped, the heap
  holds exactly the frames of these pages, and the next calls
  return.
-/
theorem heap_pages_sound
    (hReach : Reachable Start Step s) :
    Sound s := by
  rcases reachable_kept hReach with ⟨dir, t, u, tabs, hKept⟩
  exact hKept.sound

/- Before the heap has a page, only the others do something. -/
theorem reachable_others
    {cfg : Paged.Config}
    (hReach : Reachable Paged.AfterInit Paged.Step cfg) :
    Reachable Start Step ⟨cfg, KHEAP_START, []⟩ := by
  induction hReach with
  | start hStart => exact .start ⟨hStart, rfl, rfl⟩
  | step _ hStep ih =>
      refine .step ih (.others hStep ?_)
      intro held hReplay p hp
      cases hReplay
      cases hp

/- Two frames of RAM are on the stack of the allocator. -/
theorem exists_twoFree :
    ∃ s, Reachable Start Step s ∧ s.kheapMax = KHEAP_START ∧
      s.log = [] ∧ s.freeFrames = 2 := by
  rcases Vmm.initVmm_total rfl Paged.goodFrames_bootMachine
    (by rw [Paged.length_bootMachine]; decide) with ⟨m, hInit⟩
  rcases Paged.seeded_first hInit with ⟨s₁, _, hSeeded₁⟩
  rcases hSeeded₁.more (by decide) with ⟨s₂, _, hSeeded₂⟩
  rcases hSeeded₂.more (by decide) with ⟨s₃, _, hSeeded⟩
  refine ⟨_, reachable_others hSeeded.reach, rfl, rfl, ?_⟩
  unfold State.freeFrames
  rw [hSeeded.stackLoc]
  rfl

/-
  `alloc_chunk` takes two pages for 5000 bytes, and
  `free_chunk` gives the second one back.
-/
theorem heap_pages_sound_seeded :
    ∃ s s' s'' f g,
      Reachable Start Step s ∧
        (allocChunk 0xD001 KHEAP_START 5000).run s =
          .ok () s' ∧
        (releaseLoop 0xD001 (KHEAP_START + 16)).run s' =
          .ok () s'' ∧
        s''.log =
          [.took KHEAP_START f,
            .took (KHEAP_START + PAGE_SIZE) g,
            .gave (KHEAP_START + PAGE_SIZE) g] ∧
        s''.kheapMax = KHEAP_START + PAGE_SIZE ∧
        Sound s'' := by
  rcases exists_twoFree with ⟨s, hReach, hMax, hLog, hFree⟩
  have hAlloc :=
    (heap_pages_sound hReach).alloc 0 KHEAP_START 5000
      (Nat.le_refl _) (Nat.le_of_eq hMax.symm) (by decide)
  cases hRun :
      (allocChunk (0xD001 + 0) KHEAP_START 5000).run s with
  | error e s' =>
      rw [hRun] at hAlloc
      rcases hAlloc with ⟨_, hEnd⟩ | ⟨_, hShort⟩
      · exact absurd hEnd (by decide)
      · rw [hFree, hMax] at hShort
        exact absurd hShort (by decide)
  | ok _ s' =>
      rw [hRun] at hAlloc
      rcases hAlloc with ⟨taken, hGrown⟩
      have hReach' :=
        hReach.step
          (.alloc _ KHEAP_START 5000 (Nat.le_refl _)
            (Nat.le_of_eq hMax.symm) (by decide) hRun)
      have hTop := hGrown.max
      rw [hMax] at hTop
      have hTwo : taken.length = 2 := by
        have hReached := hGrown.reached
        have hLeast := hGrown.least
        unfold PAGE_SIZE at hTop hLeast
        omega
      rw [hTwo] at hTop
      rcases List.length_eq_two.mp hTwo with ⟨f, g, rfl⟩
      rcases (heap_pages_sound hReach').release 0
          (KHEAP_START + 16) (Nat.le_add_right _ _)
          (by rw [hTop]; decide) with
        ⟨s'', gone, hRelease, hShrunk⟩
      have hReach'' :=
        hReach'.step
          (.release _ (KHEAP_START + 16) (Nat.le_add_right _ _)
            (by rw [hTop]; decide) hRelease)
      have hSound := heap_pages_sound hReach''
      have hLess := hShrunk.max
      have hOne :
          gone.length = 1 ∧
            s''.kheapMax = KHEAP_START + PAGE_SIZE := by
        have hAbove := hShrunk.above
        have hLeast := hShrunk.least
        rw [hTop] at hLess
        unfold PAGE_SIZE at hLess hLeast ⊢
        omega
      rcases List.length_eq_one_iff.mp hOne.1 with ⟨g', rfl⟩
      -- the frame that is given back is the one for this page
      have hSame : g' = g := by
        have hTaken :=
          hGrown.mapped (KHEAP_START + PAGE_SIZE, g)
            (mem_pagesFrom.mpr ⟨1, rfl, by rw [hMax]; rfl⟩)
        have hGiven :=
          hShrunk.mapped (KHEAP_START + PAGE_SIZE, g')
            (mem_pagesFrom.mpr ⟨0, rfl, by rw [hOne.2]; rfl⟩)
        exact Option.some.inj (hGiven.symm.trans hTaken)
      subst hSame
      refine ⟨s, s', s'', f, g', hReach, hRun, hRelease, ?_,
        hOne.2, hSound⟩
      rw [hShrunk.log, hGrown.log, hLog, hMax, hOne.2]
      rfl

end Pages

end Kheap

end SosKernel
