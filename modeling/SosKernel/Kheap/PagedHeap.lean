import SosKernel.Kheap.Model
import SosKernel.Kheap.Pages

/-
  The heap over its bytes is what the page tables and the
  memory show: each loop over the tables and the allocator is
  a run of the loop over the bytes.

  Main declarations:
    * `Shows`: the heap's pages and bytes
    * `Matches.grow`, `Matches.shrink`: one page
    * `allocChunk_refines`, `shrinkHeap_refines`
-/

------------------------------------------------------------
-- What the Tables Show
------------------------------------------------------------

namespace SosKernel

namespace Kheap

namespace Pages

/-
  The heap has the boundary, the pages, and the bytes that an
  access to its range finds.
-/
structure Shows (s : State) (h : Heap) : Prop where
  max : h.kheapMax = s.kheapMax
  mapping :
    ∀ va, KHEAP_START ≤ va → va < KHEAP_END →
      va % PAGE_SIZE = 0 →
        h.mapping (va / PAGE_SIZE) = s.frameAt va
  mem :
    ∀ a pa, KHEAP_START ≤ a → a < KHEAP_END →
      s.frameAt a = some pa →
        h.mem a = s.pmm.state.machine.ram pa

/- A new page will show what the frame holds. -/
def BringsBytes (s : State) (h : Heap) (f : Nat) : Prop :=
  ∀ i, i < PAGE_SIZE →
    h.frameBytes f i = s.pmm.state.machine.ram (f + i)

variable {s s' : State}
variable {h : Heap}
variable {dir t u : Nat}
variable {entries storage tabs frames : List Nat}

/- Pages and bytes by their numbers. -/
structure Matches
    (s : State)
    (frames : List Nat)
    (h : Heap) : Prop where
  max : h.kheapMax = s.kheapMax
  mapping :
    ∀ k, k < 0xD000 →
      h.mapping (KHEAP_START / PAGE_SIZE + k) = frames[k]?
  mem :
    ∀ k f, frames[k]? = some f → ∀ i, i < PAGE_SIZE →
      h.mem (KHEAP_START + PAGE_SIZE * k + i) =
        s.pmm.state.machine.ram (f + i)

theorem Inv.shows_iff
    (hInv : Inv s dir t u entries storage tabs frames) :
    Shows s h ↔ Matches s frames h := by
  have hLe := hInv.max_le
  constructor
  · intro hShows
    refine
      { max := hShows.max
        mapping := ?_
        mem := ?_ }
    · intro k hk
      have hMapping :=
        hShows.mapping (KHEAP_START + PAGE_SIZE * k)
          (Nat.le_add_right _ _)
          (by unfold KHEAP_START PAGE_SIZE KHEAP_END; omega)
          (by unfold KHEAP_START PAGE_SIZE; omega)
      have hNumber :
          (KHEAP_START + PAGE_SIZE * k) / PAGE_SIZE =
            KHEAP_START / PAGE_SIZE + k := by
        unfold KHEAP_START PAGE_SIZE
        omega
      rw [hInv.frameAt_page hk, hNumber] at hMapping
      exact hMapping
    · intro k f hFrame i hi
      rcases List.getElem?_eq_some_iff.mp hFrame with ⟨hk, _⟩
      have hAt := hInv.frameAt (by omega) hi (k := k)
      rw [hFrame] at hAt
      refine hShows.mem _ _ ?_ ?_ hAt
      · omega
      · unfold PAGE_SIZE at hi ⊢
        unfold KHEAP_START KHEAP_END
        omega
  · intro hMatches
    refine
      { max := hMatches.max
        mapping := ?_
        mem := ?_ }
    · intro va hLow hHigh hPage
      have hSplit :
          va = KHEAP_START +
            PAGE_SIZE * (va / PAGE_SIZE -
              KHEAP_START / PAGE_SIZE) := by
        unfold KHEAP_START PAGE_SIZE at *
        omega
      have hk :
          va / PAGE_SIZE - KHEAP_START / PAGE_SIZE < 0xD000 := by
        unfold KHEAP_START KHEAP_END PAGE_SIZE at *
        omega
      have hNumber :
          KHEAP_START / PAGE_SIZE +
              (va / PAGE_SIZE - KHEAP_START / PAGE_SIZE) =
            va / PAGE_SIZE := by
        unfold KHEAP_START PAGE_SIZE at *
        omega
      have hAt := hInv.frameAt_page hk
      have hMapping := hMatches.mapping _ hk
      rw [← hSplit] at hAt
      rw [hNumber] at hMapping
      rw [hAt, hMapping]
    · intro a pa hLow hHigh hAt
      have hSplit :
          a = KHEAP_START +
            PAGE_SIZE * ((a - KHEAP_START) / 4096) +
              a % 4096 := by
        unfold KHEAP_START PAGE_SIZE at *
        omega
      have hk : (a - KHEAP_START) / 4096 < 0xD000 := by
        unfold KHEAP_START KHEAP_END at *
        omega
      have hOffset := Nat.mod_lt a (show 0 < 4096 by decide)
      have hFrameAt := hInv.frameAt hk hOffset
      rw [← hSplit, hAt] at hFrameAt
      rcases Option.map_eq_some_iff.mp hFrameAt.symm with
        ⟨f, hFrame, rfl⟩
      have hMem := hMatches.mem _ _ hFrame _ hOffset
      rw [← hSplit] at hMem
      exact hMem

------------------------------------------------------------
-- One Page
------------------------------------------------------------

/- The heap with one page more. -/
def grownHeap (h : Heap) (f : Nat) (rest : List Nat) : Heap :=
  { h with
    mem := fun x =>
      if x / PAGE_SIZE = h.kheapMax / PAGE_SIZE then
        h.frameBytes f (x % PAGE_SIZE)
      else
        h.mem x
    mapping := fun page =>
      if page = h.kheapMax / PAGE_SIZE then
        some f
      else
        h.mapping page
    kheapMax := add32 h.kheapMax PAGE_SIZE
    frames := rest }

/- The heap without its last page. -/
def shrunkHeap (h : Heap) (f : Nat) : Heap :=
  { h with
    mapping := fun page =>
      if page = sub32 h.kheapMax PAGE_SIZE / PAGE_SIZE then
        none
      else
        h.mapping page
    kheapMax := sub32 h.kheapMax PAGE_SIZE
    freed := f :: h.freed }

theorem Matches.grow
    {f : Nat}
    (hMatches : Matches s frames h)
    (hInv : Inv s dir t u entries storage tabs frames)
    {entries' storage' : List Nat}
    (hInv' :
      Inv s' dir t u entries' storage' tabs (frames ++ [f]))
    (hBytes : BringsBytes s h f)
    (hSame :
      ∀ g ∈ frames ++ [f],
        s.pmm.state.machine.ram.SameOn g (g + 4096)
          s'.pmm.state.machine.ram)
    (rest : List Nat) :
    Matches s' (frames ++ [f]) (grownHeap h f rest) := by
  have hMax := hInv.max_eq
  have hMax' := hInv'.max_eq
  have hLe := hInv'.max_le
  rw [List.length_append, List.length_singleton] at hMax' hLe
  have hPage :
      h.kheapMax / PAGE_SIZE =
        KHEAP_START / PAGE_SIZE + frames.length := by
    rw [hMatches.max, hMax]
    unfold KHEAP_START PAGE_SIZE
    omega
  refine
    { max := ?_
      mapping := ?_
      mem := ?_ }
  · change add32 h.kheapMax PAGE_SIZE = _
    rw [hMatches.max, add32_of_lt]
    · rw [hMax', hMax]
      unfold PAGE_SIZE
      omega
    · rw [hMax]
      unfold KHEAP_START PAGE_SIZE
      omega
  · intro k hk
    change (if _ = _ then _ else _) = _
    rw [hPage]
    by_cases hLast : k = frames.length
    · rw [if_pos (by rw [hLast]), hLast,
        List.getElem?_concat_length]
    · rw [if_neg (by omega), hMatches.mapping k hk]
      rcases Nat.lt_or_ge k frames.length with hLt | hGe
      · rw [List.getElem?_append_left hLt]
      · rw [List.getElem?_eq_none hGe, List.getElem?_eq_none]
        rw [List.length_append, List.length_singleton]
        omega
  · intro k g hFrame i hi
    have hNumber :
        (KHEAP_START + PAGE_SIZE * k + i) / PAGE_SIZE =
          KHEAP_START / PAGE_SIZE + k := by
      unfold KHEAP_START PAGE_SIZE at *
      omega
    have hOffset :
        (KHEAP_START + PAGE_SIZE * k + i) % PAGE_SIZE = i := by
      unfold KHEAP_START PAGE_SIZE at *
      omega
    have hByte :=
      hSame g (List.mem_of_getElem? hFrame) (g + i)
        (Nat.le_add_right _ _)
        (by unfold PAGE_SIZE at hi; omega)
    change (if _ = _ then _ else _) = _
    rw [hByte, hPage, hNumber, hOffset]
    by_cases hLast : k = frames.length
    · rw [hLast, List.getElem?_concat_length] at hFrame
      cases hFrame
      rw [if_pos (by rw [hLast])]
      exact hBytes i hi
    · rcases Nat.lt_or_ge k frames.length with hLt | hGe
      · rw [List.getElem?_append_left hLt] at hFrame
        rw [if_neg (by omega)]
        exact hMatches.mem k g hFrame i hi
      · rw [List.getElem?_eq_none] at hFrame
        · cases hFrame
        · rw [List.length_append, List.length_singleton]
          omega

theorem Matches.shrink
    {f : Nat}
    (hMatches : Matches s (frames ++ [f]) h)
    (hInv :
      Inv s dir t u entries storage tabs (frames ++ [f]))
    {entries' storage' : List Nat}
    (hInv' : Inv s' dir t u entries' storage' tabs frames)
    (hSame :
      ∀ g ∈ frames,
        s.pmm.state.machine.ram.SameOn g (g + 4096)
          s'.pmm.state.machine.ram) :
    sub32 h.kheapMax PAGE_SIZE = s'.kheapMax ∧
      h.mapping (s'.kheapMax / PAGE_SIZE) = some f ∧
      Matches s' frames (shrunkHeap h f) := by
  have hMax := hInv.max_eq
  have hMax' := hInv'.max_eq
  have hLe := hInv.max_le
  rw [List.length_append, List.length_singleton] at hMax hLe
  have hDown : sub32 h.kheapMax PAGE_SIZE = s'.kheapMax := by
    rw [hMatches.max, hMax, hMax', sub32_of_le]
    · unfold PAGE_SIZE
      omega
    · unfold PAGE_SIZE
      omega
    · unfold KHEAP_START PAGE_SIZE
      omega
  have hPage :
      s'.kheapMax / PAGE_SIZE =
        KHEAP_START / PAGE_SIZE + frames.length := by
    rw [hMax']
    unfold KHEAP_START PAGE_SIZE
    omega
  refine ⟨hDown, ?_,
    { max := hDown
      mapping := ?_
      mem := ?_ }⟩
  · rw [hPage, hMatches.mapping _ (by omega),
      List.getElem?_concat_length]
  · intro k hk
    change (if _ = _ then _ else _) = _
    rw [hDown, hPage]
    by_cases hLast : k = frames.length
    · rw [if_pos (by rw [hLast]), hLast,
        List.getElem?_eq_none (Nat.le_refl _)]
    · rw [if_neg (by omega), hMatches.mapping k hk]
      rcases Nat.lt_or_ge k frames.length with hLt | hGe
      · rw [List.getElem?_append_left hLt]
      · rw [List.getElem?_eq_none hGe, List.getElem?_eq_none]
        rw [List.length_append, List.length_singleton]
        omega
  · intro k g hFrame i hi
    rcases List.getElem?_eq_some_iff.mp hFrame with ⟨hk, _⟩
    have hByte :=
      hSame g (List.mem_of_getElem? hFrame) (g + i)
        (Nat.le_add_right _ _)
        (by unfold PAGE_SIZE at hi; omega)
    rw [hByte]
    exact hMatches.mem k g
      ((List.getElem?_append_left hk).trans hFrame) i hi

------------------------------------------------------------
-- The Loops
------------------------------------------------------------

/- One page of the loop of `alloc_chunk`, over the bytes. -/
theorem run_growHeap_page
    {f target : Nat}
    {rest : List Nat}
    (fuel : Nat)
    (hFrames : h.frames = f :: rest)
    (hMore : h.kheapMax < target) :
    (growHeap (fuel + 1) target).run h =
      (growHeap fuel target).run (grownHeap h f rest) := by
  rw [growHeap, EStateM.bind_of_ok (EStateM.run_get h),
    if_pos hMore]
  have hAlloc :
      Kheap.pmmAllocPage.run h =
        .ok f { h with frames := rest } := by
    unfold Kheap.pmmAllocPage
    rw [EStateM.bind_of_ok (EStateM.run_get h), hFrames]
    rfl
  rw [EStateM.bind_of_ok hAlloc]
  rfl

/- The frames that are taken, and what becomes of the bytes. -/
theorem Inv.growLoop_shows
    {target : Nat}
    (hInv : Inv s dir t u entries storage tabs frames)
    (fuel : Nat)
    (hTarget : target ≤ KHEAP_END)
    (hRun : (Pages.growLoop fuel target).run s = .ok () s') :
    ∃ entries' storage' more,
      Inv s' dir t u entries' storage' tabs (frames ++ more) ∧
        s'.pmm.state.location = s.pmm.state.location ∧
          s'.log =
              s.log ++
                (pagesFrom s.kheapMax more).map (fun p =>
                  .took p.1 p.2) ∧
          ∀ h rest, Matches s frames h →
            h.frames = more ++ rest →
              (∀ f ∈ more, BringsBytes s h f) →
                ∃ h',
                  (growHeap fuel target).run h = .ok () h' ∧
                    Matches s' (frames ++ more) h' ∧
                    h'.frames = rest ∧ h'.freed = h.freed := by
  induction fuel generalizing s entries storage frames with
  | zero => cases hRun
  | succ fuel ih =>
      have hMax := hInv.max_eq
      rw [Pages.growLoop,
        EStateM.bind_of_ok (EStateM.run_get s)] at hRun
      by_cases hMore : s.kheapMax < target
      · rw [if_pos hMore] at hRun
        have hRoom : frames.length < 0xD000 := by
          unfold KHEAP_START PAGE_SIZE at hMax
          unfold KHEAP_END at hTarget
          omega
        rcases hInv.growPage hRoom with
          ⟨_, _, hNone⟩ |
            ⟨s₁, f, entries₁, storage₁, hPage, hInv₁, _, hLog,
              _, hLow, hSame⟩
        · rw [EStateM.bind_of_error hNone] at hRun
          cases hRun
        · rw [EStateM.bind_of_ok hPage] at hRun
          rcases ih hInv₁ hRun with
            ⟨entries', storage', more, hInv', hLow', hLog',
              hShows⟩
          have hNext :
              s₁.kheapMax = s.kheapMax + PAGE_SIZE := by
            rw [hInv₁.max_eq, hMax, List.length_append,
              List.length_singleton, Nat.mul_add, Nat.mul_one,
              Nat.add_assoc]
          -- the page tables lie below the frames
          have hKept :
              ∀ g ∈ frames ++ [f] ++ more,
                s.pmm.state.machine.ram.SameOn g (g + 4096)
                  s₁.pmm.state.machine.ram := by
            intro g hg
            rcases hInv'.frame hg with ⟨hAligned, _, hAbove⟩
            rw [hLow', hLow] at hAbove
            exact hSame g hAligned hAbove
          refine ⟨entries', storage', f :: more, ?_,
            hLow'.trans hLow, ?_, ?_⟩
          · rw [List.append_cons]
            exact hInv'
          · rw [hLog', hLog, hNext, pagesFrom_cons,
              List.map_cons, List.append_assoc]
            rfl
          · intro h rest hMatches hFrames hBytes
            have hGrown :
                Matches s₁ (frames ++ [f])
                  (grownHeap h f (more ++ rest)) :=
              hMatches.grow hInv hInv₁
                (hBytes f List.mem_cons_self)
                (fun g hg =>
                  hKept g (List.mem_append_left more hg))
                _
            have hLater :
                ∀ g ∈ more,
                  BringsBytes s₁
                    (grownHeap h f (more ++ rest)) g := by
              intro g hg i hi
              have hByte :=
                hKept g (List.mem_append_right _ hg) (g + i)
                  (Nat.le_add_right _ _)
                  (by unfold PAGE_SIZE at hi; omega)
              rw [hByte]
              exact hBytes g (List.mem_cons_of_mem f hg) i hi
            rcases hShows _ rest hGrown rfl hLater with
              ⟨h', hRun', hMatches', hRest, hFreed⟩
            refine ⟨h', ?_, ?_, hRest, hFreed⟩
            · rw [run_growHeap_page fuel hFrames
                (by rw [hMatches.max]; exact hMore)]
              exact hRun'
            · rw [List.append_cons]
              exact hMatches'
      · rw [if_neg hMore] at hRun
        cases hRun
        refine ⟨entries, storage, [], ?_, rfl, ?_, ?_⟩
        · rw [List.append_nil]
          exact hInv
        · exact (List.append_nil _).symm
        · intro h rest hMatches hFrames _
          refine ⟨h, ?_, ?_, hFrames, rfl⟩
          · rw [growHeap,
              EStateM.bind_of_ok (EStateM.run_get h),
              if_neg (by rw [hMatches.max]; exact hMore)]
            rfl
          · rw [List.append_nil]
            exact hMatches

/- One page of the loop of `free_chunk`, over the bytes. -/
theorem run_shrinkHeap_page
    {f chunk : Nat}
    (fuel : Nat)
    (hMore : chunk ≤ sub32 h.kheapMax PAGE_SIZE)
    (hPage :
      h.mapping (sub32 h.kheapMax PAGE_SIZE / PAGE_SIZE) =
        some f) :
    (shrinkHeap (fuel + 1) chunk).run h =
      (shrinkHeap fuel chunk).run (shrunkHeap h f) := by
  rw [shrinkHeap, EStateM.bind_of_ok (EStateM.run_get h),
    if_pos hMore]
  have hMapping :
      (getMapping (sub32 h.kheapMax PAGE_SIZE)).run
          { h with kheapMax := sub32 h.kheapMax PAGE_SIZE } =
        .ok f
          { h with kheapMax := sub32 h.kheapMax PAGE_SIZE } := by
    unfold getMapping
    rw [EStateM.bind_of_ok (EStateM.run_get _), hPage]
    rfl
  rw [EStateM.bind_of_ok (EStateM.run_modify _ _),
    EStateM.bind_of_ok (EStateM.run_get _),
    EStateM.bind_of_ok hMapping]
  rfl

theorem Inv.releaseLoop_shows
    {chunk : Nat}
    (hInv : Inv s dir t u entries storage tabs frames)
    (fuel : Nat)
    (hStart : KHEAP_START ≤ chunk)
    (hRun : (Pages.releaseLoop fuel chunk).run s = .ok () s') :
    ∃ entries' storage' rest gone,
      frames = rest ++ gone ∧
        Inv s' dir t u entries' storage' tabs rest ∧
        s'.log =
            s.log ++
              (pagesFrom s'.kheapMax gone).reverse.map
                (fun p => .gave p.1 p.2) ∧
          ∀ h, Matches s frames h →
            ∃ h',
              (shrinkHeap fuel chunk).run h = .ok () h' ∧
                Matches s' rest h' ∧
                h'.frames = h.frames ∧
                h'.freed = gone ++ h.freed := by
  induction fuel generalizing s entries storage frames with
  | zero => cases hRun
  | succ fuel ih =>
      have hEq := hInv.max_eq
      have hLe := hInv.max_le
      rw [Pages.releaseLoop,
        EStateM.bind_of_ok (EStateM.run_get s)] at hRun
      by_cases hMore : chunk ≤ sub32 s.kheapMax PAGE_SIZE
      · rw [if_pos hMore] at hRun
        rcases List.eq_nil_or_concat frames with
          hNil | ⟨rest, f, hFrames⟩
        · -- there is no page to release
          rw [hNil, List.length_nil] at hEq
          rw [sub32_of_le (by
              unfold KHEAP_START PAGE_SIZE at *
              omega)
            (by
              unfold KHEAP_START PAGE_SIZE at *
              omega)] at hMore
          unfold KHEAP_START PAGE_SIZE at *
          omega
        · rw [List.concat_eq_append] at hFrames
          subst hFrames
          rcases hInv.releasePage with
            ⟨s₁, entries₁, storage₁, hPage, hInv₁, hLog, _,
              hSame⟩
          rw [EStateM.bind_of_ok hPage] at hRun
          rcases ih hInv₁ hRun with
            ⟨entries', storage', rest', gone, hRest, hInv',
              hLog', hShows⟩
          refine ⟨entries', storage', rest', gone ++ [f], ?_,
            hInv', ?_, ?_⟩
          · rw [hRest, List.append_assoc]
          · have hTop :
                s₁.kheapMax =
                  s'.kheapMax + PAGE_SIZE * gone.length := by
              rw [hInv₁.max_eq, hInv'.max_eq, hRest,
                List.length_append, Nat.mul_add,
                Nat.add_assoc]
            rw [hLog', hLog, pagesFrom_concat,
              List.reverse_append, List.map_append,
              List.append_assoc, hTop]
            rfl
          · intro h hMatches
            rcases hMatches.shrink hInv hInv₁ hSame with
              ⟨hDown, hMapped, hShrunk⟩
            rcases hShows _ hShrunk with
              ⟨h', hRun', hMatches', hFrames, hFreed⟩
            refine ⟨h', ?_, hMatches', hFrames, ?_⟩
            · rw [run_shrinkHeap_page fuel
                (by rw [hMatches.max]; exact hMore)
                (by rw [hDown]; exact hMapped)]
              exact hRun'
            · rw [hFreed, List.append_assoc]
              rfl
      · rw [if_neg hMore] at hRun
        cases hRun
        refine ⟨entries, storage, frames, [],
          (List.append_nil frames).symm, hInv, ?_, ?_⟩
        · exact (List.append_nil _).symm
        · intro h hMatches
          refine ⟨h, ?_, hMatches, rfl, rfl⟩
          rw [shrinkHeap,
            EStateM.bind_of_ok (EStateM.run_get h),
            if_neg (by rw [hMatches.max]; exact hMore)]
          rfl

------------------------------------------------------------
-- The Calls
------------------------------------------------------------

/-
  A call of `alloc_chunk` over the page tables is one over the
  bytes, if the next answers of `pmm_alloc_page` there are the
  frames that were taken, with what memory holds in them.
-/
theorem allocChunk_refines
    {fuel start len : Nat}
    (hReach : Reachable Start Step s)
    (hMax : start ≤ s.kheapMax)
    (hRun : (Pages.allocChunk fuel start len).run s = .ok () s') :
    ∃ taken,
      s'.log =
          s.log ++
            (pagesFrom s.kheapMax taken).map (fun p =>
              .took p.1 p.2) ∧
        ∀ h rest, Shows s h → h.frames = taken ++ rest →
          (∀ f ∈ taken, BringsBytes s h f) →
            ∃ h',
              (Kheap.allocChunk fuel start len).run h =
                  .ok () h' ∧
                Shows s' h' ∧ h'.frames = rest ∧
                h'.freed = h.freed := by
  rcases reachable_kept hReach with
    ⟨dir, t, u, tabs, entries, storage, frames, hInv⟩
  have hFits := hInv.max_bounds.2.1
  have hLeft : sub32 KHEAP_END start = KHEAP_END - start :=
    sub32_of_le (by omega) (by decide)
  unfold Pages.allocChunk at hRun
  unfold Kheap.allocChunk
  by_cases hLen : sub32 KHEAP_END start < len
  · rw [if_pos hLen] at hRun
    cases hRun
  · rw [if_neg hLen] at hRun
    rw [hLeft] at hLen
    have hTarget : add32 start len ≤ KHEAP_END := by
      rw [add32_of_lt (by unfold KHEAP_END at *; omega)]
      omega
    rcases hInv.growLoop_shows fuel hTarget hRun with
      ⟨_, _, taken, hInv', _, hLog, hShows⟩
    refine ⟨taken, hLog, ?_⟩
    intro h rest hHeap hFrames hBytes
    rcases hShows h rest (hInv.shows_iff.mp hHeap) hFrames
      hBytes with ⟨h', hRun', hMatches, hRest⟩
    refine ⟨h', ?_, hInv'.shows_iff.mpr hMatches, hRest⟩
    rw [if_neg (by rw [hLeft]; exact hLen)]
    exact hRun'

/-
  A call of the loop of `free_chunk` over the page tables is
  one over the bytes, which frees the same frames.
-/
theorem shrinkHeap_refines
    {fuel chunk : Nat}
    (hReach : Reachable Start Step s)
    (hStart : KHEAP_START ≤ chunk)
    (hRun : (Pages.releaseLoop fuel chunk).run s = .ok () s') :
    ∃ gone,
      s'.log =
          s.log ++
            (pagesFrom s'.kheapMax gone).reverse.map (fun p =>
              .gave p.1 p.2) ∧
        ∀ h, Shows s h →
          ∃ h',
            (shrinkHeap fuel chunk).run h = .ok () h' ∧
              Shows s' h' ∧ h'.frames = h.frames ∧
              h'.freed = gone ++ h.freed := by
  rcases reachable_kept hReach with
    ⟨dir, t, u, tabs, entries, storage, frames, hInv⟩
  rcases hInv.releaseLoop_shows fuel hStart hRun with
    ⟨_, _, rest, gone, _, hInv', hLog, hShows⟩
  refine ⟨gone, hLog, ?_⟩
  intro h hHeap
  rcases hShows h (hInv.shows_iff.mp hHeap) with
    ⟨h', hRun', hMatches, hRest⟩
  exact ⟨h', hRun', hInv'.shows_iff.mpr hMatches, hRest⟩

end Pages

end Kheap

end SosKernel
