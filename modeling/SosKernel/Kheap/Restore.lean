import SosKernel.Kheap.Safety

/-
  An allocation that is freed at once.

  Main declarations:
    * `Restored`: the heap is as it was
    * `Sound.kfree_run`, `Sound.freeChunk_run`: calls that
      return
    * `SelfLinked`: the chain after a split
    * `kheap_restores`
-/

------------------------------------------------------------
-- Calls that Return
------------------------------------------------------------

namespace SosKernel

namespace Kheap

variable {h h' : Heap}
variable {cfg : Config}
variable {chunks xs ys : List Chunk}
variable {stop : Nat}

theorem run_load32
    {a : Nat}
    (hMapped : h.isMapped a = true) :
    (load32 a).run h = .ok (h.mem.read32 a) h := by
  rcases load32_run h a with ⟨hRun, _⟩ | ⟨e, _, hNot⟩
  · exact hRun
  · rw [hMapped] at hNot
    cases hNot

theorem run_store32
    {a v : Nat}
    (hMapped : h.isMapped a = true) :
    (store32 a v).run h =
      .ok () (h.withMem (h.mem.write32 a v)) := by
  rcases store32_run h a v with ⟨hRun, _⟩ | ⟨e, _, hNot⟩
  · exact hRun
  · rw [hMapped] at hNot
    cases hNot

theorem run_getAllocated
    {a : Nat}
    (hMapped : h.isMapped (a + 8) = true) :
    (getAllocated a).run h =
      .ok (h.mem.read32 (a + 8) % 2) h := by
  unfold getAllocated
  rw [EStateM.bind_of_ok (run_load32 hMapped)]
  rfl

theorem run_setAllocated
    {a v : Nat}
    (hMapped : h.isMapped (a + 8) = true) :
    (setAllocated a v).run h =
      .ok ()
        (h.withMem
          (h.mem.write32 (a + 8)
            (h.mem.read32 (a + 8) / 2 * 2 + v % 2))) := by
  unfold setAllocated
  rw [EStateM.bind_of_ok (run_load32 hMapped),
    run_store32 hMapped]

/- The headers of a heap that is trimmed are mapped. -/
theorem Sound.isMapped
    {c : Chunk}
    {i : Nat}
    (hSound : Sound h chunks stop)
    (hTrim : Trim h stop)
    (hMem : c ∈ chunks)
    (hi : i ≤ 8) :
    h.isMapped (c.addr + i) = true := by
  have hRange := hSound.range hMem
  have hStop := hSound.stopLe
  have hMax := hSound.maxLe
  have hAligned := hSound.aligned
  have hMapped := hTrim.mapped
  unfold KHEAP_START at hMapped
  unfold KHEAP_END at hMapped hMax
  unfold PAGE_SIZE at hMapped hAligned
  unfold Heap.isMapped PAGE_SIZE
  rw [Bool.and_eq_true]
  constructor
  · rw [hMapped _ (by omega) (by omega)]
    omega
  · rw [hMapped _ (by omega) (by omega)]
    omega

/- One turn of the loop that gives pages back. -/
theorem shrinkHeap_succ
    {chunk frame : Nat}
    (fuel : Nat)
    (hTest :
      sub32 h.kheapMax PAGE_SIZE = h.kheapMax - PAGE_SIZE)
    (hLoop : chunk ≤ h.kheapMax - PAGE_SIZE)
    (hFrame :
      h.mapping ((h.kheapMax - PAGE_SIZE) / PAGE_SIZE) =
        some frame) :
    (shrinkHeap (fuel + 1) chunk).run h =
      (shrinkHeap fuel chunk).run
        { h with
          kheapMax := h.kheapMax - PAGE_SIZE
          freed := frame :: h.freed
          mapping :=
            fun page =>
              if page = (h.kheapMax - PAGE_SIZE) / PAGE_SIZE
              then none
              else h.mapping page } := by
  have hGet :
      (getMapping (h.kheapMax - PAGE_SIZE)).run
          { h with kheapMax := h.kheapMax - PAGE_SIZE } =
        .ok frame
          { h with kheapMax := h.kheapMax - PAGE_SIZE } := by
    unfold getMapping
    rw [EStateM.bind_of_ok (EStateM.run_get _)]
    dsimp only
    rw [hFrame]
    rfl
  conv_lhs => unfold shrinkHeap
  rw [EStateM.bind_of_ok (EStateM.run_get h)]
  rw [hTest, if_pos hLoop,
    EStateM.bind_of_ok (EStateM.run_modify _ _),
    EStateM.bind_of_ok (EStateM.run_get _)]
  simp only [hTest]
  rw [EStateM.bind_of_ok hGet]
  unfold pmmFreePage unmap
  rw [EStateM.bind_of_ok (EStateM.run_modify _ _),
    EStateM.bind_of_ok (EStateM.run_modify _ _)]

/- The loop that gives pages back ends. -/
theorem shrinkHeap_total
    {chunk n : Nat}
    (hBound : h.kheapMax < chunk + n * PAGE_SIZE)
    (hKept : chunk ≤ h.kheapMax)
    (hMax : h.kheapMax ≤ KHEAP_END)
    (hAligned : h.kheapMax % PAGE_SIZE = 0)
    (hStart : KHEAP_START ≤ chunk)
    (hMapped :
      ∀ page, KHEAP_START / PAGE_SIZE ≤ page →
        page < h.kheapMax / PAGE_SIZE →
          (h.mapping page).isSome = true) :
    ∃ fuel h', (shrinkHeap fuel chunk).run h = .ok () h' := by
  induction n generalizing h with
  | zero => omega
  | succ n ih =>
      have hTest :
          sub32 h.kheapMax PAGE_SIZE =
            h.kheapMax - PAGE_SIZE := by
        unfold KHEAP_END at hMax
        unfold KHEAP_START at hStart
        unfold PAGE_SIZE
        rw [sub32_of_le (by omega) (by omega)]
      by_cases hLoop : chunk ≤ h.kheapMax - PAGE_SIZE
      · have hPage :=
          hMapped ((h.kheapMax - PAGE_SIZE) / PAGE_SIZE)
            (by
              unfold PAGE_SIZE KHEAP_START at *
              omega)
            (by
              unfold PAGE_SIZE KHEAP_START at *
              omega)
        rw [Option.isSome_iff_exists] at hPage
        rcases hPage with ⟨frame, hFrame⟩
        have hTurn :=
          fun fuel => shrinkHeap_succ fuel hTest hLoop hFrame
        have hRest := ih
          (h :=
            { h with
              kheapMax := h.kheapMax - PAGE_SIZE
              freed := frame :: h.freed
              mapping :=
                fun page =>
                  if page =
                      (h.kheapMax - PAGE_SIZE) / PAGE_SIZE
                  then none
                  else h.mapping page })
          (by
            dsimp only
            unfold KHEAP_START at hStart
            unfold PAGE_SIZE at *
            omega)
          hLoop
          (by
            dsimp only
            omega)
          (by
            dsimp only
            unfold PAGE_SIZE at *
            omega)
          (by
            intro page hLo hHi
            dsimp only at hHi ⊢
            rw [if_neg (by omega)]
            refine hMapped page hLo ?_
            unfold PAGE_SIZE at *
            omega)
        rcases hRest with ⟨fuel, h', hRun⟩
        refine ⟨fuel + 1, h', ?_⟩
        rw [hTurn]
        exact hRun
      · refine ⟨1, h, ?_⟩
        unfold shrinkHeap
        rw [EStateM.bind_of_ok (EStateM.run_get h), hTest,
          if_neg hLoop]
        rfl

/- Between allocated chunks nothing is coalesced. -/
theorem Sound.glue_idle
    {c : Chunk}
    (hSound : Sound h (xs ++ c :: ys) stop)
    (hTrim : Trim h stop)
    (hBefore : LastAllocated xs)
    (hAfter : HeadAllocated ys) :
    (glueNext c.addr).run h = .ok () h ∧
      (gluePrev c.addr).run h = .ok c.addr h := by
  rcases hSound.header with ⟨hPrev, hNext, _⟩
  have hc :
      ∀ i, i ≤ 8 → h.isMapped (c.addr + i) = true :=
    fun i hi => hSound.isMapped hTrim (by simp) hi
  constructor
  · unfold glueNext
    rw [EStateM.bind_of_ok
      (show (getNext c.addr).run h = _ from
        run_load32 (hc 4 (by omega))), hNext]
    cases ys with
    | nil => rfl
    | cons d ys =>
        have hWhole :
            Sound h ((xs ++ [c]) ++ d :: ys) stop := by
          rw [List.append_assoc]
          exact hSound
        have hNe := headAddr_ne_zero hWhole (by simp)
        have hd := hSound.isMapped hTrim
          (show d ∈ xs ++ c :: d :: ys by simp)
          (Nat.le_refl 8)
        rw [if_pos hNe, EStateM.bind_of_ok
          (show (getNext c.addr).run h = _ from
            run_load32 (hc 4 (by omega))), hNext,
          headAddr_cons,
          EStateM.bind_of_ok (run_getAllocated hd),
          hWhole.header.2.2, d.word_mod,
          hAfter d (by simp)]
        rfl
  · unfold gluePrev
    rw [EStateM.bind_of_ok
      (show (getPrev c.addr).run h = _ from
        run_load32 (hc 0 (by omega))), hPrev]
    rcases List.eq_nil_or_concat xs with rfl | ⟨bs, b, rfl⟩
    · rfl
    · rw [List.concat_eq_append] at *
      have hSplit : Sound h (bs ++ b :: c :: ys) stop := by
        rw [List.append_assoc] at hSound
        exact hSound
      have hNe := lastAddr_ne_zero hSound (by simp)
      have hb := hSplit.isMapped hTrim
        (show b ∈ bs ++ b :: c :: ys by simp)
        (Nat.le_refl 8)
      rw [if_neg hNe, EStateM.bind_of_ok
        (show (getPrev c.addr).run h = _ from
          run_load32 (hc 0 (by omega))), hPrev,
        lastAddr_concat,
        EStateM.bind_of_ok (run_getAllocated hb),
        hSplit.header.2.2, b.word_mod, hBefore b (by simp)]
      rfl

------------------------------------------------------------
-- Freeing between Allocated Chunks
------------------------------------------------------------

/- The memory after the chunk `c` has been marked as free. -/
def freeMem (mem : ByteMemory) (c : Chunk) : ByteMemory :=
  mem.write32 (c.addr + 8) (mem.read32 (c.addr + 8) / 2 * 2 + 0)

theorem Sound.freeMem
    {c : Chunk}
    (hSound : Sound h (xs ++ c :: ys) stop) :
    Sound (h.withMem (freeMem h.mem c))
      (xs ++ c.mark false :: ys) stop :=
  hSound.mark false

/- The pages do not depend on what memory holds. -/
theorem Trim.withMem
    (mem : ByteMemory)
    (hTrim : Trim h stop) :
    Trim (h.withMem mem) stop :=
  ⟨hTrim.tight, hTrim.mapped⟩

/-
  `kfree` of a chunk between allocated ones clears its bit,
  and drops it if it is the last one.
-/
theorem Sound.kfree_run
    {c : Chunk}
    (fuel : Nat)
    (hSound : Sound h (xs ++ c :: ys) stop)
    (hTrim : Trim h stop)
    (hBefore : LastAllocated xs)
    (hAfter : HeadAllocated ys) :
    (kfree fuel (c.addr + HEADER_SIZE)).run h =
      EStateM.run
        (if headAddr ys 0 = 0 then
          freeChunk fuel c.addr
        else
          pure ())
        (h.withMem (Kheap.freeMem h.mem c)) := by
  have hc : c ∈ xs ++ c :: ys := by simp
  have hRange := hSound.range hc
  have hSub :
      sub32 (c.addr + HEADER_SIZE) HEADER_SIZE = c.addr := by
    unfold HEADER_SIZE
    rw [sub32_of_le (by omega) (by omega),
      Nat.add_sub_cancel]
  have hMark :
      (setAllocated c.addr 0).run h =
        .ok () (h.withMem (Kheap.freeMem h.mem c)) :=
    run_setAllocated
      (hSound.isMapped hTrim hc (Nat.le_refl 8))
  have hSound' := hSound.freeMem
  rcases hSound'.glue_idle (hTrim.withMem _) hBefore hAfter
    with ⟨hNext, hPrev⟩
  have hGet :
      (getNext c.addr).run
          (h.withMem (Kheap.freeMem h.mem c)) =
        .ok (headAddr ys 0)
          (h.withMem (Kheap.freeMem h.mem c)) := by
    rw [← hSound'.header.2.1]
    exact run_load32
      (hSound.isMapped hTrim hc (show 4 ≤ 8 by omega))
  unfold kfree glueChunk
  rw [hSub, EStateM.bind_of_ok hMark,
    EStateM.bind_of_ok
      (show (glueNext c.addr).run _ = _ from hNext),
    EStateM.bind_of_ok
      (show (gluePrev c.addr).run _ = _ from hPrev),
    EStateM.bind_of_ok
      (show (getNext (c.mark false).addr).run _ = _ from
        hGet)]
  rfl

/- The last chunk is given back, and the call returns. -/
theorem Sound.freeChunk_run
    {c : Chunk}
    (hSound : Sound h (xs ++ [c]) stop)
    (hTrim : Trim h stop)
    (hLink : h.isMapped (lastAddr 0 xs + 4) = true) :
    ∃ fuel h', (freeChunk fuel c.addr).run h = .ok () h' ∧
      Sound h' xs c.addr ∧ Trim h' c.addr ∧
      h'.mem = h.mem.write32 (lastAddr 0 xs + 4) 0 := by
  have hc : c ∈ xs ++ [c] := by simp
  have hRange := hSound.range hc
  have hStop := hSound.stopLe
  have hMapped := hSound.isMapped hTrim hc (Nat.zero_le 8)
  have hPrev := hSound.header.1
  -- the heap in which the loop starts
  have hStart :
      ∀ first, ∃ fuel h',
        (shrinkHeap fuel c.addr).run
            { h.withMem
                (h.mem.write32 (lastAddr 0 xs + 4) 0) with
              kheapFirst := first } = .ok () h' := by
    intro first
    refine shrinkHeap_total (n := h.kheapMax) ?_ ?_
      hSound.maxLe hSound.aligned ?_ ?_
    · unfold PAGE_SIZE
      show h.kheapMax < _
      omega
    · show c.addr ≤ h.kheapMax
      omega
    · unfold KHEAP_START
      omega
    · intro page hLo hHi
      have hMax := Nat.div_le_div_right (c := PAGE_SIZE)
        hSound.maxLe
      exact (hTrim.mapped page hLo
        (Nat.lt_of_lt_of_le hHi hMax)).mpr hHi
  rcases tiled_append.mp hSound.tiled with
    ⟨mid, hXs, hcAddr, _⟩
  rw [← hcAddr] at hXs
  have hBelow := hXs.lastAddr_le
  have hAgain :
      (getPrev c.addr).run
          (h.withMem
            (h.mem.write32 (lastAddr 0 xs + 4) 0)) =
        .ok (lastAddr 0 xs)
          (h.withMem
            (h.mem.write32 (lastAddr 0 xs + 4) 0)) := by
    have hGet := run_load32
      (h := h.withMem
        (h.mem.write32 (lastAddr 0 xs + 4) 0))
      (a := c.addr) hMapped
    rw [withMem_mem,
      ByteMemory.read32_write32_of_apart _ _ (by omega),
      hPrev] at hGet
    exact hGet
  have hGet : (getPrev c.addr).run h =
      .ok (lastAddr 0 xs) h := by
    rw [← hPrev]
    exact run_load32 hMapped
  -- what follows from the run
  have hDone :
      ∀ fuel h', (freeChunk fuel c.addr).run h = .ok () h' →
        Sound h' xs c.addr ∧ Trim h' c.addr := by
    intro fuel h' hRun
    rcases (Traced.freeChunk_traces fuel _).sat ⟨h, []⟩
      (freeChunk_sat hSound Fit.nil) hRun with
      ⟨_, hSound', hTrim', _⟩
    exact ⟨hSound', hTrim' hTrim⟩
  have hRun :
      ∃ first, ∀ fuel,
        (freeChunk fuel c.addr).run h =
          (shrinkHeap fuel c.addr).run
            { h.withMem
                (h.mem.write32 (lastAddr 0 xs + 4) 0) with
              kheapFirst := first } := by
    by_cases hNil : lastAddr 0 xs = 0
    · refine ⟨0, fun fuel => ?_⟩
      unfold freeChunk
      rw [EStateM.bind_of_ok hGet,
        EStateM.bind_of_ok
          (show (setNext (lastAddr 0 xs) 0).run h = _ from
            run_store32 hLink),
        EStateM.bind_of_ok hAgain, if_pos hNil,
        EStateM.bind_of_ok (EStateM.run_modify _ _)]
    · refine ⟨h.kheapFirst, fun fuel => ?_⟩
      unfold freeChunk
      rw [EStateM.bind_of_ok hGet,
        EStateM.bind_of_ok
          (show (setNext (lastAddr 0 xs) 0).run h = _ from
            run_store32 hLink),
        EStateM.bind_of_ok hAgain, if_neg hNil]
      rfl
  rcases hRun with ⟨first, hRun⟩
  rcases hStart first with ⟨fuel, h', hShrink⟩
  have hFree := (hRun fuel).trans hShrink
  have hShrunk := shrinkHeap_ok hShrink hSound.maxLe
    hSound.aligned
    (by
      unfold KHEAP_START
      omega)
    (by
      show c.addr ≤ h.kheapMax
      omega)
  rcases hDone fuel h' hFree with ⟨hSound', hTrim'⟩
  exact ⟨fuel, h', hFree, hSound', hTrim', hShrunk.mem⟩

------------------------------------------------------------
-- The Heap as it was
------------------------------------------------------------

/-
  The chain, the end of the heap, its mapped pages, and what
  the live allocations hold are as they were.
-/
structure Restored (cfg : Config) (h' : Heap) : Prop where
  first : h'.kheapFirst = cfg.heap.kheapFirst
  max : h'.kheapMax = cfg.heap.kheapMax
  pages :
    ∀ page, KHEAP_START / PAGE_SIZE ≤ page →
      page < KHEAP_END / PAGE_SIZE →
        ((h'.mapping page).isSome = true ↔
          (cfg.heap.mapping page).isSome = true)
  chain : ∀ a, OnChain h' a ↔ OnChain cfg.heap a
  headers :
    ∀ a, OnChain cfg.heap a →
      h'.mem.read32 a = cfg.heap.mem.read32 a ∧
        h'.mem.read32 (a + 4) =
          cfg.heap.mem.read32 (a + 4) ∧
        h'.mem.read32 (a + 8) =
          cfg.heap.mem.read32 (a + 8)
  payload :
    ∀ x ∈ cfg.live, ∀ a ∈ payload x,
      h'.mem a = cfg.heap.mem a

/- `kfree` returns, and the heap is as it was. -/
def Restores (cfg : Config) (p : Nat) (h : Heap) : Prop :=
  ∃ fuel h', (kfree fuel p).run h = .ok () h' ∧
    Restored cfg h'

/- The chain meets every chunk. -/
theorem Sound.onChain_iff
    {a : Nat}
    (hSound : Sound h chunks stop) :
    OnChain h a ↔ ∃ c ∈ chunks, c.addr = a := by
  constructor
  · exact hSound.onChain
  · rintro ⟨c, hc, rfl⟩
    rcases List.append_of_mem hc with ⟨xs, ys, rfl⟩
    exact hSound.onChain_of_same h rfl (fun _ _ _ => rfl)

/- A byte of the heap that no header covers. -/
def Outside (chunks : List Chunk) (a : Nat) : Prop :=
  ∀ c ∈ chunks, a < c.addr ∨ c.addr + HEADER_SIZE ≤ a

/-
  The same chunks over the same range, with what lies between
  their headers unchanged.
-/
theorem Chained.restored
    (hChained : Chained cfg chunks stop)
    (hTrim : Trim cfg.heap stop)
    (hSound' : Sound h' chunks stop)
    (hTrim' : Trim h' stop)
    (hSame :
      ∀ a, KHEAP_START ≤ a → a < stop →
        Outside chunks a → h'.mem a = cfg.heap.mem a) :
    Restored cfg h' := by
  have hSound := hChained.sound
  have hMax : h'.kheapMax = cfg.heap.kheapMax := by
    have hTight := hTrim.tight
    have hTight' := hTrim'.tight
    have hStop := hSound.stopLe
    have hStop' := hSound'.stopLe
    have hAligned := hSound.aligned
    have hAligned' := hSound'.aligned
    unfold PAGE_SIZE at *
    omega
  refine
    { first := hSound'.first.trans hSound.first.symm
      max := hMax
      pages := ?_
      chain := ?_
      headers := ?_
      payload := ?_ }
  · intro page hLo hHi
    rw [hTrim.mapped page hLo hHi, hTrim'.mapped page hLo hHi,
      hMax]
  · intro a
    rw [hSound.onChain_iff, hSound'.onChain_iff]
  · intro a hOn
    rcases hSound.onChain hOn with ⟨c, hc, rfl⟩
    rcases List.append_of_mem hc with ⟨xs, ys, rfl⟩
    rcases hSound.header with ⟨hPrev, hNext, hWord⟩
    rcases hSound'.header with ⟨hPrev', hNext', hWord'⟩
    exact ⟨hPrev'.trans hPrev.symm, hNext'.trans hNext.symm,
      hWord'.trans hWord.symm⟩
  · intro x hx a ha
    rcases hChained.owned x hx with ⟨c, hc, hcx⟩
    have hxp := hcx.payload
    have hxr := hcx.room
    have hRange := hSound.range hc
    unfold payload at ha
    rw [Set.mem_Ico] at ha
    unfold KHEAP_START at hSame
    refine hSame a (by omega) (by omega) ?_
    intro d hd
    unfold HEADER_SIZE at *
    rcases hSound.tiled.apart hc hd with rfl | hApart
    · omega
    · have hdRange := hSound.range hd
      unfold Chunk.stop at hApart
      omega

/- A free chunk is reused, and is free again. -/
theorem Chained.restores_reused
    {c : Chunk}
    (hChained : Chained cfg (xs ++ c :: ys) stop)
    (hTrim : Trim cfg.heap stop)
    (hFree : c.allocated = false) :
    Restores cfg (c.addr + HEADER_SIZE)
      (cfg.heap.withMem (allocMem cfg.heap.mem c)) := by
  have hSound := hChained.sound
  have hBit : ¬ c.allocated = true := by
    rw [hFree]
    decide
  -- no chunk next to a free one is free
  rcases apart_append_cons.mp hChained.apart with
    ⟨_, _, hAlone⟩
  rcases hAlone.resolve_left hBit with ⟨hBefore, hAfter⟩
  have hNotLast : ys ≠ [] := fun hNil =>
    hBit ((lastAllocated_append_cons.mp hChained.last).2 hNil)
  have hWhole :
      Sound cfg.heap ((xs ++ [c]) ++ ys) stop := by
    rw [List.append_assoc]
    exact hSound
  have hNext := headAddr_ne_zero hWhole hNotLast
  have hAlloc :
      Sound (cfg.heap.withMem (allocMem cfg.heap.mem c))
        (xs ++ c.mark true :: ys) stop := hSound.mark true
  have hAgain : (c.mark true).mark false = c := by
    unfold Chunk.mark
    rw [← hFree]
  have hSound' := hAlloc.freeMem
  rw [hAgain] at hSound'
  refine ⟨0, _, ?_, hChained.restored hTrim hSound' ?_ ?_⟩
  · rw [show c.addr = (c.mark true).addr from rfl,
      hAlloc.kfree_run 0 (hTrim.withMem _) hBefore hAfter,
      if_neg hNext]
    rfl
  · exact (hTrim.withMem _).withMem _
  · intro a _ _ hOutside
    have hHeader := hOutside c (by simp)
    unfold HEADER_SIZE at hHeader
    unfold Kheap.freeMem allocMem
    exact (ByteMemory.write32_apply_of_apart _ _
      (show _ ∨ c.addr + 8 + 4 ≤ a by omega)).trans
        (ByteMemory.write32_apply_of_apart _ _ (by omega))

/- A new last chunk is dropped again. -/
theorem Chained.restores_appended
    {len : Nat}
    {events : List Event}
    (hChained : Chained cfg chunks stop)
    (hTrim : Trim cfg.heap stop)
    (hAppended :
      Appended cfg.heap chunks stop len h' events) :
    Restores cfg (stop + HEADER_SIZE) h' := by
  have hTiled := hChained.sound.tiled
  have hBelow := hTiled.lastAddr_le
  have hAlloc := hAppended.sound
  have hTrim' := hAppended.trim hTrim
  rcases hAlloc.freeMem.freeChunk_run (hTrim'.withMem _)
    hAppended.linked with
    ⟨fuel, h'', hRun, hSound'', hTrim'', hMem⟩
  refine ⟨fuel, h'', ?_,
    hChained.restored hTrim hSound'' hTrim'' ?_⟩
  · have hKfree := hAlloc.kfree_run fuel hTrim'
      hChained.last (by simp [HeadAllocated])
    rw [headAddr_nil, if_pos rfl] at hKfree
    exact hKfree.trans hRun
  · intro a hStart hStop hOutside
    -- of the headers only the last one was written
    have hLink :
        a < lastAddr 0 chunks + 4 ∨
          lastAddr 0 chunks + 8 ≤ a := by
      rcases List.eq_nil_or_concat chunks with
        rfl | ⟨bs, b, rfl⟩
      · unfold KHEAP_START at hStart
        rw [lastAddr_nil]
        omega
      · have hb := hOutside b (by simp)
        unfold HEADER_SIZE at hb
        rw [List.concat_eq_append, lastAddr_concat]
        omega
    have hOld : h'.mem a = cfg.heap.mem a := by
      rcases hLink with hLt | hGe
      · exact hAppended.below a (Nat.zero_le a) hLt
      · exact hAppended.above a hGe hStop
    rw [hMem, ← hOld]
    exact (ByteMemory.write32_apply_of_apart _ _
      (by omega)).trans
        (ByteMemory.write32_apply_of_apart _ _
          (show a < stop + 8 ∨ _ by omega))

------------------------------------------------------------
-- Freeing after a Split
------------------------------------------------------------

/-
  The chunk at `c` is followed by a free one at `d` that is
  its own successor.
-/
structure SelfLinked (mem : ByteMemory) (c d : Nat) : Prop where
  low : 0 < c
  room : c + HEADER_SIZE ≤ d
  fits : d + HEADER_SIZE < 2 ^ 32
  next : mem.read32 (c + 4) = d
  loop : mem.read32 (d + 4) = d
  free : mem.read32 (d + 8) % 2 = 0
  length :
    mem.read32 (c + 8) / 2 + mem.read32 (d + 8) / 2 < 2 ^ 31

variable {trace : List Event}

/- The free chunk is taken in, and remains the successor. -/
theorem SelfLinked.glueNext_sat
    {c d : Nat}
    (hLinked : SelfLinked h.mem c d)
    (hFit : Fit trace) :
    ((Traced.glueNext c).run ⟨h, trace⟩).Sat
      (fun _ s' => ∃ mem', s'.state = h.withMem mem' ∧
        Fit s'.trace ∧ h.mem.SameOn 0 (c + 4) mem' ∧
        mem'.read32 (c + 4) = d ∧ mem'.read32 (d + 4) = d)
      Stopped := by
  rcases hLinked with
    ⟨hLow, hRoom, hFits, hNext, hLoop, hFree, hLength⟩
  unfold HEADER_SIZE at hRoom hFits
  unfold Traced.glueNext
  refine sat_getNext hFit ?_
  rw [hNext, if_pos (by omega)]
  refine sat_getNext hFit ?_
  rw [hNext]
  refine sat_getAllocated hFit ?_
  rw [if_pos hFree]
  refine sat_getLength hFit ?_
  refine sat_getNext hFit ?_
  rw [hNext]
  refine sat_getLength hFit ?_
  refine sat_add hFit (by omega) (fun hFit => ?_)
  refine sat_setLength hFit hLength (fun hFit => ?_)
  refine sat_getNext hFit ?_
  rw [withMem_mem,
    ByteMemory.read32_write32_of_apart _ _ (by omega), hNext]
  refine sat_getNext hFit ?_
  rw [withMem_mem,
    ByteMemory.read32_write32_of_apart _ _ (by omega), hLoop]
  refine sat_setPrev hFit (fun hFit => ?_)
  rw [withMem_mem, withMem_withMem]
  refine sat_getNext hFit ?_
  rw [withMem_mem,
    ByteMemory.read32_write32_of_apart _ _ (by omega),
    ByteMemory.read32_write32_of_apart _ _ (by omega), hNext]
  refine sat_getNext hFit ?_
  rw [withMem_mem,
    ByteMemory.read32_write32_of_apart _ _ (by omega),
    ByteMemory.read32_write32_of_apart _ _ (by omega), hLoop]
  refine sat_of_bind_pure (sat_setNext hFit (fun hFit => ?_))
  rw [withMem_mem, withMem_withMem]
  refine ⟨_, rfl, hFit, ?_, ?_, ?_⟩
  · exact ((ByteMemory.sameOn_write32 _ _ _ (by omega)).trans
      (ByteMemory.sameOn_write32 _ _ _ (by omega))).trans
        (ByteMemory.sameOn_write32 _ _ _ (by omega))
  · exact ByteMemory.read32_write32_self _ _ (by omega)
  · rw [ByteMemory.read32_write32_of_apart _ _ (by omega),
      ByteMemory.read32_write32_of_apart _ _ (by omega),
      ByteMemory.read32_write32_of_apart _ _ (by omega),
      hLoop]

/- No free chunk comes before the one at `c`. -/
def PrevAllocated (mem : ByteMemory) (c : Nat) : Prop :=
  mem.read32 c = 0 ∨
    mem.read32 c + HEADER_SIZE ≤ c ∧
      mem.read32 (mem.read32 c + 8) % 2 = 1

theorem PrevAllocated.of_same
    {mem mem' : ByteMemory}
    {c : Nat}
    (hBefore : PrevAllocated mem c)
    (hSame : mem.SameOn 0 (c + 4) mem') :
    PrevAllocated mem' c := by
  unfold PrevAllocated
  rw [hSame.read32 (Nat.zero_le c) (Nat.le_refl _)]
  rcases hBefore with hNull | ⟨hBelow, hBit⟩
  · exact .inl hNull
  · refine .inr ⟨hBelow, ?_⟩
    unfold HEADER_SIZE at hBelow
    rw [hSame.read32 (Nat.zero_le _) (by omega)]
    exact hBit

/- The chunk stays where it is. -/
theorem PrevAllocated.gluePrev_sat
    {c : Nat}
    (hBefore : PrevAllocated h.mem c)
    (hFit : Fit trace) :
    ((Traced.gluePrev c).run ⟨h, trace⟩).Sat
      (fun a s' => a = c ∧ s' = ⟨h, trace⟩) Stopped := by
  unfold Traced.gluePrev
  refine sat_getPrev hFit ?_
  by_cases hNull : h.mem.read32 c = 0
  · rw [if_pos hNull]
    exact ⟨rfl, rfl⟩
  · rw [if_neg hNull]
    refine sat_getPrev hFit ?_
    refine sat_getAllocated hFit ?_
    rw [(hBefore.resolve_left hNull).2, if_neg (by decide)]
    exact ⟨rfl, rfl⟩

/- Freeing the chunk leaves its successor on the chain. -/
theorem SelfLinked.kfree_sat
    {c d : Nat}
    (fuel : Nat)
    (hLinked : SelfLinked h.mem c d)
    (hBefore : PrevAllocated h.mem c) :
    ((Traced.kfree fuel (c + HEADER_SIZE)).run ⟨h, []⟩).Sat
      (fun _ s' => s'.state.mem.read32 (d + 4) = d)
      Stopped := by
  have hRoom := hLinked.room
  have hFits := hLinked.fits
  have hLow := hLinked.low
  unfold HEADER_SIZE at hRoom hFits
  unfold Traced.kfree HEADER_SIZE
  refine sat_sub Fit.nil (by omega) (by omega)
    (fun hFit => ?_)
  rw [Nat.add_sub_cancel]
  refine sat_setAllocated hFit (fun hFit => ?_)
  have hWord :
      h.mem.read32 (c + 8) / 2 * 2 + 0 % 2 < 2 ^ 32 := by
    have hLt := ByteMemory.read32_lt h.mem (c + 8)
    omega
  -- the bit of the chunk at `c` is all that has changed
  have hLinked' : SelfLinked
      (h.withMem
        (h.mem.write32 (c + 8)
          (h.mem.read32 (c + 8) / 2 * 2 + 0 % 2))).mem
      c d := by
    rw [withMem_mem]
    refine ⟨hLow, hLinked.room, hLinked.fits, ?_, ?_, ?_, ?_⟩
    · rw [ByteMemory.read32_write32_of_apart _ _ (by omega)]
      exact hLinked.next
    · rw [ByteMemory.read32_write32_of_apart _ _ (by omega)]
      exact hLinked.loop
    · rw [ByteMemory.read32_write32_of_apart _ _ (by omega)]
      exact hLinked.free
    · have hLength := hLinked.length
      rw [ByteMemory.read32_write32_self _ _ hWord,
        ByteMemory.read32_write32_of_apart _ _ (by omega)]
      omega
  unfold Traced.glueChunk
  refine (hLinked'.glueNext_sat hFit).bind ?_
  rintro _ ⟨h₁, trace₁⟩
    ⟨mem', hState, hFit', hSame, hNext, hLoop⟩
  dsimp only at hState hFit'
  subst hState
  have hBelow : h.mem.SameOn 0 (c + 4) mem' :=
    (ByteMemory.sameOn_write32 _ _ _ (by omega)).trans hSame
  refine ((hBefore.of_same hBelow).gluePrev_sat hFit').bind ?_
  rintro _ _ ⟨rfl, rfl⟩
  refine sat_getNext hFit' ?_
  rw [withMem_mem, hNext, if_neg (by omega)]
  exact hLoop

/- A bit-field that has been stored is read back. -/
theorem read32_setAllocated
    (mem : ByteMemory)
    (a : Nat)
    {v : Nat}
    (hv : v < 2) :
    (mem.write32 a (mem.read32 a / 2 * 2 + v)).read32 a =
      mem.read32 a / 2 * 2 + v := by
  have hLt := ByteMemory.read32_lt mem a
  exact ByteMemory.read32_write32_self mem a (by omega)

theorem read32_setLength
    (mem : ByteMemory)
    (a : Nat)
    {v : Nat}
    (hv : v < 2 ^ 31) :
    (mem.write32 a (v * 2 + mem.read32 a % 2)).read32 a =
      v * 2 + mem.read32 a % 2 :=
  ByteMemory.read32_write32_self mem a (by omega)

/- A split leaves the rest of the chunk self-linked. -/
theorem Sound.selfLinked
    {c d : Chunk}
    {len : Nat}
    (hSound : Sound h (xs ++ c :: d :: ys) stop)
    (hFits : len ≤ c.length) :
    SelfLinked (allocMem (Kheap.splitMem h.mem c d len) c) c.addr
      d.addr := by
  rcases hSound.splitMem len with ⟨_, hNext, _, hLoop⟩
  rcases hSound.neighbours with
    ⟨hLow, hRoom, hdAddr, hdRoom, hdStop, hTop, _, _⟩
  have hcWord :
      (allocMem (Kheap.splitMem h.mem c d len) c).read32
          (c.addr + 8) / 2 = len := by
    unfold allocMem
    rw [read32_setAllocated _ _ (by omega)]
    unfold Kheap.splitMem
    dsimp only
    rw [read32_setLength _ _ (by omega)]
    omega
  have hdWord :
      (allocMem (Kheap.splitMem h.mem c d len) c).read32
          (d.addr + 8) = (c.length - len) * 2 := by
    unfold allocMem Kheap.splitMem
    dsimp only
    rw [ByteMemory.read32_write32_of_apart _ _ (by omega),
      ByteMemory.read32_write32_of_apart _ _ (by omega),
      ByteMemory.read32_write32_of_apart _ _ (by omega),
      read32_setLength _ _ (by omega),
      read32_setAllocated _ _ (by omega)]
    omega
  exact
    { low := by omega
      room := hRoom
      fits := by
        unfold HEADER_SIZE
        omega
      next := hNext
      loop := hLoop
      free := by omega
      length := by omega }

/- After a split the heap does not become what it was. -/
theorem Chained.not_restores_split
    {c d : Chunk}
    {len : Nat}
    (hChained : Chained cfg (xs ++ c :: d :: ys) stop)
    (hFits : c.Fits len) :
    ¬ Restores cfg (c.addr + HEADER_SIZE)
      (cfg.heap.withMem
        (allocMem (splitMem cfg.heap.mem c d len) c)) := by
  have hSound := hChained.sound
  rcases hSound.neighbours with
    ⟨hLow, hcRoom, hdAddr, hdRoom, hdStop, hTop, _, _⟩
  -- the chunk before a free one is allocated
  have hPrev : PrevAllocated cfg.heap.mem c.addr := by
    unfold PrevAllocated
    rw [hSound.header.1]
    rcases List.eq_nil_or_concat xs with rfl | ⟨bs, b, rfl⟩
    · exact .inl rfl
    · rw [List.concat_eq_append] at *
      have hApart := (apart_append_cons.mp hChained.apart).2.2
      rw [hFits.1] at hApart
      have hb := (hApart.resolve_left (by decide)).1 b (by simp)
      rw [List.append_assoc] at hSound
      have hRoom := hSound.neighbours.2.1
      have hWord := hSound.headers.2.2.1
      rw [lastAddr_concat, hWord, b.word_mod, hb]
      exact .inr ⟨hRoom, rfl⟩
  rintro ⟨fuel, h', hRun, hRestored⟩
  have hSat := (hSound.selfLinked hFits.2).kfree_sat
    (h := cfg.heap.withMem
      (allocMem (splitMem cfg.heap.mem c d len) c)) fuel
    (hPrev.of_same (hSound.splitMem len).1)
  rcases (Traced.kfree_traces fuel _).sat ⟨_, []⟩ hSat hRun
    with ⟨_, hLoop⟩
  have hOn : OnChain cfg.heap d.addr :=
    hSound.onChain_iff.mpr ⟨d, by simp, rfl⟩
  have hKept := (hRestored.headers d.addr hOn).2.1
  rw [hLoop, hSound.headers.2.2.2.2.1] at hKept
  rcases hSound.after with hEnd | hNext <;> omega

------------------------------------------------------------
-- Allocating and Freeing
------------------------------------------------------------

/- Runs from the heap that maps no page keep it trim. -/
theorem exists_trim
    (hReach : Reachable Fresh RegularStep cfg) :
    ∃ chunks stop, Chained cfg chunks stop ∧
      Trim cfg.heap stop := by
  apply hReach.invariant
  · rintro cfg ⟨hEmpty, hUnmapped⟩
    refine ⟨[], KHEAP_START, hEmpty.chained, ?_, ?_⟩
    · rw [hEmpty.1]
      decide
    · intro page hLo hHi
      rw [hUnmapped page hLo hHi, hEmpty.1]
      exact iff_of_false (by simp) (Nat.not_lt.mpr hLo)
  · rintro cfg cfg' _ ⟨chunks, stop, hChained, hTrim⟩ hStep
    rcases hStep.chained hChained with
      ⟨chunks', stop', hChained', hTrim'⟩
    exact ⟨chunks', stop', hChained', hTrim' hTrim⟩

/-
  In every run without a split, `kfree` of what `kmalloc` has
  just returned restores the heap exactly if that call splits
  no chunk either.
-/
theorem kheap_restores
    (hReach : Reachable Fresh RegularStep cfg) :
    ∀ fuel len p h', len + HEADER_SIZE < 2 ^ 32 →
      (kmalloc fuel len).run cfg.heap = .ok p h' →
        (Restores cfg p h' ↔ NoSplit cfg.heap len) := by
  rcases exists_trim hReach with
    ⟨chunks, stop, hChained, hTrim⟩
  intro fuel len p h' hLen hRun
  have hSat := kmalloc_sat fuel hChained.sound
    (.inl hChained.last) hLen
  rcases (Traced.kmalloc_traces fuel len).sat
    ⟨cfg.heap, []⟩ hSat hRun with
    ⟨_, _, events, _, hDone⟩
  cases hDone with
  | reused hChain hFits hNoSplit =>
      subst hChain
      exact iff_of_true
        (hChained.restores_reused hTrim hFits.1) hNoSplit
  | split hChain hFits hSplit =>
      subst hChain
      exact iff_of_false (hChained.not_restores_split hFits)
        hSplit
  | appended hNoSplit hAppended =>
      exact iff_of_true
        (hChained.restores_appended hTrim hAppended) hNoSplit

theorem kheap_restores_first :
    Restores ⟨firstHeap, [(0xF000000C, 100)]⟩ 0xF000007C
        secondHeap ↔
      NoSplit firstHeap 20 :=
  kheap_restores
    (fresh_firstHeap.mono (fun _ hFresh => hFresh)
      (fun _ _ hStep => hStep.regular))
    2 20 0xF000007C secondHeap (by decide) kmalloc_second

/- After the split the second chunk remains self-linked. -/
theorem kheap_not_restored :
    ¬ ∀ cfg, Reachable Fresh AnyStep cfg →
      ∀ fuel len p h', len + HEADER_SIZE < 2 ^ 32 →
        (kmalloc fuel len).run cfg.heap = .ok p h' →
          Restores cfg p h' := by
  intro hAll
  rcases hAll _
    (fresh_freedHeap.mono (fun _ hFresh => hFresh)
      (fun _ _ hStep => hStep.any))
    2 20 0xF000000C splitHeap (by decide) kmalloc_split with
    ⟨fuel, h', hRun, hRestored⟩
  have hLinked :
      SelfLinked splitHeap.mem 0xF0000000 0xF0000070 := by
    refine ⟨?_, ?_, ?_, ?_, ?_, ?_, ?_⟩ <;> decide +kernel
  have hBefore : PrevAllocated splitHeap.mem 0xF0000000 :=
    .inl (by decide +kernel)
  rcases (Traced.kfree_traces fuel _).sat ⟨splitHeap, []⟩
    (hLinked.kfree_sat fuel hBefore) hRun with ⟨_, hLoop⟩
  have hFirst : freedHeap.kheapFirst = 0xF0000000 := by
    decide +kernel
  have hNext :
      freedHeap.mem.read32 (0xF0000000 + 4) = 0xF0000070 ∧
        freedHeap.mem.read32 (0xF0000070 + 4) = 0 := by
    decide +kernel
  have hOn : OnChain freedHeap 0xF0000000 := by
    rw [← hFirst]
    apply OnChain.first
    rw [hFirst]
    decide
  have hOn' := hOn.next (by rw [hNext.1]; decide)
  rw [hNext.1] at hOn'
  have hKept := (hRestored.headers _ hOn').2.1
  dsimp only at hKept hLoop
  rw [hLoop, hNext.2] at hKept
  exact absurd hKept (by decide)

end Kheap

end SosKernel
