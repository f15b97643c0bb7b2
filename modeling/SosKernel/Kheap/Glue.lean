import SosKernel.Kheap.Calls

/-
  Coalescing, and what `kfree` has done when it returns.

  Main declarations:
    * `NextGlued`, `PrevGlued`, `Glued`
    * `glueNext_sat`, `gluePrev_sat`, `freeChunk_sat`
    * `kfree_sat`, `kfree_ok`
-/

------------------------------------------------------------
-- Coalescing
------------------------------------------------------------

namespace SosKernel

namespace Kheap

variable {h h' : Heap}
variable {chunks chunks' xs ys : List Chunk}
variable {stop stop' : Nat}

/- The word of a header after its length has grown. -/
theorem merge_word
    {c d : Chunk}
    {mem : ByteMemory}
    (hWord : mem.read32 (c.addr + 8) = c.word) :
    (c.length + d.length) * 2 +
        mem.read32 (c.addr + 8) % 2 =
      (c.merge d).word := by
  rw [hWord, c.word_mod]
  rfl

/-
  A heap whose memory has been changed as merging demands is
  sound again.
-/
theorem Sound.merge
    {c d : Chunk}
    {mem' : ByteMemory}
    (hSound : Sound h (xs ++ c :: d :: ys) stop)
    (hLeft : h.mem.SameOn KHEAP_START (c.addr + 4) mem')
    (hNext : mem'.read32 (c.addr + 4) = headAddr ys 0)
    (hWord : mem'.read32 (c.addr + 8) = (c.merge d).word)
    (hRight : h.mem.SameOn (d.stop + 4) stop mem')
    (hPrev : ys ≠ [] → mem'.read32 d.stop = c.addr) :
    Sound (h.withMem mem') (xs ++ c.merge d :: ys)
      stop where
  tiled := hSound.tiled.merge
  linked :=
    hSound.linked.merge hSound.tiled hLeft hNext hWord
      hRight hPrev
  first := by
    have hFirst := hSound.first
    rw [headAddr_append] at hFirst ⊢
    exact hFirst
  stopLe := hSound.stopLe
  maxLe := hSound.maxLe
  aligned := hSound.aligned

/-
  The memory after `d` has been merged into `c`, with the
  address `after` of the chunk after `d`.  The last two
  stores do not overlap.
-/
def mergeMem
    (mem : ByteMemory)
    (c d : Chunk)
    (after : Nat) : ByteMemory :=
  ((mem.write32 (c.addr + 8) (c.merge d).word).write32
    after c.addr).write32 (c.addr + 4) after

/- The merged memory is as the chain demands. -/
theorem Sound.mergeMem
    {c d : Chunk}
    (hSound : Sound h (xs ++ c :: d :: ys) stop) :
    Sound
      (h.withMem (mergeMem h.mem c d (headAddr ys 0)))
      (xs ++ c.merge d :: ys) stop := by
  rcases hSound.neighbours with
    ⟨hLow, hcRoom, hdAddr, hdRoom, hdStop, hTop, hCons,
      hNil⟩
  have hAfter :
      headAddr ys 0 = 0 ∨
        headAddr ys 0 = d.addr + d.length := by
    by_cases hEnd : ys = []
    · exact .inl (hNil hEnd)
    · exact .inr (hCons hEnd)
  have hBit := Bool.toNat_lt c.allocated
  have hWord : (c.merge d).word < 2 ^ 32 := by
    unfold Chunk.word Chunk.merge
    dsimp only
    omega
  unfold Kheap.mergeMem
  apply hSound.merge
  · unfold KHEAP_START
    exact ((ByteMemory.sameOn_write32 _ _ _
      (by omega)).trans
        (ByteMemory.sameOn_write32 _ _ _ (by omega))).trans
          (ByteMemory.sameOn_write32 _ _ _ (by omega))
  · rw [ByteMemory.read32_write32_self _ _ (by omega)]
  · rw [ByteMemory.read32_write32_of_apart _ _ (by omega),
      ByteMemory.read32_write32_of_apart _ _ (by omega),
      ByteMemory.read32_write32_self _ _ hWord]
  · unfold Chunk.stop
    exact ((ByteMemory.sameOn_write32 _ _ _
      (by omega)).trans
        (ByteMemory.sameOn_write32 _ _ _ (by omega))).trans
          (ByteMemory.sameOn_write32 _ _ _ (by omega))
  · intro hNe
    unfold Chunk.stop
    rw [← hCons hNe,
      ByteMemory.read32_write32_of_apart _ _ (by omega),
      ByteMemory.read32_write32_self _ _ (by omega)]

/-
  What `glue_chunk` does with the chunk `c` and the chunks
  after it, and its events.
-/
inductive NextGlued (kheapMax : Nat) :
    Chunk → List Chunk → Chunk → List Chunk →
      List Event → Prop where
| last (c : Chunk) : NextGlued kheapMax c [] c [] []
| allocated
    {c d : Chunk}
    {ys : List Chunk}
    (hAllocated : d.allocated = true) :
    NextGlued kheapMax c (d :: ys) c (d :: ys) []
| free
    {c d : Chunk}
    {ys : List Chunk}
    (hFree : d.allocated = false) :
    NextGlued kheapMax c (d :: ys) (c.merge d) ys
      [.add c.length d.length,
        .length (c.length + d.length),
        .store (c.addr + 8) kheapMax true,
        .store (headAddr ys 0) kheapMax true,
        .store (c.addr + 4) kheapMax true]

/-
  What it does with the chunks before `d`, where the chunks
  `ys` are after it.
-/
inductive PrevGlued (kheapMax : Nat) (ys : List Chunk) :
    List Chunk → Chunk → List Chunk → Chunk →
      List Event → Prop where
| first (d : Chunk) : PrevGlued kheapMax ys [] d [] d []
| allocated
    {bs : List Chunk}
    {c d : Chunk}
    (hAllocated : c.allocated = true) :
    PrevGlued kheapMax ys (bs ++ [c]) d (bs ++ [c]) d []
| free
    {bs : List Chunk}
    {c d : Chunk}
    (hFree : c.allocated = false) :
    PrevGlued kheapMax ys (bs ++ [c]) d bs (c.merge d)
      [.add c.length d.length,
        .length (c.length + d.length),
        .store (c.addr + 8) kheapMax true,
        .store (c.addr + 4) kheapMax true,
        .store (headAddr ys 0) kheapMax true]

variable {trace : List Event}

/- A free successor is taken into the chunk. -/
theorem glueNext_sat
    {c : Chunk}
    (hSound : Sound h (xs ++ c :: ys) stop)
    (hFit : Fit trace) :
    ((Traced.glueNext c.addr).run ⟨h, trace⟩).Sat
      (fun _ s' => ∃ mem' c' ys' events,
        NextGlued h.kheapMax c ys c' ys' events ∧
          Fit (trace ++ events) ∧
          s' = ⟨h.withMem mem', trace ++ events⟩ ∧
          Sound (h.withMem mem') (xs ++ c' :: ys') stop)
      Stopped := by
  unfold Traced.glueNext
  refine sat_getNext hFit ?_
  rw [hSound.header.2.1]
  cases ys with
  | nil =>
      rw [headAddr_nil, if_neg (by simp)]
      refine ⟨h.mem, c, [], [], .last c, ?_⟩
      rw [List.append_nil]
      exact ⟨hFit, rfl, hSound⟩
  | cons d ys =>
      rcases hSound.headers with
        ⟨_, hcNext, hcWord, _, hdNext, hdWord⟩
      rcases hSound.neighbours with
        ⟨hLow, hcRoom, hdAddr, hdRoom, hdStop, hTop, _, _⟩
      have hAfter := hSound.after
      rw [if_pos (by rw [headAddr_cons]; omega)]
      refine sat_getNext hFit ?_
      rw [hcNext]
      refine sat_getAllocated hFit ?_
      rw [hdWord, d.word_mod]
      cases hBit : d.allocated with
      | true =>
          rw [if_neg (by decide)]
          refine ⟨h.mem, c, d :: ys, [], .allocated hBit, ?_⟩
          rw [List.append_nil]
          exact ⟨hFit, rfl, hSound⟩
      | false =>
          have hLength : c.length + d.length < 2 ^ 31 := by
            omega
          rw [if_pos (by decide)]
          refine sat_getLength hFit ?_
          refine sat_getNext hFit ?_
          rw [hcNext]
          refine sat_getLength hFit ?_
          rw [hcWord, hdWord, c.word_div, d.word_div]
          refine sat_add hFit (by omega) (fun hFit => ?_)
          refine sat_setLength hFit hLength (fun hFit => ?_)
          rw [merge_word hcWord]
          refine sat_getNext hFit ?_
          rw [withMem_mem,
            ByteMemory.read32_write32_of_apart _ _
              (by omega), hcNext]
          refine sat_getNext hFit ?_
          rw [withMem_mem,
            ByteMemory.read32_write32_of_apart _ _
              (by omega), hdNext]
          refine sat_setPrev hFit (fun hFit => ?_)
          rw [withMem_mem, withMem_withMem]
          refine sat_getNext hFit ?_
          rw [withMem_mem,
            ByteMemory.read32_write32_of_apart _ _
              (by omega),
            ByteMemory.read32_write32_of_apart _ _
              (by omega), hcNext]
          refine sat_getNext hFit ?_
          rw [withMem_mem,
            ByteMemory.read32_write32_of_apart _ _
              (by omega),
            ByteMemory.read32_write32_of_apart _ _
              (by omega), hdNext]
          refine sat_of_bind_pure
            (sat_setNext hFit (fun hFit => ?_))
          rw [withMem_mem, withMem_withMem]
          simp only [List.append_assoc, List.cons_append,
            List.nil_append] at hFit ⊢
          exact ⟨mergeMem h.mem c d (headAddr ys 0),
            c.merge d, ys, _, .free hBit, hFit, rfl,
            hSound.mergeMem⟩

/-
  The chunk is taken into a free predecessor.  The result is
  the chunk that remains.
-/
theorem gluePrev_sat
    {d : Chunk}
    (hSound : Sound h (xs ++ d :: ys) stop)
    (hFit : Fit trace) :
    ((Traced.gluePrev d.addr).run ⟨h, trace⟩).Sat
      (fun a s' => ∃ mem' xs' c events,
        PrevGlued h.kheapMax ys xs d xs' c events ∧
          Fit (trace ++ events) ∧
          a = c.addr ∧
          s' = ⟨h.withMem mem', trace ++ events⟩ ∧
          Sound (h.withMem mem') (xs' ++ c :: ys) stop)
      Stopped := by
  unfold Traced.gluePrev
  refine sat_getPrev hFit ?_
  rw [hSound.header.1]
  rcases List.eq_nil_or_concat xs with rfl | ⟨bs, c, rfl⟩
  · rw [lastAddr_nil, if_pos rfl]
    refine ⟨h.mem, [], d, [], .first d, ?_⟩
    rw [List.append_nil]
    exact ⟨hFit, rfl, rfl, hSound⟩
  · rw [List.concat_eq_append] at *
    have hSplit : Sound h (bs ++ c :: d :: ys) stop := by
      rw [List.append_assoc] at hSound
      exact hSound
    rcases hSplit.headers with
      ⟨_, hcNext, hcWord, hdPrev, hdNext, hdWord⟩
    rcases hSplit.neighbours with
      ⟨hLow, hcRoom, hdAddr, hdRoom, hdStop, hTop, _, _⟩
    have hAfter := hSplit.after
    rw [lastAddr_concat, if_neg (by omega)]
    refine sat_getPrev hFit ?_
    rw [hdPrev]
    refine sat_getAllocated hFit ?_
    rw [hcWord, c.word_mod]
    cases hBit : c.allocated with
    | true =>
        rw [if_neg (by decide)]
        refine ⟨h.mem, bs ++ [c], d, [], .allocated hBit, ?_⟩
        rw [List.append_nil]
        exact ⟨hFit, rfl, rfl, hSound⟩
    | false =>
        have hLength : c.length + d.length < 2 ^ 31 := by
          omega
        rw [if_pos (by decide)]
        refine sat_getPrev hFit ?_
        refine sat_getPrev hFit ?_
        rw [hdPrev]
        refine sat_getLength hFit ?_
        refine sat_getLength hFit ?_
        rw [hcWord, hdWord, c.word_div, d.word_div]
        refine sat_add hFit (by omega) (fun hFit => ?_)
        refine sat_setLength hFit hLength (fun hFit => ?_)
        rw [merge_word hcWord]
        refine sat_getPrev hFit ?_
        rw [withMem_mem,
          ByteMemory.read32_write32_of_apart _ _
            (by omega), hdPrev]
        refine sat_getNext hFit ?_
        rw [withMem_mem,
          ByteMemory.read32_write32_of_apart _ _
            (by omega), hdNext]
        refine sat_setNext hFit (fun hFit => ?_)
        rw [withMem_mem, withMem_withMem]
        refine sat_getNext hFit ?_
        rw [withMem_mem,
          ByteMemory.read32_write32_of_apart _ _
            (by omega),
          ByteMemory.read32_write32_of_apart _ _
            (by omega), hdNext]
        refine sat_getPrev hFit ?_
        rw [withMem_mem,
          ByteMemory.read32_write32_of_apart _ _
            (by omega),
          ByteMemory.read32_write32_of_apart _ _
            (by omega), hdPrev]
        refine sat_setPrev hFit (fun hFit => ?_)
        rw [withMem_mem, withMem_withMem,
          ByteMemory.write32_comm _ _ _ (by omega)]
        refine sat_of_bind_pure (sat_getPrev hFit ?_)
        rw [withMem_mem,
          ByteMemory.read32_write32_of_apart _ _
            (by omega),
          ByteMemory.read32_write32_of_apart _ _
            (by omega),
          ByteMemory.read32_write32_of_apart _ _
            (by omega), hdPrev]
        simp only [List.append_assoc, List.cons_append,
          List.nil_append] at hFit ⊢
        exact ⟨mergeMem h.mem c d (headAddr ys 0), bs,
          c.merge d, _, .free hBit, hFit, rfl, rfl,
          hSplit.mergeMem⟩

------------------------------------------------------------
-- Dropping the Last Chunk
------------------------------------------------------------

/- The chain without its last chunk. -/
theorem Linked.dropLast
    {mem : ByteMemory}
    {start : Nat}
    {c : Chunk}
    (hLinked : Linked mem 0 (xs ++ [c]) 0)
    (hTiled : Tiled start (xs ++ [c]) stop) :
    Linked (mem.write32 (lastAddr 0 xs + 4) 0) 0 xs 0 := by
  rcases tiled_append.mp hTiled with ⟨mid, hXs, _⟩
  rcases linked_append.mp hLinked with ⟨hLeft, _⟩
  rcases List.eq_nil_or_concat xs with rfl | ⟨bs, b, rfl⟩
  · trivial
  · rw [List.concat_eq_append] at *
    rw [lastAddr_concat]
    apply hLeft.retail hXs
      (ByteMemory.sameOn_write32 _ _ _ (by omega))
    · exact ByteMemory.read32_write32_self _ _ (by omega)
    · exact ByteMemory.read32_write32_of_apart _ _
        (by omega)


theorem Trim.shrunk
    {chunk : Nat}
    (hTrim : Trim h stop)
    (hShrunk : Shrunk h h' chunk) :
    Trim h' chunk where
  tight := hShrunk.tight
  mapped := by
    intro page hLo hHi
    have hLe := hShrunk.le
    have hPages := Nat.div_le_div_right (c := PAGE_SIZE) hLe
    rcases Nat.lt_or_ge page (h'.kheapMax / PAGE_SIZE) with
      hKept | hGone
    · rw [hShrunk.mapping page (.inl hKept),
        hTrim.mapped page hLo hHi]
      omega
    · rcases Nat.lt_or_ge page (h.kheapMax / PAGE_SIZE) with
        hOld | hOut
      · rw [hShrunk.unmapped page hGone hOld]
        constructor
        · intro hSome
          cases hSome
        · intro hLt
          omega
      · rw [hShrunk.mapping page (.inr hOut),
          hTrim.mapped page hLo hHi]
        omega

/- The last chunk is given back. -/
theorem freeChunk_sat
    {fuel : Nat}
    {c : Chunk}
    (hSound : Sound h (xs ++ [c]) stop)
    (hFit : Fit trace) :
    ((Traced.freeChunk fuel c.addr).run ⟨h, trace⟩).Sat
      (fun _ s' =>
        Sound s'.state xs c.addr ∧
          (Trim h stop → Trim s'.state c.addr) ∧
          Fit s'.trace ∧
          s'.trace =
            trace ++ [h.storeAt (lastAddr 0 xs + 4)])
      Stopped := by
  have hRange := hSound.range
    (show c ∈ xs ++ [c] by simp)
  rcases tiled_append.mp hSound.tiled with
    ⟨mid, hXs, hcAddr, _⟩
  rw [← hcAddr] at hXs
  have hPrev := hXs.lastAddr_le
  have hUnlinked := hSound.linked.dropLast hSound.tiled
  have hMax := hSound.maxLe
  have hAligned := hSound.aligned
  have hStop := hSound.stopLe
  have hStart :
      KHEAP_START ≤ c.addr ∧ c.addr ≤ h.kheapMax := by
    unfold KHEAP_START
    omega
  have hFirst :
      xs ≠ [] → h.kheapFirst = headAddr xs 0 := by
    intro hNe
    have hFirst := hSound.first
    cases xs with
    | nil => exact absurd rfl hNe
    | cons b bs => exact hFirst
  -- the heap in which the loop starts
  have hShrink :
      ∀ u h', (shrinkHeap fuel c.addr).run
          { h.withMem
              (h.mem.write32 (lastAddr 0 xs + 4) 0) with
            kheapFirst := headAddr xs 0 } = .ok u h' →
        Sound h' xs c.addr ∧
          (Trim h stop → Trim h' c.addr) := by
    intro u h' hRun
    have hShrunk := shrinkHeap_ok hRun hMax hAligned
      hStart.1 hStart.2
    refine ⟨?_, ?_⟩
    · exact
        { tiled := hXs
          linked := by
            rw [hShrunk.mem]
            exact hUnlinked
          first := hShrunk.first
          stopLe := hShrunk.kept
          maxLe := Nat.le_trans hShrunk.le hMax
          aligned := hShrunk.aligned }
    · intro hTrim
      have hStart : Trim
          { h.withMem
              (h.mem.write32 (lastAddr 0 xs + 4) 0) with
            kheapFirst := headAddr xs 0 } stop :=
        ⟨hTrim.tight, hTrim.mapped⟩
      exact hStart.shrunk hShrunk
  unfold Traced.freeChunk
  refine sat_getPrev hFit ?_
  rw [hSound.header.1]
  refine sat_setNext hFit (fun hFit => ?_)
  refine sat_getPrev hFit ?_
  rw [withMem_mem,
    ByteMemory.read32_write32_of_apart _ _ (by omega),
    hSound.header.1]
  by_cases hNil : xs = []
  · -- the heap is empty again
    subst hNil
    rw [lastAddr_nil] at *
    rw [if_pos rfl]
    refine sat_lift hFit (fun u h₁ hRun => ?_)
    cases hRun
    refine sat_of_bind_pure
      (sat_lift hFit (fun u h' hRun => ?_))
    rcases hShrink u h' hRun with ⟨hSound', hTrim'⟩
    exact ⟨hSound', hTrim', hFit, rfl⟩
  · have hNe : lastAddr 0 xs ≠ 0 :=
      lastAddr_ne_zero hSound hNil
    rw [if_neg hNe]
    refine sat_of_bind_pure
      (sat_lift hFit (fun u h' hRun => ?_))
    rw [← hFirst hNil] at hShrink
    rcases hShrink u h' hRun with ⟨hSound', hTrim'⟩
    exact ⟨hSound', hTrim', hFit, rfl⟩

/-
  What `glue_chunk` makes of the free chunk `c` between the
  chunks `xs` and `ys`, and its events.
-/
inductive Glued
    (kheapMax : Nat)
    (xs : List Chunk)
    (c : Chunk)
    (ys : List Chunk) :
    List Chunk → List Event → Prop where
| kept
    {c₁ c₂ d : Chunk}
    {xs₂ ys₁ : List Chunk}
    {next prev : List Event}
    (hNext : NextGlued kheapMax c ys c₁ (d :: ys₁) next)
    (hPrev :
      PrevGlued kheapMax (d :: ys₁) xs c₁ xs₂ c₂ prev) :
    Glued kheapMax xs c ys (xs₂ ++ c₂ :: d :: ys₁)
      (next ++ prev)
| dropped
    {c₁ c₂ : Chunk}
    {xs₂ : List Chunk}
    {next prev : List Event}
    (hNext : NextGlued kheapMax c ys c₁ [] next)
    (hPrev : PrevGlued kheapMax [] xs c₁ xs₂ c₂ prev) :
    Glued kheapMax xs c ys xs₂
      (next ++ prev ++
        [.store (lastAddr 0 xs₂ + 4) kheapMax true])

theorem NextGlued.addr
    {kheapMax : Nat}
    {c c' : Chunk}
    {ys' : List Chunk}
    {events : List Event}
    (hGlued : NextGlued kheapMax c ys c' ys' events) :
    c'.addr = c.addr := by
  cases hGlued <;> rfl

/- The allocated chunks of two chains are the same. -/
def SameAllocated (chunks chunks' : List Chunk) : Prop :=
  ∀ e : Chunk, e.allocated = true →
    (e ∈ chunks' ↔ e ∈ chunks)

/- An allocated chunk is no free one. -/
theorem Chunk.ne_of_free
    {c e : Chunk}
    (hAllocated : e.allocated = true)
    (hFree : c.allocated = false) :
    e ≠ c := by
  rintro rfl
  rw [hFree] at hAllocated
  cases hAllocated

theorem NextGlued.allocated_iff
    {kheapMax : Nat}
    (xs : List Chunk)
    {c c' : Chunk}
    {ys' : List Chunk}
    {events : List Event}
    (hGlued : NextGlued kheapMax c ys c' ys' events)
    (hFree : c.allocated = false) :
    c'.allocated = false ∧
      SameAllocated (xs ++ c :: ys) (xs ++ c' :: ys') := by
  cases hGlued with
  | last => exact ⟨hFree, fun _ _ => Iff.rfl⟩
  | allocated => exact ⟨hFree, fun _ _ => Iff.rfl⟩
  | @free d _ hd =>
      refine ⟨hFree, ?_⟩
      intro e hAllocated
      have hNotC := Chunk.ne_of_free hAllocated hFree
      have hNotD := Chunk.ne_of_free hAllocated hd
      have hMerged : e ≠ c.merge d :=
        Chunk.ne_of_free hAllocated hFree
      simp [hNotC, hNotD, hMerged]

theorem PrevGlued.allocated_iff
    {kheapMax : Nat}
    {c d : Chunk}
    {xs' : List Chunk}
    {events : List Event}
    (hGlued : PrevGlued kheapMax ys xs d xs' c events)
    (hFree : d.allocated = false) :
    c.allocated = false ∧
      SameAllocated (xs ++ d :: ys) (xs' ++ c :: ys) := by
  cases hGlued with
  | first => exact ⟨hFree, fun _ _ => Iff.rfl⟩
  | allocated => exact ⟨hFree, fun _ _ => Iff.rfl⟩
  | @free bs c _ hc =>
      refine ⟨hc, ?_⟩
      intro e hAllocated
      have hNotC := Chunk.ne_of_free hAllocated hc
      have hNotD := Chunk.ne_of_free hAllocated hFree
      have hMerged : e ≠ c.merge d :=
        Chunk.ne_of_free hAllocated hc
      simp [hNotC, hNotD, hMerged]

/- Coalescing a free chunk changes free chunks only. -/
theorem Glued.allocated_iff
    {kheapMax : Nat}
    {c : Chunk}
    {events : List Event}
    (hGlued : Glued kheapMax xs c ys chunks' events)
    (hFree : c.allocated = false) :
    SameAllocated (xs ++ c :: ys) chunks' := by
  cases hGlued with
  | kept hNext hPrev =>
      rcases hNext.allocated_iff xs hFree with
        ⟨hFree₁, hSame₁⟩
      rcases hPrev.allocated_iff hFree₁ with ⟨_, hSame₂⟩
      intro e hAllocated
      exact (hSame₂ e hAllocated).trans (hSame₁ e hAllocated)
  | @dropped _ c₂ xs₂ _ _ hNext hPrev =>
      rcases hNext.allocated_iff xs hFree with
        ⟨hFree₁, hSame₁⟩
      rcases hPrev.allocated_iff hFree₁ with ⟨hFree₂, hSame₂⟩
      intro e hAllocated
      have hOther := Chunk.ne_of_free hAllocated hFree₂
      rw [← hSame₁ e hAllocated, ← hSame₂ e hAllocated]
      simp [hOther]

/- A free chunk is coalesced with its free neighbours. -/
theorem glueChunk_sat
    {fuel : Nat}
    {c : Chunk}
    (hSound : Sound h (xs ++ c :: ys) stop)
    (hFit : Fit trace) :
    ((Traced.glueChunk fuel c.addr).run ⟨h, trace⟩).Sat
      (fun _ s' => ∃ chunks' stop' events,
        Glued h.kheapMax xs c ys chunks' events ∧
          Sound s'.state chunks' stop' ∧
          (Trim h stop → Trim s'.state stop') ∧
          Fit s'.trace ∧
          s'.trace = trace ++ events)
      Stopped := by
  unfold Traced.glueChunk
  refine (glueNext_sat hSound hFit).bind ?_
  rintro _ _
    ⟨mem₁, c₁, ys₁, next, hNext, hFit₁, rfl, hSound₁⟩
  rw [← hNext.addr]
  refine (gluePrev_sat hSound₁ hFit₁).bind ?_
  rintro _ _
    ⟨mem₂, xs₂, c₂, prev, hPrev, hFit₂, rfl, rfl, hSound₂⟩
  refine sat_getNext hFit₂ ?_
  rw [hSound₂.header.2.1]
  cases ys₁ with
  | nil =>
      rw [headAddr_nil, if_pos rfl]
      refine (freeChunk_sat hSound₂ hFit₂).imp ?_ ?_
      · rintro _ s' ⟨hSound', hTrim', hFit', hTrace⟩
        refine ⟨xs₂, c₂.addr, _, .dropped hNext hPrev,
          hSound', ?_, hFit', ?_⟩
        · intro hTrim
          exact hTrim' ⟨hTrim.tight, hTrim.mapped⟩
        · rw [hTrace]
          simp only [List.append_assoc]
          rfl
      · intro e s hStopped
        exact hStopped
  | cons d ys₁ =>
      have hSplit :
          Sound ((h.withMem mem₁).withMem mem₂)
            ((xs₂ ++ [c₂]) ++ d :: ys₁) stop := by
        rw [List.append_assoc]
        exact hSound₂
      have hNe : headAddr (d :: ys₁) 0 ≠ 0 :=
        headAddr_ne_zero hSplit (List.cons_ne_nil d ys₁)
      rw [if_neg hNe]
      refine ⟨_, stop, _, .kept hNext hPrev, hSound₂, ?_,
        hFit₂, ?_⟩
      · intro hTrim
        exact ⟨hTrim.tight, hTrim.mapped⟩
      · exact List.append_assoc _ _ _

------------------------------------------------------------
-- Freeing
------------------------------------------------------------

/- The events of `kfree`, where those of `glue_chunk` end. -/
def freeEvents
    (kheapMax : Nat)
    (c : Chunk)
    (events : List Event) : List Event :=
  [.sub (c.addr + HEADER_SIZE) HEADER_SIZE,
    .store (c.addr + 8) kheapMax true] ++ events

/- `kfree` of a chunk of a sound heap. -/
theorem kfree_sat
    {c : Chunk}
    (fuel : Nat)
    (hSound : Sound h (xs ++ c :: ys) stop) :
    ((Traced.kfree fuel (c.addr + HEADER_SIZE)).run
        ⟨h, []⟩).Sat
      (fun _ s' => ∃ chunks' stop' events,
        Glued h.kheapMax xs (c.mark false) ys chunks'
            events ∧
          Sound s'.state chunks' stop' ∧
          (Trim h stop → Trim s'.state stop') ∧
          Fit s'.trace ∧
          s'.trace = freeEvents h.kheapMax c events)
      Stopped := by
  have hRange := hSound.range
    (show c ∈ xs ++ c :: ys by simp)
  unfold Traced.kfree HEADER_SIZE
  refine sat_sub Fit.nil (by omega) (by omega)
    (fun hFit => ?_)
  rw [Nat.add_sub_cancel]
  have hMark : (c.mark false).addr = c.addr := rfl
  refine sat_setAllocated hFit (fun hFit => ?_)
  have hSound' : Sound
      (h.withMem
        (h.mem.write32 (c.addr + 8)
          (h.mem.read32 (c.addr + 8) / 2 * 2 + 0 % 2)))
      (xs ++ c.mark false :: ys) stop := by
    exact hSound.mark false
  refine (glueChunk_sat hSound' hFit).imp ?_ ?_
  · rintro _ s' ⟨chunks', stop', events, hGlued, hSound',
      hTrim', hFit', hTrace⟩
    refine ⟨chunks', stop', events, hGlued, hSound', ?_,
      hFit', ?_⟩
    · intro hTrim
      exact hTrim' ⟨hTrim.tight, hTrim.mapped⟩
    · rw [hTrace]
      rfl
  · intro e s hStopped
    exact hStopped

/-
  `kfree` of an allocated chunk keeps the heap sound, and
  every other allocated chunk.
-/
theorem kfree_ok
    {fuel : Nat}
    {c : Chunk}
    {u : Unit}
    (hSound : Sound h chunks stop)
    (hMem : c ∈ chunks)
    (hRun :
      (kfree fuel (c.addr + HEADER_SIZE)).run h =
        .ok u h') :
    ∃ chunks' stop', Sound h' chunks' stop' ∧
      ∀ d ∈ chunks, d.allocated = true →
        d.addr ≠ c.addr → d ∈ chunks' := by
  rcases List.append_of_mem hMem with ⟨xs, ys, rfl⟩
  rcases (Traced.kfree_traces fuel _).sat ⟨h, []⟩
    (kfree_sat fuel hSound) hRun with
    ⟨_, chunks', stop', events, hGlued, hSound', _⟩
  refine ⟨chunks', stop', hSound', ?_⟩
  intro d hd hAllocated hNe
  rw [hGlued.allocated_iff rfl d hAllocated]
  simp only [List.mem_append, List.mem_cons] at hd ⊢
  rcases hd with hd | rfl | hd
  · exact .inl hd
  · exact absurd rfl hNe
  · exact .inr (.inr hd)

end Kheap

end SosKernel
