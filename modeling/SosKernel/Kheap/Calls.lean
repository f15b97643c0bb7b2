import SosKernel.Kheap.Steps

/-
  The tiling invariant of the heap, and what `kmalloc` and
  `kfree` make of it.

  Main declarations:
    * `Sound`: the chain of chunks tiles the heap
    * `NoSplit`: `kmalloc` does not split a chunk
    * `kmalloc_ok`, `kfree_ok`
-/

------------------------------------------------------------
-- The Invariant
------------------------------------------------------------

namespace SosKernel

namespace Kheap

/-
  The headers in memory form one chain over chunks that lie
  one after the other from the start of the heap.
-/
structure Sound
    (h : Heap)
    (chunks : List Chunk)
    (stop : Nat) : Prop where
  tiled : Tiled KHEAP_START chunks stop
  linked : Linked h.mem 0 chunks 0
  first : h.kheapFirst = headAddr chunks 0
  stopLe : stop ≤ h.kheapMax
  maxLe : h.kheapMax ≤ KHEAP_END
  aligned : h.kheapMax % PAGE_SIZE = 0

/-
  Nothing above the chain has been kept: `kheap_max` is the
  end of the chain, rounded up to a page, and the pages of
  the heap that are mapped are those below it.
-/
structure Trim (h : Heap) (stop : Nat) : Prop where
  tight : h.kheapMax < stop + PAGE_SIZE
  mapped :
    ∀ page, KHEAP_START / PAGE_SIZE ≤ page →
      page < KHEAP_END / PAGE_SIZE →
        ((h.mapping page).isSome = true ↔
          page < h.kheapMax / PAGE_SIZE)

/-
  The chunk that `kmalloc` would reuse for `len` bytes, if
  any, is not long enough to be split.
-/
def NoSplit (h : Heap) (len : Nat) : Prop :=
  ∀ a, Examined h (len + HEADER_SIZE) a →
    Fits h (len + HEADER_SIZE) a →
      h.mem.read32 (a + 8) / 2 - (len + HEADER_SIZE) ≤
        HEADER_SIZE

variable {h h' : Heap}
variable {chunks xs ys : List Chunk}
variable {start stop prev next : Nat}
variable {trace : List Event}

/- The third word of a header, as it is read. -/
theorem Chunk.word_div (c : Chunk) :
    c.word / 2 = c.length := by
  unfold Chunk.word
  have hBit := Bool.toNat_lt c.allocated
  omega

theorem Chunk.word_mod (c : Chunk) :
    c.word % 2 = c.allocated.toNat := by
  unfold Chunk.word
  have hBit := Bool.toNat_lt c.allocated
  omega

theorem Sound.stop_le_end
    (hSound : Sound h chunks stop) :
    KHEAP_START ≤ stop ∧ stop ≤ KHEAP_END :=
  ⟨hSound.tiled.le,
    Nat.le_trans hSound.stopLe hSound.maxLe⟩

/- A chunk lies within the heap. -/
theorem Sound.range
    {c : Chunk}
    (hSound : Sound h chunks stop)
    (hMem : c ∈ chunks) :
    0xF0000000 ≤ c.addr ∧ 12 ≤ c.length ∧
      c.addr + c.length ≤ stop ∧ stop ≤ 0xFD000000 := by
  have hRange := hSound.tiled.mem_range hMem
  have hEnd := hSound.stop_le_end
  unfold KHEAP_START KHEAP_END at hEnd
  unfold KHEAP_START HEADER_SIZE Chunk.stop at hRange
  omega

/- The header of a chunk, as it is read. -/
theorem Linked.header
    {mem : ByteMemory}
    {c : Chunk}
    (hLinked : Linked mem prev (xs ++ c :: ys) next) :
    mem.read32 c.addr = lastAddr prev xs ∧
      mem.read32 (c.addr + 4) = headAddr ys next ∧
      mem.read32 (c.addr + 8) = c.word := by
  rcases linked_append.mp hLinked with ⟨_, hRight⟩
  exact ⟨hRight.1, hRight.2.1, hRight.2.2.1⟩

/- A chunk of the chain is a part of it. -/
theorem Sound.header
    {c : Chunk}
    (hSound : Sound h (xs ++ c :: ys) stop) :
    h.mem.read32 c.addr = lastAddr 0 xs ∧
      h.mem.read32 (c.addr + 4) = headAddr ys 0 ∧
      h.mem.read32 (c.addr + 8) = c.word :=
  hSound.linked.header

theorem headAddr_ne_zero
    (hSound : Sound h (xs ++ ys) stop)
    (hNe : ys ≠ []) :
    headAddr ys 0 ≠ 0 := by
  cases ys with
  | nil => exact absurd rfl hNe
  | cons c ys =>
      have hRange := hSound.range
        (show c ∈ xs ++ c :: ys by simp)
      show c.addr ≠ 0
      omega

theorem lastAddr_ne_zero
    (hSound : Sound h (xs ++ ys) stop)
    (hNe : xs ≠ []) :
    lastAddr 0 xs ≠ 0 := by
  rcases List.eq_nil_or_concat xs with rfl | ⟨bs, b, rfl⟩
  · exact absurd rfl hNe
  · have hRange := hSound.range
      (show b ∈ bs.concat b ++ ys by simp)
    rw [List.concat_eq_append, lastAddr_concat]
    omega

/-
  Where two neighbours and the chunk after them lie; the
  latter is null at the end of the chain.
-/
theorem Sound.neighbours
    {c d : Chunk}
    (hSound : Sound h (xs ++ c :: d :: ys) stop) :
    0xF0000000 ≤ c.addr ∧ c.addr + 12 ≤ d.addr ∧
      d.addr = c.addr + c.length ∧
      d.addr + 12 ≤ d.addr + d.length ∧
      d.addr + d.length ≤ stop ∧ stop ≤ 0xFD000000 ∧
      (ys ≠ [] → headAddr ys 0 = d.addr + d.length) ∧
      (ys = [] → headAddr ys 0 = 0) := by
  have hc := hSound.range
    (show c ∈ xs ++ c :: d :: ys by simp)
  have hd := hSound.range
    (show d ∈ xs ++ c :: d :: ys by simp)
  rcases tiled_append.mp hSound.tiled with
    ⟨mid, _, hcAddr, _, hdAddr, _, hRest⟩
  refine ⟨by omega, by omega, by omega, by omega,
    by omega, by omega, ?_, ?_⟩
  · intro hNe
    rw [hRest.headAddr_eq hNe]
    omega
  · rintro rfl
    rfl

/- The headers of two neighbours, as they are read. -/
theorem Sound.headers
    {c d : Chunk}
    (hSound : Sound h (xs ++ c :: d :: ys) stop) :
    h.mem.read32 c.addr = lastAddr 0 xs ∧
      h.mem.read32 (c.addr + 4) = d.addr ∧
      h.mem.read32 (c.addr + 8) = c.word ∧
      h.mem.read32 d.addr = c.addr ∧
      h.mem.read32 (d.addr + 4) = headAddr ys 0 ∧
      h.mem.read32 (d.addr + 8) = d.word := by
  rcases linked_append.mp hSound.linked with ⟨_, hRight⟩
  rcases hRight with ⟨hc, hcNext, hcWord, hd⟩
  exact ⟨hc, hcNext, hcWord, hd.1, hd.2.1, hd.2.2.1⟩

/- The chunk after `d` overlaps neither header. -/
theorem Sound.after
    {c d : Chunk}
    (hSound : Sound h (xs ++ c :: d :: ys) stop) :
    headAddr ys 0 = 0 ∨
      headAddr ys 0 = d.addr + d.length := by
  rcases hSound.neighbours with
    ⟨_, _, _, _, _, _, hCons, hNil⟩
  by_cases hEnd : ys = []
  · exact .inl (hNil hEnd)
  · exact .inr (hCons hEnd)

------------------------------------------------------------
-- The Search
------------------------------------------------------------

/- The chunk is free and has `len` bytes. -/
def Chunk.Fits (c : Chunk) (len : Nat) : Prop :=
  c.allocated = false ∧ len ≤ c.length

/- The header of a chunk says whether it fits. -/
theorem Sound.fits_iff
    {c : Chunk}
    (len : Nat)
    (hSound : Sound h (xs ++ c :: ys) stop) :
    Fits h len c.addr ↔ c.Fits len := by
  unfold Fits Chunk.Fits
  rw [hSound.header.2.2, c.word_div, c.word_mod]
  cases c.allocated <;> simp

/-
  On a sound heap the search finds the first chunk of the
  chain that fits, or ends after the last chunk.
-/
theorem findChunk_sound
    {fuel len : Nat}
    {found : Nat × Nat}
    (hSound : Sound h (xs ++ ys) stop)
    (hBefore : ∀ b ∈ xs, ¬ b.Fits len)
    (hRun :
      (findChunk fuel len (headAddr ys 0)
        (lastAddr 0 xs)).run h = .ok found h') :
    found = (0, lastAddr 0 (xs ++ ys)) ∧
        (∀ b ∈ xs ++ ys, ¬ b.Fits len) ∨
      ∃ bs c as, xs ++ ys = bs ++ c :: as ∧
        found.1 = c.addr ∧ c.Fits len ∧
        ∀ b ∈ bs, ¬ b.Fits len := by
  induction fuel generalizing xs ys with
  | zero => cases hRun
  | succ fuel ih =>
      cases ys with
      | nil =>
          cases hRun
          rw [List.append_nil]
          exact .inl ⟨rfl, hBefore⟩
      | cons c ys =>
          have hFitsIff := hSound.fits_iff len
          rcases hSound.header with ⟨_, hNext, _⟩
          have hNe : c.addr ≠ 0 :=
            headAddr_ne_zero hSound (List.cons_ne_nil c ys)
          unfold findChunk at hRun
          rw [headAddr_cons, if_neg hNe,
            EStateM.bind_eq_ok_iff] at hRun
          rcases hRun with ⟨allocated, h₁, hAlloc, hRun⟩
          rcases getAllocated_ok hAlloc with ⟨rfl, rfl⟩
          rw [EStateM.bind_eq_ok_iff] at hRun
          rcases hRun with ⟨length, h₁, hLength, hRun⟩
          rcases getLength_ok hLength with ⟨rfl, rfl⟩
          split at hRun
          · rename_i hFits
            cases hRun
            exact .inr ⟨xs, c, ys, rfl, rfl,
              hFitsIff.mp hFits, hBefore⟩
          · rename_i hNot
            rw [EStateM.bind_eq_ok_iff] at hRun
            rcases hRun with ⟨next, h₁, hGet, hRun⟩
            rcases getNext_ok hGet with ⟨rfl, rfl⟩
            rw [hNext] at hRun
            have hSplit :
                xs ++ c :: ys = (xs ++ [c]) ++ ys := by
              simp
            rw [hSplit] at hSound ⊢
            apply ih hSound
            · intro b hb
              rcases List.mem_append.mp hb with hb | hb
              · exact hBefore b hb
              · cases List.mem_singleton.mp hb
                exact fun hFits => hNot (hFitsIff.mpr hFits)
            · rw [lastAddr_concat]
              exact hRun

/-
  Of the headers that a search for `len` bytes examines, only
  the first chunk that fits does.
-/
theorem Sound.examined
    {len a : Nat}
    (hSound : Sound h (xs ++ ys) stop)
    (hBefore : ∀ b ∈ xs, ¬ b.Fits len)
    (hFirst : ∀ d ∈ ys.head?, d.Fits len)
    (hExamined : Examined h len a) :
    ∃ bs b as, xs ++ ys = bs ++ b :: as ∧ b.addr = a ∧
      (b.Fits len → bs = xs ∧ b :: as = ys) := by
  -- where `b` fits, it cannot be one of `xs`
  have hEnd :
      ∀ bs b as, xs ++ ys = bs ++ b :: as →
        bs.length ≤ xs.length → b.Fits len →
          bs = xs ∧ b :: as = ys := by
    intro bs b as hSplit hLe hFits
    rcases List.append_eq_append_iff.mp hSplit with
      ⟨as', rfl, hYs⟩ | ⟨as', rfl, hTail⟩
    · have hNil : as' = [] := by
        rw [List.length_append] at hLe
        exact List.length_eq_zero_iff.mp (by omega)
      subst hNil
      exact ⟨by simp, by simpa using hYs.symm⟩
    · cases as' with
      | nil => exact ⟨by simp, by simpa using hTail⟩
      | cons d as' =>
          cases hTail
          exact absurd hFits (hBefore b (by simp))
  have hWhere :
      ∃ bs b as, xs ++ ys = bs ++ b :: as ∧ b.addr = a ∧
        bs.length ≤ xs.length := by
    induction hExamined with
    | first hNe =>
        rw [hSound.first] at hNe ⊢
        cases hChain : xs ++ ys with
        | nil =>
            rw [hChain] at hNe
            exact absurd rfl hNe
        | cons b as =>
            exact ⟨[], b, as, rfl, rfl, Nat.zero_le _⟩
    | next _ hNot hNext ih =>
        rcases ih with ⟨bs, b, as, hSplit, rfl, hLe⟩
        rw [hSplit] at hSound
        rw [hSound.fits_iff len] at hNot
        rw [hSound.header.2.1] at hNext ⊢
        cases as with
        | nil => exact absurd rfl hNext
        | cons c as =>
            refine ⟨bs ++ [b], c, as, ?_, rfl, ?_⟩
            · rw [hSplit]
              simp
            · rw [List.length_append, List.length_singleton]
              rcases Nat.lt_or_ge bs.length xs.length with
                hLt | hGe
              · exact hLt
              · -- `b` is the first chunk of `ys`
                exfalso
                apply hNot
                apply hFirst
                have hEq := List.append_inj hSplit
                  (Nat.le_antisymm hGe hLe)
                rw [hEq.2]
                rfl
  rcases hWhere with ⟨bs, b, as, hSplit, hAddr, hLe⟩
  exact ⟨bs, b, as, hSplit, hAddr, hEnd bs b as hSplit hLe⟩

/- Without a chunk that fits, none is split. -/
theorem Sound.noSplit_of_none
    {len : Nat}
    (hSound : Sound h chunks stop)
    (hNone : ∀ b ∈ chunks, ¬ b.Fits (len + HEADER_SIZE)) :
    NoSplit h len := by
  intro a hExamined hFits
  have hWhole : Sound h (chunks ++ []) stop := by
    rw [List.append_nil]
    exact hSound
  rcases hWhole.examined hNone (by simp) hExamined with
    ⟨bs, b, as, hSplit, rfl, _⟩
  rw [List.append_nil] at hSplit
  rw [hSplit] at hSound hNone
  exact absurd ((hSound.fits_iff _).mp hFits) (hNone b (by simp))

/- The first chunk that fits decides about a split. -/
theorem Sound.noSplit_iff
    {c : Chunk}
    {len : Nat}
    (hSound : Sound h (xs ++ c :: ys) stop)
    (hBefore : ∀ b ∈ xs, ¬ b.Fits (len + HEADER_SIZE))
    (hFits : c.Fits (len + HEADER_SIZE))
    (hExamined : Examined h (len + HEADER_SIZE) c.addr) :
    NoSplit h len ↔
      c.length - (len + HEADER_SIZE) ≤ HEADER_SIZE := by
  have hWord := hSound.header.2.2
  constructor
  · intro hNoSplit
    have hShort := hNoSplit c.addr hExamined
      ((hSound.fits_iff _).mpr hFits)
    rw [hWord, c.word_div] at hShort
    exact hShort
  · intro hShort a hOther hOtherFits
    rcases hSound.examined hBefore (by simpa using hFits)
      hOther with ⟨bs, b, as, hSplit, rfl, hOnly⟩
    have hWhole := hSound
    rw [hSplit] at hWhole
    have hSame := (hOnly ((hWhole.fits_iff _).mp hOtherFits)).2
    cases hSame
    rw [hWord, c.word_div]
    exact hShort

------------------------------------------------------------
-- Reusing a Chunk
------------------------------------------------------------

/- A chunk that is too short is not split. -/
theorem splitChunk_sat_short
    {c : Chunk}
    {len : Nat}
    (hSound : Sound h (xs ++ c :: ys) stop)
    (hRoom : len ≤ c.length)
    (hShort : c.length - len ≤ HEADER_SIZE)
    (hFit : Fit trace) :
    ((Traced.splitChunk c.addr len).run ⟨h, trace⟩).Sat
      (fun _ s' =>
        Fit s'.trace ∧
          s' = ⟨h, trace ++ [.sub c.length len]⟩)
      Stopped := by
  have hRange := hSound.range
    (show c ∈ xs ++ c :: ys by simp)
  unfold Traced.splitChunk
  refine sat_getLength hFit ?_
  rw [hSound.header.2.2, c.word_div]
  refine sat_sub hFit hRoom (by omega) (fun hFit => ?_)
  rw [if_neg (by omega)]
  exact ⟨hFit, rfl⟩

/-
  The memory after `c` has been cut to `len` bytes, with `d`
  the chunk that follows it.
-/
def splitMem
    (mem : ByteMemory)
    (c d : Chunk)
    (len : Nat) : ByteMemory :=
  let mem := mem.write32 d.addr c.addr
  let mem := mem.write32 (d.addr + 4) d.addr
  let mem :=
    mem.write32 (d.addr + 8)
      (mem.read32 (d.addr + 8) / 2 * 2 + 0 % 2)
  let mem :=
    mem.write32 (d.addr + 8)
      ((c.length - len) * 2 + mem.read32 (d.addr + 8) % 2)
  let mem := mem.write32 (c.addr + 4) d.addr
  mem.write32 (c.addr + 8)
    (len * 2 + mem.read32 (c.addr + 8) % 2)

/- The events of a split. -/
def splitEvents
    (kheapMax : Nat)
    (c d : Chunk)
    (len : Nat) : List Event :=
  [.sub c.length len, .add c.addr c.length,
    .store d.addr kheapMax true,
    .store (d.addr + 4) kheapMax true,
    .store (d.addr + 8) kheapMax true,
    .sub c.length len, .length (c.length - len),
    .store (d.addr + 8) kheapMax true,
    .store (c.addr + 4) kheapMax true,
    .length len,
    .store (c.addr + 8) kheapMax true]

/-
  A longer chunk is split.  The header of the rest is written
  over the one of the next chunk.
-/
theorem splitChunk_sat_long
    {c d : Chunk}
    {len : Nat}
    (hSound : Sound h (xs ++ c :: d :: ys) stop)
    (hRoom : len ≤ c.length)
    (hLong : HEADER_SIZE < c.length - len)
    (hFit : Fit trace) :
    ((Traced.splitChunk c.addr len).run ⟨h, trace⟩).Sat
      (fun _ s' =>
        Fit s'.trace ∧
          s' =
            ⟨h.withMem (splitMem h.mem c d len),
              trace ++ splitEvents h.kheapMax c d len⟩)
      Stopped := by
  rcases hSound.neighbours with
    ⟨hLow, hcRoom, hdAddr, hdRoom, hdStop, hTop, _, _⟩
  rcases hSound.headers with ⟨_, hcNext, hcWord, _, _, _⟩
  unfold Traced.splitChunk
  refine sat_getLength hFit ?_
  rw [hcWord, c.word_div]
  refine sat_sub hFit hRoom (by omega) (fun hFit => ?_)
  rw [if_pos hLong]
  refine sat_getLength hFit ?_
  rw [hcWord, c.word_div]
  refine sat_add hFit (by omega) (fun hFit => ?_)
  rw [← hdAddr]
  refine sat_setPrev hFit (fun hFit => ?_)
  refine sat_getNext hFit ?_
  rw [withMem_mem,
    ByteMemory.read32_write32_of_apart _ _ (by omega),
    hcNext]
  refine sat_setNext hFit (fun hFit => ?_)
  rw [withMem_mem, withMem_withMem]
  refine sat_setAllocated hFit (fun hFit => ?_)
  rw [withMem_mem, withMem_withMem]
  refine sat_getLength hFit ?_
  rw [withMem_mem,
    ByteMemory.read32_write32_of_apart _ _ (by omega),
    ByteMemory.read32_write32_of_apart _ _ (by omega),
    ByteMemory.read32_write32_of_apart _ _ (by omega),
    hcWord, c.word_div]
  refine sat_sub hFit hRoom (by omega) (fun hFit => ?_)
  refine sat_setLength hFit (by omega) (fun hFit => ?_)
  rw [withMem_mem, withMem_withMem]
  refine sat_setNext hFit (fun hFit => ?_)
  rw [withMem_mem, withMem_withMem]
  refine sat_of_bind_pure
    (sat_setLength hFit (by omega) (fun hFit => ?_))
  rw [withMem_mem, withMem_withMem]
  refine ⟨hFit, ?_⟩
  simp only [List.append_assoc, List.cons_append,
    List.nil_append]
  rfl

/- The chunk, marked as allocated or as free. -/
def Chunk.mark (c : Chunk) (allocated : Bool) : Chunk :=
  { c with allocated := allocated }

/- Marking a chunk of a sound heap. -/
theorem Sound.mark
    {c : Chunk}
    (allocated : Bool)
    (hSound : Sound h (xs ++ c :: ys) stop) :
    Sound
      (h.withMem
        (h.mem.write32 (c.addr + 8)
          (h.mem.read32 (c.addr + 8) / 2 * 2 +
            allocated.toNat % 2)))
      (xs ++ c.mark allocated :: ys) stop := by
  have hRange := hSound.range
    (show c ∈ xs ++ c :: ys by simp)
  have hBit := Bool.toNat_lt allocated
  have hWord :
      h.mem.read32 (c.addr + 8) / 2 * 2 +
          allocated.toNat % 2 =
        (c.mark allocated).word := by
    rw [hSound.header.2.2, c.word_div,
      Nat.mod_eq_of_lt hBit]
    rfl
  rw [hWord]
  refine
    { tiled := ?_
      linked := ?_
      first := ?_
      stopLe := hSound.stopLe
      maxLe := hSound.maxLe
      aligned := hSound.aligned }
  · have hTiled := hSound.tiled
    rw [tiled_append] at hTiled ⊢
    exact hTiled
  · have hAddr : (c.mark allocated).addr = c.addr := rfl
    refine hSound.linked.setWord hSound.tiled hAddr ?_
    unfold Chunk.word Chunk.mark
    dsimp only
    omega
  · rw [headAddr_append]
    have hFirst := hSound.first
    rw [headAddr_append] at hFirst
    exact hFirst

------------------------------------------------------------
-- Appending a Chunk
------------------------------------------------------------

/- The last chunk ends where the tiled range ends. -/
theorem Tiled.last_stop
    {c : Chunk}
    (hTiled : Tiled start (xs ++ [c]) stop) :
    c.addr + c.length = stop := by
  rcases tiled_append.mp hTiled with ⟨mid, _, hRest⟩
  rcases hRest with ⟨hAddr, _, hStop⟩
  rw [hAddr]
  exact hStop

/- The new chunk starts where the last one ends. -/
theorem chunkStart_sat
    (hSound : Sound h chunks stop)
    (hFit : Fit trace) :
    ((Traced.chunkStart (lastAddr 0 chunks)).run
        ⟨h, trace⟩).Sat
      (fun a s' =>
        a = stop ∧
          s'.state =
            { h with kheapFirst := headAddr chunks stop } ∧
          Fit s'.trace ∧
          ∃ events, s'.trace = trace ++ events ∧
            InHeap events)
      Stopped := by
  unfold Traced.chunkStart
  rcases List.eq_nil_or_concat chunks with
    rfl | ⟨xs, c, rfl⟩
  · rw [lastAddr_nil, if_neg (by decide)]
    refine sat_lift hFit (fun u h₁ hRun => ?_)
    cases hRun
    have hStop : KHEAP_START = stop := hSound.tiled
    rw [← hStop]
    refine ⟨rfl, rfl, hFit, [], (List.append_nil _).symm, ?_⟩
    intro e hMem
    cases hMem
  · rw [List.concat_eq_append] at *
    have hHeader := hSound.header
    have hRange := hSound.range
      (show c ∈ xs ++ [c] by simp)
    have hLast := hSound.tiled.last_stop
    rw [lastAddr_concat, if_pos (by omega)]
    refine sat_getLength hFit ?_
    rw [hHeader.2.2, c.word_div]
    refine sat_of_bind_pure
      (sat_add hFit (by omega) (fun hFit => ?_))
    refine ⟨hLast, ?_, hFit, _, rfl, ?_⟩
    · have hFirst := hSound.first
      have hSame :
          headAddr (xs ++ [c]) stop =
            headAddr (xs ++ [c]) 0 := by
        rw [headAddr_append, headAddr_append]
        rfl
      rw [hSame, ← hFirst]
    · simp [InHeap, Event.InHeap]

/-
  The memory after a new header has been written at `stop`
  and linked from the last chunk, which may be null.
-/
def linkHeader
    (mem : ByteMemory)
    (stop prev length : Nat) : ByteMemory :=
  let mem := (mem.write32 stop prev).write32 (stop + 4) 0
  let mem :=
    mem.write32 (stop + 8)
      (mem.read32 (stop + 8) / 2 * 2 + 1)
  let mem :=
    mem.write32 (stop + 8)
      (length % 2 ^ 31 * 2 + mem.read32 (stop + 8) % 2)
  mem.write32 (prev + 4) stop

/- Where `linkHeader` writes, and what. -/
theorem linkHeader_spec
    (mem : ByteMemory)
    {stop prev length : Nat}
    (hPrev : prev + 12 ≤ stop)
    (hStop : stop < 2 ^ 32)
    (hLength : length < 2 ^ 31) :
    let mem' := linkHeader mem stop prev length
    mem'.read32 stop = prev ∧
      mem'.read32 (stop + 4) = 0 ∧
      mem'.read32 (stop + 8) = length * 2 + 1 ∧
      mem'.read32 (prev + 4) = stop ∧
      mem.SameOn 0 (prev + 4) mem' ∧
      mem.SameOn (prev + 8) stop mem' := by
  unfold linkHeader
  dsimp only
  have hBit :
      ((mem.write32 stop prev).write32 (stop + 4) 0).read32
          (stop + 8) / 2 * 2 + 1 < 2 ^ 32 := by
    have hWord := ByteMemory.read32_lt
      ((mem.write32 stop prev).write32 (stop + 4) 0)
      (stop + 8)
    omega
  have hWord :
      length % 2 ^ 31 * 2 +
          (((mem.write32 stop prev).write32
            (stop + 4) 0).read32 (stop + 8) / 2 * 2 + 1) %
              2 =
        length * 2 + 1 := by
    omega
  rw [ByteMemory.read32_write32_self _ _ hBit, hWord]
  refine ⟨?_, ?_, ?_, ?_, ?_, ?_⟩
  · rw [ByteMemory.read32_write32_of_apart _ _ (by omega),
      ByteMemory.read32_write32_of_apart _ _ (by omega),
      ByteMemory.read32_write32_of_apart _ _ (by omega),
      ByteMemory.read32_write32_of_apart _ _ (by omega),
      ByteMemory.read32_write32_self _ _ (by omega)]
  · rw [ByteMemory.read32_write32_of_apart _ _ (by omega),
      ByteMemory.read32_write32_of_apart _ _ (by omega),
      ByteMemory.read32_write32_of_apart _ _ (by omega),
      ByteMemory.read32_write32_self _ _ (by omega)]
  · rw [ByteMemory.read32_write32_of_apart _ _ (by omega),
      ByteMemory.read32_write32_self _ _ (by omega)]
  · rw [ByteMemory.read32_write32_self _ _ hStop]
  · exact (((ByteMemory.sameOn_write32 _ _ _
      (by omega)).trans
        (ByteMemory.sameOn_write32 _ _ _ (by omega))).trans
          ((ByteMemory.sameOn_write32 _ _ _
            (by omega)).trans
              (ByteMemory.sameOn_write32 _ _ _
                (by omega)))).trans
                  (ByteMemory.sameOn_write32 _ _ _
                    (by omega))
  · exact (((ByteMemory.sameOn_write32 _ _ _
      (by omega)).trans
        (ByteMemory.sameOn_write32 _ _ _ (by omega))).trans
          ((ByteMemory.sameOn_write32 _ _ _
            (by omega)).trans
              (ByteMemory.sameOn_write32 _ _ _
                (by omega)))).trans
                  (ByteMemory.sameOn_write32 _ _ _
                    (by omega))

/- The chunk that is appended for `length` bytes in all. -/
def newChunk (stop length : Nat) : Chunk where
  addr := stop
  length := length
  allocated := true

/- The last header lies before the end of the chain. -/
theorem Tiled.lastAddr_le
    (hTiled : Tiled KHEAP_START chunks stop) :
    lastAddr 0 chunks + 12 ≤ stop := by
  have hStart := hTiled.le
  unfold KHEAP_START at hStart
  rcases List.eq_nil_or_concat chunks with
    rfl | ⟨xs, c, rfl⟩
  · rw [lastAddr_nil]
    omega
  · rw [List.concat_eq_append] at *
    have hRange := hTiled.mem_range
      (show c ∈ xs ++ [c] by simp)
    unfold HEADER_SIZE Chunk.stop at hRange
    rw [lastAddr_concat]
    omega

/- The chain with a new last chunk. -/
theorem linked_linkHeader
    {mem : ByteMemory}
    {length : Nat}
    (hLinked : Linked mem 0 chunks 0)
    (hTiled : Tiled KHEAP_START chunks stop)
    (hStop : stop < 2 ^ 32)
    (hLength : length < 2 ^ 31) :
    Linked
      (linkHeader mem stop (lastAddr 0 chunks) length) 0
      (chunks ++ [newChunk stop length]) 0 := by
  have hLast := hTiled.lastAddr_le
  rcases linkHeader_spec mem hLast hStop hLength with
    ⟨hPrev, hNext, hWord, hFrom, hBelow, hAbove⟩
  rw [linked_append]
  refine ⟨?_, hPrev, hNext, hWord, trivial⟩
  rcases List.eq_nil_or_concat chunks with
    rfl | ⟨xs, c, rfl⟩
  · trivial
  · rw [List.concat_eq_append] at *
    rw [lastAddr_concat] at *
    apply hLinked.retail hTiled
      (hBelow.mono (Nat.zero_le _) (Nat.le_refl _)) hFrom
    exact hAbove.read32 (by omega) (by omega)

/-
  What `kmalloc` has done when it returns a new last chunk of
  `len` bytes: of its stores only the one to the chunk before
  may miss the heap.
-/
structure Appended
    (h : Heap)
    (chunks : List Chunk)
    (stop len : Nat)
    (h' : Heap)
    (events : List Event) : Prop where
  sound :
    Sound h' (chunks ++ [newChunk stop len]) (stop + len)
  trim : Trim h stop → Trim h' (stop + len)
  below : h.mem.SameOn 0 (lastAddr 0 chunks + 4) h'.mem
  above : h.mem.SameOn (lastAddr 0 chunks + 8) stop h'.mem
  linked : h'.isMapped (lastAddr 0 chunks + 4) = true
  events :
    ∃ before, InHeap before ∧
      events = before ++
        [h'.storeAt (lastAddr 0 chunks + 4),
          .add stop HEADER_SIZE]

/- The pages of the new chunk are the last ones. -/
theorem Grown.trim
    {first target : Nat}
    (hGrown : Grown { h with kheapFirst := first } h' target)
    (hStop : stop ≤ target)
    (hTrim : Trim h stop) :
    Trim h' target where
  tight := by
    have hTight := hTrim.tight
    have hGrownTight := hGrown.tight
    dsimp only at hGrownTight
    omega
  mapped := by
    intro page hLo hHi
    have hLe := Nat.div_le_div_right (c := PAGE_SIZE)
      hGrown.le
    have hMapped := hGrown.mapped page
    have hPages := hGrown.mapping page
    dsimp only at hLe hMapped hPages
    rcases Nat.lt_or_ge page (h.kheapMax / PAGE_SIZE) with
      hOld | hNew
    · rw [hPages (.inl hOld), hTrim.mapped page hLo hHi]
      omega
    · rcases Nat.lt_or_ge page (h'.kheapMax / PAGE_SIZE) with
        hIn | hOut
      · rw [hMapped hNew hIn]
        exact iff_of_true rfl hIn
      · rw [hPages (.inr hOut), hTrim.mapped page hLo hHi]
        omega

/- A sound heap that has grown, with a new last header. -/
theorem Grown.appended
    {len : Nat}
    {before : List Event}
    (hGrown :
      Grown { h with kheapFirst := headAddr chunks stop } h'
        (stop + len))
    (hSound : Sound h chunks stop)
    (hLen : HEADER_SIZE ≤ len)
    (hRoom : stop + len ≤ KHEAP_END)
    (hMapped : h'.isMapped (lastAddr 0 chunks + 4) = true)
    (hBefore : InHeap before) :
    Appended h chunks stop len
      (h'.withMem
        (linkHeader h'.mem stop (lastAddr 0 chunks) len))
      (before ++
        [h'.storeAt (lastAddr 0 chunks + 4),
          .add stop HEADER_SIZE]) := by
  have hEnd := hSound.stop_le_end
  have hLast := hSound.tiled.lastAddr_le
  have hStopLe := hSound.stopLe
  unfold KHEAP_START at hEnd
  unfold KHEAP_END at hEnd hRoom
  have hMem : h.mem.SameOn 0 h.kheapMax h'.mem := hGrown.mem
  have hOld := hSound.linked.frame hSound.tiled
    (hMem.mono (Nat.zero_le _) hStopLe)
  rcases linkHeader_spec h'.mem hLast (by omega)
    (show len < 2 ^ 31 by omega) with
    ⟨_, _, _, _, hBelow, hAbove⟩
  refine
    { sound := ?_
      trim := ?_
      below := ?_
      above := ?_
      linked := hMapped
      events := ⟨before, hBefore, rfl⟩ }
  · refine
      { tiled := ?_
        linked := ?_
        first := ?_
        stopLe := hGrown.reached
        maxLe := hGrown.maxLe
        aligned := hGrown.aligned }
    · rw [tiled_append]
      exact ⟨stop, hSound.tiled, rfl, hLen, rfl⟩
    · exact linked_linkHeader hOld hSound.tiled (by omega)
        (by omega)
    · rw [headAddr_append]
      exact hGrown.first
  · intro hTrim
    have hTrim' := hGrown.trim (Nat.le_add_right _ _) hTrim
    exact ⟨hTrim'.tight, hTrim'.mapped⟩
  · exact (hMem.mono (Nat.le_refl _) (by omega)).trans hBelow
  · exact (hMem.mono (Nat.zero_le _) hStopLe).trans hAbove

/- The stores to the new header stay in the heap. -/
theorem Grown.stores
    {len : Nat}
    (hGrown :
      Grown { h with kheapFirst := headAddr chunks stop } h'
        (stop + len))
    (hSound : Sound h chunks stop)
    (hLen : HEADER_SIZE ≤ len) :
    InHeap
      [h'.storeAt stop, h'.storeAt (stop + 4),
        h'.storeAt (stop + 8), .length len,
        h'.storeAt (stop + 8)] := by
  have hReached := hGrown.reached
  have hEnd := hSound.stop_le_end
  unfold HEADER_SIZE at hLen
  have hStore :
      ∀ i, i ≤ 8 → (h'.storeAt (stop + i)).InHeap := by
    intro i hi
    refine ⟨?_, ?_, rfl⟩
    · exact Nat.le_trans hEnd.1 (Nat.le_add_right _ _)
    · omega
  intro e hMem
  simp only [List.mem_cons, List.not_mem_nil, or_false] at hMem
  rcases hMem with rfl | rfl | rfl | rfl | rfl
  · exact hStore 0 (by omega)
  · exact hStore 4 (by omega)
  · exact hStore 8 (by omega)
  · trivial
  · exact hStore 8 (by omega)

/- Appending a chunk to a sound heap. -/
theorem appendChunk_sat
    {fuel len : Nat}
    (hSound : Sound h chunks stop)
    (hLen : HEADER_SIZE ≤ len)
    (hFit : Fit trace) :
    ((Traced.appendChunk fuel len (lastAddr 0 chunks)).run
        ⟨h, trace⟩).Sat
      (fun p s' =>
        p = stop + HEADER_SIZE ∧ Fit s'.trace ∧
          ∃ events, s'.trace = trace ++ events ∧
            Appended h chunks stop len s'.state events)
      Stopped := by
  have hEnd := hSound.stop_le_end
  have hLast := hSound.tiled.lastAddr_le
  unfold Traced.appendChunk
  refine (chunkStart_sat hSound hFit).bind ?_
  rintro a ⟨h₁, trace₁⟩ ⟨rfl, hState, hFit, events₁, hTrace₁,
    hIn₁⟩
  dsimp only at hState hFit hTrace₁
  subst hState
  refine (allocChunk_sat
    (h := { h with kheapFirst := headAddr chunks a })
    hFit hSound.maxLe hSound.aligned hEnd.2).bind ?_
  rintro _ ⟨h₂, trace₂⟩ ⟨hRoom, hGrown, hFit, events₂,
    hTrace₂, hIn₂⟩
  dsimp only at hGrown hFit hTrace₂
  have hRoom' := hRoom
  unfold KHEAP_START KHEAP_END at hEnd
  unfold KHEAP_END at hRoom'
  refine sat_setPrev hFit (fun hFit => ?_)
  refine sat_setNext hFit (fun hFit => ?_)
  refine sat_setAllocated hFit (fun hFit => ?_)
  refine sat_setLength hFit (by omega) (fun hFit => ?_)
  refine sat_store32_mapped hFit (fun hMapped hFit => ?_)
  have hStopFits : a + HEADER_SIZE < 2 ^ 32 := by
    unfold HEADER_SIZE
    omega
  refine sat_of_bind_pure
    (sat_add hFit hStopFits (fun hFit => ?_))
  have hSmall : len < 2 ^ 31 := by omega
  have hBefore := inHeap_append.mpr
    ⟨inHeap_append.mpr ⟨hIn₁, hIn₂⟩,
      hGrown.stores hSound hLen⟩
  have hAppended := hGrown.appended hSound hLen hRoom
    hMapped hBefore
  unfold linkHeader at hAppended
  rw [Nat.mod_eq_of_lt hSmall] at hAppended
  refine ⟨rfl, hFit, _, ?_, hAppended⟩
  simp only [hTrace₂, hTrace₁, List.append_assoc,
    List.cons_append, List.nil_append]
  rfl

end Kheap

end SosKernel
