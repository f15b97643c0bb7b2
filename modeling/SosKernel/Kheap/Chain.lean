import Mathlib.Data.List.Chain
import SosKernel.Kheap.Glue
import SosKernel.Kheap.Runs

/-
  The links of the chain, and where its free chunks may lie.

  Main declarations:
    * `Chained`: the invariant of the runs
    * `RegularStep.chained`, `exists_chained`
    * `WellLinked`: what the chain should satisfy
    * `kheap_well_linked`
-/

------------------------------------------------------------
-- The Invariant
------------------------------------------------------------

namespace SosKernel

namespace Kheap

/- Of two neighbours one is allocated. -/
def Apart (chunks : List Chunk) : Prop :=
  chunks.IsChain fun c d =>
    c.allocated = true ∨ d.allocated = true

def HeadAllocated (chunks : List Chunk) : Prop :=
  ∀ c ∈ chunks.head?, c.allocated = true

/-
  The heap is sound, its free chunks lie between allocated
  ones, and the allocated ones hold one live allocation each.
-/
structure Chained
    (cfg : Config)
    (chunks : List Chunk)
    (stop : Nat) : Prop where
  sound : Sound cfg.heap chunks stop
  apart : Apart chunks
  last : LastAllocated chunks
  owned : ∀ x ∈ cfg.live, ∃ c ∈ chunks, c.Backs x
  owner :
    ∀ c ∈ chunks, c.allocated = true →
      ∃ x ∈ cfg.live, c.Backs x
  nodup : (cfg.live.map Prod.fst).Nodup

variable {cfg cfg' : Config}
variable {chunks chunks' xs ys : List Chunk}
variable {stop : Nat}

------------------------------------------------------------
-- Chains without Free Neighbours
------------------------------------------------------------

theorem apart_append_cons
    {c : Chunk} :
    Apart (xs ++ c :: ys) ↔
      Apart xs ∧ Apart ys ∧
        (c.allocated = true ∨
          LastAllocated xs ∧ HeadAllocated ys) := by
  unfold Apart LastAllocated HeadAllocated
  rw [List.isChain_append, List.isChain_cons]
  simp only [List.head?_cons, Option.mem_some_iff,
    forall_eq']
  by_cases hBit : c.allocated = true
  · simp [hBit]
  · simp only [hBit, Bool.false_eq_true, false_or, or_false]
    tauto

theorem lastAllocated_append_cons
    {c : Chunk} :
    LastAllocated (xs ++ c :: ys) ↔
      LastAllocated ys ∧
        (ys = [] → c.allocated = true) := by
  unfold LastAllocated
  cases ys with
  | nil => simp
  | cons d ys => simp

/- An allocation keeps the free chunks apart. -/
theorem Serves.apart
    {len stop' : Nat}
    {c : Chunk}
    (hServes : Serves len chunks stop chunks' stop' c)
    (hApart : Apart chunks)
    (hLast : LastAllocated chunks) :
    Apart chunks' ∧ LastAllocated chunks' := by
  cases hServes with
  | reused =>
      rw [apart_append_cons, lastAllocated_append_cons] at *
      exact ⟨⟨hApart.1, hApart.2.1, .inl rfl⟩, hLast.1,
        fun _ => rfl⟩
  | appended =>
      rw [apart_append_cons, lastAllocated_append_cons]
      exact ⟨⟨hApart, .nil, .inl rfl⟩, by simp [LastAllocated],
        fun _ => rfl⟩

/-
  A chunk that becomes free is coalesced with what follows;
  after it comes an allocated chunk, or none.
-/
theorem NextGlued.apart
    {kheapMax : Nat}
    {c c' : Chunk}
    {ys' : List Chunk}
    {events : List Event}
    (hGlued : NextGlued kheapMax c ys c' ys' events)
    (hApart : Apart ys)
    (hLast : LastAllocated ys) :
    Apart ys' ∧ HeadAllocated ys' ∧ LastAllocated ys' := by
  cases hGlued with
  | last => exact ⟨hApart, by simp [HeadAllocated], hLast⟩
  | allocated hAllocated =>
      refine ⟨hApart, ?_, hLast⟩
      simpa [HeadAllocated] using hAllocated
  | @free d _ hFree =>
      have hSplit : Apart ([] ++ d :: ys') := hApart
      have hWhole : LastAllocated ([] ++ d :: ys') := hLast
      rw [apart_append_cons] at hSplit
      rw [lastAllocated_append_cons] at hWhole
      refine ⟨hSplit.2.1, ?_, hWhole.1⟩
      rcases hSplit.2.2 with hBit | hBoth
      · rw [hFree] at hBit
        cases hBit
      · exact hBoth.2

/- It is coalesced with what comes before it, too. -/
theorem PrevGlued.apart
    {kheapMax : Nat}
    {c d : Chunk}
    {xs' : List Chunk}
    {events : List Event}
    (hGlued : PrevGlued kheapMax ys xs d xs' c events)
    (hApart : Apart xs) :
    Apart xs' ∧ LastAllocated xs' := by
  cases hGlued with
  | first => exact ⟨hApart, by simp [LastAllocated]⟩
  | allocated hAllocated =>
      refine ⟨hApart, ?_⟩
      simpa [LastAllocated] using hAllocated
  | @free bs c _ hFree =>
      rw [apart_append_cons] at hApart
      refine ⟨hApart.1, ?_⟩
      rcases hApart.2.2 with hBit | hBoth
      · rw [hFree] at hBit
        cases hBit
      · exact hBoth.1

/- Free chunks are apart again after coalescing. -/
theorem Glued.apart
    {kheapMax : Nat}
    {c : Chunk}
    {events : List Event}
    (hGlued :
      Glued kheapMax xs (c.mark false) ys chunks' events)
    (hApart : Apart (xs ++ c :: ys))
    (hLast : LastAllocated (xs ++ c :: ys)) :
    Apart chunks' ∧ LastAllocated chunks' := by
  rw [apart_append_cons] at hApart
  rw [lastAllocated_append_cons] at hLast
  cases hGlued with
  | kept hNext hPrev =>
      rcases hNext.apart hApart.2.1 hLast.1 with
        ⟨hYs, hHead, hEnd⟩
      rcases hPrev.apart hApart.1 with ⟨hXs, hBefore⟩
      rw [apart_append_cons, lastAllocated_append_cons]
      exact ⟨⟨hXs, hYs, .inr ⟨hBefore, hHead⟩⟩, hEnd,
        by simp⟩
  | dropped hNext hPrev => exact hPrev.apart hApart.1

------------------------------------------------------------
-- Steps Keep the Invariant
------------------------------------------------------------

/- A pointer that has been freed is not live any more. -/
theorem ne_of_mem_erase
    {live : List (Nat × Nat)}
    {x y : Nat × Nat}
    (hNodup : (live.map Prod.fst).Nodup)
    (hMem : y ∈ live)
    (hx : x ∈ live.erase y) :
    x.1 ≠ y.1 := by
  intro hSame
  have hEq : x = y :=
    List.inj_on_of_nodup_map hNodup (List.mem_of_mem_erase hx)
      hMem hSame
  rw [hEq] at hx
  exact (List.Nodup.of_map _ hNodup).not_mem_erase hx

theorem Empty.chained
    (hEmpty : Empty cfg) :
    Chained cfg [] KHEAP_START := by
  rcases hEmpty with ⟨hMax, hFirst, hLive⟩
  refine
    { sound := ?_
      apart := .nil
      last := by simp [LastAllocated]
      owned := ?_
      owner := ?_
      nodup := ?_ }
  · exact
      { tiled := rfl
        linked := trivial
        first := hFirst
        stopLe := Nat.le_of_eq hMax.symm
        maxLe := by
          rw [hMax]
          decide
        aligned := by rw [hMax]; rfl }
  · rw [hLive]
    intro x hx
    cases hx
  · intro c hc
    cases hc
  · rw [hLive]
    exact List.nodup_nil

/- The chain after a call of `kmalloc` without a split. -/
theorem Chained.kmalloc
    {len stop' : Nat}
    {c : Chunk}
    {h' : Heap}
    (hChained : Chained cfg chunks stop)
    (hServes : Serves len chunks stop chunks' stop' c)
    (hSound' : Sound h' chunks' stop') :
    Chained ⟨h', (c.addr + HEADER_SIZE, len) :: cfg.live⟩
      chunks' stop' := by
  rcases hServes.apart hChained.apart hChained.last with
    ⟨hApart, hLast⟩
  rcases hServes.served hChained.sound with
    ⟨hKeeps, hServed⟩
  have hBacks : c.Backs (c.addr + HEADER_SIZE, len) :=
    ⟨hServed.allocated, hServed.payload, hServed.room⟩
  refine
    { sound := hSound'
      apart := hApart
      last := hLast
      owned := ?_
      owner := ?_
      nodup := ?_ }
  · intro x hx
    rcases List.mem_cons.mp hx with rfl | hx
    · exact ⟨c, hServed.mem, hBacks⟩
    · rcases hChained.owned x hx with ⟨d, hd, hdx⟩
      exact ⟨d, hKeeps d hd hdx.allocated, hdx⟩
  · intro d hd hAllocated
    rcases hServes.only hd with rfl | hd
    · exact ⟨_, List.mem_cons_self, hBacks⟩
    · rcases hChained.owner d hd hAllocated with ⟨x, hx, hdx⟩
      exact ⟨x, List.mem_cons_of_mem _ hx, hdx⟩
  · rw [List.map_cons, List.nodup_cons]
    refine ⟨?_, hChained.nodup⟩
    intro hMem
    rcases List.mem_map.mp hMem with ⟨x, hx, hxp⟩
    rcases hChained.owned x hx with ⟨d, hd, hdx⟩
    have hAddr : d.addr + HEADER_SIZE = c.addr + HEADER_SIZE :=
      hdx.payload.symm.trans hxp
    exact hServed.fresh d hd hdx.allocated
      (Nat.add_right_cancel hAddr)

/- The other chunks of the chain have other addresses. -/
theorem Sound.addr_ne
    {h : Heap}
    {c d : Chunk}
    (hSound : Sound h (xs ++ c :: ys) stop)
    (hd : d ∈ xs ∨ d ∈ ys) :
    d.addr ≠ c.addr := by
  rcases tiled_append.mp hSound.tiled with
    ⟨mid, hXs, hcAddr, hLength, hYs⟩
  rcases hd with hd | hd
  · have hRange := hXs.mem_range hd
    unfold HEADER_SIZE Chunk.stop at hRange
    omega
  · have hRange := hYs.mem_range hd
    unfold HEADER_SIZE at hLength
    omega

/- The chain after a call of `kfree`. -/
theorem Chained.kfree
    {p len stop' kheapMax : Nat}
    {c : Chunk}
    {h' : Heap}
    {events : List Event}
    (hChained : Chained cfg (xs ++ c :: ys) stop)
    (hLive : (p, len) ∈ cfg.live)
    (hBacks : c.Backs (p, len))
    (hGlued :
      Glued kheapMax xs (c.mark false) ys chunks' events)
    (hSound' : Sound h' chunks' stop') :
    Chained ⟨h', cfg.live.erase (p, len)⟩ chunks' stop' := by
  have hSound := hChained.sound
  have hc : c ∈ xs ++ c :: ys := by simp
  have hp : p = c.addr + HEADER_SIZE := hBacks.payload
  rcases hGlued.apart hChained.apart hChained.last with
    ⟨hApart, hLast⟩
  have hSame := hGlued.allocated_iff rfl
  -- the allocated chunks but `c` are those of the new chain
  have hOther :
      ∀ d, d.allocated = true →
        (d ∈ chunks' ↔
          d ∈ xs ++ c :: ys ∧ d.addr ≠ c.addr) := by
    intro d hAllocated
    have hNe : d ≠ c.mark false :=
      Chunk.ne_of_free hAllocated rfl
    rw [hSame d hAllocated]
    constructor
    · intro hd
      have hd : d ∈ xs ∨ d ∈ ys := by simpa [hNe] using hd
      refine ⟨?_, hSound.addr_ne hd⟩
      rcases hd with hd | hd <;> simp [hd]
    · rintro ⟨hd, hAddr⟩
      have hNotC : d ≠ c := by
        rintro rfl
        exact hAddr rfl
      simpa [hNe, hNotC] using hd
  refine
    { sound := hSound'
      apart := hApart
      last := hLast
      owned := ?_
      owner := ?_
      nodup := ?_ }
  · intro x hx
    rcases hChained.owned x (List.mem_of_mem_erase hx) with
      ⟨d, hd, hdx⟩
    refine ⟨d, (hOther d hdx.allocated).mpr ⟨hd, ?_⟩, hdx⟩
    intro hAddr
    apply ne_of_mem_erase hChained.nodup hLive hx
    show x.1 = p
    rw [hdx.payload, hAddr, hp]
  · intro d hd hAllocated
    rcases (hOther d hAllocated).mp hd with ⟨hd, hAddr⟩
    rcases hChained.owner d hd hAllocated with ⟨x, hx, hdx⟩
    have hxp := hdx.payload
    have hNe : x ≠ (p, len) := by
      rintro rfl
      apply hAddr
      apply Nat.add_right_cancel (m := HEADER_SIZE)
      rw [← hxp, ← hp]
    exact ⟨x, (List.mem_erase_of_ne hNe).mpr hx, hdx⟩
  · exact hChained.nodup.sublist
      (List.erase_sublist.map _)

/- A chain depends only on its headers. -/
theorem Linked.of_headers
    {mem mem' : ByteMemory}
    {prev next : Nat}
    (hLinked : Linked mem prev chunks next)
    (hSame :
      ∀ c ∈ chunks,
        mem.SameOn c.addr (c.addr + HEADER_SIZE) mem') :
    Linked mem' prev chunks next := by
  induction chunks generalizing prev with
  | nil => trivial
  | cons c cs ih =>
      rcases hLinked with ⟨hPrev, hNext, hWord, hLinked⟩
      have hHere := hSame c (by simp)
      unfold HEADER_SIZE at hHere
      refine ⟨?_, ?_, ?_, ?_⟩
      · rw [hHere.read32 (by omega) (by omega)]
        exact hPrev
      · rw [hHere.read32 (by omega) (by omega)]
        exact hNext
      · rw [hHere.read32 (by omega) (by omega)]
        exact hWord
      · apply ih hLinked
        intro d hd
        exact hSame d (List.mem_cons_of_mem c hd)

/- A client's store leaves the headers alone. -/
theorem Chained.store
    {p len a : Nat}
    (b : UInt8)
    (hChained : Chained cfg chunks stop)
    (hLive : (p, len) ∈ cfg.live)
    (hRange : p ≤ a ∧ a < p + len) :
    Chained ⟨cfg.heap.storeByte a b, cfg.live⟩ chunks
      stop := by
  have hSound := hChained.sound
  rcases hChained.owned (p, len) hLive with ⟨c, hc, hcx⟩
  have hp : p = c.addr + HEADER_SIZE := hcx.payload
  have hRoom : len + HEADER_SIZE ≤ c.length := hcx.room
  refine
    { sound := ?_
      apart := hChained.apart
      last := hChained.last
      owned := hChained.owned
      owner := hChained.owner
      nodup := hChained.nodup }
  refine
    { tiled := hSound.tiled
      linked := ?_
      first := hSound.first
      stopLe := hSound.stopLe
      maxLe := hSound.maxLe
      aligned := hSound.aligned }
  apply hSound.linked.of_headers
  intro d hd x hLo hHi
  have hdRange := hSound.range hd
  have hNe : x ≠ a := by
    unfold HEADER_SIZE at *
    rcases hSound.tiled.apart hc hd with rfl | hApart
    · omega
    · unfold Chunk.stop at hApart
      omega
  exact if_neg hNe

/- Every step without a split keeps the invariant. -/
theorem RegularStep.chained
    (hChained : Chained cfg chunks stop)
    (hStep : RegularStep cfg cfg') :
    ∃ chunks' stop', Chained cfg' chunks' stop' ∧
      (Trim cfg.heap stop → Trim cfg'.heap stop') := by
  have hSound := hChained.sound
  rcases hStep with ⟨act, events, hRegular, hDoes⟩
  cases hDoes with
  | kmalloc fuel len hLen hRun =>
      have hSat := kmalloc_sat fuel hSound
        (.inr hRegular.2) hRegular.1
      rw [hRun] at hSat
      rcases hSat with ⟨_, _, _, hDone⟩
      rcases hDone.serves hSound hRegular.2 with
        ⟨chunks', stop', c, hServes, hSound', hTrim, rfl⟩
      exact ⟨chunks', stop', hChained.kmalloc hServes hSound',
        hTrim⟩
  | kfree fuel p len hLive hRun =>
      rcases hChained.owned (p, len) hLive with ⟨c, hc, hcx⟩
      rcases List.append_of_mem hc with ⟨xs, ys, rfl⟩
      have hp : p = c.addr + HEADER_SIZE := hcx.payload
      have hSat := kfree_sat fuel hSound
      rw [← hp, hRun] at hSat
      rcases hSat with
        ⟨chunks', stop', _, hGlued, hSound', hTrim, _⟩
      exact ⟨chunks', stop',
        hChained.kfree hLive hcx hGlued hSound', hTrim⟩
  | store p len a b hLive hRange =>
      exact ⟨chunks, stop, hChained.store b hLive hRange,
        fun hTrim => ⟨hTrim.tight, hTrim.mapped⟩⟩
  | supply frames frameBytes =>
      have hSound' :
          Sound (cfg.heap.supply frames frameBytes) chunks
            stop :=
        { tiled := hSound.tiled
          linked := hSound.linked
          first := hSound.first
          stopLe := hSound.stopLe
          maxLe := hSound.maxLe
          aligned := hSound.aligned }
      exact ⟨chunks, stop,
        { sound := hSound'
          apart := hChained.apart
          last := hChained.last
          owned := hChained.owned
          owner := hChained.owner
          nodup := hChained.nodup },
        fun hTrim => ⟨hTrim.tight, hTrim.mapped⟩⟩

/- Every run without a split keeps the invariant. -/
theorem exists_chained
    (hReach : Reachable Empty RegularStep cfg) :
    ∃ chunks stop, Chained cfg chunks stop := by
  apply hReach.invariant
  · intro cfg hEmpty
    exact ⟨[], KHEAP_START, hEmpty.chained⟩
  · intro cfg cfg' _ hBefore hStep
    rcases hBefore with ⟨chunks, stop, hChained⟩
    rcases hStep.chained hChained with
      ⟨chunks', stop', hChained', _⟩
    exact ⟨chunks', stop', hChained'⟩

------------------------------------------------------------
-- The Chain in Memory
------------------------------------------------------------

/-
  The chain that memory holds: its links lead back and forth,
  no two free chunks are neighbours, the last chunk is
  allocated, and it is empty when nothing is live.
-/
structure WellLinked (cfg : Config) : Prop where
  back :
    ∀ c, OnChain cfg.heap c →
      cfg.heap.mem.read32 (c + 4) ≠ 0 →
        cfg.heap.mem.read32
          (cfg.heap.mem.read32 (c + 4)) = c
  forth :
    ∀ c, OnChain cfg.heap c →
      cfg.heap.mem.read32 c ≠ 0 →
        cfg.heap.mem.read32
          (cfg.heap.mem.read32 c + 4) = c
  first :
    cfg.heap.kheapFirst ≠ 0 →
      cfg.heap.mem.read32 cfg.heap.kheapFirst = 0
  apart :
    ∀ c, OnChain cfg.heap c →
      cfg.heap.mem.read32 (c + 4) ≠ 0 →
        cfg.heap.mem.read32 (c + 8) % 2 = 1 ∨
          cfg.heap.mem.read32
            (cfg.heap.mem.read32 (c + 4) + 8) % 2 = 1
  last :
    ∀ c, OnChain cfg.heap c →
      cfg.heap.mem.read32 (c + 4) = 0 →
        cfg.heap.mem.read32 (c + 8) % 2 = 1
  empty : cfg.heap.kheapFirst = 0 ↔ cfg.live = []

/- The invariant gives the properties of the chain. -/
theorem Chained.wellLinked
    (hChained : Chained cfg chunks stop) :
    WellLinked cfg := by
  have hSound := hChained.sound
  have hSplit :
      ∀ a, OnChain cfg.heap a →
        ∃ bs c as, chunks = bs ++ c :: as ∧ c.addr = a := by
    intro a hOn
    rcases hSound.onChain hOn with ⟨c, hMem, hAddr⟩
    rcases List.append_of_mem hMem with ⟨bs, as, hChain⟩
    exact ⟨bs, c, as, hChain, hAddr⟩
  refine
    { back := ?_
      forth := ?_
      first := ?_
      apart := ?_
      last := ?_
      empty := ?_ }
  · intro a hOn hNext
    rcases hSplit a hOn with ⟨bs, c, as, rfl, rfl⟩
    rw [hSound.header.2.1] at hNext ⊢
    cases as with
    | nil => exact absurd rfl hNext
    | cons d as => exact hSound.headers.2.2.2.1
  · intro a hOn hPrev
    rcases hSplit a hOn with ⟨bs, c, as, rfl, rfl⟩
    rw [hSound.header.1] at hPrev ⊢
    rcases List.eq_nil_or_concat bs with rfl | ⟨bs, b, rfl⟩
    · exact absurd rfl hPrev
    · rw [List.concat_eq_append, List.append_assoc] at hSound
      rw [List.concat_eq_append, lastAddr_concat]
      exact hSound.headers.2.1
  · intro hNe
    rw [hSound.first] at hNe ⊢
    cases chunks with
    | nil => exact absurd rfl hNe
    | cons c cs =>
        have hWhole : Sound cfg.heap ([] ++ c :: cs) stop :=
          hSound
        exact hWhole.header.1
  · intro a hOn hNext
    rcases hSplit a hOn with ⟨bs, c, as, rfl, rfl⟩
    have hHeader := hSound.header
    rw [hHeader.2.1] at hNext ⊢
    cases as with
    | nil => exact absurd rfl hNext
    | cons d as =>
        rw [headAddr_cons, hHeader.2.2,
          hSound.headers.2.2.2.2.2, c.word_mod, d.word_mod]
        have hPair := hChained.apart.right_of_append
        rw [List.isChain_cons_cons] at hPair
        rcases hPair.1 with hBit | hBit
        · exact .inl (by rw [hBit]; rfl)
        · exact .inr (by rw [hBit]; rfl)
  · intro a hOn hNext
    rcases hSplit a hOn with ⟨bs, c, as, rfl, rfl⟩
    have hHeader := hSound.header
    cases as with
    | nil =>
        rw [hHeader.2.2, c.word_mod,
          hChained.last c (by simp)]
        rfl
    | cons d as =>
        rw [hHeader.2.1] at hNext
        have hWhole :
            Sound cfg.heap ((bs ++ [c]) ++ d :: as) stop := by
          rw [List.append_assoc]
          exact hSound
        exact absurd hNext
          (headAddr_ne_zero hWhole (List.cons_ne_nil d as))
  · rw [hSound.first]
    constructor
    · intro hNull
      have hNil : chunks = [] := by
        by_contra hNe
        have hWhole : Sound cfg.heap ([] ++ chunks) stop :=
          hSound
        exact headAddr_ne_zero hWhole hNe hNull
      subst hNil
      rw [List.eq_nil_iff_forall_not_mem]
      intro x hx
      rcases hChained.owned x hx with ⟨c, hc, _⟩
      cases hc
    · intro hLive
      rcases List.eq_nil_or_concat chunks with
        rfl | ⟨bs, c, rfl⟩
      · rfl
      · rcases hChained.owner c (by simp)
          (hChained.last c (by simp)) with ⟨x, hx, _⟩
        rw [hLive] at hx
        cases hx

------------------------------------------------------------
-- A Split
------------------------------------------------------------

/- The chain leads to a chunk if memory before it is kept. -/
theorem Sound.onChain_of_same
    {h : Heap}
    {c : Chunk}
    (h' : Heap)
    (hSound : Sound h (xs ++ c :: ys) stop)
    (hFirst : h'.kheapFirst = h.kheapFirst)
    (hSame : h.mem.SameOn 0 c.addr h'.mem) :
    OnChain h' c.addr := by
  induction xs using List.reverseRecOn generalizing c ys with
  | nil =>
      have hHead : h'.kheapFirst = c.addr :=
        hFirst.trans hSound.first
      have hNe : c.addr ≠ 0 :=
        headAddr_ne_zero hSound (List.cons_ne_nil c ys)
      rw [← hHead]
      apply OnChain.first
      rw [hHead]
      exact hNe
  | append_singleton bs b ih =>
      have hNe : c.addr ≠ 0 :=
        headAddr_ne_zero hSound (List.cons_ne_nil c ys)
      rw [List.append_assoc, List.singleton_append] at hSound
      rcases hSound.neighbours with ⟨_, hRoom, _⟩
      have hNext :
          h'.mem.read32 (b.addr + 4) = c.addr := by
        rw [hSame.read32 (by omega) (by omega)]
        exact hSound.headers.2.1
      have hOn := ih hSound
        (hSame.mono (Nat.le_refl _) (by omega))
      rw [← hNext]
      apply hOn.next
      rw [hNext]
      exact hNe

/- What a split and the allocation after it have stored. -/
theorem Sound.splitMem
    {h : Heap}
    {c d : Chunk}
    (len : Nat)
    (hSound : Sound h (xs ++ c :: d :: ys) stop) :
    let mem' := allocMem (Kheap.splitMem h.mem c d len) c
    h.mem.SameOn 0 (c.addr + 4) mem' ∧
      mem'.read32 (c.addr + 4) = d.addr ∧
      mem'.read32 d.addr = c.addr ∧
      mem'.read32 (d.addr + 4) = d.addr := by
  rcases hSound.neighbours with
    ⟨hLow, hcRoom, hdAddr, hdRoom, hdStop, hTop, _, _⟩
  unfold allocMem Kheap.splitMem
  dsimp only
  refine ⟨?_, ?_, ?_, ?_⟩
  · exact ((((ByteMemory.sameOn_write32 _ _ _
      (by omega)).trans
        (ByteMemory.sameOn_write32 _ _ _ (by omega))).trans
          (ByteMemory.sameOn_write32 _ _ _
            (by omega))).trans
              (ByteMemory.sameOn_write32 _ _ _
                (by omega))).trans
                  (((ByteMemory.sameOn_write32 _ _ _
                    (by omega)).trans
                      (ByteMemory.sameOn_write32 _ _ _
                        (by omega))).trans
                          (ByteMemory.sameOn_write32 _ _ _
                            (by omega)))
  · rw [ByteMemory.read32_write32_of_apart _ _ (by omega),
      ByteMemory.read32_write32_of_apart _ _ (by omega),
      ByteMemory.read32_write32_self _ _ (by omega)]
  · rw [ByteMemory.read32_write32_of_apart _ _ (by omega),
      ByteMemory.read32_write32_of_apart _ _ (by omega),
      ByteMemory.read32_write32_of_apart _ _ (by omega),
      ByteMemory.read32_write32_of_apart _ _ (by omega),
      ByteMemory.read32_write32_of_apart _ _ (by omega),
      ByteMemory.read32_write32_of_apart _ _ (by omega),
      ByteMemory.read32_write32_self _ _ (by omega)]
  · rw [ByteMemory.read32_write32_of_apart _ _ (by omega),
      ByteMemory.read32_write32_of_apart _ _ (by omega),
      ByteMemory.read32_write32_of_apart _ _ (by omega),
      ByteMemory.read32_write32_of_apart _ _ (by omega),
      ByteMemory.read32_write32_of_apart _ _ (by omega),
      ByteMemory.read32_write32_self _ _ (by omega)]

/- After a split the next chunk is its own successor. -/
theorem Kmalloced.not_wellLinked
    {h h' : Heap}
    {len p : Nat}
    {events : List Event}
    {live : List (Nat × Nat)}
    (hSound : Sound h chunks stop)
    (hDone : Kmalloced h chunks stop len p h' events)
    (hSplit : ¬ NoSplit h len) :
    ¬ WellLinked ⟨h', live⟩ := by
  intro hLinked
  cases hDone with
  | reused _ _ hNoSplit => exact hSplit hNoSplit
  | appended hNoSplit _ => exact hSplit hNoSplit
  | @split xs ys c d hChain hFits _ =>
      subst hChain
      rcases hSound.neighbours with ⟨hLow, hRoom, _⟩
      rcases hSound.splitMem (len + HEADER_SIZE) with
        ⟨hSame, hcNext, hdPrev, hdNext⟩
      have hOn := hSound.onChain_of_same
        (h.withMem (allocMem
          (Kheap.splitMem h.mem c d (len + HEADER_SIZE)) c))
        rfl (hSame.mono (Nat.le_refl 0) (Nat.le_add_right _ 4))
      have hOn' := hOn.next (by
        rw [withMem_mem, hcNext]
        omega)
      rw [withMem_mem, hcNext] at hOn'
      have hBack := hLinked.back d.addr hOn' (by
        show ByteMemory.read32 _ _ ≠ 0
        rw [withMem_mem, hdNext]
        omega)
      rw [withMem_mem, hdNext, hdPrev] at hBack
      omega

/-
  In every run without a split the chain is well linked, and
  the first call that splits a chunk breaks it.
-/
theorem kheap_well_linked
    (hReach : Reachable Empty RegularStep cfg) :
    WellLinked cfg ∧
      ∀ len events cfg', len + HEADER_SIZE < 2 ^ 32 →
        Does cfg (.kmalloc len) events cfg' →
          (WellLinked cfg' ↔ NoSplit cfg.heap len) := by
  rcases exists_chained hReach with ⟨chunks, stop, hChained⟩
  refine ⟨hChained.wellLinked, ?_⟩
  intro len events cfg' hLen hDoes
  constructor
  · intro hLinked
    by_contra hSplit
    cases hDoes with
    | kmalloc fuel _ _ hRun =>
        have hSat := kmalloc_sat fuel
          hChained.sound (.inl hChained.last) hLen
        rw [hRun] at hSat
        rcases hSat with ⟨_, _, _, hDone⟩
        exact hDone.not_wellLinked hChained.sound hSplit
          hLinked
  · intro hNoSplit
    have hStep : RegularStep cfg cfg' :=
      ⟨.kmalloc len, events, ⟨hLen, hNoSplit⟩, hDoes⟩
    rcases hStep.chained hChained with ⟨_, _, hChained', _⟩
    exact hChained'.wellLinked

theorem kheap_well_linked_first :
    WellLinked ⟨firstHeap, [(0xF000000C, 100)]⟩ ∧
      (WellLinked
          ⟨secondHeap,
            [(0xF000007C, 20), (0xF000000C, 100)]⟩ ↔
        NoSplit firstHeap 20) := by
  rcases (Traced.kmalloc_traces 2 20).exists_run
    ⟨firstHeap, []⟩ kmalloc_second with ⟨events, hTraced⟩
  have hDoes :
      Does ⟨firstHeap, [(0xF000000C, 100)]⟩ (.kmalloc 20)
        events
        ⟨secondHeap,
          [(0xF000007C, 20), (0xF000000C, 100)]⟩ :=
    .kmalloc 2 20 (by decide) hTraced
  have hLinked := kheap_well_linked regular_firstHeap
  exact ⟨hLinked.1,
    hLinked.2 20 events _ (by decide) hDoes⟩

/- The split makes the second chunk its own successor. -/
theorem kheap_unlinked :
    ¬ ∀ cfg, Reachable Empty AnyStep cfg →
      WellLinked cfg := by
  intro hAll
  have hLinked := hAll _
    (reachable_splitHeap.mono (fun _ hEmpty => hEmpty)
      (fun _ _ hStep => hStep.any))
  have hFirst : splitHeap.kheapFirst = 0xF0000000 := by
    decide +kernel
  have hNext :
      splitHeap.mem.read32 (0xF0000000 + 4) =
        0xF0000070 := by
    decide +kernel
  have hLoop :
      splitHeap.mem.read32 (0xF0000070 + 4) = 0xF0000070 ∧
        splitHeap.mem.read32 0xF0000070 = 0xF0000000 := by
    decide +kernel
  have hOn : OnChain splitHeap 0xF0000000 := by
    rw [← hFirst]
    apply OnChain.first
    rw [hFirst]
    decide
  have hOn' := hOn.next (by rw [hNext]; decide)
  rw [hNext] at hOn'
  have hBack := hLinked.back 0xF0000070 hOn' (by
    dsimp only
    rw [hLoop.1]
    decide)
  dsimp only at hBack
  rw [hLoop.1, hLoop.2] at hBack
  exact absurd hBack (by decide)

end Kheap

end SosKernel
