import SosKernel.Kheap.Chain

/-
  The arithmetic of the heap on lengths and addresses.

  Main declarations:
    * `Exact`: a call of `kmalloc` in which nothing wraps
    * `kheap_exact`
-/

------------------------------------------------------------
-- Lengths
------------------------------------------------------------

namespace SosKernel

namespace Kheap

variable {h h' : Heap}
variable {cfg : Config}
variable {chunks xs ys : List Chunk}
variable {stop : Nat}

/-
  Nothing wraps in the call, and if it returns the chunk is
  as long as its header and the payload need.
-/
def Exact (h : Heap) (fuel len : Nat) : Prop :=
  ((Traced.kmalloc fuel len).run ⟨h, []⟩).Sat
    (fun p s' =>
      len + HEADER_SIZE ≤
          s'.state.mem.read32 (p - HEADER_SIZE + 8) / 2 ∧
        Fit s'.trace)
    Stopped

/- The length that a header has after an allocation. -/
theorem read32_allocMem
    (mem : ByteMemory)
    (c : Chunk) :
    (allocMem mem c).read32 (c.addr + 8) / 2 =
      mem.read32 (c.addr + 8) / 2 := by
  have hWord := ByteMemory.read32_lt mem (c.addr + 8)
  unfold allocMem
  rw [ByteMemory.read32_write32_self _ _ (by omega)]
  omega

/- The chunk that is returned has the length that it needs. -/
theorem Kmalloced.length
    {len p : Nat}
    {events : List Event}
    (hSound : Sound h chunks stop)
    (hDone : Kmalloced h chunks stop len p h' events) :
    len + HEADER_SIZE ≤
      h'.mem.read32 (p - HEADER_SIZE + 8) / 2 := by
  cases hDone with
  | @reused xs ys c hChain hFits _ =>
      subst hChain
      rw [Nat.add_sub_cancel, withMem_mem, read32_allocMem,
        hSound.header.2.2, c.word_div]
      exact hFits.2
  | @split xs ys c d hChain hFits _ =>
      subst hChain
      have hRange := hSound.range
        (show c ∈ xs ++ c :: d :: ys by simp)
      have hRoom := hFits.2
      rw [Nat.add_sub_cancel, withMem_mem, read32_allocMem]
      unfold splitMem
      dsimp only
      rw [ByteMemory.read32_write32_self _ _ (by omega)]
      omega
  | appended _ hAppended =>
      have hWord := hAppended.sound.header.2.2
      have hAddr :
          stop + HEADER_SIZE - HEADER_SIZE + 8 =
            (newChunk stop (len + HEADER_SIZE)).addr + 8 := by
        rw [Nat.add_sub_cancel]
        rfl
      rw [hAddr, hWord, Chunk.word_div]
      exact Nat.le_refl _

/-
  After every run without a split nothing wraps in a call of
  `kfree`, and nothing in a call of `kmalloc` whose length
  with the header is a word; otherwise that sum wraps.
-/
theorem kheap_exact
    (hReach : Reachable Empty RegularStep cfg) :
    (∀ fuel len,
        Exact cfg.heap fuel len ↔
          len + HEADER_SIZE < 2 ^ 32) ∧
      ∀ fuel p len, (p, len) ∈ cfg.live →
        ((Traced.kfree fuel p).run ⟨cfg.heap, []⟩).Sat
          (fun _ s' => Fit s'.trace) Stopped := by
  rcases exists_chained hReach with ⟨chunks, stop, hChained⟩
  have hSound := hChained.sound
  refine ⟨?_, ?_⟩
  · intro fuel len
    constructor
    · intro hExact
      have hAdd := Traced.add_mem_kmalloc fuel len
        ⟨cfg.heap, []⟩
      unfold Exact at hExact
      cases hRun :
          (Traced.kmalloc fuel len).run ⟨cfg.heap, []⟩ with
      | ok p s' =>
          rw [hRun] at hExact hAdd
          exact hExact.2 _ hAdd
      | error e s' =>
          rw [hRun] at hExact hAdd
          exact hExact _ hAdd
    · intro hLen
      refine (kmalloc_sat fuel hSound (.inl hChained.last)
        hLen).imp ?_ ?_
      · rintro p s' ⟨hFit, events, _, hDone⟩
        exact ⟨hDone.length hSound, hFit⟩
      · intro e s hStopped
        exact hStopped
  · intro fuel p len hLive
    rcases hChained.owned (p, len) hLive with ⟨c, hc, hcx⟩
    rcases List.append_of_mem hc with ⟨xs, ys, rfl⟩
    have hp : p = c.addr + HEADER_SIZE := hcx.payload
    rw [hp]
    refine (kfree_sat fuel hSound).imp ?_ ?_
    · rintro _ s' ⟨_, _, _, _, _, _, hFit, _⟩
      exact hFit
    · intro e s hStopped
      exact hStopped

theorem kheap_exact_first :
    Exact firstHeap 2 20 ∧
      ((Traced.kfree 2 0xF000000C).run ⟨firstHeap, []⟩).Sat
        (fun _ s' => Fit s'.trace) Stopped := by
  have hExact := kheap_exact regular_firstHeap
  exact ⟨(hExact.1 2 20).mpr (by decide),
    hExact.2 2 0xF000000C 100 (by simp)⟩

/- After a call whose length wraps to 11 bytes. -/
def shortHeap : WithTrace Heap Event :=
  EStateM.endState (Traced.kmalloc 2 0xFFFFFFFF)
    ⟨emptyHeap, []⟩

theorem kmalloc_short :
    (Traced.kmalloc 2 0xFFFFFFFF).run ⟨emptyHeap, []⟩ =
      .ok 0xF000000C shortHeap :=
  EStateM.run_eq_of_value (by decide)

theorem length_shortHeap :
    shortHeap.state.mem.read32 0xF0000008 / 2 = 11 := by
  decide

attribute [irreducible] shortHeap

/- The chunk for 4 GB - 1 bytes has 11 bytes. -/
theorem kheap_inexact :
    ¬ ∀ cfg, Reachable Empty AnyStep cfg →
      ∀ fuel len, len < 2 ^ 32 →
        Exact cfg.heap fuel len := by
  intro hAll
  have hExact := hAll _ (.start fresh_emptyHeap.1) 2 0xFFFFFFFF
    (by decide)
  unfold Exact at hExact
  dsimp only at hExact
  rw [kmalloc_short] at hExact
  have hLength := hExact.1
  rw [show 0xF000000C - HEADER_SIZE + 8 = 0xF0000008 from rfl,
    length_shortHeap] at hLength
  exact absurd hLength (by decide)

end Kheap

end SosKernel
