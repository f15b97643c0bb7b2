import Mathlib
import SosKernel.Kheap.Chain

/-
  The isolation of what has been allocated.

  Main declarations:
    * `Isolated`
    * `Backed`: what isolation follows from
    * `kheap_isolates`
-/

------------------------------------------------------------
-- Isolation
------------------------------------------------------------

namespace SosKernel

namespace Kheap

/- The bytes of an allocation. -/
def payload (x : Nat × Nat) : Set Nat :=
  Set.Ico x.1 (x.1 + x.2)

/-
  The live allocations are disjoint, overlap no header of the
  chain, and lie inside the heap.
-/
structure Isolated (cfg : Config) : Prop where
  disjoint :
    cfg.live.Pairwise fun x y =>
      Disjoint (payload x) (payload y)
  headers :
    ∀ x ∈ cfg.live, ∀ a, OnChain cfg.heap a →
      Disjoint (payload x) (Set.Ico a (a + HEADER_SIZE))
  inside :
    ∀ x ∈ cfg.live, KHEAP_START ≤ x.1 ∧
      x.1 + x.2 ≤ cfg.heap.kheapMax

/-
  The heap is sound, and every live allocation has a chunk of
  its own.
-/
def Backed (cfg : Config) : Prop :=
  ∃ chunks stop, Sound cfg.heap chunks stop ∧
    (∀ x ∈ cfg.live, ∃ c ∈ chunks, c.Backs x) ∧
    (cfg.live.map Prod.fst).Nodup

variable {cfg : Config}
variable {chunks : List Chunk}
variable {stop : Nat}

/- Ranges one before the other are disjoint. -/
theorem disjoint_of_le
    {a b c d : Nat}
    (hApart : b ≤ c ∨ d ≤ a) :
    Disjoint (Set.Ico a b) (Set.Ico c d) := by
  rw [Set.disjoint_left]
  intro x hx hx'
  rw [Set.mem_Ico] at hx hx'
  omega

/- The invariant gives isolation. -/
theorem Backed.isolated
    (hBacked : Backed cfg) :
    Isolated cfg := by
  rcases hBacked with ⟨chunks, stop, hSound, hLive, hNodup⟩
  refine
    { disjoint := ?_
      headers := ?_
      inside := ?_ }
  · rw [List.nodup_iff_pairwise_ne, List.pairwise_map]
      at hNodup
    refine hNodup.imp_of_mem ?_
    intro x y hx hy hNe
    rcases hLive x hx with ⟨c, hc, hcx⟩
    rcases hLive y hy with ⟨d, hd, hdy⟩
    have hxp := hcx.payload
    have hyp := hdy.payload
    have hxr := hcx.room
    have hyr := hdy.room
    apply disjoint_of_le
    rcases hSound.tiled.apart hc hd with rfl | hApart
    · exact absurd (hxp.trans hyp.symm) hNe
    · unfold Chunk.stop at hApart
      omega
  · intro x hx a hOn
    rcases hLive x hx with ⟨c, hc, hcx⟩
    rcases hSound.onChain hOn with ⟨d, hd, rfl⟩
    have hxp := hcx.payload
    have hxr := hcx.room
    have hRange := hSound.range hd
    apply disjoint_of_le
    rcases hSound.tiled.apart hc hd with rfl | hApart
    · omega
    · unfold Chunk.stop at hApart
      unfold HEADER_SIZE at *
      omega
  · intro x hx
    rcases hLive x hx with ⟨c, hc, hcx⟩
    have hxp := hcx.payload
    have hxr := hcx.room
    have hRange := hSound.range hc
    have hMax := hSound.stopLe
    unfold KHEAP_START
    omega

theorem Chained.backed
    (hChained : Chained cfg chunks stop) :
    Backed cfg :=
  ⟨chunks, stop, hChained.sound, hChained.owned,
    hChained.nodup⟩

/-
  In every run in which `kmalloc` finds no chunk to split,
  the live allocations are isolated.
-/
theorem kheap_isolates
    (hReach : Reachable Empty (Step NoSplit) cfg) :
    Isolated cfg := by
  have hRegular : Reachable Empty RegularStep cfg :=
    hReach.mono (fun _ hEmpty => hEmpty)
      (fun _ _ hStep => hStep.regular)
  rcases exists_chained hRegular with
    ⟨chunks, stop, hChained⟩
  exact hChained.backed.isolated

theorem kheap_isolates_exact :
    Isolated
      ⟨exactHeap, [(0xF000000C, 88), (0xF000007C, 20)]⟩ :=
  kheap_isolates
    (fresh_exactHeap.mono (fun _ hFresh => hFresh.1)
      (fun _ _ hStep => hStep))

/-
  The split puts a free chunk over the header of the second
  allocation, which is then allocated once more.
-/
theorem kheap_overlaps :
    ¬ ∀ cfg, Reachable Empty (Step AnyLen) cfg →
      Isolated cfg := by
  intro hIsolated
  have hReused :
      Reachable Empty (Step AnyLen)
        ⟨reusedHeap,
          [(0xF000007C, 20), (0xF000000C, 20),
            (0xF000007C, 20)]⟩ :=
    .step reachable_splitHeap
      (.kmalloc 3 20 (by decide) trivial kmalloc_reused)
  have hApart := (hIsolated _ hReused).disjoint
  rw [List.pairwise_cons] at hApart
  have hSelf := hApart.1 (0xF000007C, 20) (by simp)
  rw [Set.disjoint_left] at hSelf
  have hByte : 0xF000007C ∈ payload (0xF000007C, 20) := by
    unfold payload
    rw [Set.mem_Ico]
    decide
  exact hSelf hByte hByte

end Kheap

end SosKernel
