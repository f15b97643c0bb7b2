import Mathlib.Data.List.Induction
import SosKernel.Kheap.Model

/-
  Chains of chunks that tile the heap.

  Main declarations:
    * `Chunk`, `Tiled`, `Linked`
    * `Linked.frame`, `Linked.setWord`, `Linked.merge`
    * `Linked.extend`, `Linked.dropLast`
    * `Tiled.apart`
-/

------------------------------------------------------------
-- Chunks
------------------------------------------------------------

namespace SosKernel

namespace Kheap

/- A chunk as its header describes it. -/
structure Chunk where
  addr : Nat
  length : Nat
  allocated : Bool
deriving DecidableEq, Repr

/- The third word of the header. -/
def Chunk.word (c : Chunk) : Nat :=
  c.length * 2 + c.allocated.toNat

def Chunk.stop (c : Chunk) : Nat :=
  c.addr + c.length

/- The first address of a chain that goes on with `next`. -/
def headAddr (cs : List Chunk) (next : Nat) : Nat :=
  match cs with
  | [] => next
  | c :: _ => c.addr

/- The last address of a chain that follows `prev`. -/
def lastAddr (prev : Nat) : List Chunk → Nat
| [] => prev
| c :: cs => lastAddr c.addr cs

/-
  The chunks lie one after the other from `start` to `stop`,
  each with room for its header.
-/
def Tiled : Nat → List Chunk → Nat → Prop
| start, [], stop => start = stop
| start, c :: cs, stop =>
    c.addr = start ∧ HEADER_SIZE ≤ c.length ∧
      Tiled (start + c.length) cs stop

/-
  The headers in memory describe the chunks: their `prev`
  and `next` fields link them between `prev` and `next`.
-/
def Linked (mem : ByteMemory) :
    Nat → List Chunk → Nat → Prop
| _, [], _ => True
| prev, c :: cs, next =>
    mem.read32 c.addr = prev ∧
      mem.read32 (c.addr + 4) = headAddr cs next ∧
      mem.read32 (c.addr + 8) = c.word ∧
      Linked mem c.addr cs next

variable {mem mem' : ByteMemory}
variable {xs ys : List Chunk}
variable {start stop prev next : Nat}

------------------------------------------------------------
-- Parts of a Chain
------------------------------------------------------------

@[simp] theorem headAddr_nil (next : Nat) :
    headAddr [] next = next := rfl

@[simp] theorem headAddr_cons
    (c : Chunk)
    (cs : List Chunk)
    (next : Nat) :
    headAddr (c :: cs) next = c.addr := rfl

theorem headAddr_append
    (xs ys : List Chunk)
    (next : Nat) :
    headAddr (xs ++ ys) next =
      headAddr xs (headAddr ys next) := by
  cases xs <;> rfl

@[simp] theorem lastAddr_nil (prev : Nat) :
    lastAddr prev [] = prev := rfl

theorem lastAddr_append
    (prev : Nat)
    (xs ys : List Chunk) :
    lastAddr prev (xs ++ ys) =
      lastAddr (lastAddr prev xs) ys := by
  induction xs generalizing prev with
  | nil => rfl
  | cons c xs ih => exact ih c.addr

@[simp] theorem lastAddr_concat
    (prev : Nat)
    (xs : List Chunk)
    (c : Chunk) :
    lastAddr prev (xs ++ [c]) = c.addr := by
  rw [lastAddr_append]
  rfl

theorem tiled_append :
    Tiled start (xs ++ ys) stop ↔
      ∃ mid, Tiled start xs mid ∧ Tiled mid ys stop := by
  induction xs generalizing start with
  | nil =>
      constructor
      · intro hTiled
        exact ⟨start, rfl, hTiled⟩
      · rintro ⟨mid, hStart, hTiled⟩
        cases hStart
        exact hTiled
  | cons c xs ih =>
      simp only [List.cons_append, Tiled, ih]
      constructor
      · rintro ⟨hAddr, hLength, mid, hXs, hYs⟩
        exact ⟨mid, ⟨hAddr, hLength, hXs⟩, hYs⟩
      · rintro ⟨mid, ⟨hAddr, hLength, hXs⟩, hYs⟩
        exact ⟨hAddr, hLength, mid, hXs, hYs⟩

theorem linked_append :
    Linked mem prev (xs ++ ys) next ↔
      Linked mem prev xs (headAddr ys next) ∧
        Linked mem (lastAddr prev xs) ys next := by
  induction xs generalizing prev with
  | nil => simp [Linked]
  | cons c xs ih =>
      simp only [List.cons_append, Linked, ih,
        headAddr_append, lastAddr]
      tauto

theorem Tiled.le
    (hTiled : Tiled start xs stop) :
    start ≤ stop := by
  induction xs generalizing start with
  | nil => exact Nat.le_of_eq hTiled
  | cons c xs ih =>
      have hRest := ih hTiled.2.2
      omega

theorem Tiled.headAddr_eq
    (hTiled : Tiled start xs stop)
    (hNe : xs ≠ []) :
    headAddr xs next = start := by
  cases xs with
  | nil => exact absurd rfl hNe
  | cons c xs => exact hTiled.1

/- Every chunk lies within the tiled range. -/
theorem Tiled.mem_range
    {c : Chunk}
    (hTiled : Tiled start xs stop)
    (hMem : c ∈ xs) :
    start ≤ c.addr ∧ c.stop ≤ stop ∧
      HEADER_SIZE ≤ c.length := by
  induction xs generalizing start with
  | nil => cases hMem
  | cons d xs ih =>
      rcases hTiled with ⟨hAddr, hLength, hRest⟩
      have hLe := hRest.le
      rcases List.mem_cons.mp hMem with rfl | hMem
      · unfold Chunk.stop
        omega
      · have hRange := ih hRest hMem
        omega

/- Two chunks are the same or apart. -/
theorem Tiled.apart
    {c d : Chunk}
    (hTiled : Tiled start xs stop)
    (hc : c ∈ xs)
    (hd : d ∈ xs) :
    c = d ∨ c.stop ≤ d.addr ∨ d.stop ≤ c.addr := by
  induction xs generalizing start with
  | nil => cases hc
  | cons e xs ih =>
      rcases hTiled with ⟨hAddr, hLength, hRest⟩
      rcases List.mem_cons.mp hc with hc' | hc'
      · rcases List.mem_cons.mp hd with hd' | hd'
        · exact .inl (hc'.trans hd'.symm)
        · have hRange := hRest.mem_range hd'
          subst hc'
          refine .inr (.inl ?_)
          unfold Chunk.stop
          omega
      · rcases List.mem_cons.mp hd with hd' | hd'
        · have hRange := hRest.mem_range hc'
          subst hd'
          refine .inr (.inr ?_)
          unfold Chunk.stop
          omega
        · exact ih hRest hc' hd'

------------------------------------------------------------
-- Changes of Memory
------------------------------------------------------------

/- A chain depends only on the memory it lies in. -/
theorem Linked.frame
    (hLinked : Linked mem prev xs next)
    (hTiled : Tiled start xs stop)
    (hSame : mem.SameOn start stop mem') :
    Linked mem' prev xs next := by
  induction xs generalizing prev start with
  | nil => trivial
  | cons c xs ih =>
      rcases hTiled with ⟨hAddr, hLength, hRest⟩
      rcases hLinked with ⟨hPrev, hNext, hWord, hLinked⟩
      have hLe := hRest.le
      unfold HEADER_SIZE at hLength
      refine ⟨?_, ?_, ?_, ?_⟩
      · rw [hSame.read32 (by omega) (by omega)]
        exact hPrev
      · rw [hSame.read32 (by omega) (by omega)]
        exact hNext
      · rw [hSame.read32 (by omega) (by omega)]
        exact hWord
      · exact ih hLinked hRest
          (hSame.mono (by omega) (Nat.le_refl _))

/- A changed word in a header changes that chunk only. -/
theorem Linked.setWord
    {c c' : Chunk}
    (hLinked : Linked mem prev (xs ++ c :: ys) next)
    (hTiled : Tiled start (xs ++ c :: ys) stop)
    (hAddr : c'.addr = c.addr)
    (hWord : c'.word < 2 ^ 32) :
    Linked (mem.write32 (c.addr + 8) c'.word) prev
      (xs ++ c' :: ys) next := by
  rcases tiled_append.mp hTiled with ⟨mid, hXs, hRest⟩
  rcases hRest with ⟨hStart, hLength, hYs⟩
  rcases linked_append.mp hLinked with ⟨hLeft, hRight⟩
  rcases hRight with ⟨hPrev, hNext, _, hTail⟩
  unfold HEADER_SIZE at hLength
  rw [linked_append]
  refine ⟨?_, ?_, ?_, ?_, ?_⟩
  · rw [headAddr_cons, hAddr]
    exact hLeft.frame hXs
      (ByteMemory.sameOn_write32 _ _ _ (by omega))
  · rw [hAddr, ByteMemory.read32_write32_of_apart _ _
      (by omega)]
    exact hPrev
  · rw [hAddr, ByteMemory.read32_write32_of_apart _ _
      (by omega)]
    exact hNext
  · rw [hAddr, ByteMemory.read32_write32_self _ _ hWord]
  · rw [hAddr]
    exact hTail.frame hYs
      (ByteMemory.sameOn_write32 _ _ _ (by omega))

/- A chain whose first chunk has a new predecessor. -/
theorem Linked.rehead
    {prev' : Nat}
    (hLinked : Linked mem prev xs next)
    (hTiled : Tiled start xs stop)
    (hSame : mem.SameOn (start + 4) stop mem')
    (hPrev : xs ≠ [] → mem'.read32 start = prev') :
    Linked mem' prev' xs next := by
  cases xs with
  | nil => trivial
  | cons c xs =>
      rcases hTiled with ⟨hAddr, hLength, hRest⟩
      rcases hLinked with ⟨_, hNext, hWord, hLinked⟩
      have hLe := hRest.le
      unfold HEADER_SIZE at hLength
      refine ⟨?_, ?_, ?_, ?_⟩
      · rw [hAddr]
        exact hPrev (by simp)
      · rw [hSame.read32 (by omega) (by omega)]
        exact hNext
      · rw [hSame.read32 (by omega) (by omega)]
        exact hWord
      · exact hLinked.frame hRest
          (hSame.mono (by omega) (Nat.le_refl _))

/- A chain whose last chunk has a new successor. -/
theorem Linked.retail
    {c : Chunk}
    {next' : Nat}
    (hLinked : Linked mem prev (xs ++ [c]) next)
    (hTiled : Tiled start (xs ++ [c]) stop)
    (hSame : mem.SameOn start (c.addr + 4) mem')
    (hNext : mem'.read32 (c.addr + 4) = next')
    (hWord :
      mem'.read32 (c.addr + 8) = mem.read32 (c.addr + 8)) :
    Linked mem' prev (xs ++ [c]) next' := by
  rcases tiled_append.mp hTiled with ⟨mid, hXs, hRest⟩
  rcases linked_append.mp hLinked with ⟨hLeft, hRight⟩
  rcases hRight with ⟨hPrev, _, hOld, _⟩
  have hMid := hRest.1
  have hLe := hXs.le
  rw [linked_append]
  refine ⟨?_, ?_, ?_, ?_, trivial⟩
  · exact hLeft.frame hXs
      (hSame.mono (Nat.le_refl _) (by omega))
  · rw [hSame.read32 (by omega) (by omega)]
    exact hPrev
  · exact hNext
  · rw [hWord]
    exact hOld

------------------------------------------------------------
-- Merging Neighbours
------------------------------------------------------------

/- The chunk that covers `c` and its right neighbour `d`. -/
def Chunk.merge (c d : Chunk) : Chunk where
  addr := c.addr
  length := c.length + d.length
  allocated := c.allocated

theorem Tiled.merge
    {c d : Chunk}
    (hTiled : Tiled start (xs ++ c :: d :: ys) stop) :
    Tiled start (xs ++ c.merge d :: ys) stop := by
  rw [tiled_append] at hTiled ⊢
  rcases hTiled with ⟨mid, hXs, hc, hLength, hd, _, hYs⟩
  refine ⟨mid, hXs, hc, ?_, ?_⟩
  · exact Nat.le_trans hLength (Nat.le_add_right _ _)
  · rw [Nat.add_assoc] at hYs
    exact hYs

/-
  Merging rewrites the last two words of the left header and
  the first word of the header after the right chunk.
-/
theorem Linked.merge
    {c d : Chunk}
    (hLinked : Linked mem prev (xs ++ c :: d :: ys) next)
    (hTiled : Tiled start (xs ++ c :: d :: ys) stop)
    (hLeft : mem.SameOn start (c.addr + 4) mem')
    (hNext :
      mem'.read32 (c.addr + 4) = headAddr ys next)
    (hWord : mem'.read32 (c.addr + 8) = (c.merge d).word)
    (hRight : mem.SameOn (d.stop + 4) stop mem')
    (hPrev : ys ≠ [] → mem'.read32 d.stop = c.addr) :
    Linked mem' prev (xs ++ c.merge d :: ys) next := by
  rcases tiled_append.mp hTiled with ⟨mid, hXs, hRest⟩
  rcases hRest with ⟨hc, _, hd, _, hYs⟩
  rcases linked_append.mp hLinked with ⟨hBefore, hAfter⟩
  rcases hAfter with ⟨hcPrev, _, _, _, _, _, hTail⟩
  have hLe := hXs.le
  have hStop : d.stop = mid + c.length + d.length := by
    unfold Chunk.stop
    omega
  rw [hStop] at hRight hPrev
  rw [linked_append]
  refine ⟨?_, ?_, hNext, hWord, ?_⟩
  · exact hBefore.frame hXs
      (hLeft.mono (Nat.le_refl _) (by omega))
  · show mem'.read32 c.addr = _
    rw [hLeft.read32 (by omega) (by omega)]
    exact hcPrev
  · exact hTail.rehead hYs hRight hPrev

end Kheap

end SosKernel
