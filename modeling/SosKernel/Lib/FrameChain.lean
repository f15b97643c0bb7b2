import SosKernel.Lib.PushStack

/-
  Call frames that are linked by saved frame pointers, on a
  stack that grows downwards.

  The saved pointer of a frame lies at its address, and the
  return address in the word above.  The chain ends at a
  saved pointer of zero.

  Main declarations:
    * `CallFrame`, `Linked`: a chain of frames in memory
    * `Linked.congr`: stores that miss the chain
    * `Linked.enter`, `Linked.leave`: a call and a return
-/

------------------------------------------------------------
-- Chains
------------------------------------------------------------

namespace ByteMemory

/- Where a frame is, and where its function returns to. -/
structure CallFrame where
  fp : Nat
  back : Nat
deriving DecidableEq, Repr

/-
  The frames from `fp` on, the innermost first, each of them
  above the one before and all between `lo` and `hi`.
-/
def Linked
    (mem : ByteMemory)
    (hi : Nat) : Nat → Nat → List CallFrame → Prop
| _, fp, [] => fp = 0
| lo, fp, frame :: frames =>
    frame.fp = fp ∧ frame.back = mem.read32 (fp + 4) ∧
      lo ≤ fp ∧ 0 < fp ∧ fp + 8 ≤ hi ∧
        Linked mem hi (fp + 8) (mem.read32 fp) frames

variable {mem mem' : ByteMemory}
variable {hi lo fp : Nat}
variable {frame : CallFrame}
variable {frames : List CallFrame}

/- The frames lie between the bounds. -/
theorem Linked.bounds
    (hLinked : mem.Linked hi lo fp frames)
    (hMem : frame ∈ frames) :
    lo ≤ frame.fp ∧ frame.fp + 8 ≤ hi := by
  induction frames generalizing lo fp with
  | nil => cases hMem
  | cons first frames ih =>
      rcases hLinked with ⟨hFp, _, hLow, _, hHigh, hRest⟩
      rcases List.mem_cons.mp hMem with rfl | hTail
      · omega
      · have hBounds := ih hRest hTail
        omega

/- A chain is where it was if its words are the same. -/
theorem Linked.congr
    (hLinked : mem.Linked hi lo fp frames)
    (hSame :
      ∀ frame ∈ frames,
        mem.SameOn frame.fp (frame.fp + 8) mem') :
    mem'.Linked hi lo fp frames := by
  induction frames generalizing lo fp with
  | nil => exact hLinked
  | cons first frames ih =>
      rcases hLinked with
        ⟨rfl, hBack, hLow, hPos, hHigh, hRest⟩
      have hFirst := hSame first List.mem_cons_self
      have hSaved : mem'.read32 first.fp = mem.read32 first.fp :=
        hFirst.read32 (Nat.le_refl _) (by omega)
      have hReturn :
          mem'.read32 (first.fp + 4) =
            mem.read32 (first.fp + 4) :=
        hFirst.read32 (by omega) (by omega)
      refine ⟨rfl, ?_, hLow, hPos, hHigh, ?_⟩
      · rw [hReturn]
        exact hBack
      · rw [hSaved]
        exact ih hRest fun frame hFrame =>
          hSame frame (List.mem_cons_of_mem _ hFrame)

/- Bytes that are stored under a chain. -/
theorem Linked.below
    (hLinked : mem.Linked hi lo fp frames)
    (hSame : mem.SameOn lo hi mem') :
    mem'.Linked hi lo fp frames :=
  hLinked.congr fun _ hFrame =>
    hSame.mono (hLinked.bounds hFrame).1
      (hLinked.bounds hFrame).2

/-
  A call from below the frames: the return address and the
  frame pointer are pushed, and the frame pointer is set to
  the top of the stack.
-/
theorem Linked.enter
    {e back : Nat}
    (hLinked : mem.Linked hi e fp frames)
    (hRoom : 8 < e)
    (hHigh : e ≤ hi)
    (hFp : fp < 2 ^ 32)
    (hBack : back < 2 ^ 32) :
    (mem.pushes e [back, fp]).Linked hi (e - 8) (e - 8)
      (⟨e - 8, back⟩ :: frames) := by
  have hWords : ∀ v ∈ [back, fp], v < 2 ^ 32 := by
    intro v hv
    rcases List.mem_cons.mp hv with rfl | hv
    · exact hBack
    · rw [List.mem_singleton.mp hv]
      exact hFp
  have hReturn :=
    @read32_pushes e 0 [back, fp] mem (by
      rw [List.length_cons, List.length_singleton]
      omega) hWords Nat.zero_lt_two
  have hSaved :=
    @read32_pushes e 1 [back, fp] mem (by
      rw [List.length_cons, List.length_singleton]
      omega) hWords Nat.one_lt_two
  have hAddress : e - 8 + 4 = e - 4 * (0 + 1) := by omega
  have hTop : e - 8 + 8 = e := by omega
  refine ⟨rfl, ?_, Nat.le_refl _, by omega, by omega, ?_⟩
  · rw [hAddress, hReturn]
    rfl
  · have hPointer :
        (mem.pushes e [back, fp]).read32 (e - 8) = fp := hSaved
    rw [hPointer, hTop]
    refine hLinked.below (sameOn_pushes mem ?_ (.inr ?_))
    · rw [List.length_cons, List.length_singleton]
      omega
    · exact Nat.le_refl e

/- A return: the chain goes on at the saved pointer. -/
theorem Linked.leave
    (hLinked : mem.Linked hi lo fp (frame :: frames)) :
    mem.Linked hi (fp + 8) (mem.read32 fp) frames :=
  hLinked.2.2.2.2.2

end ByteMemory
