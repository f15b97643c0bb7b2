import SosKernel.Kheap.Restore
import SosKernel.Lib.Confined

/-
  What the owner of an allocation has stored stays there.

  Main declarations:
    * `Event.Covers`: the events that may change a byte
    * `kfree_confined`
    * `Chained.kmalloc_keeps`, `Chained.kfree_keeps`
    * `Uses`: runs from an allocation on
    * `kheap_keeps_contents`
-/

------------------------------------------------------------
-- Stores Account for Changes
------------------------------------------------------------

namespace SosKernel

namespace Kheap

open EStateM (Confined Preserves)

/- The event is a store to the byte `x`. -/
def Event.Covers (x : Nat) : Event → Prop
| .store a _ _ => a ≤ x ∧ x < a + 4
| _ => False

def byteAt (x : Nat) (h : Heap) : UInt8 :=
  h.mem x

variable {x : Nat}

theorem touch_preserves (a : Nat) :
    Preserves (byteAt x) (touch a) :=
  .bind .get fun _ => .ite (.throw _) (.pure _)

theorem load32_preserves (a : Nat) :
    Preserves (byteAt x) (load32 a) :=
  .bind (touch_preserves _) fun _ =>
    .bind (touch_preserves _) fun _ =>
      .bind .get fun _ => .pure _

theorem getPrev_preserves (header : Nat) :
    Preserves (byteAt x) (getPrev header) :=
  load32_preserves _

theorem getNext_preserves (header : Nat) :
    Preserves (byteAt x) (getNext header) :=
  load32_preserves _

theorem getAllocated_preserves (header : Nat) :
    Preserves (byteAt x) (getAllocated header) :=
  .bind (load32_preserves _) fun _ => .pure _

theorem getLength_preserves (header : Nat) :
    Preserves (byteAt x) (getLength header) :=
  .bind (load32_preserves _) fun _ => .pure _

theorem getMapping_preserves (va : Nat) :
    Preserves (byteAt x) (getMapping va) := by
  refine .bind .get fun h => ?_
  cases h.mapping (va / PAGE_SIZE) with
  | none => exact .throw _
  | some frame => exact .pure _

/- Giving pages back leaves the bytes as they are. -/
theorem shrinkHeap_preserves (fuel chunk : Nat) :
    Preserves (byteAt x) (shrinkHeap fuel chunk) := by
  induction fuel with
  | zero => exact .throw _
  | succ fuel ih =>
      unfold shrinkHeap
      refine .bind .get fun h => .ite ?_ (.pure _)
      refine .bind (.modified fun h => ?_) fun _ => ?_
      · dsimp only [byteAt]
      refine .bind .get fun h => ?_
      refine .bind (getMapping_preserves _) fun page => ?_
      refine .bind (.modified fun _ => rfl) fun _ => ?_
      exact .bind (.modified fun _ => rfl) fun _ => ih

/- A store changes the four bytes that its event covers. -/
theorem store32_confined (a v : Nat) :
    Confined (Event.Covers x) (byteAt x)
      (Traced.store32 a v) := by
  refine Confined.record _ ?_
  intro h u h' hRun hOff
  rcases store32_run h a v with ⟨hStore, -⟩ | ⟨e, hStore, -⟩
  · rw [hStore] at hRun
    cases hRun
    refine ByteMemory.write32_apply_of_apart _ _ ?_
    have hNot : ¬ (a ≤ x ∧ x < a + 4) := hOff
    omega
  · rw [hStore] at hRun
    cases hRun

theorem setAllocated_confined (header v : Nat) :
    Confined (Event.Covers x) (byteAt x)
      (Traced.setAllocated header v) :=
  .bind (.lift (load32_preserves _)) fun _ =>
    store32_confined _ _

theorem setLength_confined (header v : Nat) :
    Confined (Event.Covers x) (byteAt x)
      (Traced.setLength header v) :=
  .bind (.event _) fun _ =>
    .bind (.lift (load32_preserves _)) fun _ =>
      store32_confined _ _

theorem add_confined (a b : Nat) :
    Confined (Event.Covers x) (byteAt x) (Traced.add a b) :=
  .bind (.event _) fun _ => .pure _

theorem sub_confined (a b : Nat) :
    Confined (Event.Covers x) (byteAt x) (Traced.sub a b) :=
  .bind (.event _) fun _ => .pure _

theorem freeChunk_confined (fuel chunk : Nat) :
    Confined (Event.Covers x) (byteAt x)
      (Traced.freeChunk fuel chunk) := by
  refine .bind (.lift (getPrev_preserves _)) fun _ => ?_
  refine .bind (store32_confined _ _) fun _ => ?_
  refine .bind (.lift (getPrev_preserves _)) fun _ =>
    .ite ?_ (.lift (shrinkHeap_preserves _ _))
  exact .bind (.lift (.modified fun _ => rfl)) fun _ =>
    .lift (shrinkHeap_preserves _ _)

theorem glueNext_confined (chunk : Nat) :
    Confined (Event.Covers x) (byteAt x)
      (Traced.glueNext chunk) := by
  refine .bind (.lift (getNext_preserves _)) fun _ => .ite ?_ (.pure _)
  refine .bind (.lift (getNext_preserves _)) fun _ => ?_
  refine .bind (.lift (getAllocated_preserves _)) fun _ =>
    .ite ?_ (.pure _)
  refine .bind (.lift (getLength_preserves _)) fun _ => ?_
  refine .bind (.lift (getNext_preserves _)) fun _ => ?_
  refine .bind (.lift (getLength_preserves _)) fun _ => ?_
  refine .bind (add_confined _ _) fun _ => ?_
  refine .bind (setLength_confined _ _) fun _ => ?_
  refine .bind (.lift (getNext_preserves _)) fun _ => ?_
  refine .bind (.lift (getNext_preserves _)) fun _ => ?_
  refine .bind (store32_confined _ _) fun _ => ?_
  refine .bind (.lift (getNext_preserves _)) fun _ => ?_
  exact .bind (.lift (getNext_preserves _)) fun _ =>
    store32_confined _ _

theorem gluePrev_confined (chunk : Nat) :
    Confined (Event.Covers x) (byteAt x)
      (Traced.gluePrev chunk) := by
  refine .bind (.lift (getPrev_preserves _)) fun _ => .ite (.pure _) ?_
  refine .bind (.lift (getPrev_preserves _)) fun _ => ?_
  refine .bind (.lift (getAllocated_preserves _)) fun _ =>
    .ite ?_ (.pure _)
  refine .bind (.lift (getPrev_preserves _)) fun _ => ?_
  refine .bind (.lift (getPrev_preserves _)) fun _ => ?_
  refine .bind (.lift (getLength_preserves _)) fun _ => ?_
  refine .bind (.lift (getLength_preserves _)) fun _ => ?_
  refine .bind (add_confined _ _) fun _ => ?_
  refine .bind (setLength_confined _ _) fun _ => ?_
  refine .bind (.lift (getPrev_preserves _)) fun _ => ?_
  refine .bind (.lift (getNext_preserves _)) fun _ => ?_
  refine .bind (store32_confined _ _) fun _ => ?_
  refine .bind (.lift (getNext_preserves _)) fun _ => ?_
  refine .bind (.lift (getPrev_preserves _)) fun _ => ?_
  exact .bind (store32_confined _ _) fun _ =>
    .lift (getPrev_preserves _)

theorem kfree_confined (fuel p : Nat) :
    Confined (Event.Covers x) (byteAt x)
      (Traced.kfree fuel p) := by
  refine .bind (sub_confined _ _) fun _ => ?_
  refine .bind (setAllocated_confined _ _) fun _ => ?_
  refine .bind (glueNext_confined _) fun _ => ?_
  refine .bind (gluePrev_confined _) fun _ => ?_
  exact .bind (.lift (getNext_preserves _)) fun _ =>
    .ite (freeChunk_confined _ _) (.pure _)

------------------------------------------------------------
-- Where Stores Go
------------------------------------------------------------

variable {cfg cfg' : Config}
variable {chunks chunks' xs ys : List Chunk}
variable {stop : Nat}

/- A word of a header of the chain, or below the heap. -/
def Headed (chunks : List Chunk) (a : Nat) : Prop :=
  a + 4 ≤ KHEAP_START ∨
    ∃ c ∈ chunks, c.addr ≤ a ∧ a + 4 ≤ c.addr + HEADER_SIZE

/- All stores of the events go there. -/
def StoresHeaded
    (chunks : List Chunk)
    (events : List Event) : Prop :=
  ∀ a m b, Event.store a m b ∈ events → Headed chunks a

theorem Headed.of_mem
    {c : Chunk}
    {i : Nat}
    (hc : c ∈ chunks)
    (hi : i ≤ 8) :
    Headed chunks (c.addr + i) := by
  refine .inr ⟨c, hc, Nat.le_add_right _ _, ?_⟩
  unfold HEADER_SIZE
  omega

theorem Headed.mono
    {a : Nat}
    (hHeaded : Headed chunks a)
    (hSub : ∀ c ∈ chunks, c ∈ chunks') :
    Headed chunks' a := by
  rcases hHeaded with hLow | ⟨c, hc, hRange⟩
  · exact .inl hLow
  · exact .inr ⟨c, hSub c hc, hRange⟩

theorem headed_headAddr (ys : List Chunk) :
    Headed ys (headAddr ys 0) := by
  cases ys with
  | nil =>
      left
      change 0 + 4 ≤ KHEAP_START
      decide
  | cons d ys =>
      exact Headed.of_mem (i := 0) List.mem_cons_self
        (by omega)

theorem headed_lastAddr (xs : List Chunk) :
    Headed xs (lastAddr 0 xs + 4) := by
  rcases List.eq_nil_or_concat xs with rfl | ⟨bs, b, rfl⟩
  · left
    change 4 + 4 ≤ KHEAP_START
    decide
  · rw [List.concat_eq_append, lastAddr_concat]
    exact Headed.of_mem (by simp) (by omega)

theorem NextGlued.stores
    {kheapMax : Nat}
    {c c' : Chunk}
    {ys' : List Chunk}
    {events : List Event}
    (hGlued : NextGlued kheapMax c ys c' ys' events) :
    StoresHeaded (c :: ys) events ∧ ∀ d ∈ ys', d ∈ ys := by
  cases hGlued with
  | last => exact ⟨(fun _ _ _ hMem => by cases hMem), by simp⟩
  | allocated =>
      exact ⟨(fun _ _ _ hMem => by cases hMem), fun _ hd => hd⟩
  | free hFree =>
      refine ⟨?_, fun _ hd => List.mem_cons_of_mem _ hd⟩
      intro a m b hMem
      simp only [List.mem_cons, reduceCtorEq, false_or,
        Event.store.injEq, List.not_mem_nil, or_false] at hMem
      rcases hMem with ⟨rfl, -⟩ | ⟨rfl, -⟩ | ⟨rfl, -⟩
      · exact Headed.of_mem List.mem_cons_self (by omega)
      · refine (headed_headAddr _).mono ?_
        intro e he
        simp [he]
      · exact Headed.of_mem List.mem_cons_self (by omega)

theorem PrevGlued.stores
    {kheapMax : Nat}
    {d d' : Chunk}
    {xs' : List Chunk}
    {events : List Event}
    (hGlued : PrevGlued kheapMax ys xs d xs' d' events) :
    StoresHeaded (xs ++ ys) events ∧ ∀ e ∈ xs', e ∈ xs := by
  cases hGlued with
  | first => exact ⟨(fun _ _ _ hMem => by cases hMem), by simp⟩
  | allocated =>
      exact ⟨(fun _ _ _ hMem => by cases hMem), fun _ he => he⟩
  | @free bs c _ hFree =>
      refine ⟨?_, fun _ he => List.mem_append_left _ he⟩
      intro a m b hMem
      simp only [List.mem_cons, reduceCtorEq, false_or,
        Event.store.injEq, List.not_mem_nil, or_false] at hMem
      rcases hMem with ⟨rfl, -⟩ | ⟨rfl, -⟩ | ⟨rfl, -⟩
      · exact Headed.of_mem (by simp) (by omega)
      · exact Headed.of_mem (by simp) (by omega)
      · refine (headed_headAddr ys).mono ?_
        intro e he
        simp [he]

/- `glue_chunk` stores to headers only. -/
theorem Glued.stores
    {kheapMax : Nat}
    {c : Chunk}
    {events : List Event}
    (hGlued : Glued kheapMax xs c ys chunks' events) :
    StoresHeaded (xs ++ c :: ys) events := by
  cases hGlued with
  | kept hNext hPrev =>
      rcases hNext.stores with ⟨hNextStores, hRest⟩
      rcases hPrev.stores with ⟨hPrevStores, -⟩
      intro a m b hMem
      rcases List.mem_append.mp hMem with hMem | hMem
      · exact (hNextStores a m b hMem).mono
          fun e he => List.mem_append_right _ he
      · refine (hPrevStores a m b hMem).mono fun e he => ?_
        rcases List.mem_append.mp he with he | he
        · exact List.mem_append_left _ he
        · simp [hRest e he]
  | dropped hNext hPrev =>
      rcases hNext.stores with ⟨hNextStores, -⟩
      rcases hPrev.stores with ⟨hPrevStores, hFirst⟩
      intro a m b hMem
      rw [List.append_assoc] at hMem
      rcases List.mem_append.mp hMem with hMem | hMem
      · exact (hNextStores a m b hMem).mono
          fun e he => List.mem_append_right _ he
      rcases List.mem_append.mp hMem with hMem | hMem
      · refine (hPrevStores a m b hMem).mono fun e he => ?_
        rw [List.append_nil] at he
        exact List.mem_append_left _ he
      · simp only [List.mem_singleton, Event.store.injEq]
          at hMem
        rcases hMem with ⟨rfl, -⟩
        exact (headed_lastAddr _).mono
          fun e he => List.mem_append_left _ (hFirst e he)

/- A header overlaps no payload. -/
theorem Sound.headed_off
    {h : Heap}
    {c : Chunk}
    {a : Nat}
    (hSound : Sound h chunks stop)
    (hc : c ∈ chunks)
    (hx : c.addr + HEADER_SIZE ≤ x ∧ x < c.stop)
    (hHeaded : Headed chunks a) :
    ¬ (a ≤ x ∧ x < a + 4) := by
  have hcRange := hSound.range hc
  unfold HEADER_SIZE at *
  rcases hHeaded with hLow | ⟨d, hd, hLo, hHi⟩
  · unfold KHEAP_START at hLow
    omega
  · have hdRange := hSound.range hd
    unfold HEADER_SIZE Chunk.stop at *
    rcases hSound.tiled.apart hc hd with rfl | hApart
    · omega
    · unfold Chunk.stop at hApart
      omega

------------------------------------------------------------
-- Calls Keep What Is Stored
------------------------------------------------------------

/- The byte `x` belongs to the allocation `y`. -/
def Owns (y : Nat × Nat) (x : Nat) : Prop :=
  y.1 ≤ x ∧ x < y.1 + y.2

theorem Chunk.Backs.owns
    {c : Chunk}
    {y : Nat × Nat}
    (hBacks : c.Backs y)
    (hx : Owns y x) :
    c.addr + HEADER_SIZE ≤ x ∧ x < c.stop := by
  have hPayload := hBacks.payload
  have hRoom := hBacks.room
  unfold Owns at hx
  unfold Chunk.stop HEADER_SIZE at *
  omega

/- `kfree` stores to no payload. -/
theorem Chained.kfree_keeps
    {fuel p len : Nat}
    {h' : Heap}
    {events : List Event}
    {y : Nat × Nat}
    (hChained : Chained cfg chunks stop)
    (hLive : (p, len) ∈ cfg.live)
    (hy : y ∈ cfg.live)
    (hx : Owns y x)
    (hRun :
      (Traced.kfree fuel p).run ⟨cfg.heap, []⟩ =
        .ok () ⟨h', events⟩) :
    h'.mem x = cfg.heap.mem x := by
  rcases hChained.owned (p, len) hLive with ⟨c, hc, hcx⟩
  rcases hChained.owned y hy with ⟨d, hd, hdy⟩
  rcases List.append_of_mem hc with ⟨xs, ys, rfl⟩
  have hp : p = c.addr + HEADER_SIZE := hcx.payload
  have hSat := kfree_sat fuel hChained.sound
  rw [← hp, hRun] at hSat
  rcases hSat with
    ⟨_, _, glued, hGlued, _, _, _, hTrace⟩
  apply (kfree_confined fuel p).kept _ _ _ hRun
  intro e he hCovers
  cases e with
  | add => exact hCovers
  | sub => exact hCovers
  | length => exact hCovers
  | store a m b =>
      refine hChained.sound.headed_off hd (hdy.owns hx) ?_
        hCovers
      rw [hTrace] at he
      unfold freeEvents at he
      simp only [List.cons_append, List.nil_append,
        List.mem_cons, reduceCtorEq, false_or,
        Event.store.injEq] at he
      rcases he with ⟨rfl, -⟩ | he
      · exact Headed.of_mem (by simp) (by omega)
      · rcases hGlued.stores a m b he with hLow | ⟨f, hf, hAt⟩
        · exact .inl hLow
        · simp only [List.mem_append, List.mem_cons] at hf
          rcases hf with hf | rfl | hf
          · exact .inr ⟨f, by simp [hf], hAt⟩
          · exact .inr ⟨c, by simp, hAt⟩
          · exact .inr ⟨f, by simp [hf], hAt⟩

/- `kmalloc` stores to no payload, if it splits no chunk. -/
theorem Chained.kmalloc_keeps
    {fuel len p : Nat}
    {h' : Heap}
    {events : List Event}
    {y : Nat × Nat}
    (hChained : Chained cfg chunks stop)
    (hLen : len + HEADER_SIZE < 2 ^ 32)
    (hNoSplit : NoSplit cfg.heap len)
    (hy : y ∈ cfg.live)
    (hx : Owns y x)
    (hRun :
      (Traced.kmalloc fuel len).run ⟨cfg.heap, []⟩ =
        .ok p ⟨h', events⟩) :
    h'.mem x = cfg.heap.mem x := by
  have hSound := hChained.sound
  rcases hChained.owned y hy with ⟨d, hd, hdy⟩
  have hOff := hdy.owns hx
  have hSat := kmalloc_sat fuel hSound (.inr hNoSplit) hLen
  rw [hRun] at hSat
  rcases hSat with ⟨_, _, _, hDone⟩
  cases hDone with
  | @reused xs ys c hChain _ _ =>
      have hNot :=
        hSound.headed_off hd hOff
          (Headed.of_mem (i := 8)
            (show c ∈ chunks by rw [hChain]; simp) (by omega))
      exact ByteMemory.write32_apply_of_apart _ _ (by omega)
  | split _ _ hSplit => exact absurd hNoSplit hSplit
  | appended _ hAppended =>
      have hNot :=
        hSound.headed_off hd hOff (headed_lastAddr chunks)
      have hRange := hSound.range hd
      unfold Chunk.stop at hOff
      rcases Nat.lt_or_ge x (lastAddr 0 chunks + 4) with
        hLow | hHigh
      · exact hAppended.below x (by omega) hLow
      · exact hAppended.above x (by omega) (by omega)

------------------------------------------------------------
-- Runs
------------------------------------------------------------

/-
  A run from an allocation `y` on, up to when it is freed:
  calls without a split, the stores of its owner, which are
  listed in their order, and those of others.
-/
inductive Uses (y : Nat × Nat) (cfg : Config) :
    List (Nat × UInt8) → Config → Prop where
| start : Uses y cfg [] cfg
| call
    {stores : List (Nat × UInt8)}
    {cfg₁ cfg₂ : Config}
    {act : Act}
    {events : List Event}
    (hUses : Uses y cfg stores cfg₁)
    (hCall : act ≠ .other)
    (hKept : act ≠ .kfree y.1)
    (hRegular : Regular cfg₁.heap act)
    (hDoes : Does cfg₁ act events cfg₂) :
    Uses y cfg stores cfg₂
| own
    {stores : List (Nat × UInt8)}
    {cfg₁ : Config}
    (a : Nat)
    (b : UInt8)
    (hUses : Uses y cfg stores cfg₁)
    (hOwn : Owns y a) :
    Uses y cfg (stores ++ [(a, b)])
      ⟨cfg₁.heap.storeByte a b, cfg₁.live⟩
| foreign
    {stores : List (Nat × UInt8)}
    {cfg₁ : Config}
    (z : Nat × Nat)
    (a : Nat)
    (b : UInt8)
    (hUses : Uses y cfg stores cfg₁)
    (hLive : z ∈ cfg₁.live)
    (hOther : z.1 ≠ y.1)
    (hOwn : Owns z a) :
    Uses y cfg stores ⟨cfg₁.heap.storeByte a b, cfg₁.live⟩
| supply
    {stores : List (Nat × UInt8)}
    {cfg₁ : Config}
    (frames : List Nat)
    (frameBytes : Nat → Nat → UInt8)
    (hUses : Uses y cfg stores cfg₁) :
    Uses y cfg stores
      ⟨cfg₁.heap.supply frames frameBytes, cfg₁.live⟩

/- The byte at `x` after the stores. -/
def stored
    (stores : List (Nat × UInt8))
    (first : UInt8)
    (x : Nat) : UInt8 :=
  stores.foldl (fun v s => if s.1 = x then s.2 else v) first

/- Different live allocations have no byte in common. -/
theorem Chained.owns_ne
    {y z : Nat × Nat}
    {a : Nat}
    (hChained : Chained cfg chunks stop)
    (hy : y ∈ cfg.live)
    (hz : z ∈ cfg.live)
    (hOther : z.1 ≠ y.1)
    (hx : Owns y x)
    (ha : Owns z a) :
    x ≠ a := by
  rcases hChained.owned y hy with ⟨c, hc, hcy⟩
  rcases hChained.owned z hz with ⟨d, hd, hdz⟩
  have hcx := hcy.owns hx
  have hda := hdz.owns ha
  have hcPayload := hcy.payload
  have hdPayload := hdz.payload
  rcases hChained.sound.tiled.apart hc hd with rfl | hApart
  · omega
  · omega

/-
  Along the run the heap stays in order, the allocation is
  live, and holds what its owner has stored.
-/
theorem Uses.keeps
    {y : Nat × Nat}
    {stores : List (Nat × UInt8)}
    (hUses : Uses y cfg stores cfg')
    (hChained : Chained cfg chunks stop)
    (hTrim : Trim cfg.heap stop)
    (hy : y ∈ cfg.live) :
    (∃ chunks' stop', Chained cfg' chunks' stop' ∧
        Trim cfg'.heap stop') ∧
      y ∈ cfg'.live ∧
      ∀ x, Owns y x →
        cfg'.heap.mem x = stored stores (cfg.heap.mem x) x := by
  induction hUses with
  | start =>
      exact ⟨⟨chunks, stop, hChained, hTrim⟩, hy,
        fun _ _ => rfl⟩
  | @call stores cfg₁ cfg₂ act events _ hCall hKept hRegular
      hDoes ih =>
      rcases ih with ⟨⟨chunks₁, stop₁, hChained₁, hTrim₁⟩, hy₁,
        hBytes⟩
      rcases RegularStep.chained hChained₁
        ⟨act, events, hRegular, hDoes⟩ with
        ⟨chunks₂, stop₂, hChained₂, hTrim₂⟩
      refine ⟨⟨chunks₂, stop₂, hChained₂, hTrim₂ hTrim₁⟩, ?_⟩
      cases hDoes with
      | kmalloc fuel len hLen hRun =>
          refine ⟨List.mem_cons_of_mem _ hy₁, ?_⟩
          intro x hx
          rw [← hBytes x hx]
          exact hChained₁.kmalloc_keeps hRegular.1 hRegular.2
            hy₁ hx hRun
      | kfree fuel p len hLive hRun =>
          have hNe : y ≠ (p, len) := by
            rintro rfl
            exact hKept rfl
          refine ⟨(List.mem_erase_of_ne hNe).mpr hy₁, ?_⟩
          intro x hx
          rw [← hBytes x hx]
          exact hChained₁.kfree_keeps hLive hy₁ hx hRun
      | store => exact absurd rfl hCall
      | supply => exact absurd rfl hCall
  | @own stores cfg₁ a b _ hOwn ih =>
      rcases ih with ⟨⟨chunks₁, stop₁, hChained₁, hTrim₁⟩, hy₁,
        hBytes⟩
      refine ⟨⟨chunks₁, stop₁, hChained₁.store b hy₁ hOwn,
        ⟨hTrim₁.tight, hTrim₁.mapped⟩⟩, hy₁, ?_⟩
      intro x hx
      unfold stored
      rw [List.foldl_concat]
      change (if x = a then b else cfg₁.heap.mem x) = _
      rw [hBytes x hx]
      by_cases hEq : x = a
      · rw [if_pos hEq, if_pos hEq.symm]
      · rw [if_neg hEq, if_neg (Ne.symm hEq)]
        rfl
  | @foreign stores cfg₁ z a b _ hLive hOther hOwn ih =>
      rcases ih with ⟨⟨chunks₁, stop₁, hChained₁, hTrim₁⟩, hy₁,
        hBytes⟩
      refine ⟨⟨chunks₁, stop₁, hChained₁.store b hLive hOwn,
        ⟨hTrim₁.tight, hTrim₁.mapped⟩⟩, hy₁, ?_⟩
      intro x hx
      rw [← hBytes x hx]
      exact if_neg
        (hChained₁.owns_ne hy₁ hLive hOther hx hOwn)
  | supply frames frameBytes _ ih =>
      rcases ih with ⟨⟨chunks₁, stop₁, hChained₁, hTrim₁⟩, hy₁,
        hBytes⟩
      rcases RegularStep.chained hChained₁
        ⟨.other, [], trivial, .supply frames frameBytes⟩ with
        ⟨chunks₂, stop₂, hChained₂, hTrim₂⟩
      exact ⟨⟨chunks₂, stop₂, hChained₂, hTrim₂ hTrim₁⟩, hy₁,
        hBytes⟩

/-
  In every run in which `kmalloc` splits no chunk, from the
  empty heap: as long as an allocation is live, its bytes are
  mapped, and hold what its owner has stored last; nothing
  that is done with other allocations changes them.
-/
theorem kheap_keeps_contents
    {y : Nat × Nat}
    {stores : List (Nat × UInt8)}
    (hReach : Reachable Fresh RegularStep cfg)
    (hLive : y ∈ cfg.live)
    (hUses : Uses y cfg stores cfg') :
    y ∈ cfg'.live ∧
      ∀ x, Owns y x →
        (cfg'.heap.mapping (x / PAGE_SIZE)).isSome = true ∧
          cfg'.heap.mem x =
            stored stores (cfg.heap.mem x) x := by
  rcases exists_trim hReach with
    ⟨chunks, stop, hChained, hTrim⟩
  rcases hUses.keeps hChained hTrim hLive with
    ⟨⟨chunks', stop', hChained', hTrim'⟩, hLive', hBytes⟩
  refine ⟨hLive', fun x hx => ⟨?_, hBytes x hx⟩⟩
  rcases hChained'.owned y hLive' with ⟨c, hc, hcy⟩
  have hOwned := hcy.owns hx
  have hRange := hChained'.sound.range hc
  have hStop := hChained'.sound.stopLe
  have hMax := hChained'.sound.maxLe
  have hAligned := hChained'.sound.aligned
  have hMapped := hTrim'.mapped (x / PAGE_SIZE)
  unfold Chunk.stop at hOwned
  unfold KHEAP_START at hMapped
  unfold KHEAP_END at hMapped hMax
  unfold PAGE_SIZE at *
  rw [hMapped (by omega) (by omega)]
  omega

/- Two owners store, and the first one frees. -/
def storedHeap : Heap :=
  (secondHeap.storeByte 0xF000007C 42).storeByte 0xF000000C 7

def releasedHeap : Heap :=
  EStateM.endState (kfree 2 0xF000000C) storedHeap

/- Its chunk is given to a third, who stores to it. -/
def takenHeap : Heap :=
  EStateM.endState (kmalloc 2 88) releasedHeap

def sharedHeap : Heap :=
  ((takenHeap.storeByte 0xF000000D 9).supply [] fun _ _ =>
    0xFF).storeByte 0xF000007D 43

theorem kfree_released :
    (kfree 2 0xF000000C).run storedHeap =
      .ok () releasedHeap :=
  EStateM.run_eq_of_value (by decide +kernel)

theorem kmalloc_taken :
    (kmalloc 2 88).run releasedHeap =
      .ok 0xF000000C takenHeap :=
  EStateM.run_eq_of_value (by decide +kernel)

theorem noSplit_releasedHeap : NoSplit releasedHeap 88 :=
  noSplit_of_headers [0xF0000000, 0xF0000070]
    (by decide +kernel) (by decide +kernel)
    (by decide +kernel)

def secondCfg : Config :=
  ⟨secondHeap, [(0xF000007C, 20), (0xF000000C, 100)]⟩

/- The run, for the one who has got the second chunk. -/
theorem uses_sharedHeap :
    Uses (0xF000007C, 20) secondCfg
      [(0xF000007C, 42), (0xF000007D, 43)]
      ⟨sharedHeap, [(0xF000000C, 88), (0xF000007C, 20)]⟩ := by
  rcases (Traced.kfree_traces 2 _).exists_run
    ⟨storedHeap, []⟩ kfree_released with ⟨freed, hFreed⟩
  rcases (Traced.kmalloc_traces 2 88).exists_run
    ⟨releasedHeap, []⟩ kmalloc_taken with ⟨taken, hTaken⟩
  have hOwn :
      Uses (0xF000007C, 20) secondCfg [(0xF000007C, 42)]
        ⟨secondHeap.storeByte 0xF000007C 42,
          secondCfg.live⟩ :=
    .own 0xF000007C 42 .start ⟨by decide, by decide⟩
  have hStored :
      Uses (0xF000007C, 20) secondCfg [(0xF000007C, 42)]
        ⟨storedHeap, secondCfg.live⟩ :=
    .foreign (0xF000000C, 100) 0xF000000C 7 hOwn
      (by decide) (by decide) ⟨by decide, by decide⟩
  have hFree :
      Does ⟨storedHeap, secondCfg.live⟩ (.kfree 0xF000000C)
        freed ⟨releasedHeap, [(0xF000007C, 20)]⟩ :=
    .kfree 2 0xF000000C 100 (by decide) hFreed
  have hTake :
      Does ⟨releasedHeap, [(0xF000007C, 20)]⟩ (.kmalloc 88)
        taken
        ⟨takenHeap,
          [(0xF000000C, 88), (0xF000007C, 20)]⟩ :=
    .kmalloc 2 88 (by decide) hTaken
  have hReleased :=
    hStored.call Act.noConfusion (by decide) (by trivial)
      hFree
  have hRegular : Regular releasedHeap (.kmalloc 88) :=
    ⟨by decide, noSplit_releasedHeap⟩
  have hGiven :=
    hReleased.call Act.noConfusion Act.noConfusion hRegular
      hTake
  have hShared :=
    hGiven.foreign (0xF000000C, 88) 0xF000000D 9
      (by decide) (by decide) ⟨by decide, by decide⟩
  exact (hShared.supply [] fun _ _ => 0xFF).own
    0xF000007D 43 ⟨by decide, by decide⟩

theorem kheap_keeps_contents_shared :
    (0xF000007C, 20) ∈ [(0xF000000C, 88), (0xF000007C, 20)] ∧
      ∀ x, Owns (0xF000007C, 20) x →
        (sharedHeap.mapping (x / PAGE_SIZE)).isSome = true ∧
          sharedHeap.mem x =
            stored [(0xF000007C, 42), (0xF000007D, 43)]
              (secondHeap.mem x) x :=
  kheap_keeps_contents
    (fresh_secondHeap.mono (fun _ hFresh => hFresh)
      (fun _ _ hStep => hStep.regular))
    List.mem_cons_self uses_sharedHeap

end Kheap

end SosKernel
