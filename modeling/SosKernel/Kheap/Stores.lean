import SosKernel.Kheap.Chain

/-
  Where the stores of the heap go.

  Main declarations:
    * `Runs`: runs with all their events
    * `Anchored`: the calls that store through no null pointer
    * `kheap_stores`
-/

------------------------------------------------------------
-- Runs and Calls
------------------------------------------------------------

namespace SosKernel

namespace Kheap

/- A run, with what was done in it and all its events. -/
inductive Runs (start : Config) :
    List Act → List Event → Config → Prop where
| start : Runs start [] [] start
| step
    {acts : List Act}
    {act : Act}
    {events new : List Event}
    {cfg cfg' : Config}
    (hRuns : Runs start acts events cfg)
    (hDoes : Does cfg act new cfg') :
    Runs start (acts ++ [act]) (events ++ new) cfg'

/- The length that is asked for, with the header, is a word. -/
def Act.Short : Act → Prop
| .kmalloc len => len + HEADER_SIZE < 2 ^ 32
| .kfree _ => True
| .other => True

/-
  There is a chain to extend; and a chunk that is freed is
  not the last one, or comes after an allocated one.
-/
def Anchored (h : Heap) : Act → Prop
| .kmalloc _ => h.kheapFirst ≠ 0
| .kfree p =>
    h.mem.read32 (p - HEADER_SIZE + 4) ≠ 0 ∨
      h.mem.read32 (p - HEADER_SIZE) ≠ 0 ∧
        h.mem.read32
          (h.mem.read32 (p - HEADER_SIZE) + 8) % 2 = 1
| .other => True

variable {h h' : Heap}
variable {cfg cfg' : Config}
variable {chunks chunks' xs ys : List Chunk}
variable {stop : Nat}
variable {events : List Event}

------------------------------------------------------------
-- One Call
------------------------------------------------------------

/- A store to a header of the chain is one to the heap. -/
theorem Sound.store_inHeap
    {c : Chunk}
    {i : Nat}
    (hSound : Sound h chunks stop)
    (hMem : c ∈ chunks)
    (hi : i ≤ 8) :
    (Event.store (c.addr + i) h.kheapMax true).InHeap := by
  have hRange := hSound.range hMem
  have hStop := hSound.stopLe
  refine ⟨?_, by omega, rfl⟩
  unfold KHEAP_START
  omega

/- A store below the heap is none to the heap. -/
theorem not_inHeap
    {a kheapMax : Nat}
    {mapped : Bool}
    (hMem : .store a kheapMax mapped ∈ events)
    (hLow : a < KHEAP_START) :
    ¬ InHeap events := by
  intro hIn
  have hStore := (hIn _ hMem).1
  omega

theorem inHeap_cons
    {e : Event} :
    InHeap (e :: events) ↔ e.InHeap ∧ InHeap events :=
  List.forall_mem_cons

theorem inHeap_nil : InHeap [] := by
  intro e hMem
  cases hMem

/- The stores of `kmalloc`. -/
theorem Kmalloced.inHeap_iff
    {len p : Nat}
    (hSound : Sound h chunks stop)
    (hDone : Kmalloced h chunks stop len p h' events) :
    InHeap events ↔ h.kheapFirst ≠ 0 := by
  have hFirst : h.kheapFirst ≠ 0 ↔ chunks ≠ [] := by
    rw [hSound.first]
    constructor
    · rintro hNe rfl
      exact hNe rfl
    · exact headAddr_ne_zero (show Sound h ([] ++ chunks) stop
        from hSound)
  rw [hFirst]
  cases hDone with
  | @reused xs ys c hChain hFits _ =>
      subst hChain
      have hc := hSound.store_inHeap
        (show c ∈ xs ++ c :: ys by simp) (Nat.le_refl 8)
      refine iff_of_true ?_ (by simp)
      simp only [inHeap_cons]
      exact ⟨trivial, hc, trivial, inHeap_nil⟩
  | @split xs ys c d hChain hFits _ =>
      subst hChain
      have hc : ∀ i, i ≤ 8 →
          (Event.store (c.addr + i) h.kheapMax
            true).InHeap :=
        fun i hi => hSound.store_inHeap (by simp) hi
      have hd : ∀ i, i ≤ 8 →
          (Event.store (d.addr + i) h.kheapMax
            true).InHeap :=
        fun i hi => hSound.store_inHeap (by simp) hi
      refine iff_of_true ?_ (by simp)
      rw [inHeap_append]
      unfold splitEvents
      simp only [inHeap_cons]
      exact ⟨⟨trivial, trivial, hd 0 (by omega),
        hd 4 (by omega), hd 8 (by omega), trivial, trivial,
        hd 8 (by omega), hc 4 (by omega), trivial,
        hc 8 (by omega), inHeap_nil⟩,
        hc 8 (by omega), trivial, inHeap_nil⟩
  | appended _ hAppended =>
      rcases hAppended.events with ⟨before, hBefore, rfl⟩
      constructor
      · rintro hIn rfl
        exact not_inHeap
          (List.mem_append_right _ List.mem_cons_self)
          (show lastAddr 0 [] + 4 < KHEAP_START by decide) hIn
      · intro hNe
        rcases List.eq_nil_or_concat chunks with
          rfl | ⟨xs, c, rfl⟩
        · exact absurd rfl hNe
        · have hc := hAppended.sound.store_inHeap
            (show c ∈ _ by simp) (show 4 ≤ 8 by omega)
          rw [List.concat_eq_append] at *
          rw [inHeap_append, lastAddr_concat]
          simp only [inHeap_cons]
          exact ⟨hBefore, hc, trivial, inHeap_nil⟩

/- The store through `next->next` finds a chunk there. -/
theorem NextGlued.inHeap
    {kheapMax : Nat}
    {c c' : Chunk}
    {ys' : List Chunk}
    (hGlued : NextGlued kheapMax c ys c' ys' events)
    (hNe : ys' ≠ [])
    (hStore :
      ∀ b, b ∈ c :: ys → ∀ i, i ≤ 8 →
        (Event.store (b.addr + i) kheapMax true).InHeap) :
    InHeap events := by
  cases hGlued with
  | last => exact absurd rfl hNe
  | allocated => exact inHeap_nil
  | @free d _ hFree =>
      cases ys' with
      | nil => exact absurd rfl hNe
      | cons e ys' =>
          have hc := hStore c (by simp)
          have he := hStore e (by simp) 0 (by omega)
          simp only [inHeap_cons]
          exact ⟨trivial, trivial, hc 8 (by omega), he,
            hc 4 (by omega), inHeap_nil⟩

/- So does the store through `next`. -/
theorem PrevGlued.inHeap
    {kheapMax : Nat}
    {c d : Chunk}
    {xs' : List Chunk}
    (hGlued : PrevGlued kheapMax ys xs d xs' c events)
    (hNe : ys ≠ [])
    (hStore :
      ∀ b, b ∈ xs ++ ys → ∀ i, i ≤ 8 →
        (Event.store (b.addr + i) kheapMax true).InHeap) :
    InHeap events := by
  cases hGlued with
  | first => exact inHeap_nil
  | allocated => exact inHeap_nil
  | @free bs c _ hFree =>
      cases ys with
      | nil => exact absurd rfl hNe
      | cons e ys =>
          have hc := hStore c (by simp)
          have he := hStore e (by simp) 0 (by omega)
          simp only [inHeap_cons]
          exact ⟨trivial, trivial, hc 8 (by omega),
            hc 4 (by omega), he, inHeap_nil⟩

/- A chunk between others is coalesced inside the heap. -/
theorem Glued.inHeap
    {kheapMax : Nat}
    {c : Chunk}
    (hGlued :
      Glued kheapMax xs (c.mark false) ys chunks' events)
    (hNe : ys ≠ [])
    (hLast : LastAllocated ys)
    (hStore :
      ∀ b, b ∈ xs ++ c :: ys → ∀ i, i ≤ 8 →
        (Event.store (b.addr + i) kheapMax true).InHeap) :
    InHeap events := by
  have hNextStore :
      ∀ b, b ∈ c.mark false :: ys → ∀ i, i ≤ 8 →
        (Event.store (b.addr + i) kheapMax true).InHeap := by
    intro b hb
    rcases List.mem_cons.mp hb with rfl | hb
    · exact hStore c (by simp)
    · exact hStore b (by simp [hb])
  cases hGlued with
  | @kept c₁ c₂ d xs₂ ys₁ next prev hNext hPrev =>
      rw [inHeap_append]
      refine ⟨hNext.inHeap (by simp) hNextStore,
        hPrev.inHeap (by simp) ?_⟩
      intro b hb
      have hRest : b ∈ xs ∨ b ∈ ys := by
        rcases List.mem_append.mp hb with hb | hb
        · exact .inl hb
        · refine .inr ?_
          cases hNext with
          | allocated => exact hb
          | free => exact List.mem_cons_of_mem _ hb
      rcases hRest with hb | hb
      · exact hStore b (by simp [hb])
      · exact hStore b (by simp [hb])
  | dropped hNext _ =>
      -- a free last chunk after `c` is excluded
      cases hNext with
      | last => exact absurd rfl hNe
      | @free d _ hFree =>
          have hAllocated := hLast d (by simp)
          rw [hFree] at hAllocated
          cases hAllocated

/- The last chunk is coalesced inside the heap, or not. -/
theorem Glued.inHeap_last
    {kheapMax : Nat}
    {c : Chunk}
    (hGlued :
      Glued kheapMax xs (c.mark false) [] chunks' events)
    (hStore :
      ∀ b, b ∈ xs → ∀ i, i ≤ 8 →
        (Event.store (b.addr + i) kheapMax true).InHeap) :
    InHeap events ↔ xs ≠ [] ∧ LastAllocated xs := by
  cases hGlued with
  | kept hNext _ => cases hNext
  | dropped hNext hPrev =>
      cases hNext
      cases hPrev with
      | first =>
          refine iff_of_false ?_ (by simp)
          exact not_inHeap
            (List.mem_append_right _ List.mem_cons_self)
            (show lastAddr 0 [] + 4 < KHEAP_START by decide)
      | @allocated bs b _ hAllocated =>
          refine iff_of_true ?_
            ⟨by simp, by simpa [LastAllocated] using hAllocated⟩
          rw [lastAddr_concat]
          simp only [List.nil_append, inHeap_cons]
          exact ⟨hStore b (by simp) 4 (by omega), inHeap_nil⟩
      | @free bs b _ hFree =>
          refine iff_of_false ?_ ?_
          · have hMem :
                .store (headAddr [] 0) kheapMax true ∈
                  [] ++ [Event.add b.length
                      (c.mark false).length,
                    .length (b.length + (c.mark false).length),
                    .store (b.addr + 8) kheapMax true,
                    .store (b.addr + 4) kheapMax true,
                    .store (headAddr [] 0) kheapMax true] ++
                    [.store (lastAddr 0 chunks' + 4) kheapMax
                      true] := by
              simp
            exact not_inHeap hMem
              (show headAddr [] 0 < KHEAP_START by decide)
          · rintro ⟨_, hLast⟩
            have hAllocated := hLast b (by simp)
            rw [hFree] at hAllocated
            cases hAllocated

/- The stores of `kfree`. -/
theorem Chained.kfree_inHeap_iff
    {c : Chunk}
    (hChained : Chained cfg (xs ++ c :: ys) stop)
    (hGlued :
      Glued cfg.heap.kheapMax xs (c.mark false) ys chunks'
        events) :
    InHeap (freeEvents cfg.heap.kheapMax c events) ↔
      Anchored cfg.heap (.kfree (c.addr + HEADER_SIZE)) := by
  have hSound := hChained.sound
  rcases hSound.header with ⟨hPrev, hNext, _⟩
  have hStore :
      ∀ b, b ∈ xs ++ c :: ys → ∀ i, i ≤ 8 →
        (Event.store (b.addr + i) cfg.heap.kheapMax
          true).InHeap :=
    fun b hb i hi => hSound.store_inHeap hb hi
  have hOwn :
      InHeap (freeEvents cfg.heap.kheapMax c events) ↔
        InHeap events := by
    unfold freeEvents
    rw [inHeap_append, and_iff_right]
    simp only [inHeap_cons]
    exact ⟨trivial, hStore c (by simp) 8 (by omega),
      inHeap_nil⟩
  rw [hOwn]
  unfold Anchored
  dsimp only
  rw [Nat.add_sub_cancel, hNext, hPrev]
  cases ys with
  | nil =>
      have hBefore :
          ∀ b, b ∈ xs → ∀ i, i ≤ 8 →
            (Event.store (b.addr + i) cfg.heap.kheapMax
              true).InHeap :=
        fun b hb => hStore b (by simp [hb])
      rw [hGlued.inHeap_last hBefore]
      rcases List.eq_nil_or_concat xs with rfl | ⟨bs, b, rfl⟩
      · simp
      · rw [List.concat_eq_append] at *
        have hNe := lastAddr_ne_zero hSound (by simp)
        have hSplit :
            Sound cfg.heap (bs ++ b :: [c]) stop := by
          rw [List.append_assoc] at hSound
          exact hSound
        rw [lastAddr_concat] at *
        rw [hSplit.header.2.2, b.word_mod]
        cases hBit : b.allocated <;>
          simp [LastAllocated, hBit, hNe]
  | cons d ys =>
      have hLast := hChained.last
      rw [lastAllocated_append_cons] at hLast
      have hWhole :
          Sound cfg.heap ((xs ++ [c]) ++ d :: ys) stop := by
        rw [List.append_assoc]
        exact hSound
      have hNe := headAddr_ne_zero hWhole (by simp)
      exact iff_of_true
        (hGlued.inHeap (by simp) hLast.1 hStore) (.inl hNe)

/- The stores of any call after a run without a split. -/
theorem Does.inHeap_iff
    {act : Act}
    (hChained : Chained cfg chunks stop)
    (hDoes : Does cfg act events cfg')
    (hShort : act.Short) :
    InHeap events ↔ Anchored cfg.heap act := by
  have hSound := hChained.sound
  cases hDoes with
  | kmalloc fuel len hLen hRun =>
      have hSat := kmalloc_sat fuel hSound
        (.inl hChained.last) hShort
      rw [hRun] at hSat
      rcases hSat with ⟨_, events', hTrace, hDone⟩
      dsimp only at hTrace
      rw [hTrace, inHeap_cons]
      exact (and_iff_right trivial).trans
        (hDone.inHeap_iff hSound)
  | kfree fuel p len hLive hRun =>
      rcases hChained.owned (p, len) hLive with ⟨c, hc, hcx⟩
      rcases List.append_of_mem hc with ⟨xs, ys, rfl⟩
      have hp : p = c.addr + HEADER_SIZE := hcx.payload
      have hSat := kfree_sat fuel hSound
      rw [← hp, hRun] at hSat
      rcases hSat with
        ⟨chunks', stop', events', hGlued, _, _, _, hTrace⟩
      dsimp only at hTrace
      rw [hTrace, hp]
      exact hChained.kfree_inHeap_iff hGlued
  | store => exact iff_of_true inHeap_nil trivial
  | supply => exact iff_of_true inHeap_nil trivial

------------------------------------------------------------
-- The First Call
------------------------------------------------------------

/-
  The first allocation stores through the null pointer
  `prev_header`, whatever its length.
-/
theorem kmalloc_first_store
    {fuel len p : Nat}
    (hFirst : h.kheapFirst = 0)
    (hRun :
      (Traced.kmalloc fuel len).run ⟨h, []⟩ =
        .ok p ⟨h', events⟩) :
    ¬ InHeap events := by
  unfold Traced.kmalloc at hRun
  rw [EStateM.bind_eq_ok_iff] at hRun
  rcases hRun with ⟨_, s₁, hAdd, hRun⟩
  cases hAdd
  rw [EStateM.bind_eq_ok_iff] at hRun
  rcases hRun with ⟨_, s₂, hGet, hRun⟩
  cases hGet
  rw [WithTrace.push_state, hFirst,
    EStateM.bind_eq_ok_iff] at hRun
  rcases hRun with ⟨found, s₃, hFind, hRun⟩
  have hFound : found = (0, 0) := by
    have hFind := EStateM.lift_eq_ok hFind
    cases fuel with
    | zero => cases hFind
    | succ fuel =>
        unfold findChunk at hFind
        rw [if_pos rfl] at hFind
        cases hFind
        rfl
  subst hFound
  dsimp only at hRun
  rw [if_neg (by simp)] at hRun
  unfold Traced.appendChunk at hRun
  rw [EStateM.bind_eq_ok_iff] at hRun
  rcases hRun with ⟨start, s₄, _, hRun⟩
  rw [EStateM.bind_eq_ok_iff] at hRun
  rcases hRun with ⟨_, s₅, _, hRun⟩
  rw [EStateM.bind_eq_ok_iff] at hRun
  rcases hRun with ⟨_, s₆, _, hRun⟩
  rw [EStateM.bind_eq_ok_iff] at hRun
  rcases hRun with ⟨_, s₇, _, hRun⟩
  rw [EStateM.bind_eq_ok_iff] at hRun
  rcases hRun with ⟨_, s₈, _, hRun⟩
  rw [EStateM.bind_eq_ok_iff] at hRun
  rcases hRun with ⟨_, s₉, _, hRun⟩
  rw [EStateM.bind_eq_ok_iff] at hRun
  rcases hRun with ⟨_, s', hStore, hRun⟩
  -- the store to `prev_header->next`
  have hMem := EStateM.Traces.record_mem
    (fun h : Heap => .store 4 h.kheapMax (h.isMapped 4))
    (.lift (Kheap.store32 4 start)) s₉
  have hStore :
      (EStateM.record (fun h : Heap =>
          .store 4 h.kheapMax (h.isMapped 4)) >>= fun _ =>
        EStateM.lift (Kheap.store32 4 start)).run s₉ =
          .ok () s' := hStore
  rw [hStore] at hMem
  cases hRun
  exact not_inHeap (List.mem_append_left _ hMem) (by decide)

------------------------------------------------------------
-- Whole Runs
------------------------------------------------------------

/-
  Up to the first allocation of a run the heap is empty and
  nothing is stored; from then on there is a bad store.
-/
theorem Runs.inHeap_iff
    {start : Config}
    {acts : List Act}
    (hEmpty : Empty start)
    (hRuns : Runs start acts events cfg) :
    InHeap events ↔ ∀ len, .kmalloc len ∉ acts := by
  have hBoth :
      (events = [] ∧ Empty cfg ∧ ∀ len, .kmalloc len ∉ acts) ∨
        (¬ InHeap events ∧ ∃ len, .kmalloc len ∈ acts) := by
    induction hRuns with
    | start => exact .inl ⟨rfl, hEmpty, by simp⟩
    | step hRuns hDoes ih =>
        rcases ih with ⟨rfl, hBefore, hNone⟩ | ⟨hBad, len, hMem⟩
        · cases hDoes with
          | kmalloc fuel len hLen hRun =>
              exact .inr
                ⟨kmalloc_first_store hBefore.2.1 hRun, len,
                  by simp⟩
          | kfree fuel p len hLive hRun =>
              rw [hBefore.2.2] at hLive
              cases hLive
          | store p len a b hLive hRange =>
              rw [hBefore.2.2] at hLive
              cases hLive
          | supply frames frameBytes =>
              exact .inl ⟨rfl, hBefore, by simpa using hNone⟩
        · refine .inr ⟨?_, len, List.mem_append_left _ hMem⟩
          intro hIn
          exact hBad (inHeap_append.mp hIn).1
  rcases hBoth with ⟨rfl, _, hNone⟩ | ⟨hBad, len, hMem⟩
  · exact iff_of_true inHeap_nil hNone
  · refine iff_of_false hBad ?_
    intro hNone
    exact hNone len hMem

/-
  A run from the empty heap stores to the mapped heap only
  if it makes no allocation; and after a run without a split
  the next call does so exactly if it is anchored.
-/
theorem kheap_stores
    {start cfg : Config}
    {acts : List Act}
    {events : List Event}
    (hEmpty : Empty start)
    (hRuns : Runs start acts events cfg) :
    (InHeap events ↔ ∀ len, .kmalloc len ∉ acts) ∧
      (Reachable Empty RegularStep cfg →
        ∀ act new cfg', Does cfg act new cfg' → act.Short →
          (InHeap new ↔ Anchored cfg.heap act)) := by
  refine ⟨hRuns.inHeap_iff hEmpty, ?_⟩
  intro hReach act new cfg' hDoes hShort
  rcases exists_chained hReach with ⟨chunks, stop, hChained⟩
  exact hDoes.inHeap_iff hChained hShort

/- The first call of a run, and the second. -/
theorem kheap_stores_first :
    ∃ events new,
      Runs ⟨emptyHeap, []⟩ [.kmalloc 100] events
          ⟨firstHeap, [(0xF000000C, 100)]⟩ ∧
        (InHeap events ↔
          ∀ len, .kmalloc len ∉ [Act.kmalloc 100]) ∧
        (InHeap new ↔ Anchored firstHeap (.kmalloc 20)) := by
  rcases (Traced.kmalloc_traces 2 100).exists_run
    ⟨emptyHeap, []⟩ kmalloc_first with ⟨events, hTraced⟩
  rcases (Traced.kmalloc_traces 2 20).exists_run
    ⟨firstHeap, []⟩ kmalloc_second with ⟨new, hTraced'⟩
  have hRuns :
      Runs ⟨emptyHeap, []⟩ [.kmalloc 100] events
        ⟨firstHeap, [(0xF000000C, 100)]⟩ :=
    .step .start (.kmalloc 2 100 (by decide) hTraced)
  have hDoes :
      Does ⟨firstHeap, [(0xF000000C, 100)]⟩ (.kmalloc 20)
        new
        ⟨secondHeap,
          [(0xF000007C, 20), (0xF000000C, 100)]⟩ :=
    .kmalloc 2 20 (by decide) hTraced'
  have hStores := kheap_stores fresh_emptyHeap.1 hRuns
  exact ⟨events, new, hRuns, hStores.1,
    hStores.2 regular_firstHeap _ _ _ hDoes
      (by decide : 20 + HEADER_SIZE < 2 ^ 32)⟩

/- The first allocation stores to the address 4. -/
theorem kheap_stores_low :
    ¬ ∀ start acts events cfg, Empty start →
      Runs start acts events cfg → InHeap events := by
  intro hAll
  rcases (Traced.kmalloc_traces 2 100).exists_run
    ⟨emptyHeap, []⟩ kmalloc_first with ⟨events, hTraced⟩
  have hRuns :
      Runs ⟨emptyHeap, []⟩ [.kmalloc 100] events
        ⟨firstHeap, [(0xF000000C, 100)]⟩ :=
    .step .start (.kmalloc 2 100 (by decide) hTraced)
  exact kmalloc_first_store rfl hTraced
    (hAll _ _ _ _ fresh_emptyHeap.1 hRuns)

end Kheap

end SosKernel
