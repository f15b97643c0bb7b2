import SosKernel.Kheap.Calls

/-
  What `kmalloc` has done when it returns.

  Main declarations:
    * `Kmalloced`, `kmalloc_sat`
    * `Served`, `kmalloc_ok`
-/

------------------------------------------------------------
-- Allocating
------------------------------------------------------------

namespace SosKernel

namespace Kheap

variable {h h' : Heap}
variable {chunks chunks' : List Chunk}
variable {stop : Nat}

/- The memory after the chunk `c` has been allocated. -/
def allocMem (mem : ByteMemory) (c : Chunk) : ByteMemory :=
  mem.write32 (c.addr + 8) (mem.read32 (c.addr + 8) / 2 * 2 + 1)

/-
  What `kmalloc` has done when it returns.  The events are
  those after the first addition.
-/
inductive Kmalloced
    (h : Heap)
    (chunks : List Chunk)
    (stop len : Nat) :
    Nat → Heap → List Event → Prop where
| reused
    {xs ys : List Chunk}
    {c : Chunk}
    (hChain : chunks = xs ++ c :: ys)
    (hFits : c.Fits (len + HEADER_SIZE))
    (hNoSplit : NoSplit h len) :
    Kmalloced h chunks stop len (c.addr + HEADER_SIZE)
      (h.withMem (allocMem h.mem c))
      [.sub c.length (len + HEADER_SIZE),
        h.storeAt (c.addr + 8), .add c.addr HEADER_SIZE]
| split
    {xs ys : List Chunk}
    {c d : Chunk}
    (hChain : chunks = xs ++ c :: d :: ys)
    (hFits : c.Fits (len + HEADER_SIZE))
    (hSplit : ¬ NoSplit h len) :
    Kmalloced h chunks stop len (c.addr + HEADER_SIZE)
      (h.withMem
        (allocMem (splitMem h.mem c d (len + HEADER_SIZE)) c))
      (splitEvents h.kheapMax c d (len + HEADER_SIZE) ++
        [h.storeAt (c.addr + 8), .add c.addr HEADER_SIZE])
| appended
    {h' : Heap}
    {events : List Event}
    (hNoSplit : NoSplit h len)
    (hAppended :
      Appended h chunks stop (len + HEADER_SIZE) h' events) :
    Kmalloced h chunks stop len (stop + HEADER_SIZE) h'
      events

/- The last chunk is allocated. -/
def LastAllocated (chunks : List Chunk) : Prop :=
  ∀ c ∈ chunks.getLast?, c.allocated = true

/-
  `kmalloc` on a heap whose last chunk is allocated, or where
  it splits no chunk.
-/
theorem kmalloc_sat
    {len : Nat}
    (fuel : Nat)
    (hSound : Sound h chunks stop)
    (hLast : LastAllocated chunks ∨ NoSplit h len)
    (hLen : len + HEADER_SIZE < 2 ^ 32) :
    ((Traced.kmalloc fuel len).run ⟨h, []⟩).Sat
      (fun p s' => Fit s'.trace ∧ ∃ events,
        s'.trace = .add len HEADER_SIZE :: events ∧
          Kmalloced h chunks stop len p s'.state events)
      Stopped := by
  unfold Traced.kmalloc
  refine sat_add Fit.nil hLen (fun hFit => ?_)
  refine sat_lift hFit (fun h₀ h₁ hRun => ?_)
  cases hRun
  refine sat_lift hFit (fun found h₁ hFind => ?_)
  rcases findChunk_ok hFind (fun hNe => .first hNe) with
    ⟨rfl, hExamined⟩
  rw [hSound.first] at hFind
  have hWhole : Sound h₁ ([] ++ chunks) stop := hSound
  rcases findChunk_sound hWhole (by simp) hFind with
    ⟨rfl, hNone⟩ | ⟨bs, c, as, hChain, hFirst, hFits,
      hBefore⟩
  · -- a new last chunk
    rw [List.nil_append] at hNone
    dsimp only
    rw [if_neg (by simp)]
    refine (appendChunk_sat hSound (Nat.le_add_left _ _)
      hFit).imp ?_ ?_
    · rintro p s' ⟨rfl, hFit', events, hTrace, hAppended⟩
      exact ⟨hFit', events, hTrace,
        .appended (hSound.noSplit_of_none hNone) hAppended⟩
    · intro e s hStopped
      exact hStopped
  · -- a free chunk of the chain
    rw [List.nil_append] at hChain
    subst hChain
    rcases found with ⟨cur, prev⟩
    dsimp only at hFirst hExamined ⊢
    subst hFirst
    have hRange := hSound.range
      (show c ∈ bs ++ c :: as by simp)
    have hNe : c.addr ≠ 0 := by omega
    have hNoSplit := hSound.noSplit_iff hBefore hFits
      (hExamined hNe).1
    rw [if_pos hNe]
    rcases Nat.lt_or_ge HEADER_SIZE
        (c.length - (len + HEADER_SIZE)) with hLong | hShort
    · have hSplit : ¬ NoSplit h₁ len := by
        rw [hNoSplit]
        omega
      cases as with
      | nil =>
          rcases hLast with hLast | hLast
          · have hAllocated := hLast c (by simp)
            rw [hFits.1] at hAllocated
            cases hAllocated
          · exact absurd hLast hSplit
      | cons d as =>
          refine (splitChunk_sat_long hSound hFits.2 hLong
            hFit).bind ?_
          rintro _ _ ⟨hFit, rfl⟩
          refine sat_setAllocated hFit (fun hFit => ?_)
          refine sat_of_bind_pure
            (sat_add hFit (by unfold HEADER_SIZE; omega)
              (fun hFit => ?_))
          refine ⟨hFit, _, ?_, .split rfl hFits hSplit⟩
          simp only [List.append_assoc, List.cons_append,
            List.nil_append]
          rfl
    · refine (splitChunk_sat_short hSound hFits.2 hShort
        hFit).bind ?_
      rintro _ _ ⟨hFit, rfl⟩
      refine sat_setAllocated hFit (fun hFit => ?_)
      refine sat_of_bind_pure
        (sat_add hFit (by unfold HEADER_SIZE; omega)
          (fun hFit => ?_))
      exact ⟨hFit, _, rfl,
        .reused rfl hFits (hNoSplit.mpr hShort)⟩

/- The allocated chunks are still in the chain. -/
def Keeps (chunks chunks' : List Chunk) : Prop :=
  ∀ c ∈ chunks, c.allocated = true → c ∈ chunks'

/- The most that a call of `kmalloc` may ask for. -/
def MAX_LEN : Nat := KHEAP_END - KHEAP_START - HEADER_SIZE

/-
  `kmalloc` returned `p` for `len` bytes: the payload of an
  allocated chunk that was not allocated before.
-/
structure Served
    (chunks chunks' : List Chunk)
    (len p : Nat)
    (c : Chunk) : Prop where
  mem : c ∈ chunks'
  allocated : c.allocated = true
  payload : p = c.addr + HEADER_SIZE
  room : len + HEADER_SIZE ≤ c.length
  fresh : ∀ d ∈ chunks, d.allocated = true →
    d.addr ≠ c.addr

/- Two chunks of the chain with one address are the same. -/
theorem Sound.eq_of_addr
    {c d : Chunk}
    (hSound : Sound h chunks stop)
    (hc : c ∈ chunks)
    (hd : d ∈ chunks)
    (hAddr : c.addr = d.addr) :
    c = d := by
  have hcRange := hSound.range hc
  have hdRange := hSound.range hd
  rcases hSound.tiled.apart hc hd with hEq | hApart
  · exact hEq
  · unfold Chunk.stop at hApart
    omega

/-
  What `kmalloc` makes of the chain where it splits no chunk,
  with the chunk that holds the new allocation.
-/
inductive Serves (len : Nat) :
    List Chunk → Nat → List Chunk → Nat → Chunk → Prop where
| reused
    {xs ys : List Chunk}
    {stop : Nat}
    {c : Chunk}
    (hFits : c.Fits (len + HEADER_SIZE)) :
    Serves len (xs ++ c :: ys) stop
      (xs ++ c.mark true :: ys) stop (c.mark true)
| appended (chunks : List Chunk) (stop : Nat) :
    Serves len chunks stop
      (chunks ++ [newChunk stop (len + HEADER_SIZE)])
      (stop + (len + HEADER_SIZE))
      (newChunk stop (len + HEADER_SIZE))

/- Where `kmalloc` splits no chunk the heap is sound again. -/
theorem Kmalloced.serves
    {len p : Nat}
    {events : List Event}
    (hSound : Sound h chunks stop)
    (hNoSplit : NoSplit h len)
    (hDone : Kmalloced h chunks stop len p h' events) :
    ∃ chunks' stop' c, Serves len chunks stop chunks' stop' c ∧
      Sound h' chunks' stop' ∧
      (Trim h stop → Trim h' stop') ∧
      p = c.addr + HEADER_SIZE := by
  cases hDone with
  | @reused xs ys c hChain hFits _ =>
      subst hChain
      exact ⟨_, stop, c.mark true, .reused hFits,
        hSound.mark true,
        fun hTrim => ⟨hTrim.tight, hTrim.mapped⟩, rfl⟩
  | split _ _ hSplit => exact absurd hNoSplit hSplit
  | appended _ hAppended =>
      exact ⟨_, _, _, .appended chunks stop, hAppended.sound,
        hAppended.trim, rfl⟩

/- The allocated chunks are kept, and one more is there. -/
theorem Serves.served
    {len stop' : Nat}
    {c : Chunk}
    (hSound : Sound h chunks stop)
    (hServes : Serves len chunks stop chunks' stop' c) :
    Keeps chunks chunks' ∧
      Served chunks chunks' len (c.addr + HEADER_SIZE) c := by
  cases hServes with
  | @reused xs ys _ c hFits =>
      refine ⟨?_, ?_⟩
      · intro d hd hAllocated
        simp only [List.mem_append, List.mem_cons] at hd ⊢
        rcases hd with hd | rfl | hd
        · exact .inl hd
        · rw [hFits.1] at hAllocated
          cases hAllocated
        · exact .inr (.inr hd)
      · exact
          { mem := by simp
            allocated := rfl
            payload := rfl
            room := hFits.2
            fresh := by
              intro d hd hAllocated hAddr
              have hEq := hSound.eq_of_addr hd
                (show c ∈ xs ++ c :: ys by simp) hAddr
              rw [hEq, hFits.1] at hAllocated
              cases hAllocated }
  | appended =>
      refine ⟨?_, ?_⟩
      · intro d hd _
        exact List.mem_append_left _ hd
      · exact
          { mem := by simp
            allocated := rfl
            payload := rfl
            room := Nat.le_refl _
            fresh := by
              intro d hd _ hAddr
              have hRange := hSound.range hd
              have hAt : d.addr = stop := hAddr
              omega }

/- No other chunk becomes allocated. -/
theorem Serves.only
    {len stop' : Nat}
    {c d : Chunk}
    (hServes : Serves len chunks stop chunks' stop' c)
    (hd : d ∈ chunks') :
    d = c ∨ d ∈ chunks := by
  cases hServes with
  | reused =>
      simp only [List.mem_append, List.mem_cons] at hd ⊢
      tauto
  | appended =>
      simp only [List.mem_append, List.mem_singleton] at hd
      tauto

/- `kmalloc` that does not split keeps the heap sound. -/
theorem kmalloc_ok
    {fuel len p : Nat}
    (hSound : Sound h chunks stop)
    (hLen : len ≤ MAX_LEN)
    (hNoSplit : NoSplit h len)
    (hRun : (kmalloc fuel len).run h = .ok p h') :
    ∃ chunks' stop' c, Sound h' chunks' stop' ∧
      Keeps chunks chunks' ∧
      Served chunks chunks' len p c := by
  have hFits : len + HEADER_SIZE < 2 ^ 32 := by
    unfold MAX_LEN KHEAP_END KHEAP_START HEADER_SIZE at hLen
    unfold HEADER_SIZE
    omega
  have hSat := kmalloc_sat fuel hSound
    (.inr hNoSplit) hFits
  rcases (Traced.kmalloc_traces fuel len).sat ⟨h, []⟩ hSat
    hRun with ⟨_, _, events, _, hDone⟩
  rcases hDone.serves hSound hNoSplit with
    ⟨chunks', stop', c, hServes, hSound', _, rfl⟩
  exact ⟨chunks', stop', c, hSound', hServes.served hSound⟩

end Kheap

end SosKernel
