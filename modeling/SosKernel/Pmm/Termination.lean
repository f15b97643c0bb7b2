import SosKernel.Pmm.Collect

/-
  When `pmm_collect_pages` returns.

  Main declarations:
    * `State.room`: the frames that still fit
    * `Filled`: the part of the state that matters
    * `freeAll_returns_iff`
    * `pmm_collect_returns_iff`
    * `pmm_collect_last_page`

  The counter of the inner loop takes 32 bits, and so does
  the end that it is compared with.
-/

------------------------------------------------------------
-- The Room on the Stack
------------------------------------------------------------

namespace SosKernel

namespace Pmm

/-
  How many frames can still be freed: a page of storage takes
  itself and 1024 more.
-/
def State.room (s : State) : Nat :=
  (PMM_STACK_END - s.stackMax) / PAGE_SIZE * 1025 +
    (s.stackMax - s.stackLoc) / 4

/- What a call of `pmm_free_page` needs to find. -/
structure Filled (s : State) : Prop where
  active : s.pagingActive = true
  low : PMM_STACK_START ≤ s.stackLoc
  le : s.stackLoc ≤ s.stackMax
  maxLe : s.stackMax ≤ PMM_STACK_END
  word : s.stackLoc % 4 = 0
  page : s.stackMax % PAGE_SIZE = 0
  mapped :
    ∀ n, PMM_STACK_START / PAGE_SIZE ≤ n →
      n < s.stackMax / PAGE_SIZE → (s.mapping n).isSome = true

variable {s s' : State}
variable {p : Nat}

/- A frame that fits is taken, and takes its place. -/
theorem Filled.free
    (hFilled : Filled s)
    (hAbove : s.location ≤ pageAddr p)
    (hRoom : s.room ≠ 0) :
    ∃ s', (pmmFreePage p).run s = .ok () s' ∧ Filled s' ∧
      s'.room + 1 = s.room ∧ s'.location = s.location := by
  have hLow := hFilled.low
  have hLe := hFilled.le
  have hMaxLe := hFilled.maxLe
  have hWord := hFilled.word
  have hPage := hFilled.page
  have hMapped := hFilled.mapped
  unfold State.room at hRoom
  unfold PMM_STACK_START PMM_STACK_END PAGE_SIZE at *
  by_cases hFull : s.stackMax ≤ s.stackLoc
  · -- the frame becomes storage
    have hNotEnd : s.stackMax < PMM_STACK_END := by
      unfold PMM_STACK_END
      omega
    have hNext :
        add32 s.stackMax PAGE_SIZE = s.stackMax + 4096 := by
      unfold PAGE_SIZE
      exact add32_of_lt (by omega)
    refine ⟨_, run_free_grow hFilled.active hAbove hFull
      hNotEnd, ?_, ?_, rfl⟩
    · refine ⟨hFilled.active, hLow, ?_, ?_, hWord, ?_, ?_⟩
      · dsimp only
        omega
      · unfold PMM_STACK_END
        dsimp only
        omega
      · unfold PAGE_SIZE at hNext ⊢
        dsimp only
        omega
      · intro n hLo hHi
        unfold PMM_STACK_START PAGE_SIZE at *
        dsimp only at hHi ⊢
        split
        · rfl
        · exact hMapped n hLo (by omega)
    · unfold State.room PMM_STACK_END
      unfold PAGE_SIZE at hNext ⊢
      dsimp only
      omega
  · -- the frame is pushed
    have hNext : add32 s.stackLoc 4 = s.stackLoc + 4 :=
      add32_of_lt (by omega)
    have hSome :=
      hMapped (s.stackLoc / 4096) (by omega) (by omega)
    rcases Option.isSome_iff_exists.mp hSome with ⟨f, hf⟩
    have hAt :
        s.physical s.stackLoc =
          some (f + s.stackLoc % PAGE_SIZE) := by
      unfold State.physical PAGE_SIZE
      rw [hf]
      rfl
    refine ⟨_, run_free_push hAbove (by omega) hAt, ?_, ?_,
      rfl⟩
    · refine ⟨hFilled.active, ?_, ?_, hFilled.maxLe, ?_,
        hFilled.page, hFilled.mapped⟩
      · unfold PMM_STACK_START
        dsimp only
        omega
      · dsimp only
        omega
      · dsimp only
        omega
    · unfold State.room PMM_STACK_END PAGE_SIZE
      dsimp only
      omega

/- Without room the kernel panics. -/
theorem Filled.free_full
    (hFilled : Filled s)
    (hAbove : s.location ≤ pageAddr p)
    (hRoom : s.room = 0) :
    (pmmFreePage p).run s =
      .error (.panic "PMM Stack: out of mem for free pages.")
        s := by
  have hLow := hFilled.low
  have hLe := hFilled.le
  have hMaxLe := hFilled.maxLe
  have hWord := hFilled.word
  have hPage := hFilled.page
  have hEnds :
      s.stackMax ≤ s.stackLoc ∧
        PMM_STACK_END ≤ s.stackMax := by
    unfold State.room at hRoom
    unfold PMM_STACK_START PMM_STACK_END PAGE_SIZE at *
    omega
  unfold pmmFreePage
  dsimp only
  rw [EStateM.bind_of_ok (EStateM.run_get s), if_pos hAbove,
    EStateM.bind_of_ok (EStateM.run_get s),
    EStateM.bind_of_ok (EStateM.run_get s), if_pos hEnds.1,
    EStateM.bind_of_ok (EStateM.run_get s), if_pos hEnds.2]
  rfl

/- Pages can be freed if those that are kept fit. -/
theorem freeAll_returns_iff
    {ps : List Nat}
    (hFilled : Filled s) :
    (∃ s', (freeAll ps).run s = .ok () s') ↔
      (kept s.location ps).length ≤ s.room := by
  induction ps generalizing s with
  | nil =>
      constructor
      · intro _
        exact Nat.zero_le _
      · intro _
        exact ⟨s, rfl⟩
  | cons p ps ih =>
      rw [freeAll]
      rcases Nat.lt_or_ge (pageAddr p) s.location with
        hBelow | hAbove
      · have hKept :
            kept s.location (p :: ps) = kept s.location ps := by
          simp [kept, Nat.not_le.mpr hBelow]
        rw [EStateM.bind_of_ok (run_free_below hBelow), hKept]
        exact ih hFilled
      · have hKept :
            kept s.location (p :: ps) =
              pageAddr p :: kept s.location ps := by
          simp [kept, hAbove]
        rw [hKept, List.length_cons]
        by_cases hRoom : s.room = 0
        · rw [EStateM.bind_of_error
            (hFilled.free_full hAbove hRoom)]
          constructor
          · rintro ⟨s', hRun⟩
            cases hRun
          · intro hFits
            omega
        · rcases hFilled.free hAbove hRoom with
            ⟨s₁, hRun, hFilled₁, hRoom₁, hLocation⟩
          rw [EStateM.bind_of_ok hRun, ih hFilled₁, hLocation]
          omega

------------------------------------------------------------
-- The Loops
------------------------------------------------------------

/- A range that does not wrap around is left. -/
theorem run_collectRange
    {bound j limit : Nat}
    (hj : j < 2 ^ 32)
    (hEnd : limit ≤ 0xFFFFF000 + j % 0x1000)
    (hBound : (limit - j + 0xFFF) / 0x1000 < bound)
    (hFree : (freeAll (addresses j limit)).run s = .ok () s') :
    (collectRange bound j limit).run s = .ok () s' := by
  induction bound generalizing s j with
  | zero => omega
  | succ bound ih =>
      rw [collectRange]
      split
      · rename_i hLt
        rw [addresses_of_lt hLt, freeAll,
          EStateM.bind_eq_ok_iff] at hFree
        rcases hFree with ⟨_, s₁, hFirst, hRest⟩
        rw [EStateM.bind_of_ok hFirst,
          add32_of_lt (by omega)]
        exact ih (by omega) (by omega) (by omega) hRest
      · rename_i hLe
        rw [addresses_of_le (Nat.not_lt.mp hLe)] at hFree
        exact hFree

variable {entries : List MmapEntry}

theorem freeAll_of_append
    {xs ys : List Nat}
    (hRun : (freeAll (xs ++ ys)).run s = .ok () s') :
    ∃ sMid, (freeAll xs).run s = .ok () sMid ∧
      (freeAll ys).run sMid = .ok () s' := by
  induction xs generalizing s with
  | nil => exact ⟨s, rfl, hRun⟩
  | cons x xs ih =>
      rw [List.cons_append, freeAll, EStateM.bind_eq_ok_iff]
        at hRun
      rcases hRun with ⟨_, s₁, hFirst, hRest⟩
      rcases ih hRest with ⟨sMid, hMid, hLast⟩
      refine ⟨sMid, ?_, hLast⟩
      rw [freeAll, EStateM.bind_of_ok hFirst]
      exact hMid

/- The outer loop is left behind the last entry. -/
theorem run_collectEntries
    {bound fuel addr limit : Nat}
    {mmapAt : Nat → MmapEntry}
    (hLaid : Laid mmapAt limit addr entries)
    (hLimit : limit < 2 ^ 32)
    (hEnds : ∀ me ∈ entries, me.type = 1 → me.Ends)
    (hBound : 2 ^ 20 < bound)
    (hFuel : entries.length < fuel)
    (hFree :
      (freeAll (entries.flatMap MmapEntry.freed)).run s =
        .ok () s') :
    (collectEntries bound mmapAt fuel addr limit).run s =
      .ok () s' := by
  induction fuel generalizing s addr entries with
  | zero => omega
  | succ fuel ih =>
      rw [collectEntries]
      cases entries with
      | nil =>
          have hEnd : addr = limit := hLaid
          rw [if_neg (by omega)]
          exact hFree
      | cons me entries =>
          rcases hLaid with ⟨hAt, hRest⟩
          have hLe := hRest.le
          have hNext :
              add32 addr (add32 me.size.toNat 4) =
                addr + (me.size.toNat + 4) := by
            have hSize :
                add32 me.size.toNat 4 = me.size.toNat + 4 :=
              add32_of_lt (by omega)
            rw [hSize, add32_of_lt (by omega)]
          rw [List.flatMap_cons] at hFree
          rcases freeAll_of_append hFree with
            ⟨sMid, hFirst, hFreeRest⟩
          rw [List.length_cons] at hFuel
          have hTail :=
            ih hRest
              (fun me' hMem =>
                hEnds me' (List.mem_cons_of_mem me hMem))
              (by omega) hFreeRest
          rw [if_pos (by omega)]
          dsimp only
          rw [hAt, hNext]
          by_cases hRam : me.type = 1
          · have hEnd := hEnds me List.mem_cons_self hRam
            have hLow := me.baseAddrLow.toNat_lt
            have hTop : me.limit < 2 ^ 32 :=
              Nat.mod_lt _ (by decide)
            rw [MmapEntry.freed, if_pos hRam] at hFirst
            have hRange :=
              run_collectRange hLow hEnd
                (Nat.lt_of_le_of_lt (by omega) hBound) hFirst
            rw [if_pos hRam]
            refine (EStateM.bind_of_ok hRange).trans ?_
            exact hTail
          · rw [MmapEntry.freed, if_neg hRam] at hFirst
            cases hFirst
            rw [if_neg hRam]
            exact hTail

------------------------------------------------------------
-- The Call
------------------------------------------------------------

/- Both loops come to their end, and the call returns. -/
def CollectReturns
    (mmapAt : Nat → MmapEntry)
    (mboot : MultibootInfo)
    (s : State) : Prop :=
  ∃ s' n, ∀ bound, n ≤ bound →
    (pmmCollectPages bound mmapAt mboot).run s = .ok () s'

/- On an empty stack there is room for every frame. -/
theorem room_empty
    (hLoc : s.stackLoc = PMM_STACK_START)
    (hMax : s.stackMax = PMM_STACK_START) :
    s.room = 1024 * 1025 := by
  unfold State.room
  rw [hLoc, hMax]
  decide

theorem filled_empty
    (hActive : s.pagingActive = true)
    (hLoc : s.stackLoc = PMM_STACK_START)
    (hMax : s.stackMax = PMM_STACK_START) :
    Filled s := by
  refine ⟨hActive, ?_, ?_, ?_, ?_, ?_, ?_⟩
  · rw [hLoc]
  · rw [hLoc, hMax]
  · rw [hMax]
    decide
  · rw [hLoc]
    decide
  · rw [hMax]
    decide
  · intro n hLo hHi
    rw [hMax] at hHi
    omega

/-
  The loops end if and only if no entry of usable RAM wraps
  around and the frames that are kept fit on the stack.
-/
theorem pmm_collect_returns_iff
    {mmapAt : Nat → MmapEntry}
    {mboot : MultibootInfo}
    (hActive : s.pagingActive = true)
    (hLoc : s.stackLoc = PMM_STACK_START)
    (hMax : s.stackMax = PMM_STACK_START)
    (hInfo : mboot.mmapAddr + mboot.mmapLength < 2 ^ 32)
    (hLaid :
      Laid mmapAt (mboot.mmapAddr + mboot.mmapLength)
        mboot.mmapAddr entries) :
    CollectReturns mmapAt mboot s ↔
      (∀ me ∈ entries, me.type = 1 → me.Ends) ∧
        (entries.flatMap
          fun me => me.frames s.location).length ≤
            1024 * 1025 := by
  have hFilled := filled_empty hActive hLoc hMax
  unfold CollectReturns pmmCollectPages
  rw [add32_of_lt hInfo, ← kept_flatMap,
    ← room_empty hLoc hMax, ← freeAll_returns_iff hFilled]
  constructor
  · rintro ⟨s', n, hn⟩
    rcases collectEntries_ok hLaid hInfo (hn n (le_refl n))
      with ⟨hEnds, hFree⟩
    exact ⟨hEnds, s', hFree⟩
  · rintro ⟨hEnds, s', hFree⟩
    refine ⟨s', 2 ^ 20 + entries.length + 1, ?_⟩
    intro bound hBound
    exact run_collectEntries hLaid hInfo hEnds (by omega)
      (by omega) hFree

/- The memory map has the one entry. -/
theorem laid_oneEntry
    (base length : UInt32) :
    Laid (oneEntry base length) (0x9000 + 24) 0x9000
      [oneEntry base length 0x9000] :=
  ⟨rfl, by
    rw [Laid]
    rfl⟩

/- An entry of two aligned pages. -/
theorem pmm_collect_returns_aligned :
    CollectReturns (oneEntry 0x200000 0x2000) oneEntryInfo
      emptyState := by
  refine (pmm_collect_returns_iff rfl rfl rfl (by decide)
    (laid_oneEntry 0x200000 0x2000)).mpr ⟨?_, by decide⟩
  intro me hMem _
  rw [List.mem_singleton] at hMem
  subst hMem
  unfold MmapEntry.Ends
  decide

/-
  The entry ends at the last byte but one below 4 GiB: the
  counter wraps around before it reaches that.
-/
theorem pmm_collect_last_page :
    ¬ CollectReturns (oneEntry 0xFFFC0000 0x3FFFF) oneEntryInfo
        emptyState := by
  rintro ⟨s', n, hn⟩
  have hRun := hn n (le_refl n)
  rcases collectEntries_ok
    (laid_oneEntry 0xFFFC0000 0x3FFFF) (by decide) hRun with
    ⟨hEnds, _⟩
  have hLast := hEnds _ (List.mem_singleton.mpr rfl) rfl
  unfold MmapEntry.Ends at hLast
  exact absurd hLast (by decide)

end Pmm

end SosKernel
