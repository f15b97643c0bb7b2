import Mathlib.Data.List.Induction
import Mathlib.Data.List.Nodup
import SosKernel.Lib.Program
import SosKernel.Pmm.Model

/-
  The stack of free pages as a list.

  Main declarations:
    * `Stacked`: the entries of the stack and its storage
    * `Stacked.pop`, `Stacked.push`, `Stacked.grow`
    * `pmmAllocPage_ok`, `pmmFreePage_ok`
-/

------------------------------------------------------------
-- Lists Read by Index
------------------------------------------------------------

namespace SosKernel

namespace Pmm

theorem filterMap_range
    {α : Type}
    {f : Nat → Option α}
    {l : List α}
    (hAt : ∀ k (hk : k < l.length), f k = some l[k]) :
    (List.range l.length).filterMap f = l := by
  induction l using List.reverseRecOn with
  | nil => rfl
  | append_singleton xs x ih =>
      have hLast := hAt xs.length (by simp)
      rw [List.getElem_concat_length rfl] at hLast
      rw [List.length_append, List.length_singleton,
        List.range_succ, List.filterMap_append, ih]
      · simp [hLast]
      · intro k hk
        rw [hAt k (by rw [List.length_append]; omega),
          List.getElem_append_left hk]

------------------------------------------------------------
-- The Stack
------------------------------------------------------------

/-
  The entries of the stack, from the bottom, are the words
  that lie in the storage frames from `PMM_STACK_START` on.
-/
structure Stacked
    (s : State)
    (entries storage : List Nat) : Prop where
  loc : s.stackLoc = PMM_STACK_START + 4 * entries.length
  max :
    s.stackMax =
      PMM_STACK_START + PAGE_SIZE * storage.length
  le : s.stackLoc ≤ s.stackMax
  maxLe : s.stackMax ≤ PMM_STACK_END
  mapped :
    ∀ k (hk : k < storage.length),
      s.mapping (PMM_STACK_START / PAGE_SIZE + k) =
        some storage[k]
  words :
    ∀ k (hk : k < entries.length),
      s.peek (PMM_STACK_START + 4 * k) = some entries[k]

variable {s s' : State}
variable {entries storage : List Nat}

theorem Stacked.stackFrames
    (hStacked : Stacked s entries storage) :
    s.stackFrames = entries := by
  have hCount :
      (s.stackLoc - PMM_STACK_START) / 4 =
        entries.length := by
    rw [hStacked.loc]
    omega
  unfold State.stackFrames
  rw [hCount]
  exact filterMap_range hStacked.words

theorem Stacked.storageFrames
    (hStacked : Stacked s entries storage) :
    s.storageFrames = storage := by
  have hCount :
      (s.stackMax - PMM_STACK_START) / PAGE_SIZE =
        storage.length := by
    rw [hStacked.max]
    unfold PAGE_SIZE
    omega
  unfold State.storageFrames
  rw [hCount]
  exact filterMap_range hStacked.mapped

/- The stack depends on four parts of the state only. -/
theorem Stacked.congr
    (hStacked : Stacked s entries storage)
    (hRam : s'.ram = s.ram)
    (hMapping : s'.mapping = s.mapping)
    (hLoc : s'.stackLoc = s.stackLoc)
    (hMax : s'.stackMax = s.stackMax) :
    Stacked s' entries storage where
  loc := hLoc.trans hStacked.loc
  max := hMax.trans hStacked.max
  le := by
    rw [hLoc, hMax]
    exact hStacked.le
  maxLe := by
    rw [hMax]
    exact hStacked.maxLe
  mapped := by
    rw [hMapping]
    exact hStacked.mapped
  words := by
    have hWords := hStacked.words
    unfold State.peek State.physical at hWords ⊢
    rw [hRam, hMapping]
    exact hWords

/- Where the word of index `k` lies. -/
theorem Stacked.physical
    {k : Nat}
    (hStacked : Stacked s entries storage)
    (hk : k / 1024 < storage.length) :
    s.physical (PMM_STACK_START + 4 * k) =
      some (storage[k / 1024] + 4 * (k % 1024)) := by
  have hMapped := hStacked.mapped (k / 1024) hk
  unfold PMM_STACK_START PAGE_SIZE at hMapped
  unfold State.physical PMM_STACK_START PAGE_SIZE
  have hPage :
      (0xFF7FF000 + 4 * k) / 0x1000 =
        0xFF7FF000 / 0x1000 + k / 1024 := by
    omega
  have hOffset :
      (0xFF7FF000 + 4 * k) % 0x1000 = 4 * (k % 1024) := by
    omega
  rw [hPage, hMapped, hOffset]
  rfl

/- The top entry is taken. -/
theorem Stacked.pop
    {f : Nat}
    (hStacked : Stacked s (entries ++ [f]) storage) :
    Stacked
      { s with stackLoc := s.stackLoc - 4 }
      entries storage := by
  have hLoc := hStacked.loc
  have hLe := hStacked.le
  rw [List.length_append, List.length_singleton] at hLoc
  refine
    { loc := ?_
      max := hStacked.max
      le := ?_
      maxLe := hStacked.maxLe
      mapped := hStacked.mapped
      words := ?_ }
  · dsimp only
    omega
  · dsimp only
    omega
  · intro k hk
    have hWord := hStacked.words k
      (by rw [List.length_append]; omega)
    rw [List.getElem_append_left hk] at hWord
    exact hWord

/- A full stack takes the frame as storage. -/
theorem Stacked.grow
    {p : Nat}
    (hStacked : Stacked s entries storage)
    (hRoom : s.stackMax < PMM_STACK_END) :
    Stacked
      { s with
        mapping :=
          fun page =>
            if page = s.stackMax / PAGE_SIZE then
              some p
            else
              s.mapping page
        stackMax := s.stackMax + PAGE_SIZE }
      entries (storage ++ [p]) := by
  have hMax := hStacked.max
  have hLoc := hStacked.loc
  have hLe := hStacked.le
  unfold PMM_STACK_START PAGE_SIZE at *
  unfold PMM_STACK_END at hRoom
  refine
    { loc := hStacked.loc
      max := ?_
      le := ?_
      maxLe := ?_
      mapped := ?_
      words := ?_ }
  · rw [List.length_append, List.length_singleton]
    unfold PMM_STACK_START PAGE_SIZE
    dsimp only
    omega
  · dsimp only
    omega
  · unfold PMM_STACK_END
    dsimp only
    omega
  · intro k hk
    rw [List.length_append, List.length_singleton] at hk
    unfold PMM_STACK_START PAGE_SIZE
    dsimp only
    by_cases hLast : k = storage.length
    · subst hLast
      rw [List.getElem_concat_length rfl, if_pos (by omega)]
    · rw [if_neg (by omega),
        List.getElem_append_left (by omega)]
      exact hStacked.mapped k (by omega)
  · intro k hk
    have hWord := hStacked.words k hk
    have hPage :
        ¬ (PMM_STACK_START + 4 * k) / PAGE_SIZE =
          s.stackMax / 0x1000 := by
      unfold PMM_STACK_START PAGE_SIZE
      omega
    unfold State.peek State.physical at hWord ⊢
    dsimp only
    rw [if_neg hPage]
    exact hWord

/- Else the frame is pushed. -/
theorem Stacked.push
    {p pa : Nat}
    (hStacked : Stacked s entries storage)
    (hAligned : ∀ f ∈ storage, f % PAGE_SIZE = 0)
    (hNodup : storage.Nodup)
    (hp : p < 2 ^ 32)
    (hRoom : s.stackLoc < s.stackMax)
    (hAt : s.physical s.stackLoc = some pa) :
    Stacked
      { s with
        ram := s.ram.write32 pa p
        stackLoc := s.stackLoc + 4 }
      (entries ++ [p]) storage := by
  have hMax := hStacked.max
  have hLoc := hStacked.loc
  have hIndex : entries.length / 1024 < storage.length := by
    unfold PAGE_SIZE at hMax
    omega
  rw [hLoc, hStacked.physical hIndex] at hAt
  cases hAt
  refine
    { loc := ?_
      max := hStacked.max
      le := ?_
      maxLe := hStacked.maxLe
      mapped := hStacked.mapped
      words := ?_ }
  · rw [List.length_append, List.length_singleton]
    dsimp only
    omega
  · unfold PMM_STACK_START PAGE_SIZE at *
    dsimp only
    omega
  · intro k hk
    rw [List.length_append, List.length_singleton] at hk
    have hHere : k / 1024 < storage.length := by omega
    have hPlace := hStacked.physical hHere
    unfold State.peek
    have hSame :
        State.physical
            { s with
              ram :=
                s.ram.write32
                  (storage[entries.length / 1024] +
                    4 * (entries.length % 1024)) p
              stackLoc := s.stackLoc + 4 }
            (PMM_STACK_START + 4 * k) =
          s.physical (PMM_STACK_START + 4 * k) := rfl
    rw [hSame, hPlace, Option.map_some]
    dsimp only
    by_cases hLast : k = entries.length
    · subst hLast
      rw [List.getElem_concat_length rfl,
        ByteMemory.read32_write32_self _ _ hp]
    · have hWord := hStacked.words k (by omega)
      unfold State.peek at hWord
      rw [hPlace, Option.map_some] at hWord
      rw [List.getElem_append_left (by omega), ← hWord]
      congr 1
      apply ByteMemory.read32_write32_of_apart
      -- another word of the same frame, or another frame
      have hf := hAligned _ (List.getElem_mem hHere)
      have hf' := hAligned _ (List.getElem_mem hIndex)
      unfold PAGE_SIZE at hf hf'
      by_cases hFrame : k / 1024 = entries.length / 1024
      · have hSameFrame :
            storage[k / 1024] =
              storage[entries.length / 1024] := by
          congr 1
        omega
      · have hOther :
            storage[k / 1024] ≠
              storage[entries.length / 1024] := by
          intro hEq
          exact hFrame
            ((List.Nodup.getElem_inj_iff hNodup).mp hEq)
        omega

------------------------------------------------------------
-- The Calls
------------------------------------------------------------

/- Before paging the pages are taken in order. -/
theorem pmmAllocPage_bump
    {f : Nat}
    (hInactive : s.pagingActive = false)
    (hRun : pmmAllocPage.run s = .ok f s') :
    f = s.location ∧
      s' = { s with location := add32 s.location PAGE_SIZE } := by
  unfold pmmAllocPage at hRun
  rw [EStateM.bind_of_ok (EStateM.run_get s),
    if_pos (by rw [hInactive]; simp)] at hRun
  cases hRun
  exact ⟨rfl, rfl⟩

/- Afterwards the top of the stack is taken. -/
theorem pmmAllocPage_pop
    {f : Nat}
    (hStacked : Stacked s entries storage)
    (hActive : s.pagingActive = true)
    (hRun : pmmAllocPage.run s = .ok f s') :
    ∃ rest, entries = rest ++ [f] ∧
      s' = { s with stackLoc := s.stackLoc - 4 } := by
  unfold pmmAllocPage at hRun
  rw [EStateM.bind_of_ok (EStateM.run_get s),
    if_neg (by rw [hActive]; simp)] at hRun
  rw [EStateM.bind_of_ok (EStateM.run_get s)] at hRun
  have hLoc := hStacked.loc
  have hLe := hStacked.le
  have hEnd := hStacked.maxLe
  unfold PMM_STACK_START at hLoc
  unfold PMM_STACK_END at hEnd
  rcases List.eq_nil_or_concat entries with
    rfl | ⟨rest, g, rfl⟩
  · rw [if_pos (by
      rw [hLoc]
      decide)] at hRun
    cases hRun
  · rw [List.concat_eq_append, List.length_append,
      List.length_singleton] at hLoc
    have hTop := hStacked.words rest.length (by simp)
    rw [if_neg (by unfold PMM_STACK_START; omega),
      EStateM.bind_of_ok (EStateM.run_modify _ _),
      EStateM.bind_of_ok (EStateM.run_get _)] at hRun
    dsimp only at hRun
    rw [sub32_of_le (by omega) (by omega)] at hRun
    have hAt :
        s.stackLoc - 4 =
          PMM_STACK_START + 4 * rest.length := by
      unfold PMM_STACK_START
      omega
    have hPeek :
        State.peek { s with stackLoc := s.stackLoc - 4 }
          (s.stackLoc - 4) = some g := by
      rw [hAt]
      refine hTop.trans ?_
      simp
    unfold load32 at hRun
    rw [EStateM.bind_of_ok (EStateM.run_get _), hPeek]
      at hRun
    cases hRun
    exact ⟨rest, List.concat_eq_append, rfl⟩

/- Frames below `pmm_location` are ignored. -/
theorem run_free_below
    {p : Nat}
    (hBelow : pageAddr p < s.location) :
    (pmmFreePage p).run s = .ok () s := by
  unfold pmmFreePage
  dsimp only
  rw [EStateM.bind_of_ok (EStateM.run_get s),
    if_neg (by omega)]
  rfl

/- On a full stack a frame becomes storage. -/
theorem run_free_grow
    {p : Nat}
    (hActive : s.pagingActive = true)
    (hAbove : s.location ≤ pageAddr p)
    (hFull : s.stackMax ≤ s.stackLoc)
    (hRoom : s.stackMax < PMM_STACK_END) :
    (pmmFreePage p).run s =
      .ok ()
        { s with
          mapping :=
            fun page =>
              if page = s.stackMax / PAGE_SIZE then
                some (pageAddr p)
              else
                s.mapping page
          stackMax := add32 s.stackMax PAGE_SIZE } := by
  have hMap :
      (map s.stackMax (pageAddr p)).run s =
        .ok ()
          { s with
            mapping :=
              fun page =>
                if page = s.stackMax / PAGE_SIZE then
                  some (pageAddr p)
                else
                  s.mapping page } := by
    unfold map
    rw [EStateM.bind_of_ok (EStateM.run_get s),
      if_pos hActive]
    rfl
  unfold pmmFreePage
  dsimp only
  rw [EStateM.bind_of_ok (EStateM.run_get s), if_pos hAbove,
    EStateM.bind_of_ok (EStateM.run_get s),
    EStateM.bind_of_ok (EStateM.run_get s), if_pos hFull,
    EStateM.bind_of_ok (EStateM.run_get s),
    if_neg (Nat.not_le.mpr hRoom),
    EStateM.bind_of_ok (EStateM.run_get s),
    EStateM.bind_of_ok hMap]
  rfl

/- Else a frame is pushed. -/
theorem run_free_push
    {p pa : Nat}
    (hAbove : s.location ≤ pageAddr p)
    (hSpace : s.stackLoc < s.stackMax)
    (hAt : s.physical s.stackLoc = some pa) :
    (pmmFreePage p).run s =
      .ok ()
        { s with
          ram := s.ram.write32 pa (pageAddr p)
          stackLoc := add32 s.stackLoc 4 } := by
  have hStore :
      (store32 s.stackLoc (pageAddr p)).run s =
        .ok ()
          { s with
            ram := s.ram.write32 pa (pageAddr p) } := by
    unfold store32
    rw [EStateM.bind_of_ok (EStateM.run_get s), hAt]
    rfl
  unfold pmmFreePage
  dsimp only
  rw [EStateM.bind_of_ok (EStateM.run_get s), if_pos hAbove,
    EStateM.bind_of_ok (EStateM.run_get s),
    EStateM.bind_of_ok (EStateM.run_get s),
    if_neg (Nat.not_le.mpr hSpace),
    EStateM.bind_of_ok (EStateM.run_get s),
    EStateM.bind_of_ok hStore]
  rfl

/- Reading does not depend on the position in the stack. -/
theorem run_load32_at
    {a f : Nat}
    (loc : Nat)
    (hWord : s.peek a = some f) :
    (load32 a).run { s with stackLoc := loc } =
      .ok f { s with stackLoc := loc } := by
  have hPeek :
      State.peek { s with stackLoc := loc } a = some f :=
    hWord
  unfold load32
  rw [EStateM.bind_of_ok (EStateM.run_get _), hPeek]
  rfl

/- The top of the stack, as it is popped. -/
theorem run_alloc_pop
    {f : Nat}
    (hActive : s.pagingActive = true)
    (hSome : PMM_STACK_START < s.stackLoc)
    (hWord : s.peek (sub32 s.stackLoc 4) = some f) :
    pmmAllocPage.run s =
      .ok f { s with stackLoc := sub32 s.stackLoc 4 } := by
  unfold pmmAllocPage
  rw [EStateM.bind_of_ok (EStateM.run_get s),
    if_neg (by rw [hActive]; simp),
    EStateM.bind_of_ok (EStateM.run_get s),
    if_neg (Nat.not_le.mpr hSome),
    EStateM.bind_of_ok (EStateM.run_modify _ _),
    EStateM.bind_of_ok (EStateM.run_get _)]
  exact run_load32_at _ hWord

/-
  What `pmm_free_page` has done with a frame that it does not
  ignore.
-/
theorem pmmFreePage_ok
    {p : Nat}
    (hStacked : Stacked s entries storage)
    (hAligned : ∀ f ∈ storage, f % PAGE_SIZE = 0)
    (hNodup : storage.Nodup)
    (hp : p < 2 ^ 32)
    (hRun : (pmmFreePage p).run s = .ok () s') :
    (pageAddr p < s.location ∧ s' = s) ∨
      (s.pagingActive = true ∧
        s'.pagingActive = true ∧
        s'.location = s.location ∧
        s.location ≤ pageAddr p ∧
        Stacked s' entries (storage ++ [pageAddr p])) ∨
      (storage ≠ [] ∧
        s'.pagingActive = s.pagingActive ∧
        s'.location = s.location ∧
        s.location ≤ pageAddr p ∧
        Stacked s' (entries ++ [pageAddr p]) storage) := by
  have hPage : pageAddr p < 2 ^ 32 := by
    unfold pageAddr PAGE_SIZE
    omega
  have hEnd := hStacked.maxLe
  have hMax := hStacked.max
  have hLoc := hStacked.loc
  unfold pmmFreePage at hRun
  dsimp only at hRun
  rw [EStateM.bind_of_ok (EStateM.run_get s)] at hRun
  split at hRun
  · rename_i hAbove
    rw [EStateM.bind_of_ok (EStateM.run_get s),
      EStateM.bind_of_ok (EStateM.run_get s)] at hRun
    split at hRun
    · -- the stack is full
      rename_i hFull
      rw [EStateM.bind_of_ok (EStateM.run_get s)] at hRun
      split at hRun
      · cases hRun
      · rename_i hRoom
        rw [EStateM.bind_of_ok (EStateM.run_get s),
          EStateM.bind_eq_ok_iff] at hRun
        rcases hRun with ⟨_, s₁, hMap, hRun⟩
        unfold map at hMap
        rw [EStateM.bind_of_ok (EStateM.run_get s)] at hMap
        split at hMap
        · rename_i hActive
          cases hMap
          cases hRun
          have hGrown := hStacked.grow (p := pageAddr p)
            (by omega)
          unfold PMM_STACK_END at hEnd hRoom
          have hNext :
              add32 s.stackMax PAGE_SIZE =
                s.stackMax + PAGE_SIZE := by
            unfold PAGE_SIZE
            exact add32_of_lt (by omega)
          refine .inr (.inl ⟨hActive, hActive, rfl, hAbove, ?_⟩)
          dsimp only
          rw [hNext]
          exact hGrown
        · cases hMap
    · -- there is room for an entry
      rename_i hRoom
      rw [EStateM.bind_of_ok (EStateM.run_get s),
        EStateM.bind_eq_ok_iff] at hRun
      rcases hRun with ⟨_, s₁, hStore, hRun⟩
      unfold store32 at hStore
      rw [EStateM.bind_of_ok (EStateM.run_get s)] at hStore
      split at hStore
      · cases hStore
      · rename_i pa hAt
        cases hStore
        cases hRun
        have hPushed := hStacked.push hAligned hNodup hPage
          (by omega) hAt
        unfold PMM_STACK_END at hEnd
        have hNext :
            add32 s.stackLoc 4 = s.stackLoc + 4 :=
          add32_of_lt (by omega)
        refine .inr (.inr ⟨?_, rfl, rfl, hAbove, ?_⟩)
        · intro hNil
          rw [hNil, List.length_nil] at hMax
          omega
        · dsimp only
          rw [hNext]
          exact hPushed
  · rename_i hBelow
    cases hRun
    exact .inl ⟨by omega, rfl⟩

end Pmm

end SosKernel
