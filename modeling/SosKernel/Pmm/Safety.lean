import SosKernel.Lib.Reachable
import SosKernel.Pmm.Stack

/-
  Runs of the page allocator and its callers: every page has
  one owner.

  Main declarations:
    * `Config`, `Step`, `Exclusive`
    * `Owned`: the invariant of the runs
    * `pmm_exclusive`
-/

------------------------------------------------------------
-- Runs
------------------------------------------------------------

namespace SosKernel

namespace Pmm

/-
  The allocator with the frames that its callers own, the
  frames that have been freed and not handed out since, and
  the frames of RAM it has been given.
-/
structure Config where
  state : State
  owned : List Nat
  freed : List Nat
  seeded : List Nat

/- Right after `init_pmm`. -/
def Initialised (cfg : Config) : Prop :=
  ∃ s pmmStart,
    s.pagingActive = false ∧
      s.stackLoc = PMM_STACK_START ∧
      s.stackMax = PMM_STACK_START ∧
      (initPmm pmmStart).run s = .ok () cfg.state ∧
      cfg.owned = [] ∧ cfg.freed = [] ∧ cfg.seeded = []

/- Memory and mappings, as the rest of the kernel leaves them. -/
def State.withWorld
    (s : State)
    (ram : ByteMemory)
    (mapping : Nat → Option Nat) : State :=
  { s with ram := ram, mapping := mapping }

/- The storage of the stack is left alone. -/
structure SparesStack
    (s : State)
    (ram : ByteMemory)
    (mapping : Nat → Option Nat) : Prop where
  ram :
    ∀ f ∈ s.storageFrames,
      s.ram.SameOn f (f + PAGE_SIZE) ram
  mapping :
    ∀ page, PMM_STACK_START / PAGE_SIZE ≤ page →
      page < PMM_STACK_END / PAGE_SIZE →
        mapping page = s.mapping page

/-
  A call that returned: `allowed` says in which states a page
  may be allocated, and frames are freed by their owners, or
  are RAM that the allocator has not been given yet.  Else
  paging starts, or the rest of the kernel changes memory.
-/
inductive Step
    (allowed : State → Prop) :
    Config → Config → Prop where
| alloc
    {cfg : Config}
    {f : Nat}
    {s' : State}
    (hAllowed : allowed cfg.state)
    (hRun : pmmAllocPage.run cfg.state = .ok f s') :
    Step allowed cfg
      ⟨s', f :: cfg.owned, cfg.freed.filter (· ≠ f),
        cfg.seeded⟩
| free
    {cfg : Config}
    {s' : State}
    (p : Nat)
    (hOwned : p ∈ cfg.owned)
    (hRun : (pmmFreePage p).run cfg.state = .ok () s') :
    Step allowed cfg
      ⟨s', cfg.owned.erase p, p :: cfg.freed, cfg.seeded⟩
| seed
    {cfg : Config}
    {s' : State}
    (p : Nat)
    (hWord : p < 2 ^ 32)
    (hNew : pageAddr p ∉ cfg.seeded)
    (hRun : (pmmFreePage p).run cfg.state = .ok () s') :
    Step allowed cfg
      ⟨s', cfg.owned, pageAddr p :: cfg.freed,
        pageAddr p :: cfg.seeded⟩
| activate
    {cfg : Config} :
    Step allowed cfg
      { cfg with
        state := { cfg.state with pagingActive := true } }
| world
    {cfg : Config}
    (ram : ByteMemory)
    (mapping : Nat → Option Nat)
    (hSpares : SparesStack cfg.state ram mapping) :
    Step allowed cfg
      { cfg with state := cfg.state.withWorld ram mapping }

/- A page may be allocated in every state. -/
def AnyState (_ : State) : Prop := True

/- Bump allocation does not take the last page of all. -/
def BelowTop (s : State) : Prop :=
  s.pagingActive = false →
    s.location + PAGE_SIZE < 2 ^ 32

------------------------------------------------------------
-- Exclusive Ownership
------------------------------------------------------------

/-
  No frame has two owners, every stored frame can be handed
  out, and no freed frame is lost.
-/
structure Exclusive (cfg : Config) : Prop where
  nodup :
    (cfg.state.stackFrames ++ cfg.state.storageFrames ++
      cfg.owned).Nodup
  aligned :
    ∀ f ∈ cfg.state.stackFrames,
      f % PAGE_SIZE = 0 ∧ cfg.state.location ≤ f
  kept :
    ∀ f ∈ cfg.freed, cfg.state.location ≤ f →
      f ∈ cfg.state.stackFrames ∨
        f ∈ cfg.state.storageFrames

/- The invariant of the runs. -/
structure Owned
    (cfg : Config)
    (entries storage : List Nat) : Prop where
  stacked : Stacked cfg.state entries storage
  nodup : (entries ++ storage ++ cfg.owned).Nodup
  aligned :
    ∀ f ∈ entries ++ storage ++ cfg.owned,
      f % PAGE_SIZE = 0 ∧ f < 2 ^ 32
  above :
    ∀ f ∈ entries ++ storage, cfg.state.location ≤ f
  known :
    ∀ f ∈ entries ++ storage ++ cfg.owned,
      cfg.state.location ≤ f → f ∈ cfg.seeded
  kept :
    ∀ f ∈ cfg.freed, cfg.state.location ≤ f →
      f ∈ entries ++ storage
  inactive :
    cfg.state.pagingActive = false →
      storage = [] ∧
        cfg.state.location % PAGE_SIZE = 0 ∧
        cfg.state.location < 2 ^ 32 ∧
        ∀ f ∈ cfg.owned, f < cfg.state.location

variable {cfg cfg' : Config}
variable {entries storage : List Nat}
variable {s s' : State}

/- The invariant gives exclusive ownership. -/
theorem Owned.exclusive
    (hOwned : Owned cfg entries storage) :
    Exclusive cfg := by
  have hEntries := hOwned.stacked.stackFrames
  have hStorage := hOwned.stacked.storageFrames
  refine
    { nodup := ?_
      aligned := ?_
      kept := ?_ }
  · rw [hEntries, hStorage]
    exact hOwned.nodup
  · rw [hEntries]
    intro f hf
    exact ⟨(hOwned.aligned f (by simp [hf])).1,
      hOwned.above f (by simp [hf])⟩
  · rw [hEntries, hStorage]
    intro f hf hAbove
    exact List.mem_append.mp (hOwned.kept f hf hAbove)

------------------------------------------------------------
-- Steps Keep the Invariant
------------------------------------------------------------

theorem pageAddr_of_aligned
    {p : Nat}
    (hAligned : p % PAGE_SIZE = 0) :
    pageAddr p = p := by
  unfold pageAddr
  unfold PAGE_SIZE at *
  omega

theorem Owned.alloc
    {f : Nat}
    (hOwned : Owned cfg entries storage)
    (hBelow : BelowTop cfg.state)
    (hRun : pmmAllocPage.run cfg.state = .ok f s') :
    ∃ entries',
      Owned
        ⟨s', f :: cfg.owned, cfg.freed.filter (· ≠ f),
          cfg.seeded⟩
        entries' storage := by
  cases hActive : cfg.state.pagingActive with
  | false =>
      rcases hOwned.inactive hActive with
        ⟨hNil, hLocation, hTop, hLower⟩
      have hFit := hBelow hActive
      rcases pmmAllocPage_bump hActive hRun with
        ⟨rfl, rfl⟩
      have hStorage := hOwned.stacked.max
      have hLoc := hOwned.stacked.loc
      have hLe := hOwned.stacked.le
      have hEntries : entries = [] := by
        apply List.length_eq_zero_iff.mp
        rw [hNil, List.length_nil] at hStorage
        omega
      subst hNil hEntries
      have hNext :
          add32 cfg.state.location PAGE_SIZE =
            cfg.state.location + PAGE_SIZE :=
        add32_of_lt hFit
      have hPage := hLocation
      unfold PAGE_SIZE at hFit hPage
      refine ⟨[], ?_⟩
      refine
        { stacked := ?_
          nodup := ?_
          aligned := ?_
          above := ?_
          known := ?_
          kept := ?_
          inactive := ?_ }
      · exact hOwned.stacked.congr rfl rfl rfl rfl
      · have hNodup := hOwned.nodup
        simp only [List.nil_append] at hNodup ⊢
        rw [List.nodup_cons]
        refine ⟨?_, hNodup⟩
        intro hMem
        have hLt := hLower _ hMem
        omega
      · intro g hg
        simp only [List.nil_append, List.mem_cons] at hg
        rcases hg with rfl | hg
        · exact ⟨hLocation, hTop⟩
        · exact hOwned.aligned g (by simp [hg])
      · intro g hg
        cases hg
      · intro g hg hAbove
        simp only [List.nil_append, List.mem_cons] at hg
        dsimp only at hAbove
        rw [hNext] at hAbove
        unfold PAGE_SIZE at hAbove
        rcases hg with rfl | hg
        · omega
        · have hLt := hLower g hg
          omega
      · intro g hg hAbove
        dsimp only at hAbove
        rw [hNext] at hAbove
        rw [List.mem_filter] at hg
        exact hOwned.kept g hg.1 (by omega)
      · intro _
        dsimp only
        rw [hNext]
        unfold PAGE_SIZE
        refine ⟨rfl, by omega, by omega, ?_⟩
        intro g hg
        rcases List.mem_cons.mp hg with rfl | hg
        · omega
        · have hLt := hLower g hg
          omega
  | true =>
      rcases pmmAllocPage_pop hOwned.stacked hActive hRun
        with ⟨rest, rfl, rfl⟩
      have hPerm :
          List.Perm (rest ++ storage ++ f :: cfg.owned)
            (rest ++ [f] ++ storage ++ cfg.owned) := by
        grind
      refine ⟨rest, ?_⟩
      refine
        { stacked := hOwned.stacked.pop
          nodup := ?_
          aligned := ?_
          above := ?_
          known := ?_
          kept := ?_
          inactive := ?_ }
      · exact hPerm.nodup_iff.mpr hOwned.nodup
      · intro g hg
        exact hOwned.aligned g (hPerm.mem_iff.mp hg)
      · intro g hg
        apply hOwned.above g
        simp only [List.mem_append] at hg ⊢
        tauto
      · intro g hg hAbove
        exact hOwned.known g (hPerm.mem_iff.mp hg) hAbove
      · intro g hg hAbove
        rw [List.mem_filter] at hg
        have hIn := hOwned.kept g hg.1 hAbove
        have hNe : g ≠ f := by simpa using hg.2
        simp only [List.mem_append, List.mem_singleton]
          at hIn ⊢
        tauto
      · intro hNot
        exact absurd (hNot.symm.trans hActive) (by simp)

/- A frame that no one owns joins the stack or its storage. -/
theorem Owned.join
    {p : Nat}
    {entries' storage' seeded : List Nat}
    (hOwned : Owned cfg entries storage)
    (hPage : p % PAGE_SIZE = 0 ∧ p < 2 ^ 32)
    (hFree : p ∉ entries ++ storage ++ cfg.owned)
    (hAbove : cfg.state.location ≤ p)
    (hSeeded : ∀ f ∈ cfg.seeded, f ∈ seeded)
    (hKnown : p ∈ seeded)
    (hStacked : Stacked s' entries' storage')
    (hJoin :
      List.Perm (entries' ++ storage')
        (p :: (entries ++ storage)))
    (hActive : s'.pagingActive = true)
    (hLocation : s'.location = cfg.state.location) :
    Owned ⟨s', cfg.owned, p :: cfg.freed, seeded⟩
      entries' storage' := by
  have hAll :
      List.Perm (entries' ++ storage' ++ cfg.owned)
        (p :: (entries ++ storage ++ cfg.owned)) :=
    hJoin.append_right cfg.owned
  refine
    { stacked := hStacked
      nodup := ?_
      aligned := ?_
      above := ?_
      known := ?_
      kept := ?_
      inactive := ?_ }
  · rw [hAll.nodup_iff, List.nodup_cons]
    exact ⟨hFree, hOwned.nodup⟩
  · intro f hf
    rcases List.mem_cons.mp (hAll.mem_iff.mp hf) with
      rfl | hf
    · exact hPage
    · exact hOwned.aligned f hf
  · intro f hf
    rw [hLocation]
    rcases List.mem_cons.mp (hJoin.mem_iff.mp hf) with
      rfl | hf
    · exact hAbove
    · exact hOwned.above f hf
  · intro f hf hAt
    rw [hLocation] at hAt
    rcases List.mem_cons.mp (hAll.mem_iff.mp hf) with
      rfl | hf
    · exact hKnown
    · exact hSeeded f (hOwned.known f hf hAt)
  · intro f hf hAt
    rw [hLocation] at hAt
    apply hJoin.mem_iff.mpr
    rcases List.mem_cons.mp hf with rfl | hf
    · exact List.mem_cons_self
    · exact List.mem_cons_of_mem p (hOwned.kept f hf hAt)
  · intro hNot
    exact absurd (hNot.symm.trans hActive) (by simp)

/- What `pmm_free_page` makes of a frame that no one owns. -/
theorem Owned.give
    {p : Nat}
    {seeded : List Nat}
    (hOwned : Owned cfg entries storage)
    (hWord : p < 2 ^ 32)
    (hFree :
      cfg.state.location ≤ pageAddr p →
        pageAddr p ∉ entries ++ storage ++ cfg.owned)
    (hSeeded : ∀ f ∈ cfg.seeded, f ∈ seeded)
    (hKnown :
      cfg.state.location ≤ pageAddr p →
        pageAddr p ∈ seeded)
    (hRun : (pmmFreePage p).run cfg.state = .ok () s') :
    ∃ entries' storage',
      Owned
        ⟨s', cfg.owned, pageAddr p :: cfg.freed, seeded⟩
        entries' storage' := by
  have hStorageNodup : storage.Nodup :=
    ((List.nodup_append.mp
      (List.nodup_append.mp hOwned.nodup).1).2).1
  have hPage :
      pageAddr p % PAGE_SIZE = 0 ∧ pageAddr p < 2 ^ 32 := by
    unfold pageAddr PAGE_SIZE
    omega
  rcases pmmFreePage_ok hOwned.stacked
    (fun f hf => (hOwned.aligned f (by simp [hf])).1)
    hStorageNodup hWord hRun with
    ⟨hBelow, rfl⟩ |
    ⟨_, hActive, hLocation, hAbove, hStacked⟩ |
    ⟨hNe, hActive, hLocation, hAbove, hStacked⟩
  · -- a page below `pmm_location` is ignored
    refine ⟨entries, storage, ?_⟩
    exact
      { stacked := hOwned.stacked
        nodup := hOwned.nodup
        aligned := hOwned.aligned
        above := hOwned.above
        known := fun f hf hAt =>
          hSeeded f (hOwned.known f hf hAt)
        kept := by
          intro f hf hAt
          rcases List.mem_cons.mp hf with rfl | hf
          · exact absurd hAt (Nat.not_le.mpr hBelow)
          · exact hOwned.kept f hf hAt
        inactive := hOwned.inactive }
  · refine ⟨entries, storage ++ [pageAddr p], ?_⟩
    exact hOwned.join hPage (hFree hAbove) hAbove hSeeded
      (hKnown hAbove) hStacked (by grind) hActive hLocation
  · refine ⟨entries ++ [pageAddr p], storage, ?_⟩
    have hStarted : s'.pagingActive = true := by
      cases hOld : cfg.state.pagingActive with
      | true => exact hActive.trans hOld
      | false => exact absurd (hOwned.inactive hOld).1 hNe
    exact hOwned.join hPage (hFree hAbove) hAbove hSeeded
      (hKnown hAbove) hStacked (by grind) hStarted hLocation

/- A caller gives up a frame. -/
theorem Owned.release
    (hOwned : Owned cfg entries storage)
    (p : Nat) :
    Owned { cfg with owned := cfg.owned.erase p } entries
      storage where
  stacked := hOwned.stacked
  nodup :=
    hOwned.nodup.sublist
      (List.Sublist.append_left List.erase_sublist _)
  aligned := by
    intro f hf
    apply hOwned.aligned f
    rw [List.mem_append] at hf ⊢
    exact hf.imp_right List.mem_of_mem_erase
  above := hOwned.above
  known := by
    intro f hf
    apply hOwned.known f
    rw [List.mem_append] at hf ⊢
    exact hf.imp_right List.mem_of_mem_erase
  kept := hOwned.kept
  inactive := by
    intro hInactive
    rcases hOwned.inactive hInactive with
      ⟨hStorage, hLocation, hTop, hLower⟩
    exact ⟨hStorage, hLocation, hTop, fun f hf =>
      hLower f (List.mem_of_mem_erase hf)⟩

theorem Owned.free
    {p : Nat}
    (hOwned : Owned cfg entries storage)
    (hMem : p ∈ cfg.owned)
    (hRun : (pmmFreePage p).run cfg.state = .ok () s') :
    ∃ entries' storage',
      Owned
        ⟨s', cfg.owned.erase p, p :: cfg.freed, cfg.seeded⟩
        entries' storage' := by
  have hPage := hOwned.aligned p (by simp [hMem])
  have hSame := pageAddr_of_aligned hPage.1
  have hApart :
      p ∉ entries ++ storage ++ cfg.owned.erase p := by
    have hNodup := hOwned.nodup
    rw [List.nodup_append] at hNodup
    rcases hNodup with ⟨_, hOwnedNodup, hApart⟩
    rw [List.mem_append]
    rintro (hStack | hErased)
    · exact hApart p hStack p hMem rfl
    · exact hOwnedNodup.not_mem_erase hErased
  have hGive := (hOwned.release p).give hPage.2
    (by
      rw [hSame]
      exact fun _ => hApart)
    (fun _ hf => hf)
    (by
      rw [hSame]
      exact hOwned.known p (by simp [hMem]))
    hRun
  rw [hSame] at hGive
  exact hGive

theorem Owned.seed
    {p : Nat}
    (hOwned : Owned cfg entries storage)
    (hWord : p < 2 ^ 32)
    (hNew : pageAddr p ∉ cfg.seeded)
    (hRun : (pmmFreePage p).run cfg.state = .ok () s') :
    ∃ entries' storage',
      Owned
        ⟨s', cfg.owned, pageAddr p :: cfg.freed,
          pageAddr p :: cfg.seeded⟩
        entries' storage' := by
  apply hOwned.give hWord _ _ _ hRun
  · intro hAbove hMem
    exact hNew (hOwned.known _ hMem hAbove)
  · intro f hf
    exact List.mem_cons_of_mem _ hf
  · intro _
    exact List.mem_cons_self

/- What lies in the storage depends on the storage only. -/
theorem Owned.world
    {ram : ByteMemory}
    {mapping : Nat → Option Nat}
    (hOwned : Owned cfg entries storage)
    (hSpares : SparesStack cfg.state ram mapping) :
    Owned
      { cfg with state := cfg.state.withWorld ram mapping }
      entries storage := by
  have hStacked := hOwned.stacked
  have hStorage := hStacked.storageFrames
  have hLoc := hStacked.loc
  have hMax := hStacked.max
  have hLe := hStacked.le
  have hEnd := hStacked.maxLe
  have hPages :
      ∀ k, k < storage.length →
        mapping (PMM_STACK_START / PAGE_SIZE + k) =
          cfg.state.mapping
            (PMM_STACK_START / PAGE_SIZE + k) := by
    intro k hk
    unfold PMM_STACK_START PAGE_SIZE at hMax
    unfold PMM_STACK_END at hEnd
    apply hSpares.mapping
    · omega
    · unfold PMM_STACK_START PMM_STACK_END PAGE_SIZE
      omega
  refine
    { stacked := ?_
      nodup := hOwned.nodup
      aligned := hOwned.aligned
      above := hOwned.above
      known := hOwned.known
      kept := hOwned.kept
      inactive := hOwned.inactive }
  have hMapped :
      ∀ k (hk : k < storage.length),
        mapping (PMM_STACK_START / PAGE_SIZE + k) =
          some storage[k] := by
    intro k hk
    rw [hPages k hk]
    exact hStacked.mapped k hk
  refine
    { loc := hLoc
      max := hMax
      le := hLe
      maxLe := hEnd
      mapped := hMapped
      words := ?_ }
  intro k hk
  have hIndex : k / 1024 < storage.length := by
    unfold PMM_STACK_START PAGE_SIZE at *
    omega
  have hWord := hStacked.words k hk
  have hFrame := hSpares.ram (storage[k / 1024]) (by
    rw [hStorage]
    exact List.getElem_mem hIndex)
  have hPlace := hStacked.physical hIndex
  have hPlace' :
      (cfg.state.withWorld ram mapping).physical
          (PMM_STACK_START + 4 * k) =
        cfg.state.physical (PMM_STACK_START + 4 * k) := by
    have hPage :
        (PMM_STACK_START + 4 * k) / PAGE_SIZE =
          PMM_STACK_START / PAGE_SIZE + k / 1024 := by
      unfold PMM_STACK_START PAGE_SIZE
      omega
    unfold State.physical
    rw [hPage]
    exact congrArg _ (hPages _ hIndex)
  unfold State.peek at hWord ⊢
  rw [hPlace', hPlace, Option.map_some]
  rw [hPlace, Option.map_some] at hWord
  refine Eq.trans ?_ hWord
  congr 1
  unfold PAGE_SIZE at hFrame
  exact hFrame.read32 (by omega) (by omega)

theorem Initialised.owned
    (hStart : Initialised cfg) :
    Owned cfg [] [] := by
  rcases cfg with ⟨state, owned, freed, seeded⟩
  rcases hStart with
    ⟨s, pmmStart, hActive, hLoc, hMax, hRun, hOwned,
      hFreed, hSeeded⟩
  dsimp only at hRun hOwned hFreed hSeeded
  cases hRun
  refine
    { stacked := ?_
      nodup := ?_
      aligned := ?_
      above := ?_
      known := ?_
      kept := ?_
      inactive := ?_ }
  · exact
      { loc := hLoc
        max := hMax
        le := Nat.le_of_eq (hLoc.trans hMax.symm)
        maxLe := by
          dsimp only
          rw [hMax]
          decide
        mapped := fun k hk => absurd hk (Nat.not_lt_zero k)
        words := fun k hk => absurd hk (Nat.not_lt_zero k) }
  · rw [hOwned]
    exact List.nodup_nil
  · rw [hOwned]
    intro f hf
    cases hf
  · intro f hf
    cases hf
  · rw [hOwned]
    intro f hf
    cases hf
  · rw [hFreed]
    intro f hf
    cases hf
  · intro _
    dsimp only
    rw [hOwned]
    unfold pageAddr add32 PAGE_SIZE
    refine ⟨rfl, by omega, by omega, ?_⟩
    intro f hf
    cases hf

/- Every step keeps the invariant. -/
theorem Owned.step
    (hOwned : Owned cfg entries storage)
    (hStep : Step BelowTop cfg cfg') :
    ∃ entries' storage', Owned cfg' entries' storage' := by
  cases hStep with
  | alloc hAllowed hRun =>
      rcases hOwned.alloc hAllowed hRun with
        ⟨entries', hOwned'⟩
      exact ⟨entries', storage, hOwned'⟩
  | free p hMem hRun => exact hOwned.free hMem hRun
  | seed p hWord hNew hRun =>
      exact hOwned.seed hWord hNew hRun
  | activate =>
      refine ⟨entries, storage, ?_⟩
      exact
        { stacked := hOwned.stacked.congr rfl rfl rfl rfl
          nodup := hOwned.nodup
          aligned := hOwned.aligned
          above := hOwned.above
          known := hOwned.known
          kept := hOwned.kept
          inactive := fun hNot => absurd hNot (by simp) }
  | world ram mapping hSpares =>
      exact ⟨entries, storage, hOwned.world hSpares⟩

/-
  In every run in which bump allocation stays below the last
  page, every frame has one owner and no freed one is lost.
-/
theorem pmm_exclusive
    (hReach :
      Reachable Initialised (Step BelowTop) cfg) :
    Exclusive cfg := by
  have hOwned :
      ∃ entries storage, Owned cfg entries storage := by
    apply hReach.invariant
    · intro cfg hStart
      exact ⟨[], [], Initialised.owned hStart⟩
    · rintro cfg cfg' _ ⟨entries, storage, hOwned⟩ hStep
      exact Owned.step hOwned hStep
  rcases hOwned with ⟨entries, storage, hOwned⟩
  exact hOwned.exclusive

------------------------------------------------------------
-- Two Small Runs
------------------------------------------------------------

/- The allocator before `init_pmm`. -/
def bootState : State where
  ram := fun _ => 0
  mapping := fun _ => none
  pagingActive := false
  stackLoc := PMM_STACK_START
  stackMax := PMM_STACK_START
  location := 0

/- After `init_pmm`, and after one page has been taken. -/
def initState (pmmStart : Nat) : State :=
  EStateM.endState (initPmm pmmStart) bootState

def bumpState (pmmStart : Nat) : State :=
  EStateM.endState pmmAllocPage (initState pmmStart)

/- Paging has started, and one frame of RAM has been given. -/
def seededState (pmmStart p : Nat) : State :=
  EStateM.endState (pmmFreePage p)
    { bumpState pmmStart with pagingActive := true }

theorem initialised_initState (pmmStart : Nat) :
    Initialised ⟨initState pmmStart, [], [], []⟩ :=
  ⟨bootState, pmmStart, rfl, rfl, rfl, rfl, rfl, rfl, rfl⟩

/-
  A second frame has been given, taken by a caller, and freed
  by it: it is pushed, popped and pushed again.
-/
def twoSeededState : State :=
  EStateM.endState (pmmFreePage 0x201000)
    (seededState 0x100000 0x200000)

def poppedState : State :=
  EStateM.endState pmmAllocPage twoSeededState

def pushedState : State :=
  EStateM.endState (pmmFreePage 0x201000) poppedState

theorem run_twoSeededState :
    (pmmFreePage 0x201000).run (seededState 0x100000 0x200000) =
      .ok () twoSeededState :=
  EStateM.run_eq_of_value (by decide)

theorem run_poppedState :
    pmmAllocPage.run twoSeededState =
      .ok 0x201000 poppedState :=
  EStateM.run_eq_of_value (by decide)

theorem run_pushedState :
    (pmmFreePage 0x201000).run poppedState =
      .ok () pushedState :=
  EStateM.run_eq_of_value (by decide)

theorem pmm_exclusive_seeded :
    twoSeededState.stackFrames = [0x201000] ∧
      poppedState.stackFrames = [] ∧
      pushedState.stackFrames = [0x201000] ∧
      Exclusive
        ⟨pushedState, [0x101000], [0x201000, 0x200000],
          [0x201000, 0x200000]⟩ :=
  ⟨by decide, by decide, by decide,
    pmm_exclusive
      (.step
        (.step
          (.step
            (.step
              (.step
                (.step
                  (.start (initialised_initState 0x100000))
                  (.alloc (fun _ => by decide)
                    (EStateM.run_eq_of_value (by decide))))
                .activate)
              (.seed 0x200000 (by decide) (by decide)
                (EStateM.run_eq_of_value (by decide))))
            (.seed 0x201000 (by decide) (by decide)
              run_twoSeededState))
          (.alloc (fun hNot => absurd hNot (by decide))
            run_poppedState))
        (.free 0x201000 (by decide) run_pushedState))⟩

/-
  The last page below 4 GiB is taken, `pmm_location` wraps
  around, and the same page is accepted as free RAM.
-/
theorem pmm_shares_last_page :
    ¬ ∀ cfg, Reachable Initialised (Step AnyState) cfg →
      Exclusive cfg := by
  intro hExclusive
  have hReach :
      Reachable Initialised (Step AnyState)
        ⟨seededState 0xFFFFE000 0xFFFFF000, [0xFFFFF000],
          [0xFFFFF000], [0xFFFFF000]⟩ :=
    .step
      (.step
        (.step (.start (initialised_initState 0xFFFFE000))
          (.alloc trivial
            (EStateM.run_eq_of_value (by decide))))
        .activate)
      (.seed 0xFFFFF000 (by decide) (by decide)
        (EStateM.run_eq_of_value (by decide)))
  have hNodup := (hExclusive _ hReach).nodup
  have hStorage :
      (seededState 0xFFFFE000 0xFFFFF000).storageFrames =
        [0xFFFFF000] := by
    decide
  rw [hStorage, List.nodup_append] at hNodup
  exact hNodup.2.2 0xFFFFF000 (by simp) 0xFFFFF000 (by simp)
    rfl

end Pmm

end SosKernel
