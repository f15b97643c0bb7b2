import Mathlib.Data.List.Pairwise
import Mathlib.Data.List.Perm.Basic
import SosKernel.Pmm.Safety

/-
  `pmm_collect_pages`: the free pages of a memory map.

  Main declarations:
    * `MmapEntry`, `pmmCollectPages`
    * `Collected`: exactly the whole frames of usable RAM
    * `Clean`: an entry that is collected as it should be
    * `pmm_collect_iff`
    * `pmm_collects_partial_frame`

  The loop uses the low words of an entry only, and frees
  the page of every address it meets, whole or not.
-/

------------------------------------------------------------
-- The Memory Map
------------------------------------------------------------

namespace SosKernel

namespace Pmm

/- A `multiboot_memory_map_t`, with split words. -/
structure MmapEntry where
  size : UInt32
  baseAddrLow : UInt32
  baseAddrHigh : UInt32
  lengthLow : UInt32
  lengthHigh : UInt32
  type : UInt32
deriving DecidableEq, Repr

/- The fields of `multiboot_info_t` that are used. -/
structure MultibootInfo where
  mmapAddr : Nat
  mmapLength : Nat
deriving DecidableEq, Repr

/- The inner loop: free the pages from `j` to `limit`. -/
def collectRange : Nat → Nat → Nat → PmmM Unit
| 0, _, _ => throw .hang
| bound + 1, j, limit =>
    if j < limit then do
      pmmFreePage j
      collectRange bound (add32 j 0x1000) limit
    else
      pure ()

/-
  The outer loop, over the entries from the address `i` on.
  `mmapAt` gives the entry that is read at an address; the
  map itself does not lie in the pages that are freed.
-/
def collectEntries
    (bound : Nat)
    (mmapAt : Nat → MmapEntry) :
    Nat → Nat → Nat → PmmM Unit
| 0, _, _ => throw .hang
| fuel + 1, i, limit =>
    if i < limit then do
      let me := mmapAt i
      if me.type = 1 then
        collectRange bound me.baseAddrLow.toNat
          (add32 me.baseAddrLow.toNat me.lengthLow.toNat)
      collectEntries bound mmapAt fuel
        (add32 i (add32 me.size.toNat 4)) limit
    else
      pure ()

def pmmCollectPages
    (bound : Nat)
    (mmapAt : Nat → MmapEntry)
    (mboot : MultibootInfo) : PmmM Unit :=
  collectEntries bound mmapAt bound mboot.mmapAddr
    (add32 mboot.mmapAddr mboot.mmapLength)

------------------------------------------------------------
-- What Should Be Collected
------------------------------------------------------------

/- The 64-bit base address of an entry. -/
def MmapEntry.base (me : MmapEntry) : Nat :=
  me.baseAddrHigh.toNat * 2 ^ 32 + me.baseAddrLow.toNat

/- The 64-bit length of an entry. -/
def MmapEntry.length (me : MmapEntry) : Nat :=
  me.lengthHigh.toNat * 2 ^ 32 + me.lengthLow.toNat

/- The address is one of those that the entry describes. -/
def MmapEntry.Covers (me : MmapEntry) (a : Nat) : Prop :=
  me.base ≤ a ∧ a < me.base + me.length

/- The frame at `f` lies wholly inside the entry. -/
def MmapEntry.Contains (me : MmapEntry) (f : Nat) : Prop :=
  me.base ≤ f ∧ f + PAGE_SIZE ≤ me.base + me.length

/- No address is in both entries. -/
def MmapEntry.Apart (me me' : MmapEntry) : Prop :=
  ∀ a, me.Covers a → ¬ me'.Covers a

/-
  The entries lie one behind the other from `addr` to
  `limit`: the size field of each is right.
-/
def Laid
    (mmapAt : Nat → MmapEntry)
    (limit : Nat) : Nat → List MmapEntry → Prop
| addr, [] => addr = limit
| addr, me :: entries =>
    mmapAt addr = me ∧
      Laid mmapAt limit (addr + (me.size.toNat + 4)) entries

/- A frame of RAM that can be handed out. -/
structure Usable
    (location : Nat)
    (entries : List MmapEntry)
    (f : Nat) : Prop where
  aligned : f % PAGE_SIZE = 0
  below : f < 2 ^ 32
  above : location ≤ f
  inside : ∃ me ∈ entries, me.type = 1 ∧ me.Contains f

/-
  The stack and its storage consist of the usable frames,
  each of them once.
-/
structure Collected
    (location : Nat)
    (entries : List MmapEntry)
    (s : State) : Prop where
  usable :
    ∀ f ∈ s.stackFrames ++ s.storageFrames,
      Usable location entries f
  nodup : (s.stackFrames ++ s.storageFrames).Nodup
  complete :
    ∀ f, Usable location entries f →
      f ∈ s.stackFrames ++ s.storageFrames

/-
  The entry is collected as it should be.  The addresses
  `base_addr_low`, `base_addr_low + 0x1000`, .. below the
  32-bit end, when their page is not below `pmm_location`,
  have their whole page inside the entry; and the entry ends
  below 4 GiB, or has no whole page between `pmm_location`
  and 4 GiB.
-/
structure Clean (location : Nat) (me : MmapEntry) : Prop where
  whole :
    ∀ k,
      me.baseAddrLow.toNat + PAGE_SIZE * k <
        add32 me.baseAddrLow.toNat me.lengthLow.toNat →
      location ≤
        pageAddr (me.baseAddrLow.toNat + PAGE_SIZE * k) →
      me.Contains
        (pageAddr (me.baseAddrLow.toNat + PAGE_SIZE * k))
  ends :
    me.base + me.length < 2 ^ 32 ∨
      ∀ f, f % PAGE_SIZE = 0 → f < 2 ^ 32 → location ≤ f →
        ¬ me.Contains f

------------------------------------------------------------
-- The Addresses That Are Freed
------------------------------------------------------------

/- The addresses from `j` to `limit`, a page apart. -/
def addresses (j limit : Nat) : List Nat :=
  (List.range ((limit - j + 0xFFF) / 0x1000)).map fun k =>
    j + 0x1000 * k

theorem mem_addresses
    {j limit a : Nat} :
    a ∈ addresses j limit ↔
      ∃ k, a = j + 0x1000 * k ∧ a < limit := by
  unfold addresses
  rw [List.mem_map]
  constructor
  · rintro ⟨k, hk, rfl⟩
    rw [List.mem_range] at hk
    exact ⟨k, rfl, by omega⟩
  · rintro ⟨k, rfl, hLt⟩
    refine ⟨k, ?_, rfl⟩
    rw [List.mem_range]
    omega

theorem addresses_of_le
    {j limit : Nat}
    (hLe : limit ≤ j) :
    addresses j limit = [] := by
  have hCount : (limit - j + 0xFFF) / 0x1000 = 0 := by omega
  unfold addresses
  rw [hCount]
  rfl

theorem addresses_of_lt
    {j limit : Nat}
    (hLt : j < limit) :
    addresses j limit =
      j :: addresses (j + 0x1000) limit := by
  have hCount :
      (limit - j + 0xFFF) / 0x1000 =
        (limit - (j + 0x1000) + 0xFFF) / 0x1000 + 1 := by
    omega
  unfold addresses
  rw [hCount, List.range_succ_eq_map, List.map_cons,
    List.map_map]
  congr 1
  apply List.map_congr_left
  intro k _
  simp only [Function.comp]
  omega

/- Free the pages of the addresses, in order. -/
def freeAll : List Nat → PmmM Unit
| [] => pure ()
| a :: rest => do
    pmmFreePage a
    freeAll rest

variable {s s' : State}

theorem freeAll_append
    {xs ys : List Nat}
    {sMid : State}
    (hFirst : (freeAll xs).run s = .ok () sMid)
    (hRest : (freeAll ys).run sMid = .ok () s') :
    (freeAll (xs ++ ys)).run s = .ok () s' := by
  induction xs generalizing s with
  | nil =>
      cases hFirst
      exact hRest
  | cons a xs ih =>
      rw [freeAll, EStateM.bind_eq_ok_iff] at hFirst
      rcases hFirst with ⟨_, s₁, hFree, hFirst⟩
      rw [List.cons_append, freeAll, EStateM.bind_of_ok hFree]
      exact ih hFirst

/-
  A range that ends behind the last address below 4 GiB with
  the right offset is never left: the addresses wrap around.
-/
theorem collectRange_stuck
    {bound j limit : Nat}
    (hj : j < 2 ^ 32)
    (hEnd : 0xFFFFF000 + j % 0x1000 < limit) :
    (collectRange bound j limit).run s ≠ .ok () s' := by
  induction bound generalizing s j with
  | zero =>
      intro hRun
      cases hRun
  | succ bound ih =>
      intro hRun
      rw [collectRange, if_pos (by omega),
        EStateM.bind_eq_ok_iff] at hRun
      rcases hRun with ⟨_, sFree, _, hRun⟩
      have hNext : add32 j 0x1000 % 0x1000 = j % 0x1000 := by
        unfold add32
        omega
      refine ih ?_ ?_ hRun
      · exact Nat.mod_lt _ (by decide)
      · rw [hNext]
        exact hEnd

/- A range that is left has freed its addresses. -/
theorem collectRange_ok
    {bound j limit : Nat}
    (hj : j < 2 ^ 32)
    (hRun : (collectRange bound j limit).run s = .ok () s') :
    limit ≤ 0xFFFFF000 + j % 0x1000 ∧
      (freeAll (addresses j limit)).run s = .ok () s' := by
  have hEnd : limit ≤ 0xFFFFF000 + j % 0x1000 := by
    by_contra hEnd
    exact collectRange_stuck hj (Nat.not_le.mp hEnd) hRun
  refine ⟨hEnd, ?_⟩
  induction bound generalizing s j with
  | zero => cases hRun
  | succ bound ih =>
      rw [collectRange] at hRun
      split at hRun
      · rename_i hLt
        rw [EStateM.bind_eq_ok_iff] at hRun
        rcases hRun with ⟨_, sFree, hFree, hRun⟩
        rw [add32_of_lt (by omega)] at hRun
        rw [addresses_of_lt hLt, freeAll,
          EStateM.bind_of_ok hFree]
        exact ih (by omega) hRun (by omega)
      · rename_i hLe
        cases hRun
        rw [addresses_of_le (Nat.not_lt.mp hLe)]
        rfl

/- The end of an entry in 32 bits. -/
def MmapEntry.limit (me : MmapEntry) : Nat :=
  add32 me.baseAddrLow.toNat me.lengthLow.toNat

/- The addresses that an entry makes free. -/
def MmapEntry.freed (me : MmapEntry) : List Nat :=
  if me.type = 1 then
    addresses me.baseAddrLow.toNat me.limit
  else
    []

/- The addresses of the entry do not wrap around. -/
def MmapEntry.Ends (me : MmapEntry) : Prop :=
  me.limit ≤ 0xFFFFF000 + me.baseAddrLow.toNat % 0x1000

variable {entries : List MmapEntry}

theorem Laid.le
    {mmapAt : Nat → MmapEntry}
    {addr limit : Nat}
    (hLaid : Laid mmapAt limit addr entries) :
    addr ≤ limit := by
  induction entries generalizing addr with
  | nil => exact le_of_eq hLaid
  | cons me entries ih =>
      have hRest := ih hLaid.2
      omega

/-
  The outer loop frees the addresses of all the entries, and
  returns only when none of them wraps around.
-/
theorem collectEntries_ok
    {bound fuel addr limit : Nat}
    {mmapAt : Nat → MmapEntry}
    (hLaid : Laid mmapAt limit addr entries)
    (hLimit : limit < 2 ^ 32)
    (hRun :
      (collectEntries bound mmapAt fuel addr limit).run s =
        .ok () s') :
    (∀ me ∈ entries, me.type = 1 → me.Ends) ∧
      (freeAll (entries.flatMap MmapEntry.freed)).run s =
        .ok () s' := by
  induction fuel generalizing s addr entries with
  | zero => cases hRun
  | succ fuel ih =>
      rw [collectEntries] at hRun
      cases entries with
      | nil =>
          have hEnd : addr = limit := hLaid
          rw [if_neg (by omega)] at hRun
          cases hRun
          exact ⟨by simp, rfl⟩
      | cons me entries =>
          rcases hLaid with ⟨hAt, hRest⟩
          have hLe := hRest.le
          have hNext :
              add32 addr (add32 me.size.toNat 4) =
                addr + (me.size.toNat + 4) := by
            have hSize :
                add32 me.size.toNat 4 = me.size.toNat + 4 :=
              add32_of_lt (by omega)
            rw [hSize, add32_of_lt (by omega)]
          rw [if_pos (by omega)] at hRun
          dsimp only at hRun
          rw [hAt, hNext] at hRun
          have hFirst :
              ∃ sMid,
                (me.type = 1 → me.Ends) ∧
                (freeAll me.freed).run s = .ok () sMid ∧
                (collectEntries bound mmapAt fuel
                  (addr + (me.size.toNat + 4)) limit).run
                    sMid = .ok () s' := by
            by_cases hRam : me.type = 1
            · rw [if_pos hRam, EStateM.bind_eq_ok_iff]
                at hRun
              rcases hRun with ⟨_, sMid, hRange, hRun⟩
              rcases collectRange_ok
                me.baseAddrLow.toNat_lt hRange with
                ⟨hEnds, hFree⟩
              refine ⟨sMid, fun _ => hEnds, ?_, hRun⟩
              rw [MmapEntry.freed, if_pos hRam]
              exact hFree
            · rw [if_neg hRam] at hRun
              refine ⟨s, fun h => absurd h hRam, ?_, hRun⟩
              rw [MmapEntry.freed, if_neg hRam]
              rfl
          rcases hFirst with ⟨sMid, hEnds, hFree, hRun⟩
          rcases ih hRest hRun with ⟨hAll, hFreeRest⟩
          refine ⟨?_, freeAll_append hFree hFreeRest⟩
          intro me' hMem
          rcases List.mem_cons.mp hMem with rfl | hMem
          · exact hEnds
          · exact hAll me' hMem

------------------------------------------------------------
-- What Becomes of the Freed Pages
------------------------------------------------------------

/- The part of `Stacked` that survives any sequence of frees. -/
structure Storage
    (s : State)
    (storage : List Nat) : Prop where
  max :
    s.stackMax =
      PMM_STACK_START + PAGE_SIZE * storage.length
  maxLe : s.stackMax ≤ PMM_STACK_END
  mapped :
    ∀ k (hk : k < storage.length),
      s.mapping (PMM_STACK_START / PAGE_SIZE + k) =
        some storage[k]

variable {stack storage : List Nat}

theorem Stacked.stored
    (hStacked : Stacked s stack storage) :
    Storage s storage :=
  ⟨hStacked.max, hStacked.maxLe, hStacked.mapped⟩

theorem Storage.storageFrames
    (hStorage : Storage s storage) :
    s.storageFrames = storage := by
  have hCount :
      (s.stackMax - PMM_STACK_START) / PAGE_SIZE =
        storage.length := by
    rw [hStorage.max]
    unfold PAGE_SIZE
    omega
  unfold State.storageFrames
  rw [hCount]
  exact filterMap_range hStorage.mapped

/- A page of storage stays one. -/
theorem Storage.free
    {p : Nat}
    (hStorage : Storage s storage)
    (hRun : (pmmFreePage p).run s = .ok () s') :
    ∃ more, Storage s' (storage ++ more) := by
  have hMax := hStorage.max
  have hMaxLe := hStorage.maxLe
  have hSame : Storage s (storage ++ []) := by
    rw [List.append_nil]
    exact hStorage
  unfold pmmFreePage at hRun
  dsimp only at hRun
  rw [EStateM.bind_of_ok (EStateM.run_get s)] at hRun
  split at hRun
  · rw [EStateM.bind_of_ok (EStateM.run_get s),
      EStateM.bind_of_ok (EStateM.run_get s)] at hRun
    split at hRun
    · rw [EStateM.bind_of_ok (EStateM.run_get s)] at hRun
      split at hRun
      · cases hRun
      · rename_i hRoom
        rw [EStateM.bind_of_ok (EStateM.run_get s),
          EStateM.bind_eq_ok_iff] at hRun
        rcases hRun with ⟨_, s₁, hMap, hRun⟩
        unfold map at hMap
        rw [EStateM.bind_of_ok (EStateM.run_get s)] at hMap
        split at hMap
        · cases hMap
          cases hRun
          unfold PMM_STACK_START PAGE_SIZE at hMax
          unfold PMM_STACK_END at hRoom hMaxLe
          have hNext :
              add32 s.stackMax PAGE_SIZE =
                s.stackMax + PAGE_SIZE := by
            unfold PAGE_SIZE
            exact add32_of_lt (by omega)
          refine ⟨[pageAddr p], ?_, ?_, ?_⟩
          · rw [List.length_append, List.length_singleton]
            dsimp only
            rw [hNext]
            unfold PMM_STACK_START PAGE_SIZE
            omega
          · dsimp only
            rw [hNext]
            unfold PMM_STACK_END PAGE_SIZE
            omega
          · intro k hk
            rw [List.length_append, List.length_singleton]
              at hk
            unfold PMM_STACK_START PAGE_SIZE
            dsimp only
            by_cases hLast : k = storage.length
            · subst hLast
              rw [List.getElem_concat_length rfl,
                if_pos (by omega)]
            · rw [if_neg (by omega),
                List.getElem_append_left (by omega)]
              exact hStorage.mapped k (by omega)
        · cases hMap
    · rw [EStateM.bind_of_ok (EStateM.run_get s),
        EStateM.bind_eq_ok_iff] at hRun
      rcases hRun with ⟨_, s₁, hStore, hRun⟩
      unfold store32 at hStore
      rw [EStateM.bind_of_ok (EStateM.run_get s)] at hStore
      split at hStore
      · cases hStore
      · cases hStore
        cases hRun
        exact ⟨[], hSame.max, hSame.maxLe, hSame.mapped⟩
  · cases hRun
    exact ⟨[], hSame⟩

theorem Storage.freeAll
    {ps : List Nat}
    (hStorage : Storage s storage)
    (hRun : (freeAll ps).run s = .ok () s') :
    ∃ more, Storage s' (storage ++ more) := by
  induction ps generalizing s storage with
  | nil =>
      cases hRun
      refine ⟨[], ?_⟩
      rw [List.append_nil]
      exact hStorage
  | cons p ps ih =>
      rw [Pmm.freeAll, EStateM.bind_eq_ok_iff] at hRun
      rcases hRun with ⟨_, sFree, hFree, hRun⟩
      rcases hStorage.free hFree with ⟨more, hMore⟩
      rcases ih hMore hRun with ⟨rest, hRest⟩
      refine ⟨more ++ rest, ?_⟩
      rw [← List.append_assoc]
      exact hRest

/- The frames of the freed pages that are not ignored. -/
def kept (location : Nat) (ps : List Nat) : List Nat :=
  (ps.map pageAddr).filter (location ≤ ·)

/-
  After a sequence of frees the stack and its storage are
  the frames that were there and those that were kept, or a
  frame that was freed twice has become storage twice.
-/
theorem Stacked.freeAll
    {ps : List Nat}
    (hStacked : Stacked s stack storage)
    (hAligned : ∀ f ∈ storage, f % PAGE_SIZE = 0)
    (hNodup : storage.Nodup)
    (hWords : ∀ p ∈ ps, p < 2 ^ 32)
    (hRun : (freeAll ps).run s = .ok () s') :
    (s'.stackFrames ++ s'.storageFrames).Perm
        (stack ++ storage ++ kept s.location ps) ∨
      ¬ s'.storageFrames.Nodup ∧
        ¬ (stack ++ storage ++ kept s.location ps).Nodup := by
  induction ps generalizing s stack storage with
  | nil =>
      cases hRun
      left
      rw [hStacked.stackFrames, hStacked.storageFrames]
      simp [kept]
  | cons p ps ih =>
      have hRest : ∀ q ∈ ps, q < 2 ^ 32 := fun q hq =>
        hWords q (List.mem_cons_of_mem p hq)
      have hPage : pageAddr p % PAGE_SIZE = 0 := by
        unfold pageAddr PAGE_SIZE
        omega
      rw [Pmm.freeAll, EStateM.bind_eq_ok_iff] at hRun
      rcases hRun with ⟨_, sFree, hFree, hRun⟩
      rcases pmmFreePage_ok hStacked hAligned hNodup
        (hWords p List.mem_cons_self) hFree with
        ⟨hBelow, rfl⟩ |
        ⟨_, _, hLocation, hAbove, hNext⟩ |
        ⟨_, _, hLocation, hAbove, hNext⟩
      · have hIgnored :
            kept sFree.location (p :: ps) =
              kept sFree.location ps := by
          simp [kept, Nat.not_le.mpr hBelow]
        rw [hIgnored]
        exact ih hStacked hAligned hNodup hRest hRun
      · have hKept :
            kept s.location (p :: ps) =
              pageAddr p :: kept s.location ps := by
          simp [kept, hAbove]
        by_cases hNew : pageAddr p ∈ storage
        · -- the page has become storage twice
          right
          rcases hNext.stored.freeAll hRun with ⟨more, hMore⟩
          rw [hMore.storageFrames, hKept]
          constructor
          · intro hAll
            have hBoth := (List.nodup_append.mp hAll).1
            rw [List.nodup_append] at hBoth
            exact hBoth.2.2 _ hNew _
              (List.mem_singleton.mpr rfl) rfl
          · intro hAll
            exact (List.nodup_append.mp hAll).2.2 _
              (List.mem_append_right stack hNew) _
              List.mem_cons_self rfl
        · have hStep := ih hNext
            (by
              intro f hf
              rcases List.mem_append.mp hf with hf | hf
              · exact hAligned f hf
              · rw [List.mem_singleton.mp hf]
                exact hPage)
            (by
              rw [List.nodup_append]
              refine ⟨hNodup, List.nodup_singleton _, ?_⟩
              rintro f hf _ hp rfl
              rw [List.mem_singleton.mp hp] at hf
              exact hNew hf)
            hRest hRun
          have hSame :
              stack ++ (storage ++ [pageAddr p]) ++
                  kept s.location ps =
                stack ++ storage ++
                  kept s.location (p :: ps) := by
            rw [hKept]
            simp
          rw [hLocation, hSame] at hStep
          exact hStep
      · have hKept :
            kept s.location (p :: ps) =
              pageAddr p :: kept s.location ps := by
          simp [kept, hAbove]
        have hStep := ih hNext hAligned hNodup hRest hRun
        have hSame :
            (stack ++ [pageAddr p] ++ storage ++
                kept s.location ps).Perm
              (stack ++ storage ++
                kept s.location (p :: ps)) := by
          rw [hKept]
          grind
        rw [hLocation] at hStep
        refine hStep.imp (fun hPerm => hPerm.trans hSame) ?_
        exact fun hTwice =>
          ⟨hTwice.1, fun hAll => hTwice.2
            (hSame.nodup_iff.mpr hAll)⟩

------------------------------------------------------------
-- Entries and Their Frames
------------------------------------------------------------

/- The frames of an entry that are not ignored. -/
def MmapEntry.frames
    (me : MmapEntry)
    (location : Nat) : List Nat :=
  kept location me.freed

variable {me me' : MmapEntry}
variable {location f : Nat}

theorem kept_flatMap
    (location : Nat)
    (entries : List MmapEntry) :
    kept location (entries.flatMap MmapEntry.freed) =
      entries.flatMap fun me => me.frames location := by
  unfold kept MmapEntry.frames kept
  rw [List.map_flatMap, List.filter_flatMap]

theorem mem_frames :
    f ∈ me.frames location ↔
      me.type = 1 ∧ location ≤ f ∧
        ∃ k,
          me.baseAddrLow.toNat + PAGE_SIZE * k < me.limit ∧
          pageAddr (me.baseAddrLow.toNat + PAGE_SIZE * k) =
            f := by
  unfold MmapEntry.frames kept MmapEntry.freed
  rw [List.mem_filter, List.mem_map, decide_eq_true_iff]
  by_cases hRam : me.type = 1
  · rw [if_pos hRam]
    simp only [mem_addresses, PAGE_SIZE]
    constructor
    · rintro ⟨⟨a, ⟨k, rfl, hLt⟩, rfl⟩, hAbove⟩
      exact ⟨hRam, hAbove, k, hLt, rfl⟩
    · rintro ⟨_, hAbove, k, hLt, rfl⟩
      exact ⟨⟨_, ⟨k, rfl, hLt⟩, rfl⟩, hAbove⟩
  · rw [if_neg hRam]
    simp [hRam]

theorem nodup_frames
    (me : MmapEntry)
    (location : Nat) :
    (me.frames location).Nodup := by
  unfold MmapEntry.frames kept MmapEntry.freed
  apply List.Nodup.filter
  split
  · unfold addresses
    rw [List.map_map]
    apply List.Nodup.map _ List.nodup_range
    intro k k' hSame
    simp only [Function.comp, pageAddr, PAGE_SIZE] at hSame
    omega
  · exact List.nodup_nil

/- Below 4 GiB every whole frame is met. -/
theorem MmapEntry.Contains.mem_frames
    (hContains : me.Contains f)
    (hRam : me.type = 1)
    (hAligned : f % PAGE_SIZE = 0)
    (hAbove : location ≤ f)
    (hEnd : me.base + me.length < 2 ^ 32) :
    f ∈ me.frames location := by
  have hLow := me.baseAddrLow.toNat_lt
  rcases hContains with ⟨hBase, hTop⟩
  unfold MmapEntry.base MmapEntry.length at *
  unfold PAGE_SIZE at *
  have hLimit :
      me.limit =
        me.baseAddrLow.toNat + me.lengthLow.toNat :=
    add32_of_lt (by omega)
  rw [Pmm.mem_frames]
  refine ⟨hRam, hAbove,
    f / 0x1000 - me.baseAddrLow.toNat / 0x1000, ?_, ?_⟩
  · rw [hLimit]
    unfold PAGE_SIZE
    omega
  · unfold pageAddr PAGE_SIZE
    omega

/- Who has a frame and goes beyond 4 GiB has the last one. -/
theorem MmapEntry.Contains.last
    (hContains : me.Contains f)
    (hAligned : f % PAGE_SIZE = 0)
    (hBelow : f < 2 ^ 32)
    (hEnd : 2 ^ 32 ≤ me.base + me.length) :
    me.Contains 0xFFFFF000 := by
  rcases hContains with ⟨hBase, hTop⟩
  unfold MmapEntry.Contains
  unfold PAGE_SIZE at *
  omega

/- The last frame is never met, or the loop would not end. -/
theorem MmapEntry.Ends.last_not_mem
    (hEnds : me.Ends) :
    0xFFFFF000 ∉ me.frames location := by
  intro hMem
  rcases Pmm.mem_frames.mp hMem with ⟨_, _, k, hLt, hPage⟩
  unfold MmapEntry.Ends at hEnds
  unfold pageAddr PAGE_SIZE at *
  omega

/-
  The frames that are kept are the usable ones, each once,
  just when every entry of usable RAM is clean.
-/
theorem frames_iff_clean
    (hEnds : ∀ me ∈ entries, me.type = 1 → me.Ends)
    (hApart : entries.Pairwise MmapEntry.Apart) :
    ((∀ f ∈ entries.flatMap fun me => me.frames location,
        Usable location entries f) ∧
      (entries.flatMap fun me => me.frames location).Nodup ∧
      ∀ f, Usable location entries f →
        f ∈ entries.flatMap fun me => me.frames location) ↔
      ∀ me ∈ entries, me.type = 1 → Clean location me := by
  constructor
  · rintro ⟨hUsable, hNodup, hComplete⟩ me hMem hRam
    -- an entry that reaches beyond 4 GiB has no usable frame
    have hHigh :
        ∀ me' ∈ entries, me'.type = 1 →
          ∀ f, f % PAGE_SIZE = 0 → f < 2 ^ 32 →
            location ≤ f → me'.Contains f →
              me'.base + me'.length < 2 ^ 32 := by
      intro me' hMem' hRam' f hAligned hBelow hAbove hIn
      by_contra hEnd
      have hLast :=
        hIn.last hAligned hBelow (Nat.not_lt.mp hEnd)
      have hTop : f ≤ 0xFFFFF000 := by
        unfold PAGE_SIZE at hAligned
        omega
      have hFound := hComplete 0xFFFFF000
        ⟨by decide, by decide, hAbove.trans hTop,
          me', hMem', hRam', hLast⟩
      rcases List.mem_flatMap.mp hFound with
        ⟨owner, hOwner, hFrame⟩
      exact (hEnds owner hOwner
        (Pmm.mem_frames.mp hFrame).1).last_not_mem hFrame
    refine ⟨?_, ?_⟩
    · intro k hLt hAbove
      have hFrame :
          pageAddr (me.baseAddrLow.toNat + PAGE_SIZE * k) ∈
            me.frames location :=
        Pmm.mem_frames.mpr ⟨hRam, hAbove, k, hLt, rfl⟩
      have hGood := hUsable _
        (List.mem_flatMap.mpr ⟨me, hMem, hFrame⟩)
      rcases hGood.inside with ⟨me', hMem', hRam', hIn⟩
      by_cases hSame : me' = me
      · rw [← hSame]
        rw [hSame] at hIn ⊢
        exact hIn
      · -- the other entry meets the frame too
        have hOther := hIn.mem_frames hRam' hGood.aligned
          hAbove
          (hHigh me' hMem' hRam' _ hGood.aligned hGood.below
            hAbove hIn)
        have hSymm :
            Std.Symm
              (Function.onFun List.Disjoint
                fun me : MmapEntry => me.frames location) :=
          ⟨fun _ _ h _ h₁ h₂ => h h₂ h₁⟩
        have hDisjoint := (List.nodup_flatMap.mp hNodup).2
        have hApart' :=
          hDisjoint.forall hMem hMem' (Ne.symm hSame)
        exact absurd hOther (hApart' hFrame)
    · by_cases hEnd : me.base + me.length < 2 ^ 32
      · exact .inl hEnd
      · right
        intro f hAligned hBelow hAbove hIn
        exact hEnd
          (hHigh me hMem hRam f hAligned hBelow hAbove hIn)
  · intro hClean
    have hInside :
        ∀ me ∈ entries, ∀ f ∈ me.frames location,
          me.Contains f := by
      intro me hMem f hFrame
      rcases Pmm.mem_frames.mp hFrame with
        ⟨hRam, hAbove, k, hLt, rfl⟩
      exact (hClean me hMem hRam).whole k hLt hAbove
    refine ⟨?_, ?_, ?_⟩
    · intro f hf
      rcases List.mem_flatMap.mp hf with ⟨me, hMem, hFrame⟩
      rcases Pmm.mem_frames.mp hFrame with
        ⟨hRam, hAbove, k, hLt, hPage⟩
      have hLimit : me.limit < 2 ^ 32 :=
        Nat.mod_lt _ (by decide)
      refine ⟨?_, ?_, hAbove,
        me, hMem, hRam, hInside me hMem f hFrame⟩
      · rw [← hPage]
        unfold pageAddr PAGE_SIZE
        omega
      · rw [← hPage]
        unfold pageAddr PAGE_SIZE at *
        omega
    · rw [List.nodup_flatMap]
      refine ⟨fun me _ => nodup_frames me location, ?_⟩
      apply hApart.imp_of_mem
      intro me me' hMem hMem' hDisjoint f hf hf'
      have hIn := hInside me hMem f hf
      have hIn' := hInside me' hMem' f hf'
      unfold MmapEntry.Contains PAGE_SIZE at hIn hIn'
      exact hDisjoint f ⟨hIn.1, by omega⟩
        ⟨hIn'.1, by omega⟩
    · intro f hf
      rcases hf.inside with ⟨me, hMem, hRam, hIn⟩
      rcases (hClean me hMem hRam).ends with hEnd | hNone
      · exact List.mem_flatMap.mpr ⟨me, hMem,
          hIn.mem_frames hRam hf.aligned hf.above hEnd⟩
      · exact absurd hIn
          (hNone f hf.aligned hf.below hf.above)

------------------------------------------------------------
-- Collecting
------------------------------------------------------------

/-
  When the pages of a memory map have been collected onto an
  empty stack, the stack and its storage are exactly the
  usable frames, each once, if and only if every entry of
  usable RAM is clean.
-/
theorem pmm_collect_iff
    {bound : Nat}
    {mmapAt : Nat → MmapEntry}
    {mboot : MultibootInfo}
    (hLoc : s.stackLoc = PMM_STACK_START)
    (hMax : s.stackMax = PMM_STACK_START)
    (hInfo : mboot.mmapAddr + mboot.mmapLength < 2 ^ 32)
    (hLaid :
      Laid mmapAt (mboot.mmapAddr + mboot.mmapLength)
        mboot.mmapAddr entries)
    (hApart : entries.Pairwise MmapEntry.Apart)
    (hRun :
      (pmmCollectPages bound mmapAt mboot).run s =
        .ok () s') :
    Collected s.location entries s' ↔
      ∀ me ∈ entries, me.type = 1 →
        Clean s.location me := by
  have hEmpty : Stacked s [] [] :=
    { loc := hLoc
      max := hMax
      le := by rw [hLoc, hMax]
      maxLe := by
        rw [hMax]
        decide
      mapped := fun _ hk => absurd hk (Nat.not_lt_zero _)
      words := fun _ hk => absurd hk (Nat.not_lt_zero _) }
  rw [pmmCollectPages, add32_of_lt hInfo] at hRun
  rcases collectEntries_ok hLaid hInfo hRun with
    ⟨hEnds, hFree⟩
  have hWords :
      ∀ p ∈ entries.flatMap MmapEntry.freed, p < 2 ^ 32 := by
    intro p hp
    rcases List.mem_flatMap.mp hp with ⟨me, _, hFreed⟩
    unfold MmapEntry.freed at hFreed
    split at hFreed
    · rcases mem_addresses.mp hFreed with ⟨k, _, hLt⟩
      exact hLt.trans (Nat.mod_lt _ (by decide))
    · cases hFreed
  have hFrames := hEmpty.freeAll
    (fun _ hf => absurd hf List.not_mem_nil)
    List.nodup_nil hWords hFree
  rw [List.append_nil, List.nil_append, kept_flatMap]
    at hFrames
  rw [← frames_iff_clean hEnds hApart]
  rcases hFrames with hPerm | ⟨hStorage, hFrames⟩
  · constructor
    · rintro ⟨hUsable, hNodup, hComplete⟩
      refine ⟨?_, hPerm.nodup_iff.mp hNodup, ?_⟩
      · intro f hf
        exact hUsable f (hPerm.mem_iff.mpr hf)
      · intro f hf
        exact hPerm.mem_iff.mp (hComplete f hf)
    · rintro ⟨hUsable, hNodup, hComplete⟩
      refine ⟨?_, hPerm.nodup_iff.mpr hNodup, ?_⟩
      · intro f hf
        exact hUsable f (hPerm.mem_iff.mp hf)
      · intro f hf
        exact hPerm.mem_iff.mpr (hComplete f hf)
  · constructor
    · intro hCollected
      exact absurd
        (List.nodup_append.mp hCollected.nodup).2.1 hStorage
    · intro hKept
      exact absurd hKept.2.1 hFrames

------------------------------------------------------------
-- Two Memory Maps
------------------------------------------------------------

/- Paging is on, and the stack is empty. -/
def emptyState : State :=
  { bootState with
    pagingActive := true
    location := 0x101000 }

/- A map with one entry of usable RAM below 4 GiB. -/
def oneEntry (base length : UInt32) (_ : Nat) : MmapEntry where
  size := 20
  baseAddrLow := base
  baseAddrHigh := 0
  lengthLow := length
  lengthHigh := 0
  type := 1

def oneEntryInfo : MultibootInfo where
  mmapAddr := 0x9000
  mmapLength := 24

/- Two aligned pages are collected as they should be. -/
theorem pmm_collects_aligned :
    Collected 0x101000 [oneEntry 0x200000 0x2000 0x9000]
        (EStateM.endState
          (pmmCollectPages 3 (oneEntry 0x200000 0x2000)
            oneEntryInfo) emptyState) ↔
      ∀ me ∈ [oneEntry 0x200000 0x2000 0x9000],
        me.type = 1 → Clean 0x101000 me :=
  pmm_collect_iff (s := emptyState) rfl rfl (by decide)
    ⟨rfl, by rw [Laid]; decide⟩
    (List.pairwise_singleton _ _)
    (EStateM.run_eq_of_value (by decide))

/-
  The entry begins in the middle of a page: the page is
  collected, although its first half is not usable RAM.
-/
theorem pmm_collects_partial_frame :
    let s' :=
      EStateM.endState
        (pmmCollectPages 3 (oneEntry 0x200800 0x1000)
          oneEntryInfo) emptyState
    (pmmCollectPages 3 (oneEntry 0x200800 0x1000)
        oneEntryInfo).run emptyState = .ok () s' ∧
      0x200000 ∈ s'.storageFrames ∧
      ¬ Collected 0x101000 [oneEntry 0x200800 0x1000 0x9000]
        s' := by
  intro s'
  have hFrame : 0x200000 ∈ s'.storageFrames := by decide
  refine ⟨EStateM.run_eq_of_value (by decide), hFrame, ?_⟩
  intro hCollected
  have hUsable := hCollected.usable 0x200000
    (List.mem_append_right _ hFrame)
  rcases hUsable.inside with ⟨me, hMem, _, hIn⟩
  rw [List.mem_singleton] at hMem
  rw [hMem] at hIn
  exact absurd hIn.1 (by decide)

end Pmm

end SosKernel
