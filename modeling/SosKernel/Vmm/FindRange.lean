import Mathlib.Order.Bounds.Defs
import SosKernel.Vmm.Mapping

/-
  `find_free_range`: the search for unmapped pages.

  Main declarations:
    * `findFreeRange`
    * `Machine.Mapped`, `Free`: what the search looks for
    * `FirstFree`: the first free candidate
    * `Outcome`, `Finds`, `finds_iff`
    * `find_free_range_least`
    * `find_free_range_inside_iff`

  The guard of the search looks at the start of a candidate
  only, and all its sums are taken modulo 2^32.
-/

------------------------------------------------------------
-- The Search
------------------------------------------------------------

namespace SosKernel

namespace Vmm

/- `PAGE_ROUND_DOWN`. -/
def pageRoundDown (x : Nat) : Nat :=
  pageAddr x

/- `PAGE_ROUND_UP`, in 32 bits. -/
def pageRoundUp (x : Nat) : Nat :=
  pageAddr (sub32 (add32 x PAGE_SIZE) 1)

/- The `for` loop: the first mapped page, or `limit`. -/
def scanRange : Nat → Nat → Nat → VmM Nat
| 0, _, _ => throw .hang
| bound + 1, va, limit =>
    if va < limit then do
      if (← getMapping va).isSome then
        return va
      else
        scanRange bound (add32 va PAGE_SIZE) limit
    else
      return va

/- The inner `while` loop: the next candidate behind `va`. -/
def skipRange : Nat → Nat → Nat → Nat → VmM Nat
| 0, _, _, _ => throw .hang
| bound + 1, vaStart, va, step =>
    if vaStart ≤ va then
      skipRange bound (add32 vaStart step) va step
    else
      return vaStart

/- The outer loop, over the candidates. -/
def searchRange
    (bound size step vaEnd : Nat) : Nat → Nat → VmM Nat
| 0, _ => throw .hang
| fuel + 1, vaStart =>
    if vaStart < vaEnd then do
      let va ← scanRange bound vaStart (add32 vaStart size)
      if va = add32 vaStart size then
        return vaStart
      else
        let next ← skipRange bound vaStart va step
        searchRange bound size step vaEnd fuel next
    else
      return vaEnd

/- The distance between candidates. -/
def rangeStep (size : Nat) (sizeAligned : UInt8) : Nat :=
  if sizeAligned ≠ 0 then size else PAGE_SIZE

def findFreeRange
    (bound vaStart vaEnd size : Nat)
    (sizeAligned : UInt8) : VmM Nat :=
  searchRange bound (pageRoundUp size)
    (rangeStep (pageRoundUp size) sizeAligned)
    (pageRoundUp vaEnd) bound (pageRoundDown vaStart)

------------------------------------------------------------
-- Mapped Pages
------------------------------------------------------------

/- The page of `va` has an entry in its page table. -/
def Machine.Mapped (m : Machine) (va : Nat) : Prop :=
  ∃ u, m.ram.entry m.root (va / 2 ^ 22) = some u ∧
    m.ram.word u (va / 4096 % 1024) ≠ 0

/-
  The current directory shows itself, and each of its entries
  is empty or refers to a page table.
-/
structure Readable (m : Machine) : Prop where
  self : ∃ d t, SelfMapped m d t
  tables :
    ∀ i, i < 1024 →
      m.ram.word m.root i = 0 ∨
        ∃ u, m.ram.entry m.root i = some u

variable {m : Machine}
variable {va size step start : Nat}

/- `get_mapping` tells the mapped pages from the others. -/
theorem Readable.run_getMapping
    (hReadable : Readable m)
    (hva : va < 2 ^ 32) :
    ∃ r, (getMapping va).run m = .ok r m ∧
      (r.isSome = true ↔ m.Mapped va) := by
  rcases hReadable.self with ⟨d, t, hSelf⟩
  rcases hReadable.tables (va / 2 ^ 22) (by omega) with
    hZero | ⟨u, hEntry⟩
  · refine ⟨none, hSelf.run_getMapping_none hva hZero, ?_⟩
    constructor
    · intro hSome
      cases hSome
    · rintro ⟨u, hEntry, _⟩
      exact absurd hZero (entry_ne_zero hEntry)
  · refine ⟨_, hSelf.run_getMapping_table hva hEntry, ?_⟩
    unfold entryMapping
    constructor
    · intro hSome
      refine ⟨u, hEntry, ?_⟩
      intro hZero
      rw [if_neg (not_not.mpr hZero)] at hSome
      cases hSome
    · rintro ⟨w, hEntry', hWord⟩
      rw [hEntry] at hEntry'
      cases hEntry'
      rw [if_pos hWord]
      rfl

------------------------------------------------------------
-- Free Ranges
------------------------------------------------------------

/- No page from `start` on, for `size` bytes, is mapped. -/
def Unmapped (m : Machine) (size start : Nat) : Prop :=
  ∀ va, start ≤ va → va < start + size → va % 4096 = 0 →
    ¬ m.Mapped va

/- The range is unmapped, and its end is an address. -/
def Free (m : Machine) (size start : Nat) : Prop :=
  start + size < 2 ^ 32 ∧ Unmapped m size start

/-
  What the scan of a candidate has found: the candidates from
  `start` to `va` are not free.
-/
structure Blocked
    (m : Machine)
    (size start va : Nat) : Prop where
  le : start ≤ va
  lt : va < start + size
  aligned : va % 4096 = 0
  wrap : 2 ^ 32 ≤ start + size → va = start
  free : ∀ c, start ≤ c → c ≤ va → ¬ Free m size c

/- The scan ends at a mapped page or at the limit. -/
theorem Readable.sat_scanRange
    {bound limit : Nat}
    (hReadable : Readable m)
    (hva : va % 4096 = 0)
    (hLimit : limit % 4096 = 0)
    (hLe : va ≤ limit)
    (hLt : limit < 2 ^ 32) :
    ((scanRange bound va limit).run m).Sat
      (fun r m' =>
        m' = m ∧ va ≤ r ∧ r ≤ limit ∧ r % 4096 = 0 ∧
          (∀ a, va ≤ a → a < r → a % 4096 = 0 →
            ¬ m.Mapped a) ∧
          (r < limit → m.Mapped r))
      (fun e m' =>
        e = .hang ∧ m' = m ∧ bound ≤ (limit - va) / 4096) := by
  induction bound generalizing va with
  | zero => exact ⟨rfl, rfl, Nat.zero_le _⟩
  | succ bound ih =>
      rw [scanRange]
      split
      · rename_i hInside
        rcases hReadable.run_getMapping
          (show va < 2 ^ 32 by omega) with ⟨r, hGet, hMapped⟩
        rw [EStateM.bind_of_ok hGet]
        split
        · rename_i hSome
          refine ⟨rfl, le_refl _, hLe, hva, ?_, ?_⟩
          · intro a hLo hHi
            omega
          · intro _
            exact hMapped.mp hSome
        · rename_i hNone
          have hNext : add32 va PAGE_SIZE = va + 4096 := by
            apply add32_of_lt
            unfold PAGE_SIZE
            omega
          rw [hNext]
          refine (ih (by omega) (by omega)).imp ?_ ?_
          · rintro r m' ⟨hSame, hLo, hHi, hAligned, hBefore,
              hHit⟩
            refine ⟨hSame, by omega, hHi, hAligned, ?_, hHit⟩
            intro a hLoA hHiA hAlignedA
            rcases Nat.lt_or_ge a (va + 4096) with hThis | hRest
            · have hEq : a = va := by omega
              rw [hEq]
              exact fun h => hNone (hMapped.mpr h)
            · exact hBefore a hRest hHiA hAlignedA
          · rintro e m' ⟨hHang, hSame, hBound⟩
            exact ⟨hHang, hSame, by omega⟩
      · exact ⟨rfl, le_refl _, hLe, hva,
          fun a hLo hHi => by omega, fun h => absurd h ‹_›⟩

/-
  The scan of a candidate gives its end if the candidate is
  free, and otherwise what blocks it.
-/
theorem Readable.sat_scan
    (hReadable : Readable m)
    (bound : Nat)
    (hStart : start % 4096 = 0)
    (hSize : size % 4096 = 0)
    (hPos : 0 < size)
    (hStartLt : start < 2 ^ 32)
    (hSizeLt : size < 2 ^ 32) :
    ((scanRange bound start (add32 start size)).run m).Sat
      (fun va m' =>
        m' = m ∧
          (va = add32 start size ∧ Free m size start ∨
            va ≠ add32 start size ∧
              Blocked m size start va))
      (fun e m' =>
        e = .hang ∧ m' = m ∧ bound ≤ 2 ^ 20) := by
  rcases Nat.lt_or_ge (start + size) (2 ^ 32) with
    hFits | hWraps
  · rw [add32_of_lt hFits]
    refine (hReadable.sat_scanRange hStart (by omega)
      (by omega) hFits).imp ?_ ?_
    · rintro va m' ⟨hSame, hLo, hHi, hAligned, hBefore, hHit⟩
      refine ⟨hSame, ?_⟩
      rcases Nat.lt_or_ge va (start + size) with hInside | hEnd
      · refine .inr ⟨by omega, hLo, hInside, hAligned,
          by omega, ?_⟩
        rintro c hStartC hC ⟨_, hFree⟩
        exact hFree va hC (by omega) hAligned (hHit hInside)
      · have hEq : va = start + size := by omega
        subst hEq
        exact .inl ⟨rfl, hFits, hBefore⟩
    · rintro e m' ⟨hHang, hSame, hBound⟩
      exact ⟨hHang, hSame, by omega⟩
  · -- the end wraps around, and nothing is scanned
    have hEnd : add32 start size = start + size - 2 ^ 32 := by
      unfold add32
      omega
    rw [hEnd]
    cases bound with
    | zero => exact ⟨rfl, rfl, Nat.zero_le _⟩
    | succ bound =>
        rw [scanRange, if_neg (by omega)]
        refine ⟨rfl, .inr ⟨by omega, le_refl _, by omega,
          hStart, fun _ => rfl, ?_⟩⟩
        rintro c hLo _ ⟨hFits, _⟩
        omega

------------------------------------------------------------
-- Skipping
------------------------------------------------------------

/- The candidate after `k` steps, in 32 bits. -/
def candidate (start step k : Nat) : Nat :=
  (start + k * step) % 2 ^ 32

theorem candidate_lt (start step k : Nat) :
    candidate start step k < 2 ^ 32 :=
  Nat.mod_lt _ (by decide)

theorem candidate_zero
    (step : Nat)
    (hLt : start < 2 ^ 32) :
    candidate start step 0 = start := by
  unfold candidate
  rw [Nat.zero_mul, Nat.add_zero, Nat.mod_eq_of_lt hLt]

theorem candidate_of_lt
    {k : Nat}
    (hLt : start + k * step < 2 ^ 32) :
    candidate start step k = start + k * step :=
  Nat.mod_eq_of_lt hLt

theorem candidate_candidate
    (start step i k : Nat) :
    candidate (candidate start step i) step k =
      candidate start step (i + k) := by
  unfold candidate
  rw [Nat.mod_add_mod, Nat.add_assoc, Nat.add_mul]

theorem candidate_add32
    (start step k : Nat) :
    candidate (add32 start step) step k =
      candidate start step (k + 1) := by
  unfold candidate add32
  rw [Nat.mod_add_mod, Nat.add_mul, Nat.one_mul,
    Nat.add_right_comm, Nat.add_assoc]

/- From a later candidate every other one is reached. -/
theorem candidate_again
    (start step i k : Nat) :
    ∃ j,
      candidate (candidate start step i) step j =
        candidate start step k := by
  refine ⟨k + i * (2 ^ 32 - 1), ?_⟩
  rw [candidate_candidate]
  have hIndex :
      i + (k + i * (2 ^ 32 - 1)) = k + 2 ^ 32 * i := by
    omega
  unfold candidate
  rw [hIndex, Nat.add_mul, Nat.mul_assoc, ← Nat.add_assoc,
    Nat.add_mul_mod_self_left]

/- The first candidate behind `va`, if there is one. -/
theorem sat_skipRange
    (m : Machine)
    (bound va step : Nat)
    (hStart : start < 2 ^ 32) :
    ((skipRange bound start va step).run m).Sat
      (fun c m' =>
        m' = m ∧
          ∃ k, c = candidate start step k ∧ va < c ∧
            ∀ i, i < k → candidate start step i ≤ va)
      (fun e m' =>
        e = .hang ∧ m' = m ∧
          ∀ i, i < bound → candidate start step i ≤ va) := by
  induction bound generalizing start with
  | zero =>
      refine ⟨rfl, rfl, ?_⟩
      intro i hi
      omega
  | succ bound ih =>
      have hZero := candidate_zero step hStart
      rw [skipRange]
      split
      · rename_i hLe
        have hNext : add32 start step < 2 ^ 32 :=
          Nat.mod_lt _ (by decide)
        refine (ih hNext).imp ?_ ?_
        · rintro c m' ⟨hSame, k, hc, hBehind, hLeast⟩
          rw [candidate_add32] at hc
          refine ⟨hSame, k + 1, hc, hBehind, ?_⟩
          intro i hi
          cases i with
          | zero =>
              rw [hZero]
              exact hLe
          | succ i =>
              rw [← candidate_add32]
              exact hLeast i (by omega)
        · rintro e m' ⟨hHang, hSame, hAll⟩
          refine ⟨hHang, hSame, ?_⟩
          intro i hi
          cases i with
          | zero =>
              rw [hZero]
              exact hLe
          | succ i =>
              rw [← candidate_add32]
              exact hAll i (by omega)
      · rename_i hBehind
        refine ⟨rfl, 0, hZero.symm, by omega, ?_⟩
        intro i hi
        omega

------------------------------------------------------------
-- The Outcome
------------------------------------------------------------

/- The first free candidate below `vaEnd`. -/
def FirstFree
    (m : Machine)
    (size step vaEnd start r : Nat) : Prop :=
  ∃ k, r = start + k * step ∧ r < vaEnd ∧ Free m size r ∧
    ∀ i, i < k → ¬ Free m size (start + i * step)

/- No candidate below `vaEnd` is free. -/
def NoneFree
    (m : Machine)
    (size step vaEnd start : Nat) : Prop :=
  ∀ i, start + i * step < vaEnd →
    ¬ Free m size (start + i * step)

/- A candidate, in 32 bits, is not below `vaEnd`. -/
def Leaves (step vaEnd start : Nat) : Prop :=
  ∃ k, vaEnd ≤ candidate start step k

/- What a search that returns can return. -/
def Outcome
    (m : Machine)
    (size step vaEnd start r : Nat) : Prop :=
  FirstFree m size step vaEnd start r ∨
    r = vaEnd ∧ NoneFree m size step vaEnd start ∧
      Leaves step vaEnd start

/-
  The sizes that the search is called with, after rounding:
  the candidates are pages, and the step is a page or as long
  as the range.
-/
structure Stepping (size step : Nat) : Prop where
  sizeAligned : size % 4096 = 0
  sizePos : 0 < size
  sizeLt : size < 2 ^ 32
  step : step = size ∨ step = 4096

variable {vaEnd r va : Nat}

theorem Stepping.aligned
    (hStepping : Stepping size step) :
    step % 4096 = 0 := by
  have hSize := hStepping.sizeAligned
  rcases hStepping.step with rfl | rfl <;> omega

theorem candidate_aligned
    {k : Nat}
    (hStart : start % 4096 = 0)
    (hStep : step % 4096 = 0) :
    candidate start step k % 4096 = 0 := by
  have hMul : k * step % 4096 = 0 := by
    rw [Nat.mul_mod, hStep, Nat.mul_zero]
  unfold candidate
  omega

/-
  Behind a page that blocks a candidate is another one, as
  long as the ends of the candidates do not wrap around.
-/
theorem Blocked.next
    (hBlocked : Blocked m size start va)
    (hStepping : Stepping size step)
    (hFits : start + size < 2 ^ 32)
    (hStart : start % 4096 = 0) :
    ∃ k, va < start + k * step ∧
      start + k * step < 2 ^ 32 := by
  have hLe := hBlocked.le
  have hLt := hBlocked.lt
  have hAligned := hBlocked.aligned
  have hSize := hStepping.sizeAligned
  rcases hStepping.step with rfl | rfl
  · exact ⟨1, by omega, by omega⟩
  · exact ⟨(va - start) / 4096 + 1, by omega, by omega⟩

/- Behind the wrap nothing is free. -/
theorem not_free_of_wrap
    (hWraps : 2 ^ 32 ≤ start + size)
    (hLe : start ≤ va) :
    ¬ Free m size va := by
  rintro ⟨hFits, _⟩
  omega

/- Candidates that are not free can be left out. -/
theorem firstFree_shift
    {k : Nat}
    (hNot : ∀ i, i < k → ¬ Free m size (start + i * step)) :
    FirstFree m size step vaEnd (start + k * step) r ↔
      FirstFree m size step vaEnd start r := by
  have hShift :
      ∀ i, start + k * step + i * step =
        start + (k + i) * step := by
    intro i
    rw [Nat.add_mul, Nat.add_assoc]
  constructor
  · rintro ⟨j, hr, hInside, hFree, hBefore⟩
    refine ⟨k + j, by rw [hr, hShift], hInside, hFree, ?_⟩
    intro i hi
    rcases Nat.lt_or_ge i k with hik | hik
    · exact hNot i hik
    · have hRest := hBefore (i - k) (by omega)
      rw [hShift, Nat.add_sub_cancel' hik] at hRest
      exact hRest
  · rintro ⟨j, rfl, hInside, hFree, hBefore⟩
    have hkj : k ≤ j := by
      by_contra hkj
      exact hNot j (Nat.lt_of_not_le hkj) hFree
    refine ⟨j - k, ?_, hInside, hFree, ?_⟩
    · rw [hShift, Nat.add_sub_cancel' hkj]
    · intro i hi
      rw [hShift]
      exact hBefore (k + i) (by omega)

theorem noneFree_shift
    {k : Nat}
    (hNot : ∀ i, i < k → ¬ Free m size (start + i * step)) :
    NoneFree m size step vaEnd (start + k * step) ↔
      NoneFree m size step vaEnd start := by
  have hShift :
      ∀ i, start + k * step + i * step =
        start + (k + i) * step := by
    intro i
    rw [Nat.add_mul, Nat.add_assoc]
  constructor
  · intro hNone i hi
    rcases Nat.lt_or_ge i k with hik | hik
    · exact hNot i hik
    · have hRest := hNone (i - k)
      rw [hShift, Nat.add_sub_cancel' hik] at hRest
      exact hRest hi
  · intro hNone i hi
    rw [hShift] at hi ⊢
    exact hNone (k + i) hi

theorem leaves_candidate
    (k : Nat) :
    Leaves step vaEnd (candidate start step k) ↔
      Leaves step vaEnd start := by
  constructor
  · rintro ⟨j, hj⟩
    rw [candidate_candidate] at hj
    exact ⟨k + j, hj⟩
  · rintro ⟨j, hj⟩
    rcases candidate_again start step k j with ⟨i, hi⟩
    rw [← hi] at hj
    exact ⟨i, hj⟩

/-
  The search from the candidate behind a blocked one has the
  same outcome as from the blocked one.
-/
theorem Blocked.outcome_iff
    {k : Nat}
    (hBlocked : Blocked m size start va)
    (hStepping : Stepping size step)
    (hStart : start % 4096 = 0)
    (hBehind : va < candidate start step k)
    (hLeast : ∀ i, i < k → candidate start step i ≤ va) :
    Outcome m size step vaEnd (candidate start step k) r ↔
      Outcome m size step vaEnd start r := by
  have hLe := hBlocked.le
  unfold Outcome
  rw [leaves_candidate k]
  rcases Nat.lt_or_ge (start + size) (2 ^ 32) with
    hFits | hWraps
  · -- the next candidate has not wrapped around
    rcases hBlocked.next hStepping hFits hStart with
      ⟨n, hBehindN, hFitsN⟩
    have hkn : k ≤ n := by
      by_contra hkn
      have hn := hLeast n (by omega)
      rw [candidate_of_lt hFitsN] at hn
      omega
    have hSmall : ∀ i, i ≤ k → start + i * step < 2 ^ 32 := by
      intro i hi
      have hMul := Nat.mul_le_mul_right step (hi.trans hkn)
      omega
    have hNot :
        ∀ i, i < k → ¬ Free m size (start + i * step) := by
      intro i hi
      have hBelow := hLeast i hi
      rw [candidate_of_lt (hSmall i (by omega))] at hBelow
      exact hBlocked.free _ (by omega) hBelow
    rw [candidate_of_lt (hSmall k (le_refl k)),
      firstFree_shift hNot, noneFree_shift hNot]
  · -- no candidate from here on is free
    have hNot :
        ∀ c, start ≤ c → ¬ Free m size c :=
      fun c hc => not_free_of_wrap hWraps hc
    have hFirst :
        ∀ c, start ≤ c →
          ¬ FirstFree m size step vaEnd c r := by
      rintro c hc ⟨j, hr, _, hFree, _⟩
      exact hNot r (by omega) hFree
    have hNone :
        ∀ c, start ≤ c → NoneFree m size step vaEnd c := by
      intro c hc i _
      exact hNot _ (by omega)
    have hNext : start ≤ candidate start step k := by omega
    constructor
    · rintro (hBad | ⟨hr, _, hLeave⟩)
      · exact absurd hBad (hFirst _ hNext)
      · exact .inr ⟨hr, hNone _ (le_refl _), hLeave⟩
    · rintro (hBad | ⟨hr, _, hLeave⟩)
      · exact absurd hBad (hFirst _ (le_refl _))
      · exact .inr ⟨hr, hNone _ hNext, hLeave⟩

/- A search that returns has an outcome. -/
theorem Readable.sat_searchRange
    (hReadable : Readable m)
    (bound fuel vaEnd : Nat)
    (hStepping : Stepping size step)
    (hStart : start % 4096 = 0)
    (hLt : start < 2 ^ 32) :
    ((searchRange bound size step vaEnd fuel start).run m).Sat
      (fun r m' =>
        m' = m ∧ Outcome m size step vaEnd start r)
      (fun e m' => e = .hang ∧ m' = m) := by
  induction fuel generalizing start with
  | zero => exact ⟨rfl, rfl⟩
  | succ fuel ih =>
      rw [searchRange]
      split
      · rename_i hInside
        have hScan :=
          hReadable.sat_scan bound hStart
            hStepping.sizeAligned hStepping.sizePos hLt
            hStepping.sizeLt
        refine EStateM.Result.Sat.bind
          (hScan.imp (fun _ _ h => h)
            (fun e m' h => ⟨h.1, h.2.1⟩)) ?_
        rintro va m₁
          ⟨rfl, ⟨hEnd, hFree⟩ | ⟨hNe, hBlocked⟩⟩
        · rw [if_pos hEnd]
          refine ⟨rfl, .inl ⟨0, ?_, hInside, hFree, ?_⟩⟩
          · rw [Nat.zero_mul, Nat.add_zero]
          · intro i hi
            omega
        · rw [if_neg hNe]
          refine EStateM.Result.Sat.bind
            ((sat_skipRange m₁ bound va step hLt).imp
              (fun _ _ h => h)
              (fun e m' h => ⟨h.1, h.2.1⟩)) ?_
          rintro next m₂ ⟨rfl, k, rfl, hBehind, hLeast⟩
          refine (ih
            (candidate_aligned hStart hStepping.aligned)
            (candidate_lt _ _ _)).imp ?_ (fun _ _ h => h)
          rintro r m' ⟨hSame, hRest⟩
          exact ⟨hSame, (hBlocked.outcome_iff hStepping hStart
            hBehind hLeast).mp hRest⟩
      · rename_i hOutside
        refine ⟨rfl, .inr ⟨rfl, ?_, 0, ?_⟩⟩
        · intro i hi
          omega
        · rw [candidate_zero step hLt]
          omega

/- The candidates repeat themselves. -/
theorem candidate_mod
    (start step k : Nat) :
    candidate start step (k % 2 ^ 32) =
      candidate start step k := by
  unfold candidate
  rw [← Nat.add_mod_mod, Nat.mod_mul_mod, Nat.add_mod_mod]

/- The loop that skips candidates comes to an end. -/
theorem Blocked.skips
    (hBlocked : Blocked m size start va)
    (hStepping : Stepping size step)
    (hStart : start % 4096 = 0)
    (hInside : start < vaEnd)
    (hOutcome : Outcome m size step vaEnd start r) :
    ∃ k, k < 2 ^ 32 ∧ va < candidate start step k := by
  have hSome : ∃ k, va < candidate start step k := by
    rcases Nat.lt_or_ge (start + size) (2 ^ 32) with
      hFits | hWraps
    · rcases hBlocked.next hStepping hFits hStart with
        ⟨n, hBehind, hFitsN⟩
      rw [← candidate_of_lt hFitsN] at hBehind
      exact ⟨n, hBehind⟩
    · rw [hBlocked.wrap hWraps]
      rcases hOutcome with
        ⟨j, hr, _, hFree, _⟩ | ⟨_, _, k, hk⟩
      · exact absurd hFree
          (not_free_of_wrap hWraps (by omega))
      · exact ⟨k, by omega⟩
  rcases hSome with ⟨k, hk⟩
  rw [← candidate_mod] at hk
  exact ⟨k % 2 ^ 32, Nat.mod_lt _ (by decide), hk⟩

/- With an outcome the search returns it. -/
theorem Readable.run_searchRange
    {bound fuel : Nat}
    (hReadable : Readable m)
    (hStepping : Stepping size step)
    (hStart : start % 4096 = 0)
    (hLt : start < 2 ^ 32)
    (hBound : 2 ^ 32 < bound)
    (hFuel : vaEnd - start < fuel)
    (hOutcome : Outcome m size step vaEnd start r) :
    (searchRange bound size step vaEnd fuel start).run m =
      .ok r m := by
  induction fuel generalizing start with
  | zero => omega
  | succ fuel ih =>
      rw [searchRange]
      split
      · rename_i hInside
        have hScan :=
          hReadable.sat_scan bound hStart
            hStepping.sizeAligned hStepping.sizePos hLt
            hStepping.sizeLt
        cases hRun :
            (scanRange bound start (add32 start size)).run m with
        | error e m' =>
            rw [hRun] at hScan
            have hSmall := hScan.2.2
            omega
        | ok va m₁ =>
            rw [hRun] at hScan
            rcases hScan with
              ⟨rfl, ⟨hEnd, hFree⟩ | ⟨hNe, hBlocked⟩⟩
            · rw [EStateM.bind_of_ok hRun, if_pos hEnd]
              have hr : r = start := by
                rcases hOutcome with
                  ⟨k, hr, _, _, hBefore⟩ | ⟨_, hNone, _⟩
                · cases k with
                  | zero =>
                      rw [hr, Nat.zero_mul, Nat.add_zero]
                  | succ k =>
                      have hNot := hBefore 0 (by omega)
                      rw [Nat.zero_mul, Nat.add_zero] at hNot
                      exact absurd hFree hNot
                · have hNot := hNone 0
                  rw [Nat.zero_mul, Nat.add_zero] at hNot
                  exact absurd hFree (hNot hInside)
              rw [hr]
              rfl
            · rw [EStateM.bind_of_ok hRun, if_neg hNe]
              have hSkip := sat_skipRange m₁ bound va step hLt
              rcases hBlocked.skips hStepping hStart hInside
                hOutcome with ⟨n, hn, hBehindN⟩
              have hLe := hBlocked.le
              cases hNext :
                  (skipRange bound start va step).run m₁ with
              | error e m' =>
                  rw [hNext] at hSkip
                  have hAll := hSkip.2.2 n (by omega)
                  omega
              | ok next m₂ =>
                  rw [hNext] at hSkip
                  rcases hSkip with
                    ⟨rfl, k, rfl, hBehind, hLeast⟩
                  rw [EStateM.bind_of_ok hNext]
                  refine ih
                    (candidate_aligned hStart
                      hStepping.aligned)
                    (candidate_lt _ _ _) (by omega) ?_
                  exact (hBlocked.outcome_iff hStepping hStart
                    hBehind hLeast).mpr hOutcome
      · rename_i hOutside
        have hr : r = vaEnd := by
          rcases hOutcome with ⟨k, hr, hInside, _⟩ | ⟨hr, _⟩
          · omega
          · exact hr
        rw [hr]
        rfl

------------------------------------------------------------
-- The Result
------------------------------------------------------------

/- The search ends, and it returns `r`. -/
def Finds
    (m : Machine)
    (vaStart vaEnd size : Nat)
    (sizeAligned : UInt8)
    (r : Nat) : Prop :=
  ∃ n, ∀ bound, n ≤ bound →
    (findFreeRange bound vaStart vaEnd size sizeAligned).run m =
      .ok r m

theorem pageRoundUp_aligned (x : Nat) :
    pageRoundUp x % 4096 = 0 :=
  pageAddr_aligned _

theorem pageRoundUp_lt (x : Nat) :
    pageRoundUp x < 2 ^ 32 := by
  have hLe := pageAddr_le (sub32 (add32 x PAGE_SIZE) 1)
  have hLt : sub32 (add32 x PAGE_SIZE) 1 < 2 ^ 32 :=
    Nat.mod_lt _ (by decide)
  unfold pageRoundUp
  omega

theorem stepping_rounded
    (al : UInt8)
    (hPos : pageRoundUp size ≠ 0) :
    Stepping (pageRoundUp size)
      (rangeStep (pageRoundUp size) al) where
  sizeAligned := pageRoundUp_aligned size
  sizePos := Nat.pos_of_ne_zero hPos
  sizeLt := pageRoundUp_lt size
  step := by
    unfold rangeStep
    split
    · exact .inl rfl
    · exact .inr rfl

/- The search returns its outcome, and ends if it has one. -/
theorem finds_iff
    {vaStart : Nat}
    {al : UInt8}
    (hReadable : Readable m)
    (hStart : vaStart < 2 ^ 32)
    (hPos : pageRoundUp size ≠ 0) :
    Finds m vaStart vaEnd size al r ↔
      Outcome m (pageRoundUp size)
        (rangeStep (pageRoundUp size) al)
        (pageRoundUp vaEnd) (pageRoundDown vaStart) r := by
  have hAligned := pageAddr_aligned vaStart
  have hLe := pageAddr_le vaStart
  have hEnd := pageRoundUp_lt vaEnd
  have hStepping := stepping_rounded al hPos
  constructor
  · rintro ⟨n, hn⟩
    have hSat :=
      hReadable.sat_searchRange n n (pageRoundUp vaEnd)
        hStepping hAligned
        (Nat.lt_of_le_of_lt hLe hStart)
    have hRun := hn n (le_refl n)
    unfold findFreeRange pageRoundDown at hRun
    rw [hRun] at hSat
    exact hSat.2
  · intro hOutcome
    refine ⟨2 ^ 32 + 1, ?_⟩
    intro bound hBound
    exact hReadable.run_searchRange hStepping hAligned
      (Nat.lt_of_le_of_lt hLe hStart) (by omega) (by omega)
      hOutcome

/- An outcome exists if a candidate is free or leaves. -/
theorem exists_outcome
    (hEnds :
      (∃ k, start + k * step < vaEnd ∧
          Free m size (start + k * step)) ∨
        Leaves step vaEnd start) :
    ∃ r, Outcome m size step vaEnd start r := by
  by_cases hSome :
      ∃ k, start + k * step < vaEnd ∧
        Free m size (start + k * step)
  · classical
    have hFound := Nat.find_spec hSome
    refine ⟨_, .inl ⟨Nat.find hSome, rfl, hFound.1, hFound.2,
      ?_⟩⟩
    intro i hi hFree
    refine Nat.find_min hSome hi ⟨?_, hFree⟩
    have hMul := Nat.mul_le_mul_right step (le_of_lt hi)
    have hInside := hFound.1
    omega
  · have hLeave : Leaves step vaEnd start := by
      rcases hEnds with hFree | hLeave
      · exact absurd hFree hSome
      · exact hLeave
    refine ⟨vaEnd, .inr ⟨rfl, ?_, hLeave⟩⟩
    intro i hi hFree
    exact hSome ⟨i, hi, hFree⟩

------------------------------------------------------------
-- The Least Candidate
------------------------------------------------------------

/- The candidates below `vaEnd` whose pages are unmapped. -/
def unmappedCandidates
    (m : Machine)
    (size step vaEnd start : Nat) : Set Nat :=
  {c | (∃ k, c = start + k * step) ∧ c < vaEnd ∧
    Unmapped m size c}

theorem FirstFree.isLeast
    (hFits : ∀ c, c < vaEnd → c + size < 2 ^ 32)
    (hFirst : FirstFree m size step vaEnd start r) :
    IsLeast (unmappedCandidates m size step vaEnd start) r := by
  rcases hFirst with ⟨k, rfl, hInside, hFree, hBefore⟩
  refine ⟨⟨⟨k, rfl⟩, hInside, hFree.2⟩, ?_⟩
  rintro _ ⟨⟨i, rfl⟩, hBelow, hUnmapped⟩
  rcases Nat.lt_or_ge i k with hik | hki
  · exact absurd ⟨hFits _ hBelow, hUnmapped⟩ (hBefore i hik)
  · have hMul := Nat.mul_le_mul_right step hki
    omega

/- A step too many leaves the range without a wrap. -/
theorem leaves_of_room
    (hStart : start < 2 ^ 32)
    (hPos : 0 < step)
    (hRoom : vaEnd + step < 2 ^ 32) :
    Leaves step vaEnd start := by
  rcases Nat.lt_or_ge start vaEnd with hInside | hBehind
  · have hDiv := Nat.div_add_mod (vaEnd - start) step
    have hMod := Nat.mod_lt (vaEnd - start) hPos
    have hNext :
        ((vaEnd - start) / step + 1) * step =
          step * ((vaEnd - start) / step) + step := by
      rw [Nat.add_mul, Nat.one_mul, Nat.mul_comm]
    refine ⟨(vaEnd - start) / step + 1, ?_⟩
    rw [candidate_of_lt (by omega)]
    omega
  · refine ⟨0, ?_⟩
    rw [candidate_zero step hStart]
    exact hBehind

/-
  When the range and two more of the size fit below 2^32,
  the search ends, with the least unmapped candidate or, if
  there is none, with the rounded end.
-/
theorem find_free_range_least
    {vaStart : Nat}
    (al : UInt8)
    (hReadable : Readable m)
    (hStart : vaStart < 2 ^ 32)
    (hPos : 0 < pageRoundUp size)
    (hRoom :
      pageRoundUp vaEnd + 2 * pageRoundUp size ≤ 2 ^ 32) :
    ∃ r, Finds m vaStart vaEnd size al r ∧
      (IsLeast
          (unmappedCandidates m (pageRoundUp size)
            (rangeStep (pageRoundUp size) al)
            (pageRoundUp vaEnd) (pageRoundDown vaStart)) r ∨
        unmappedCandidates m (pageRoundUp size)
            (rangeStep (pageRoundUp size) al)
            (pageRoundUp vaEnd) (pageRoundDown vaStart) = ∅ ∧
          r = pageRoundUp vaEnd) := by
  have hLe := pageAddr_le vaStart
  have hStepping := stepping_rounded al hPos.ne'
  have hAligned := hStepping.sizeAligned
  have hLeave :
      Leaves (rangeStep (pageRoundUp size) al)
        (pageRoundUp vaEnd) (pageRoundDown vaStart) := by
    apply leaves_of_room
    · exact Nat.lt_of_le_of_lt hLe hStart
    · rcases hStepping.step with hStep | hStep <;> omega
    · rcases hStepping.step with hStep | hStep <;> omega
  have hSome :
      ∃ r,
        Outcome m (pageRoundUp size)
          (rangeStep (pageRoundUp size) al)
          (pageRoundUp vaEnd) (pageRoundDown vaStart) r :=
    exists_outcome (.inr hLeave)
  rcases hSome with ⟨r, hOutcome⟩
  refine ⟨r, (finds_iff hReadable hStart hPos.ne').mpr
    hOutcome, ?_⟩
  have hFits :
      ∀ c, c < pageRoundUp vaEnd →
        c + pageRoundUp size < 2 ^ 32 := by
    intro c hc
    omega
  rcases hOutcome with hFirst | ⟨hr, hNone, _⟩
  · exact .inl (hFirst.isLeast hFits)
  · refine .inr ⟨?_, hr⟩
    rw [Set.eq_empty_iff_forall_notMem]
    rintro _ ⟨⟨i, rfl⟩, hBelow, hUnmapped⟩
    exact hNone i hBelow ⟨hFits _ hBelow, hUnmapped⟩

/-
  A directory that maps nothing but itself, with its page
  table at 0x102000.
-/
def bareRam : ByteMemory :=
  ((ByteMemory.setWord (fun _ => 0)
    0x101000 1022 0x102003).setWord
    0x102000 1023 0x101003).setWord
    0x101000 1023 0x101003

def bareMachine : Machine where
  ram := bareRam
  paging := true
  cr3 := 0x101000
  currentDirectory := .kernelDirectory
  dirAt := fun _ =>
    some ⟨0x101000, KERNEL_DIR_VIRTUAL, KERNEL_TABLES_VIRTUAL⟩
  kmallocs := []
  frames := []
  freed := []

theorem root_bareMachine :
    bareMachine.root = 0x101000 := by
  change pageAddr 0x101000 = 0x101000
  decide

theorem bareRam_zero
    (i : Nat)
    (hi : i < 1022) :
    bareRam.word 0x101000 i = 0 := by
  unfold bareRam
  rw [ByteMemory.word_setWord_of_ne _ _ (by decide)
      (by decide) (by decide) (by omega) (.inr (by omega)),
    ByteMemory.word_setWord_of_ne _ _ (by decide)
      (by decide) (by decide) (by omega) (.inl (by decide)),
    ByteMemory.word_setWord_of_ne _ _ (by decide)
      (by decide) (by decide) (by omega) (.inr (by omega))]
  rfl

theorem bareRam_dir :
    bareRam.entry 0x101000 1022 = some 0x102000 := by
  decide

theorem bareRam_self :
    bareRam.entry 0x101000 1023 = some 0x101000 := by
  decide

theorem selfMapped_bareMachine :
    SelfMapped bareMachine
      ⟨0x101000, KERNEL_DIR_VIRTUAL, KERNEL_TABLES_VIRTUAL⟩
      0x102000 := by
  have hRoot := root_bareMachine
  refine ⟨rfl, ?_, ⟨rfl, by decide, by decide, ?_, ?_⟩,
    ⟨rfl, by decide, by decide, ?_⟩⟩
  · rw [hRoot]
    decide
  · rw [hRoot]
    exact bareRam_dir
  · rw [hRoot]
    decide
  · rw [hRoot]
    exact bareRam_self

theorem readable_bareMachine : Readable bareMachine := by
  refine ⟨⟨_, _, selfMapped_bareMachine⟩, ?_⟩
  rw [root_bareMachine]
  intro i hi
  rcases Nat.lt_or_ge i 1022 with hLow | hHigh
  · exact .inl (bareRam_zero i hLow)
  · have hLast : i = 1022 ∨ i = 1023 := by omega
    rcases hLast with rfl | rfl
    · exact .inr ⟨_, bareRam_dir⟩
    · exact .inr ⟨_, bareRam_self⟩

theorem unmapped_bareMachine
    (hBelow : start + size ≤ 1022 * 2 ^ 22) :
    Unmapped bareMachine size start := by
  rintro va _ hHi _ ⟨u, hEntry, _⟩
  rw [root_bareMachine] at hEntry
  exact entry_ne_zero hEntry (bareRam_zero _ (by omega))

/-
  The same with one page, that of the word `j` in the page
  table of the entry `i`: the table is at 0x103000, the page
  at 0x110000.
-/
def onePageRam (i j : Nat) : ByteMemory :=
  (bareRam.setWord 0x101000 i 0x103007).setWord
    0x103000 j 0x110007

def onePageMachine (i j : Nat) : Machine :=
  bareMachine.withRam (onePageRam i j)

section

variable {i j k : Nat}

theorem root_onePageMachine (i j : Nat) :
    (onePageMachine i j).root = 0x101000 := root_bareMachine

theorem word_onePageRam
    (hi : i < 1022)
    (hj : j < 1024)
    (hk : k < 1024) :
    (onePageRam i j).word 0x101000 k =
      if k = i then 0x103007 else bareRam.word 0x101000 k := by
  unfold onePageRam
  rw [ByteMemory.word_setWord_of_ne _ _ (by decide)
    (by decide) hj hk (.inl (by decide))]
  by_cases hSame : k = i
  · subst hSame
    rw [if_pos rfl]
    exact ByteMemory.word_setWord_self _ _ _ (by decide)
  · rw [if_neg hSame]
    exact ByteMemory.word_setWord_of_ne _ _ (by decide)
      (by decide) (by omega) hk (.inr hSame)

/- The words of its page table. -/
theorem word_onePageTable
    (hi : i < 1022)
    (hj : j < 1024)
    (hk : k < 1024) :
    (onePageRam i j).word 0x103000 k =
      if k = j then 0x110007 else 0 := by
  unfold onePageRam
  by_cases hSame : k = j
  · subst hSame
    rw [if_pos rfl]
    exact ByteMemory.word_setWord_self _ _ _ (by decide)
  · rw [if_neg hSame,
      ByteMemory.word_setWord_of_ne _ _ (by decide)
        (by decide) hj hk (.inr hSame),
      ByteMemory.word_setWord_of_ne _ _ (by decide)
        (by decide) (by omega) hk (.inl (by decide))]
    unfold bareRam
    rw [ByteMemory.word_setWord_of_ne _ _ (by decide)
        (by decide) (by decide) hk (.inl (by decide)),
      ByteMemory.word_setWord_of_ne _ _ (by decide)
        (by decide) (by decide) hk (.inl (by decide)),
      ByteMemory.word_setWord_of_ne _ _ (by decide)
        (by decide) (by decide) hk (.inl (by decide))]
    rfl

/- Where an entry of its directory leads. -/
theorem entry_onePageRam
    (hi : i < 1022)
    (hj : j < 1024)
    (hk : k < 1024) :
    (onePageRam i j).entry 0x101000 k =
      if k = i then some 0x103000
      else bareRam.entry 0x101000 k := by
  have hWord := word_onePageRam hi hj hk
  by_cases hSame : k = i
  · rw [if_pos hSame] at hWord ⊢
    exact ByteMemory.entry_of_word hWord
  · rw [if_neg hSame] at hWord ⊢
    exact ByteMemory.entry_congr hWord

theorem selfMapped_onePageMachine
    (hi : i < 1022)
    (hj : j < 1024) :
    SelfMapped (onePageMachine i j)
      ⟨0x101000, KERNEL_DIR_VIRTUAL, KERNEL_TABLES_VIRTUAL⟩
      0x102000 := by
  have hHigh :
      ∀ k, 1022 ≤ k → k < 1024 →
        (onePageRam i j).word 0x101000 k =
          bareRam.word 0x101000 k := by
    intro k hLow hk
    rw [word_onePageRam hi hj hk, if_neg (by omega)]
  refine selfMapped_bareMachine.congr rfl rfl rfl rfl ?_ ?_ ?_
  · rw [root_bareMachine]
    exact hHigh _ (by decide) (by decide)
  · change (onePageRam i j).word 0x102000 _ = _
    unfold onePageRam
    rw [ByteMemory.word_setWord_of_ne _ _ (by decide)
        (by decide) hj (by decide) (.inl (by decide)),
      ByteMemory.word_setWord_of_ne _ _ (by decide)
        (by decide) (by omega) (by decide) (.inl (by decide))]
    rfl
  · rw [root_bareMachine]
    exact hHigh _ (by decide) (by decide)

theorem readable_onePageMachine
    (hi : i < 1022)
    (hj : j < 1024) :
    Readable (onePageMachine i j) := by
  refine ⟨⟨_, _, selfMapped_onePageMachine hi hj⟩, ?_⟩
  intro k hk
  have hBare := readable_bareMachine.tables k hk
  rw [root_bareMachine] at hBare
  rw [root_onePageMachine]
  change (onePageRam i j).word 0x101000 k = 0 ∨
    ∃ u, (onePageRam i j).entry 0x101000 k = some u
  rw [word_onePageRam hi hj hk, entry_onePageRam hi hj hk]
  by_cases hSame : k = i
  · exact .inr ⟨0x103000, if_pos hSame⟩
  · rw [if_neg hSame, if_neg hSame]
    exact hBare

/- Below the self-map the one page is mapped, and no other. -/
theorem mapped_onePageMachine
    {va : Nat}
    (hi : i < 1022)
    (hj : j < 1024)
    (hva : va < 1022 * 2 ^ 22) :
    (onePageMachine i j).Mapped va ↔
      va / 4096 = i * 1024 + j := by
  have hIndex : va / 2 ^ 22 < 1022 := by omega
  have hWord := word_onePageTable hi hj
    (by omega : va / 4096 % 1024 < 1024)
  unfold Machine.Mapped
  rw [root_onePageMachine]
  change (∃ u, (onePageRam i j).entry 0x101000 _ = some u ∧
    (onePageRam i j).word u _ ≠ 0) ↔ _
  rw [entry_onePageRam hi hj (by omega)]
  by_cases hSame : va / 2 ^ 22 = i
  · rw [if_pos hSame]
    constructor
    · rintro ⟨u, hu, hNe⟩
      cases hu
      by_cases hPage : va / 4096 % 1024 = j
      · omega
      · rw [hWord, if_neg hPage] at hNe
        exact absurd rfl hNe
    · intro hPage
      refine ⟨0x103000, rfl, ?_⟩
      rw [hWord, if_pos (by omega)]
      decide
  · rw [if_neg hSame,
      ByteMemory.entry_of_word (bareRam_zero _ hIndex)]
    refine iff_of_false ?_ (by omega)
    rintro ⟨u, hu, -⟩
    cases hu

end

/- A page of the first stack of 16 KiB is mapped. -/
def stackedMachine : Machine := onePageMachine 896 2

theorem readable_stackedMachine : Readable stackedMachine :=
  readable_onePageMachine (by decide) (by decide)

theorem unmapped_stackedMachine_iff
    (hLow : 0xE0000000 ≤ start)
    (hHigh : start + 0x4000 ≤ 0xF0000000)
    (hAligned : start % 0x4000 = 0) :
    Unmapped stackedMachine 0x4000 start ↔
      start ≠ 0xE0000000 := by
  constructor
  · rintro hUnmapped rfl
    refine hUnmapped 0xE0002000 (by decide) (by decide)
      (by decide) ?_
    exact (mapped_onePageMachine (by decide) (by decide)
      (by decide)).mpr (by decide)
  · intro hNe va hLo hHi _ hMapped
    have hPage :=
      (mapped_onePageMachine (by decide) (by decide)
        (by omega)).mp hMapped
    omega

/- The pages of the user's stacks, 16 KiB at a time. -/
theorem find_user_stack :
    Finds stackedMachine USER_STACKS_START USER_STACKS_END
      0x4000 1 0xE0004000 := by
  have hRange :
      pageRoundDown USER_STACKS_START = 0xE0000000 ∧
        pageRoundUp USER_STACKS_END = 0xF0000000 ∧
        rangeStep (pageRoundUp 0x4000) 1 = 0x4000 ∧
        pageRoundUp 0x4000 = 0x4000 := by
    decide
  have hMem :
      0xE0004000 ∈
        unmappedCandidates stackedMachine 0x4000 0x4000
          0xF0000000 0xE0000000 :=
    ⟨⟨1, rfl⟩, by decide,
      (unmapped_stackedMachine_iff (by decide) (by decide)
        (by decide)).mpr (by decide)⟩
  rcases find_free_range_least 1 readable_stackedMachine
      (by decide : USER_STACKS_START < 2 ^ 32)
      (by decide : 0 < pageRoundUp 0x4000)
      (by decide :
        pageRoundUp USER_STACKS_END + 2 * pageRoundUp 0x4000 ≤
          2 ^ 32) with
    ⟨r, hFinds, hResult⟩
  rw [hRange.1, hRange.2.1, hRange.2.2.1, hRange.2.2.2]
    at hResult
  rcases hResult with hLeast | ⟨hNone, -⟩
  · rcases hLeast.1 with ⟨⟨k, rfl⟩, hBelow, hUnmapped⟩
    have hLe := hLeast.2 hMem
    have hNe :=
      (unmapped_stackedMachine_iff (by omega) (by omega)
        (by omega)).mp hUnmapped
    have hOne : k = 1 := by omega
    rw [hOne] at hFinds
    exact hFinds
  · rw [hNone] at hMem
    exact absurd hMem (Set.notMem_empty _)

------------------------------------------------------------
-- Staying Inside
------------------------------------------------------------

/-
  The search ends, and a range that it grants lies between
  `vaStart` and `vaEnd`.
-/
def GrantsInside
    (m : Machine)
    (vaStart vaEnd size : Nat)
    (sizeAligned : UInt8) : Prop :=
  ∃ r, Finds m vaStart vaEnd size sizeAligned r ∧
    (r ≠ pageRoundUp vaEnd →
      vaStart ≤ r ∧ r + size ≤ vaEnd)

/-
  The end is rounded to zero; or the size is not, before each
  free candidate that starts or ends outside there is another
  free one, and the candidates do not repeat themselves below
  the end.
-/
def Contained
    (m : Machine)
    (vaStart vaEnd size : Nat)
    (sizeAligned : UInt8) : Prop :=
  let start := pageRoundDown vaStart
  let length := pageRoundUp size
  let step := rangeStep length sizeAligned
  pageRoundUp vaEnd = 0 ∨
    length ≠ 0 ∧
      (∀ k, start + k * step < pageRoundUp vaEnd →
        Free m length (start + k * step) →
        start + k * step < vaStart ∨
            vaEnd < start + k * step + size →
          ∃ i, i < k ∧ Free m length (start + i * step)) ∧
      ((∃ k, start + k * step < pageRoundUp vaEnd ∧
          Free m length (start + k * step)) ∨
        ∃ k, pageRoundUp vaEnd ≤ (start + k * step) % 2 ^ 32)

/- The search has one result. -/
theorem Finds.unique
    {vaStart r' : Nat}
    {al : UInt8}
    (hFinds : Finds m vaStart vaEnd size al r)
    (hFinds' : Finds m vaStart vaEnd size al r') :
    r = r' := by
  rcases hFinds with ⟨n, hn⟩
  rcases hFinds' with ⟨n', hn'⟩
  have hRun := hn (max n n') (Nat.le_max_left _ _)
  rw [hn' (max n n') (Nat.le_max_right _ _)] at hRun
  cases hRun
  rfl

/- An end in the last page is rounded to zero. -/
theorem finds_of_end_zero
    {vaStart : Nat}
    {al : UInt8}
    (hZero : pageRoundUp vaEnd = 0) :
    Finds m vaStart vaEnd size al (pageRoundUp vaEnd) := by
  refine ⟨1, ?_⟩
  intro bound hBound
  cases bound with
  | zero => omega
  | succ bound =>
      unfold findFreeRange
      rw [searchRange, if_neg (by omega)]
      rfl

/- A size in the last page is rounded to zero. -/
theorem finds_of_size_zero
    {vaStart : Nat}
    {al : UInt8}
    (hStart : vaStart < 2 ^ 32)
    (hZero : pageRoundUp size = 0)
    (hInside : pageRoundDown vaStart < pageRoundUp vaEnd) :
    Finds m vaStart vaEnd size al (pageRoundDown vaStart) := by
  have hLe := pageAddr_le vaStart
  have hSame :
      add32 (pageRoundDown vaStart) 0 =
        pageRoundDown vaStart := by
    unfold add32 pageRoundDown
    omega
  refine ⟨1, ?_⟩
  intro bound hBound
  cases bound with
  | zero => omega
  | succ bound =>
      have hScan :
          (scanRange (bound + 1) (pageRoundDown vaStart)
            (pageRoundDown vaStart)).run m =
            .ok (pageRoundDown vaStart) m := by
        rw [scanRange, if_neg (by omega)]
        rfl
      unfold findFreeRange
      rw [hZero, searchRange, if_pos hInside, hSame,
        EStateM.bind_of_ok hScan, if_pos rfl]
      rfl

theorem pageRoundUp_eq
    (hLe : va ≤ 0xFFFFF000) :
    pageRoundUp va = (va + 4095) / 4096 * 4096 := by
  unfold pageRoundUp pageAddr sub32 add32 PAGE_SIZE
  omega

theorem pageRoundUp_zero
    (hLo : 0xFFFFF000 < va)
    (hHi : va < 2 ^ 32) :
    pageRoundUp va = 0 := by
  unfold pageRoundUp pageAddr sub32 add32 PAGE_SIZE
  omega

/-
  The search ends and stays inside exactly for contained
  arguments.
-/
theorem find_free_range_inside_iff
    {vaStart : Nat}
    (al : UInt8)
    (hReadable : Readable m)
    (hLt : vaStart < vaEnd)
    (hEnd : vaEnd < 2 ^ 32)
    (hPos : 0 < size)
    (hSize : size < 2 ^ 32) :
    GrantsInside m vaStart vaEnd size al ↔
      Contained m vaStart vaEnd size al := by
  have hStart : vaStart < 2 ^ 32 := by omega
  by_cases hZero : pageRoundUp vaEnd = 0
  · constructor
    · intro _
      exact .inl hZero
    · intro _
      exact ⟨_, finds_of_end_zero hZero,
        fun hNe => absurd rfl hNe⟩
  have hEndLe : vaEnd ≤ 0xFFFFF000 := by
    by_contra hHigh
    exact hZero (pageRoundUp_zero (by omega) hEnd)
  have hInside :
      pageRoundDown vaStart < pageRoundUp vaEnd := by
    have hLe := pageAddr_le vaStart
    rw [pageRoundUp_eq hEndLe]
    unfold pageRoundDown
    omega
  constructor
  · rintro ⟨r, hFinds, hr⟩
    have hLength : pageRoundUp size ≠ 0 := by
      intro hNone
      have hSame :=
        hFinds.unique (finds_of_size_zero hStart hNone hInside)
      have hSizeHigh : 0xFFFFF000 < size := by
        by_contra hLow
        rw [pageRoundUp_eq (by omega)] at hNone
        omega
      have hBoth := hr (by omega)
      omega
    refine .inr ⟨hLength, ?_, ?_⟩
    · intro k hBelow hFree hBad
      rcases (finds_iff hReadable hStart hLength).mp hFinds with
        ⟨j, hrj, hBelowJ, hFreeJ, hBefore⟩ | ⟨_, hNone, _⟩
      · rcases Nat.lt_trichotomy j k with hjk | hjk | hjk
        · rw [hrj] at hFreeJ
          exact ⟨j, hjk, hFreeJ⟩
        · subst hjk
          have hBoth := hr (by omega)
          omega
        · exact absurd hFree (hBefore k hjk)
      · exact absurd hFree (hNone k hBelow)
    · rcases (finds_iff hReadable hStart hLength).mp hFinds with
        ⟨j, hrj, hBelowJ, hFreeJ, _⟩ | ⟨_, _, hLeave⟩
      · rw [hrj] at hBelowJ hFreeJ
        exact .inl ⟨j, hBelowJ, hFreeJ⟩
      · exact .inr hLeave
  · rintro (hBad | ⟨hLength, hOutside, hEnds⟩)
    · exact absurd hBad hZero
    rcases exists_outcome hEnds with ⟨r, hOutcome⟩
    refine ⟨r, (finds_iff hReadable hStart hLength).mpr
      hOutcome, ?_⟩
    intro hNe
    rcases hOutcome with
      ⟨k, rfl, hBelow, hFree, hBefore⟩ | ⟨hr, _⟩
    · by_contra hNot
      rcases hOutside k hBelow hFree (by omega) with
        ⟨i, hi, hFreeI⟩
      exact hBefore i hi hFreeI
    · exact absurd hr hNe

/- A stack of 16 KiB is granted beside one that is there. -/
theorem user_stack_inside :
    GrantsInside stackedMachine USER_STACKS_START
      USER_STACKS_END 0x4000 1 := by
  refine (find_free_range_inside_iff 1 readable_stackedMachine
    (by decide) (by decide) (by decide) (by decide)).mpr ?_
  refine .inr ⟨by decide, ?_, .inl ⟨1, by decide, by decide,
    (unmapped_stackedMachine_iff (by decide) (by decide)
      (by decide)).mpr (by decide)⟩⟩
  intro k hBelow _ hBad
  have hRange :
      pageRoundDown USER_STACKS_START = 0xE0000000 ∧
        pageRoundUp USER_STACKS_END = 0xF0000000 ∧
        rangeStep (pageRoundUp 0x4000) 1 = 0x4000 := by
    decide
  rw [hRange.1, hRange.2.1, hRange.2.2] at hBelow
  rw [hRange.1, hRange.2.2] at hBad
  unfold USER_STACKS_START USER_STACKS_END at hBad
  omega

/-
  A stack of 256 MiB and a page is granted at the start of
  the user's stacks, and reaches into the kernel's heap.
-/
theorem large_stack_outside :
    ¬ GrantsInside bareMachine USER_STACKS_START
        USER_STACKS_END 0x10001000 1 := by
  intro hGrants
  have hFree :
      Free bareMachine (pageRoundUp 0x10001000)
        (pageRoundDown USER_STACKS_START) :=
    ⟨by decide, unmapped_bareMachine (by decide)⟩
  have hFinds :
      Finds bareMachine USER_STACKS_START USER_STACKS_END
        0x10001000 1 (pageRoundDown USER_STACKS_START) := by
    refine (finds_iff readable_bareMachine (by decide)
      (by decide)).mpr (.inl ⟨0, ?_, by decide, hFree, ?_⟩)
    · rw [Nat.zero_mul, Nat.add_zero]
    · intro i hi
      omega
  rcases hGrants with ⟨r, hFinds', hInside⟩
  have hSame := hFinds'.unique hFinds
  subst hSame
  have hBoth := hInside (by decide)
  exact absurd hBoth.2 (by decide)

end Vmm

end SosKernel
