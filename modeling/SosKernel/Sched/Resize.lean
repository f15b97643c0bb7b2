import SosKernel.Fs.Strings
import SosKernel.Layout
import SosKernel.Lib.Program
import SosKernel.Sched.List
import SosKernel.Stop

/-
  `__resize` of `lib/list.c`, which no operation calls.

  Main declarations:
    * `World`: memory and the live blocks of the heap
    * `resize`
    * `Settled`: where the two loops end
    * `Resized`: what the function is for
    * `resize_right_iff`
-/

------------------------------------------------------------
-- The Heap, Seen From the List
------------------------------------------------------------

namespace SosKernel

namespace Sched

namespace Resize

/-
  `blocks` are the addresses and lengths that `kmalloc` has
  given out.  `kmallocs` has its answers to come, each with
  the bytes it leaves outside the blocks, and `kfreed` what
  `kfree` leaves there.
-/
structure World where
  mem : ByteMemory
  blocks : List (Nat × Nat)
  kmallocs : List (Nat × ByteMemory)
  kfreed : ByteMemory

abbrev ResizeM := EStateM Stop World

namespace World

/- The byte at `x` is in a block. -/
def InBlock (w : World) (x : Nat) : Prop :=
  ∃ b ∈ w.blocks, b.1 ≤ x ∧ x < b.1 + b.2

instance (w : World) (x : Nat) : Decidable (w.InBlock x) :=
  inferInstanceAs
    (Decidable (∃ b ∈ w.blocks, b.1 ≤ x ∧ x < b.1 + b.2))

/- The heap writes its headers, but no block. -/
def withHeaders
    (w : World)
    (headers : ByteMemory) : ByteMemory :=
  fun x => if w.InBlock x then w.mem x else headers x

/- There is room for `n` bytes at `p`. -/
def Room (w : World) (p n : Nat) : Prop :=
  p ≠ 0 ∧ p + n ≤ 2 ^ 32 ∧
    ∀ b ∈ w.blocks,
      p ≠ b.1 ∧ (p + n ≤ b.1 ∨ b.1 + b.2 ≤ p)

instance (w : World) (p n : Nat) : Decidable (w.Room p n) :=
  inferInstanceAs
    (Decidable
      (p ≠ 0 ∧ p + n ≤ 2 ^ 32 ∧
        ∀ b ∈ w.blocks,
          p ≠ b.1 ∧ (p + n ≤ b.1 ∨ b.1 + b.2 ≤ p)))

end World

/- The heap's contract: the answer is a new block. -/
def kmalloc (n : Nat) : ResizeM Nat := do
  let w ← get
  match w.kmallocs with
  | [] => throw (.panic "Heap: out of memory.")
  | (p, headers) :: rest =>
      if w.Room p n then
        set
          { w with
            mem := w.withHeaders headers
            blocks := (p, n) :: w.blocks
            kmallocs := rest }
        return p
      else
        throw (.badAlloc p)

def memsetBytes
    (dest : Nat)
    (val : UInt8) : Nat → ByteMemory → ByteMemory
| 0, mem => mem
| len + 1, mem =>
    memsetBytes (dest + 1) val len
      (Function.update mem dest val)

def memset (dest : Nat) (val : UInt8) (len : Nat) :
    ResizeM Unit :=
  modify fun w =>
    { w with mem := memsetBytes dest val len w.mem }

def kmallocZero (size : Nat) : ResizeM Nat := do
  let addr ← kmalloc size
  memset addr 0 size
  return addr

def memcpy (dest src len : Nat) : ResizeM Unit :=
  modify fun w =>
    { w with mem := Fs.memcpy dest src len w.mem }

/- Blocks are told apart by their address. -/
def kfree (p : Nat) : ResizeM Unit := do
  let w ← get
  if p ∈ w.blocks.map Prod.fst then
    let w := { w with
      blocks := w.blocks.filter fun b => b.1 ≠ p }
    set { w with mem := w.withHeaders w.kfreed }
  else
    throw (.badPointer p)

------------------------------------------------------------
-- The Function
------------------------------------------------------------

/- The fields of a `list_t`, which is in a block of its own. -/
structure ListObject where
  elems : Nat
  capacity : Nat
  size : Nat
  curr : Nat
deriving DecidableEq, Repr

def umin (a b : Nat) : Nat :=
  if a < b then a else b

/- `while (desired_capacity > new_capacity)`. -/
def growLoop : Nat → Nat → Nat → ResizeM Nat
| 0, _, _ => throw .hang
| fuel + 1, desired, capacity =>
    if desired > capacity then
      growLoop fuel desired (capacity * 2 % 2 ^ 32)
    else
      return capacity

/- `while (2 * desired_capacity < new_capacity)`. -/
def shrinkLoop : Nat → Nat → Nat → ResizeM Nat
| 0, _, _ => throw .hang
| fuel + 1, desired, capacity =>
    if 2 * desired % 2 ^ 32 < capacity then
      shrinkLoop fuel desired (capacity / 2)
    else
      return capacity

def resize
    (fuel : Nat)
    (list : ListObject)
    (desired : Nat) : ResizeM ListObject := do
  if INITIAL_CAPACITY > desired then
    return list
  let capacity :=
    add32 list.capacity (if list.capacity = 0 then 1 else 0)
  let capacity ← growLoop fuel desired capacity
  let capacity ← shrinkLoop fuel desired capacity
  let elems ← kmallocZero (4 * capacity % 2 ^ 32)
  if list.elems ≠ 0 then
    memcpy elems list.elems (umin list.capacity capacity)
    kfree list.elems
  return { list with capacity := capacity, elems := elems }

------------------------------------------------------------
-- The Loops
------------------------------------------------------------

variable {desired capacity : Nat}

/- Doubling stops at the first power that is enough. -/
theorem run_growLoop
    (fuel : Nat)
    (w : World)
    (hPos : 0 < capacity)
    (hDesired : desired < 2 ^ 30)
    (hEnough : desired ≤ capacity * 2 ^ fuel) :
    ∃ k,
      (growLoop (fuel + 1) desired capacity).run w =
          .ok (capacity * 2 ^ k) w ∧
        desired ≤ capacity * 2 ^ k ∧
        ∀ j, j < k → capacity * 2 ^ j < desired := by
  induction fuel generalizing capacity with
  | zero =>
      refine ⟨0, ?_, hEnough, fun j hj => by omega⟩
      rw [growLoop, if_neg (by omega), Nat.pow_zero,
        Nat.mul_one]
      rfl
  | succ fuel ih =>
      by_cases hLess : desired > capacity
      · have hWord : capacity * 2 % 2 ^ 32 = capacity * 2 :=
          Nat.mod_eq_of_lt (by omega)
        have hTwice :
            ∀ j, capacity * 2 * 2 ^ j =
              capacity * 2 ^ (j + 1) := by
          intro j
          rw [Nat.pow_succ', Nat.mul_assoc]
        have hTwicePos : 0 < capacity * 2 := by omega
        rw [← hTwice] at hEnough
        rcases ih hTwicePos hEnough with ⟨k, hRun, hLe, hLt⟩
        refine ⟨k + 1, ?_, ?_, ?_⟩
        · rw [growLoop, if_pos hLess, hWord, ← hTwice]
          exact hRun
        · rw [← hTwice]
          exact hLe
        · intro j hj
          cases j with
          | zero => omega
          | succ j =>
              rw [← hTwice]
              exact hLt j (by omega)
      · refine ⟨0, ?_, by omega, fun j hj => by omega⟩
        rw [growLoop, if_neg hLess, Nat.pow_zero,
          Nat.mul_one]
        rfl

/- Halving stops at the first quotient that is not too big. -/
theorem run_shrinkLoop
    (fuel : Nat)
    (w : World)
    (hDesired : desired < 2 ^ 30)
    (hEnough : capacity / 2 ^ fuel ≤ 2 * desired) :
    ∃ k,
      (shrinkLoop (fuel + 1) desired capacity).run w =
          .ok (capacity / 2 ^ k) w ∧
        capacity / 2 ^ k ≤ 2 * desired ∧
        ∀ j, j < k → 2 * desired < capacity / 2 ^ j := by
  have hWord : 2 * desired % 2 ^ 32 = 2 * desired :=
    Nat.mod_eq_of_lt (by omega)
  induction fuel generalizing capacity with
  | zero =>
      refine ⟨0, ?_, hEnough, fun j hj => by omega⟩
      rw [Nat.pow_zero, Nat.div_one] at hEnough ⊢
      rw [shrinkLoop, hWord, if_neg (by omega)]
      rfl
  | succ fuel ih =>
      by_cases hMore : 2 * desired < capacity
      · have hHalf :
            ∀ j, capacity / 2 / 2 ^ j =
              capacity / 2 ^ (j + 1) := by
          intro j
          rw [Nat.div_div_eq_div_mul, Nat.pow_succ']
        rw [← hHalf] at hEnough
        rcases ih hEnough with ⟨k, hRun, hLe, hLt⟩
        refine ⟨k + 1, ?_, ?_, ?_⟩
        · rw [shrinkLoop, hWord, if_pos hMore, ← hHalf]
          exact hRun
        · rw [← hHalf]
          exact hLe
        · intro j hj
          cases j with
          | zero =>
              rw [Nat.pow_zero, Nat.div_one]
              exact hMore
          | succ j =>
              rw [← hHalf]
              exact hLt j (by omega)
      · refine ⟨0, ?_, ?_, fun j hj => by omega⟩
        · rw [shrinkLoop, hWord, if_neg hMore, Nat.pow_zero,
            Nat.div_one]
          rfl
        · rw [Nat.pow_zero, Nat.div_one]
          omega

/- Where the loops end, for a list of capacity `c`. -/
structure Settled (c desired n : Nat) : Prop where
  grown :
    c < desired →
      ∃ k, n = max c 1 * 2 ^ k ∧ desired ≤ n ∧
        ∀ j, j < k → max c 1 * 2 ^ j < desired
  shrunk :
    desired ≤ c →
      ∃ k, n = c / 2 ^ k ∧ n ≤ 2 * desired ∧
        ∀ j, j < k → 2 * desired < c / 2 ^ j

namespace Settled

variable {c n : Nat}

/- Doubling goes less than twice as far as it has to. -/
theorem window
    (hSettled : Settled c desired n)
    (hDesired : INITIAL_CAPACITY ≤ desired) :
    desired ≤ n ∧ n ≤ 2 * desired := by
  unfold INITIAL_CAPACITY at hDesired
  by_cases hLess : c < desired
  · rcases hSettled.grown hLess with ⟨k, rfl, hLe, hLt⟩
    refine ⟨hLe, ?_⟩
    cases k with
    | zero =>
        rw [Nat.pow_zero, Nat.mul_one]
        omega
    | succ k =>
        have hBefore := hLt k (Nat.lt_succ_self k)
        rw [Nat.pow_succ, ← Nat.mul_assoc]
        omega
  · rcases hSettled.shrunk (by omega) with ⟨k, rfl, hLe, hLt⟩
    refine ⟨?_, hLe⟩
    cases k with
    | zero =>
        rw [Nat.pow_zero, Nat.div_one]
        omega
    | succ k =>
        have hBefore := hLt k (Nat.lt_succ_self k)
        rw [Nat.pow_succ, ← Nat.div_div_eq_div_mul]
        omega

/- Whether the new array has less than `2 ^ 30` pointers. -/
def Fits (c desired : Nat) : Prop :=
  (c < desired →
    ∃ k, desired ≤ max c 1 * 2 ^ k ∧
      max c 1 * 2 ^ k < 2 ^ 30) ∧
  (desired ≤ c →
    ∀ k, c / 2 ^ k ≤ 2 * desired → c / 2 ^ k < 2 ^ 30)

theorem lt_iff_fits
    (hSettled : Settled c desired n) :
    n < 2 ^ 30 ↔ Fits c desired := by
  by_cases hLess : c < desired
  · rcases hSettled.grown hLess with ⟨k, rfl, hLe, hBefore⟩
    constructor
    · intro hn
      exact ⟨fun _ => ⟨k, hLe, hn⟩, fun h => by omega⟩
    · intro hFits
      rcases hFits.1 hLess with ⟨i, hEnough, hi⟩
      -- the loop stops at the first power that is enough
      have hk : k ≤ i := by
        by_contra hLater
        have hShort := hBefore i (by omega)
        omega
      refine lt_of_le_of_lt ?_ hi
      exact Nat.mul_le_mul_left _
        (Nat.pow_le_pow_right (by omega) hk)
  · rcases hSettled.shrunk (by omega) with
      ⟨k, rfl, hLe, hBefore⟩
    constructor
    · intro hn
      refine ⟨fun h => by omega, ?_⟩
      intro _ i hi
      have hk : k ≤ i := by
        by_contra hEarlier
        have hBig := hBefore i (by omega)
        omega
      refine lt_of_le_of_lt ?_ hn
      exact Nat.div_le_div_left
        (Nat.pow_le_pow_right (by omega) hk)
        (Nat.two_pow_pos k)
    · intro hFits
      exact hFits.2 (by omega) k hLe

/- The offset `o` is below the number of bytes copied. -/
def Copied (c desired o : Nat) : Prop :=
  ∃ k, c / 2 ^ k ≤ 2 * desired ∧ o < c / 2 ^ k

theorem lt_umin_iff_copied
    {o : Nat}
    (hSettled : Settled c desired n)
    (hDesired : INITIAL_CAPACITY ≤ desired) :
    o < umin c n ↔ Copied c desired o := by
  have hMin : umin c n = min c n := by
    unfold umin
    by_cases hc : c < n
    · rw [if_pos hc]
      omega
    · rw [if_neg hc]
      omega
  have hWindow := hSettled.window hDesired
  rw [hMin]
  by_cases hLess : c < desired
  · have hAll : min c n = c := by omega
    rw [hAll]
    constructor
    · intro ho
      refine ⟨0, ?_⟩
      rw [Nat.pow_zero, Nat.div_one]
      exact ⟨by omega, ho⟩
    · rintro ⟨k, _, ho⟩
      exact lt_of_lt_of_le ho (Nat.div_le_self c (2 ^ k))
  · rcases hSettled.shrunk (by omega) with
      ⟨k, rfl, hLe, hBefore⟩
    have hAll : min c (c / 2 ^ k) = c / 2 ^ k :=
      Nat.min_eq_right (Nat.div_le_self c (2 ^ k))
    rw [hAll]
    constructor
    · intro ho
      exact ⟨k, hLe, ho⟩
    · rintro ⟨i, hi, ho⟩
      have hk : k ≤ i := by
        by_contra hEarlier
        have hBig := hBefore i (by omega)
        omega
      refine lt_of_lt_of_le ho ?_
      exact Nat.div_le_div_left
        (Nat.pow_le_pow_right (by omega) hk)
        (Nat.two_pow_pos k)

end Settled

/- Both loops, one after the other. -/
theorem run_loops
    {c fuel : Nat}
    (w : World)
    (hCapacity : c < 2 ^ 32)
    (hLow : INITIAL_CAPACITY ≤ desired)
    (hHigh : desired < 2 ^ 30)
    (hFuel : 33 ≤ fuel) :
    ∃ mid n,
      Settled c desired n ∧
        (growLoop fuel desired
          (add32 c (if c = 0 then 1 else 0))).run w =
            .ok mid w ∧
        (shrinkLoop fuel desired mid).run w = .ok n w := by
  unfold INITIAL_CAPACITY at hLow
  have hFirst :
      add32 c (if c = 0 then 1 else 0) = max c 1 := by
    unfold add32
    by_cases hc : c = 0
    · rw [if_pos hc, hc]
      rfl
    · rw [if_neg hc, Nat.mod_eq_of_lt (by omega)]
      omega
  have hGrowFuel : fuel - 1 + 1 = fuel := by omega
  have hPow : 2 ^ 32 ≤ 2 ^ (fuel - 1) :=
    Nat.pow_le_pow_right (by omega) (by omega)
  have hEnough : desired ≤ max c 1 * 2 ^ (fuel - 1) := by
    have hMul :
        1 * 2 ^ (fuel - 1) ≤ max c 1 * 2 ^ (fuel - 1) :=
      Nat.mul_le_mul_right _ (Nat.le_max_right c 1)
    omega
  rcases run_growLoop (fuel - 1) w
    (show 0 < max c 1 by omega) hHigh hEnough with
    ⟨k, hGrow, hLe, hBefore⟩
  rw [hGrowFuel] at hGrow
  have hDoubled :
      c < desired → max c 1 * 2 ^ k ≤ 2 * desired := by
    intro hLess
    cases k with
    | zero =>
        rw [Nat.pow_zero, Nat.mul_one]
        omega
    | succ k =>
        have hLast := hBefore k (Nat.lt_succ_self k)
        rw [Nat.pow_succ, ← Nat.mul_assoc]
        omega
  have hKept : desired ≤ c → max c 1 * 2 ^ k = c := by
    intro hMore
    cases k with
    | zero =>
        rw [Nat.pow_zero, Nat.mul_one]
        omega
    | succ k =>
        have hLast := hBefore 0 (Nat.succ_pos k)
        omega
  generalize hMid : max c 1 * 2 ^ k = mid at *
  have hSmall : mid / 2 ^ (fuel - 1) ≤ 2 * desired := by
    by_cases hLess : c < desired
    · exact (Nat.div_le_self mid _).trans (hDoubled hLess)
    · have hZero : mid / 2 ^ (fuel - 1) = 0 := by
        rw [hKept (by omega)]
        exact Nat.div_eq_of_lt (by omega)
      omega
  rcases run_shrinkLoop (fuel - 1) w hHigh hSmall with
    ⟨i, hShrink, hDown, hAbove⟩
  rw [hGrowFuel] at hShrink
  rw [← hFirst] at hGrow
  refine ⟨mid, mid / 2 ^ i, ?_, hGrow, hShrink⟩
  refine { grown := ?_, shrunk := ?_ }
  · intro hLess
    have hi : i = 0 := by
      by_contra hPos
      have hFalse := hAbove 0 (by omega)
      rw [Nat.pow_zero, Nat.div_one] at hFalse
      exact absurd (hDoubled hLess) (by omega)
    rw [hi, Nat.pow_zero, Nat.div_one]
    exact ⟨k, hMid.symm, hLe, hBefore⟩
  · intro hMore
    rw [hKept hMore] at hDown hAbove ⊢
    exact ⟨i, rfl, hDown, hAbove⟩

------------------------------------------------------------
-- The Heap's Answers
------------------------------------------------------------

theorem memsetBytes_of_apart
    {dest len x : Nat}
    {val : UInt8}
    {mem : ByteMemory}
    (hApart : x < dest ∨ dest + len ≤ x) :
    memsetBytes dest val len mem x = mem x := by
  induction len generalizing dest mem with
  | zero => rfl
  | succ len ih =>
      have hRest :
          memsetBytes (dest + 1) val len
              (Function.update mem dest val) x =
            Function.update mem dest val x :=
        ih (by omega)
      exact hRest.trans
        (Function.update_of_ne (by omega) _ _)

theorem memsetBytes_apply_add
    {dest len k : Nat}
    {val : UInt8}
    {mem : ByteMemory}
    (hk : k < len) :
    memsetBytes dest val len mem (dest + k) = val := by
  induction len generalizing dest k mem with
  | zero => exact absurd hk (Nat.not_lt_zero k)
  | succ len ih =>
      change
        memsetBytes (dest + 1) val len
            (Function.update mem dest val) (dest + k) = val
      cases k with
      | zero =>
          rw [memsetBytes_of_apart (by omega)]
          exact Function.update_self _ _ _
      | succ k =>
          have hDest : dest + (k + 1) = dest + 1 + k := by
            omega
          rw [hDest]
          exact ih (by omega)

/- The ways to stop: no memory, or a broken heap. -/
def Refused (e : Stop) (_ : World) : Prop :=
  e = .panic "Heap: out of memory." ∨ ∃ p, e = .badAlloc p

/-
  A new block of zeros at `p`, and the old blocks as they
  were.
-/
structure Allocated
    (w : World)
    (n p : Nat)
    (w' : World) : Prop where
  room : w.Room p n
  blocks : w'.blocks = (p, n) :: w.blocks
  zero : ∀ o, o < n → w'.mem (p + o) = 0
  kept :
    ∀ b ∈ w.blocks, ∀ o, o < b.2 →
      w'.mem (b.1 + o) = w.mem (b.1 + o)

theorem World.withHeaders_of_mem
    {w : World}
    {b : Nat × Nat}
    {o : Nat}
    (headers : ByteMemory)
    (hMem : b ∈ w.blocks)
    (ho : o < b.2) :
    w.withHeaders headers (b.1 + o) = w.mem (b.1 + o) := by
  have hIn : w.InBlock (b.1 + o) :=
    ⟨b, hMem, by omega, by omega⟩
  unfold withHeaders
  rw [if_pos hIn]

theorem sat_kmallocZero
    (w : World)
    (n : Nat) :
    ((kmallocZero n).run w).Sat
      (fun p w' => Allocated w n p w') Refused := by
  rcases w with ⟨mem, blocks, kmallocs, kfreed⟩
  cases kmallocs with
  | nil => exact .inl rfl
  | cons answer rest =>
      rcases answer with ⟨p, headers⟩
      generalize hw :
        World.mk mem blocks ((p, headers) :: rest) kfreed = w
      have hKmalloc :
          (kmalloc n).run w =
            if w.Room p n then
              .ok p
                { w with
                  mem := w.withHeaders headers
                  blocks := (p, n) :: w.blocks
                  kmallocs := rest }
            else
              .error (.badAlloc p) w := by
        subst hw
        change EStateM.run (ite _ _ _) _ = _
        rw [apply_ite EStateM.run, ite_apply]
        rfl
      unfold kmallocZero
      by_cases hRoom : w.Room p n
      · rw [if_pos hRoom] at hKmalloc
        rw [EStateM.bind_of_ok hKmalloc]
        refine
          { room := hRoom
            blocks := rfl
            zero := ?_
            kept := ?_ }
        · intro o ho
          exact memsetBytes_apply_add ho
        · intro b hb o ho
          have hApart := (hRoom.2.2 b hb).2
          have hRest :=
            World.withHeaders_of_mem headers hb ho
          refine Eq.trans ?_ hRest
          exact memsetBytes_of_apart (by omega)
      · rw [if_neg hRoom] at hKmalloc
        rw [EStateM.bind_of_error hKmalloc]
        exact .inr ⟨p, rfl⟩

theorem run_kfree
    {w : World}
    {p len : Nat}
    (hMem : (p, len) ∈ w.blocks) :
    ∃ w',
      (kfree p).run w = .ok () w' ∧
        w'.blocks = w.blocks.filter (fun b => b.1 ≠ p) ∧
        ∀ b ∈ w'.blocks, ∀ o, o < b.2 →
          w'.mem (b.1 + o) = w.mem (b.1 + o) := by
  have hLive : p ∈ w.blocks.map Prod.fst :=
    List.mem_map.mpr ⟨(p, len), hMem, rfl⟩
  let w₁ : World :=
    { w with blocks := w.blocks.filter fun b => b.1 ≠ p }
  refine
    ⟨{ w₁ with mem := w₁.withHeaders w₁.kfreed }, ?_, rfl, ?_⟩
  · change EStateM.run (ite _ _ _) _ = _
    rw [if_pos hLive]
    rfl
  · intro b hb o ho
    exact World.withHeaders_of_mem (w := w₁) _ hb ho

------------------------------------------------------------
-- What the Function Does
------------------------------------------------------------

/- The elements below the size have storage. -/
structure Stored (w : World) (list : ListObject) : Prop where
  block :
    list.elems ≠ 0 →
      ∃ len, (list.elems, len) ∈ w.blocks ∧
        4 * list.size ≤ len
  null : list.elems = 0 → list.size = 0

/- The new array has what was copied, and zeros. -/
structure Done
    (w : World)
    (list : ListObject)
    (n : Nat)
    (list' : ListObject)
    (w' : World) : Prop where
  capacity : list'.capacity = n
  size : list'.size = list.size
  curr : list'.curr = list.curr
  block :
    ∀ len, (list'.elems, len) ∈ w'.blocks ↔
      len = 4 * n % 2 ^ 32
  bytes :
    n < 2 ^ 30 → list.size ≤ n →
      ∀ o, o < 4 * list.size →
        w'.mem (list'.elems + o) =
          if o < umin list.capacity n then
            w.mem (list.elems + o)
          else
            0

variable {w : World}
variable {list : ListObject}

theorem sat_resize
    {fuel : Nat}
    (hCapacity : list.capacity < 2 ^ 32)
    (hStored : Stored w list)
    (hLow : INITIAL_CAPACITY ≤ desired)
    (hHigh : desired < 2 ^ 30)
    (hFuel : 33 ≤ fuel) :
    ((resize fuel list desired).run w).Sat
      (fun list' w' =>
        ∃ n, Settled list.capacity desired n ∧
          Done w list n list' w')
      Refused := by
  rcases run_loops w hCapacity hLow hHigh hFuel with
    ⟨mid, n, hSettled, hGrow, hShrink⟩
  unfold resize
  rw [if_neg (by omega), EStateM.bind_of_ok hGrow,
    EStateM.bind_of_ok hShrink]
  refine (sat_kmallocZero w (4 * n % 2 ^ 32)).bind ?_
  intro p w₁ hAlloc
  have hOld :
      ∀ len, (p, len) ∈ w₁.blocks ↔ len = 4 * n % 2 ^ 32 := by
    intro len
    rw [hAlloc.blocks, List.mem_cons, Prod.mk.injEq]
    constructor
    · rintro (⟨_, hLen⟩ | hMem)
      · exact hLen
      · exact absurd rfl (hAlloc.room.2.2 _ hMem).1
    · exact fun hLen => .inl ⟨rfl, hLen⟩
  by_cases hNull : list.elems = 0
  · rw [if_neg (not_not.mpr hNull)]
    refine ⟨n, hSettled, rfl, rfl, rfl, hOld, ?_⟩
    intro _ _ o ho
    rw [hStored.null hNull] at ho
    omega
  · rw [if_pos hNull]
    rcases hStored.block hNull with ⟨len, hMem, hLen⟩
    let w₂ : World :=
      { w₁ with
        mem :=
          Fs.memcpy p list.elems (umin list.capacity n)
            w₁.mem }
    have hMem₂ : (list.elems, len) ∈ w₂.blocks := by
      change _ ∈ w₁.blocks
      rw [hAlloc.blocks]
      exact List.mem_cons_of_mem _ hMem
    rcases run_kfree hMem₂ with ⟨w₃, hFree, hBlocks, hKept⟩
    have hNe : p ≠ list.elems := (hAlloc.room.2.2 _ hMem).1
    have hBlock :
        ∀ len, (p, len) ∈ w₃.blocks ↔
          len = 4 * n % 2 ^ 32 := by
      intro len
      rw [hBlocks, List.mem_filter]
      change (p, len) ∈ w₁.blocks ∧ _ ↔ _
      rw [hOld]
      constructor
      · exact And.left
      · exact fun hLen => ⟨hLen, decide_eq_true hNe⟩
    have hCopy :
        (memcpy p list.elems (umin list.capacity n)).run w₁ =
          .ok () w₂ := rfl
    rw [EStateM.bind_of_ok hCopy, EStateM.bind_of_ok hFree]
    refine ⟨n, hSettled, rfl, rfl, rfl, hBlock, ?_⟩
    intro hn hSize o ho
    have hWord : 4 * n % 2 ^ 32 = 4 * n :=
      Nat.mod_eq_of_lt (by omega)
    have hApart := (hAlloc.room.2.2 _ hMem).2
    rw [hWord] at hApart
    have hMin : umin list.capacity n ≤ n := by
      unfold umin
      by_cases hc : list.capacity < n
      · rw [if_pos hc]
        omega
      · rw [if_neg hc]
    have hHere :
        w₃.mem (p + o) =
          Fs.memcpy p list.elems (umin list.capacity n)
            w₁.mem (p + o) :=
      hKept (p, 4 * n) ((hBlock _).mpr hWord.symm) o
        (by omega)
    change w₃.mem (p + o) = _
    rw [hHere]
    by_cases hCopied : o < umin list.capacity n
    · rw [if_pos hCopied,
        Fs.memcpy_apply_add_of_apart (by omega) hCopied]
      exact hAlloc.kept _ hMem o (by omega)
    · rw [if_neg hCopied,
        Fs.memcpy_of_apart (by omega)]
      exact hAlloc.zero o (by omega)

------------------------------------------------------------
-- When It Is Right
------------------------------------------------------------

/- What the function is for. -/
structure Resized
    (w : World)
    (list : ListObject)
    (desired : Nat)
    (list' : ListObject)
    (w' : World) : Prop where
  window :
    desired ≤ list'.capacity ∧ list'.capacity ≤ 2 * desired
  storage :
    ∃ len, (list'.elems, len) ∈ w'.blocks ∧
      4 * list'.capacity ≤ len
  elems :
    ∀ i, i < list.size →
      w'.mem.read32 (list'.elems + 4 * i) =
        w.mem.read32 (list.elems + 4 * i)
  size : list'.size = list.size
  curr : list'.curr = list.curr

/- The bytes that are not copied are zero anyway. -/
def RestIsZero
    (w : World)
    (list : ListObject)
    (desired : Nat) : Prop :=
  ∀ o, o < 4 * list.size →
    ¬ Settled.Copied list.capacity desired o →
      w.mem (list.elems + o) = 0

theorem Done.resized_iff
    {n : Nat}
    {list' : ListObject}
    {w' : World}
    (hDone : Done w list n list' w')
    (hSettled : Settled list.capacity desired n)
    (hSize : list.size ≤ desired)
    (hLow : INITIAL_CAPACITY ≤ desired) :
    Resized w list desired list' w' ↔
      Settled.Fits list.capacity desired ∧
        RestIsZero w list desired := by
  have hWindow := hSettled.window hLow
  have hBytes := fun hn => hDone.bytes hn (by omega)
  constructor
  · intro hResized
    have hn : n < 2 ^ 30 := by
      rcases hResized.storage with ⟨len, hMem, hLen⟩
      rw [hDone.block] at hMem
      rw [hDone.capacity] at hLen
      omega
    refine ⟨hSettled.lt_iff_fits.mp hn, ?_⟩
    intro o ho hRest
    have hZero := hBytes hn o ho
    rw [← hSettled.lt_umin_iff_copied hLow] at hRest
    rw [if_neg hRest] at hZero
    have hByte :=
      ByteMemory.apply_add_of_read32_eq
        (hResized.elems (o / 4) (by omega))
        (show o % 4 < 4 by omega)
    have hSplit : ∀ a, a + 4 * (o / 4) + o % 4 = a + o := by
      omega
    rw [hSplit, hSplit, hZero] at hByte
    exact hByte.symm
  · rintro ⟨hFits, hRest⟩
    have hn : n < 2 ^ 30 := hSettled.lt_iff_fits.mpr hFits
    refine
      { window := ?_
        storage := ⟨4 * n, ?_, ?_⟩
        elems := ?_
        size := hDone.size
        curr := hDone.curr }
    · rw [hDone.capacity]
      exact hWindow
    · rw [hDone.block]
      omega
    · rw [hDone.capacity]
    · intro i hi
      apply ByteMemory.read32_congr
      intro j hj
      rw [Nat.add_assoc, Nat.add_assoc,
        hBytes hn (4 * i + j) (by omega)]
      by_cases hCopied : 4 * i + j < umin list.capacity n
      · rw [if_pos hCopied]
      · rw [if_neg hCopied]
        rw [hSettled.lt_umin_iff_copied hLow] at hCopied
        exact (hRest (4 * i + j) (by omega) hCopied).symm

/-
  The function returns unless the heap refuses, and it has
  done its work if and only if the lengths fit and the bytes
  that are not copied are zero.
-/
theorem resize_right_iff
    (w : World)
    (list : ListObject)
    (desired fuel : Nat)
    (hCapacity : list.capacity < 2 ^ 32)
    (hStored : Stored w list)
    (hLow : max list.size INITIAL_CAPACITY ≤ desired)
    (hHigh : desired < 2 ^ 30)
    (hFuel : 33 ≤ fuel) :
    ((resize fuel list desired).run w).Sat
      (fun list' w' =>
        Resized w list desired list' w' ↔
          Settled.Fits list.capacity desired ∧
            RestIsZero w list desired)
      Refused := by
  have hSize : list.size ≤ desired :=
    (Nat.le_max_left _ _).trans hLow
  have hInitial : INITIAL_CAPACITY ≤ desired :=
    (Nat.le_max_right _ _).trans hLow
  refine (sat_resize hCapacity hStored hInitial hHigh
    hFuel).imp ?_ (fun _ _ h => h)
  rintro list' w' ⟨n, hSettled, hDone⟩
  exact hDone.resized_iff hSettled hSize hInitial

------------------------------------------------------------
-- A List of Eight
------------------------------------------------------------

/- Memory full of ones, with one block on the heap. -/
def ones : World where
  mem := fun _ => 1
  blocks := [(0xF0000028, 32)]
  kmallocs := [(0xF0000054, fun _ => 0)]
  kfreed := fun _ => 0

def eight : ListObject where
  elems := 0xF0000028
  capacity := 8
  size := 8
  curr := 0

theorem stored_eight : Stored ones eight where
  block _ := ⟨32, List.mem_singleton.mpr rfl, Nat.le_refl _⟩
  null hNull := by cases hNull

/- The heap has room. -/
theorem resize_eight_returns :
    ∃ list' w', (resize 33 eight 9).run ones = .ok list' w' :=
  ⟨_, _, rfl⟩

theorem ones_not_restIsZero :
    ¬ RestIsZero ones eight 9 := by
  intro hRest
  have hByte : (1 : UInt8) = 0 := by
    refine hRest 8 (by decide) ?_
    rintro ⟨k, _, hLt⟩
    have hLe : 8 / 2 ^ k ≤ 8 := Nat.div_le_self 8 (2 ^ k)
    exact absurd hLt (Nat.not_lt.mpr hLe)
  exact absurd hByte (by decide)

theorem ones_resize :
    ((resize 33 eight 9).run ones).Sat
      (fun list' w' =>
        Resized ones eight 9 list' w' ↔
          Settled.Fits 8 9 ∧ RestIsZero ones eight 9)
      Refused :=
  resize_right_iff ones eight 9 33 (by decide) stored_eight
    (by decide) (by decide) (by decide)

/- Only two of the eight pointers are copied. -/
theorem eight_not_resized :
    ∃ list' w',
      (resize 33 eight 9).run ones = .ok list' w' ∧
        ¬ Resized ones eight 9 list' w' := by
  rcases resize_eight_returns with ⟨list', w', hRun⟩
  refine ⟨list', w', hRun, ?_⟩
  have hSat :
      ((resize 33 eight 9).run ones).Sat
        (fun list' w' =>
          ∃ n, Settled 8 9 n ∧ Done ones eight n list' w')
        Refused :=
    sat_resize (by decide) stored_eight (by decide)
      (by decide) (by decide)
  rw [hRun] at hSat
  rcases hSat with ⟨n, hSettled, hDone⟩
  rw [hDone.resized_iff hSettled (by decide) (by decide)]
  rintro ⟨_, hRest⟩
  exact ones_not_restIsZero hRest

end Resize

end Sched

end SosKernel
