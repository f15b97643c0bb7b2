import Mathlib.Data.Nat.Basic
import Mathlib.Tactic.Linarith

/-
  Byte memories with little-endian words.

  Main declarations:
    * `ByteMemory`
    * `ByteMemory.read32`, `ByteMemory.write32`
    * `ByteMemory.read32_write32_self`
    * `ByteMemory.SameOn`: agreement on a range
-/

------------------------------------------------------------
-- Words
------------------------------------------------------------

/- A memory: a byte at every address. -/
abbrev ByteMemory : Type := Nat → UInt8

namespace ByteMemory

/- The byte of `v` at position `i`. -/
def byteOf (v i : Nat) : UInt8 :=
  UInt8.ofNat (v / 256 ^ i)

/- The word stored at `a`, least significant byte first. -/
def read32 (mem : ByteMemory) (a : Nat) : Nat :=
  (mem a).toNat + 256 * (mem (a + 1)).toNat +
    65536 * (mem (a + 2)).toNat +
    16777216 * (mem (a + 3)).toNat

/- Store the word `v` at `a`. -/
def write32
    (mem : ByteMemory)
    (a v : Nat) : ByteMemory :=
  fun x =>
    if a ≤ x ∧ x < a + 4 then
      byteOf v (x - a)
    else
      mem x

variable {mem mem' mem'' : ByteMemory}

theorem read32_lt
    (mem : ByteMemory)
    (a : Nat) :
    read32 mem a < 2 ^ 32 := by
  have h0 := (mem a).toNat_lt
  have h1 := (mem (a + 1)).toNat_lt
  have h2 := (mem (a + 2)).toNat_lt
  have h3 := (mem (a + 3)).toNat_lt
  unfold read32
  omega

/- A word depends on its four bytes. -/
theorem read32_congr
    {a b : Nat}
    (hSame : ∀ i, i < 4 → mem' (b + i) = mem (a + i)) :
    read32 mem' b = read32 mem a := by
  have h0 := hSame 0 (by omega)
  have h1 := hSame 1 (by omega)
  have h2 := hSame 2 (by omega)
  have h3 := hSame 3 (by omega)
  rw [Nat.add_zero, Nat.add_zero] at h0
  unfold read32
  rw [h0, h1, h2, h3]

/- Equal words have equal bytes. -/
theorem apply_add_of_read32_eq
    {a b i : Nat}
    (hWord : read32 mem' b = read32 mem a)
    (hi : i < 4) :
    mem' (b + i) = mem (a + i) := by
  have h0 := (mem a).toNat_lt
  have h1 := (mem (a + 1)).toNat_lt
  have h2 := (mem (a + 2)).toNat_lt
  have h3 := (mem (a + 3)).toNat_lt
  have h0' := (mem' b).toNat_lt
  have h1' := (mem' (b + 1)).toNat_lt
  have h2' := (mem' (b + 2)).toNat_lt
  have h3' := (mem' (b + 3)).toNat_lt
  unfold read32 at hWord
  apply UInt8.toNat_inj.mp
  have hCases : i = 0 ∨ i = 1 ∨ i = 2 ∨ i = 3 := by omega
  rcases hCases with rfl | rfl | rfl | rfl
  · rw [Nat.add_zero, Nat.add_zero]
    omega
  · omega
  · omega
  · omega

theorem toNat_byteOf (v i : Nat) :
    (byteOf v i).toNat = v / 256 ^ i % 256 := by
  unfold byteOf
  rw [UInt8.toNat_ofNat']

theorem write32_apply_add
    (mem : ByteMemory)
    (a v : Nat)
    {i : Nat}
    (hi : i < 4) :
    write32 mem a v (a + i) = byteOf v i := by
  unfold write32
  rw [if_pos (by omega), Nat.add_sub_cancel_left]

/- A word that has been stored is read back. -/
theorem read32_write32_self
    (mem : ByteMemory)
    (a : Nat)
    {v : Nat}
    (hv : v < 2 ^ 32) :
    read32 (write32 mem a v) a = v := by
  have h0 := write32_apply_add mem a v (show 0 < 4 by omega)
  have h1 := write32_apply_add mem a v (show 1 < 4 by omega)
  have h2 := write32_apply_add mem a v (show 2 < 4 by omega)
  have h3 := write32_apply_add mem a v (show 3 < 4 by omega)
  rw [Nat.add_zero] at h0
  unfold read32
  rw [h0, h1, h2, h3, toNat_byteOf, toNat_byteOf,
    toNat_byteOf, toNat_byteOf]
  norm_num
  omega

/- A byte that the store does not cover. -/
theorem write32_apply_of_apart
    (mem : ByteMemory)
    (v : Nat)
    {a x : Nat}
    (hApart : x < a ∨ a + 4 ≤ x) :
    write32 mem a v x = mem x := by
  unfold write32
  rw [if_neg (by omega)]

------------------------------------------------------------
-- Agreement on a Range
------------------------------------------------------------

/- The memories agree from `lo` up to `hi`. -/
def SameOn
    (lo hi : Nat)
    (mem mem' : ByteMemory) : Prop :=
  ∀ x, lo ≤ x → x < hi → mem' x = mem x

theorem SameOn.refl
    (lo hi : Nat)
    (mem : ByteMemory) :
    SameOn lo hi mem mem :=
  fun _ _ _ => rfl

theorem SameOn.trans
    {lo hi : Nat}
    (h₁ : SameOn lo hi mem mem')
    (h₂ : SameOn lo hi mem' mem'') :
    SameOn lo hi mem mem'' :=
  fun x hLo hHi => (h₂ x hLo hHi).trans (h₁ x hLo hHi)

theorem SameOn.mono
    {lo hi lo' hi' : Nat}
    (hSame : SameOn lo hi mem mem')
    (hLo : lo ≤ lo')
    (hHi : hi' ≤ hi) :
    SameOn lo' hi' mem mem' := by
  intro x hx hx'
  apply hSame <;> omega

/- A word within the range is the same in both. -/
theorem SameOn.read32
    {lo hi a : Nat}
    (hSame : SameOn lo hi mem mem')
    (hLo : lo ≤ a)
    (hHi : a + 4 ≤ hi) :
    mem'.read32 a = mem.read32 a := by
  apply read32_congr
  intro i hi
  apply hSame <;> omega

/- A store outside the range is not seen in it. -/
theorem sameOn_write32
    {lo hi : Nat}
    (mem : ByteMemory)
    (a v : Nat)
    (hApart : a + 4 ≤ lo ∨ hi ≤ a) :
    SameOn lo hi mem (write32 mem a v) := by
  intro x hLo hHi
  exact write32_apply_of_apart mem v (by omega)

/- A word that does not overlap the stored one. -/
theorem read32_write32_of_apart
    {a b : Nat}
    (mem : ByteMemory)
    (v : Nat)
    (hApart : b + 4 ≤ a ∨ a + 4 ≤ b) :
    read32 (write32 mem a v) b = read32 mem b :=
  (sameOn_write32 mem a v (by omega)).read32
    (Nat.le_refl b) (Nat.le_refl _)

/- Stores that do not overlap can be swapped. -/
theorem write32_comm
    {a b : Nat}
    (mem : ByteMemory)
    (v w : Nat)
    (hApart : b + 4 ≤ a ∨ a + 4 ≤ b) :
    write32 (write32 mem a v) b w =
      write32 (write32 mem b w) a v := by
  funext x
  unfold write32
  by_cases ha : a ≤ x ∧ x < a + 4
  · rw [if_neg (by omega), if_pos ha, if_pos ha]
  · rw [if_neg ha, if_neg ha]

end ByteMemory
