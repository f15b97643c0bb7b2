import SosKernel.Lib.ByteMemory

/-
  Lists of bytes in a byte memory.

  Main declarations:
    * `ByteMemory.HoldsAt`
    * `ByteMemory.putBytes`
    * `ByteMemory.bytes32`: the bytes of a word
-/

------------------------------------------------------------
-- Bytes in Memory
------------------------------------------------------------

namespace ByteMemory

/- The bytes `bs` are in memory from `a` on. -/
def HoldsAt
    (mem : ByteMemory)
    (a : Nat)
    (bs : List UInt8) : Prop :=
  ∀ k (hk : k < bs.length), mem (a + k) = bs[k]

/- Store the bytes `bs` from `a` on. -/
def putBytes
    (mem : ByteMemory)
    (a : Nat)
    (bs : List UInt8) : ByteMemory :=
  fun x =>
    if a ≤ x ∧ x < a + bs.length then
      bs.getD (x - a) 0
    else
      mem x

variable {mem mem' : ByteMemory}
variable {a b : Nat}
variable {bs cs : List UInt8}

theorem HoldsAt.congr
    (hHolds : HoldsAt mem a bs)
    (hSame : ∀ k, k < bs.length → mem' (b + k) = mem (a + k)) :
    HoldsAt mem' b bs :=
  fun k hk => (hSame k hk).trans (hHolds k hk)

theorem HoldsAt.append
    (hLeft : HoldsAt mem a bs)
    (hRight : HoldsAt mem (a + bs.length) cs) :
    HoldsAt mem a (bs ++ cs) := by
  intro k hk
  by_cases hIn : k < bs.length
  · rw [List.getElem_append_left hIn]
    exact hLeft k hIn
  · rw [List.length_append] at hk
    rw [List.getElem_append_right (by omega)]
    have hCs := hRight (k - bs.length) (by omega)
    have hAddr :
        a + bs.length + (k - bs.length) = a + k := by omega
    rw [hAddr] at hCs
    exact hCs

theorem HoldsAt.left
    (hHolds : HoldsAt mem a (bs ++ cs)) :
    HoldsAt mem a bs := by
  intro k hk
  have hAll := hHolds k (by rw [List.length_append]; omega)
  rw [List.getElem_append_left hk] at hAll
  exact hAll

theorem HoldsAt.right
    (hHolds : HoldsAt mem a (bs ++ cs)) :
    HoldsAt mem (a + bs.length) cs := by
  intro k hk
  have hAll :=
    hHolds (bs.length + k) (by rw [List.length_append]; omega)
  rw [List.getElem_append_right (by omega)] at hAll
  simp only [Nat.add_sub_cancel_left] at hAll
  rw [Nat.add_assoc]
  exact hAll

/- A part of the bytes. -/
theorem HoldsAt.drop
    (hHolds : HoldsAt mem a bs)
    (n : Nat) :
    HoldsAt mem (a + n) (bs.drop n) := by
  intro k hk
  rw [List.length_drop] at hk
  rw [List.getElem_drop, Nat.add_assoc]
  exact hHolds (n + k) (by omega)

theorem HoldsAt.take
    (hHolds : HoldsAt mem a bs)
    (n : Nat) :
    HoldsAt mem a (bs.take n) := by
  intro k hk
  rw [List.length_take] at hk
  rw [List.getElem_take]
  exact hHolds k (by omega)

/- The bytes that have been stored are there. -/
theorem holdsAt_putBytes
    (mem : ByteMemory)
    (a : Nat)
    (bs : List UInt8) :
    HoldsAt (putBytes mem a bs) a bs := by
  intro k hk
  unfold putBytes
  rw [if_pos (by omega), Nat.add_sub_cancel_left,
    List.getD_eq_getElem?_getD, List.getElem?_eq_getElem hk]
  rfl

theorem putBytes_of_apart
    {x : Nat}
    (hApart : x < a ∨ a + bs.length ≤ x) :
    putBytes mem a bs x = mem x := by
  unfold putBytes
  rw [if_neg (by omega)]

------------------------------------------------------------
-- Words as Bytes
------------------------------------------------------------

/- The bytes of the word `v`, least significant first. -/
def bytes32 (v : Nat) : List UInt8 :=
  (List.range 4).map (byteOf v)

@[simp] theorem length_bytes32 (v : Nat) :
    (bytes32 v).length = 4 :=
  rfl

/- A word whose bytes are in memory. -/
theorem HoldsAt.read32
    {v : Nat}
    (hHolds : HoldsAt mem a (bytes32 v))
    (hv : v < 2 ^ 32) :
    mem.read32 a = v := by
  have hSame :
      mem.read32 a = (write32 mem a v).read32 a := by
    apply read32_congr
    intro i hi
    rw [write32_apply_add mem a v hi]
    have hByte := hHolds i hi
    simp only [bytes32, List.getElem_map,
      List.getElem_range] at hByte
    exact hByte
  exact hSame.trans (read32_write32_self mem a hv)

end ByteMemory
