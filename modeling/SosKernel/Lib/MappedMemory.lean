import Mathlib.Logic.Function.Basic
import SosKernel.Lib.ByteMemory

/-
  Words of a byte memory seen through an address map.

  An address map gives the place of every virtual byte.  Two
  words are apart when they share no place; nothing is
  assumed about pages or alignment.

  Main declarations:
    * `AddressMap`, `wordVia`, `putVia`
    * `Apart`
    * `putsVia`: a sequence of stores
    * `wordVia_putsVia_mem`, `wordVia_putsVia_of_apart`
-/

------------------------------------------------------------
-- Words Through a Map
------------------------------------------------------------

/- The place in memory of each virtual byte. -/
abbrev AddressMap : Type := Nat → Nat

namespace ByteMemory

/- The word at the virtual address `a`. -/
def wordVia
    (place : AddressMap)
    (mem : ByteMemory)
    (a : Nat) : UInt32 :=
  UInt32.ofNat (read32 (fun x => mem (place x)) a)

/- Store the word `v` at the virtual address `a`. -/
def putVia
    (place : AddressMap)
    (mem : ByteMemory)
    (a : Nat)
    (v : UInt32) : ByteMemory :=
  Function.update
    (Function.update
      (Function.update
        (Function.update mem (place a) (byteOf v.toNat 0))
        (place (a + 1)) (byteOf v.toNat 1))
      (place (a + 2)) (byteOf v.toNat 2))
    (place (a + 3)) (byteOf v.toNat 3)

variable {place place' : AddressMap}
variable {mem mem' : ByteMemory}
variable {a b : Nat}
variable {v : UInt32}

theorem wordVia_congr
    (hSame :
      ∀ i, i < 4 →
        mem' (place' (b + i)) = mem (place (a + i))) :
    wordVia place' mem' b = wordVia place mem a := by
  have hRead :
      read32 (fun x => mem' (place' x)) b =
        read32 (fun x => mem (place x)) a :=
    read32_congr hSame
  unfold wordVia
  rw [hRead]

/- A store changes its own four places only. -/
theorem putVia_apply_of_ne
    {x : Nat}
    (hNe : ∀ i, i < 4 → x ≠ place (a + i)) :
    putVia place mem a v x = mem x := by
  have h0 : x ≠ place a := hNe 0 (by decide)
  unfold putVia
  rw [Function.update_of_ne (hNe 3 (by decide)),
    Function.update_of_ne (hNe 2 (by decide)),
    Function.update_of_ne (hNe 1 (by decide)),
    Function.update_of_ne h0]

/- The places of a word are four different ones. -/
def Spread (place : AddressMap) (a : Nat) : Prop :=
  ∀ i j, i < 4 → j < 4 →
    place (a + i) = place (a + j) → i = j

theorem putVia_apply_add
    {i : Nat}
    (hSpread : Spread place a)
    (hi : i < 4) :
    putVia place mem a v (place (a + i)) =
      byteOf v.toNat i := by
  have hNe :
      ∀ j, j < 4 → i ≠ j →
        place (a + i) ≠ place (a + j) :=
    fun j hj hij hSame => hij (hSpread i j hi hj hSame)
  unfold putVia
  match i, hi, hNe with
  | 3, _, _ => exact Function.update_self _ _ _
  | 2, _, hNe =>
      rw [Function.update_of_ne (hNe 3 (by decide) (by decide))]
      exact Function.update_self _ _ _
  | 1, _, hNe =>
      rw [Function.update_of_ne (hNe 3 (by decide) (by decide)),
        Function.update_of_ne (hNe 2 (by decide) (by decide))]
      exact Function.update_self _ _ _
  | 0, _, hNe =>
      rw [Function.update_of_ne (hNe 3 (by decide) (by decide)),
        Function.update_of_ne (hNe 2 (by decide) (by decide)),
        Function.update_of_ne (hNe 1 (by decide) (by decide))]
      exact Function.update_self _ _ _

/- A word that has been stored is read back. -/
theorem wordVia_putVia_self
    (hSpread : Spread place a) :
    wordVia place (putVia place mem a v) a = v := by
  have hBytes :
      ∀ i, i < 4 →
        putVia place mem a v (place (a + i)) =
          write32 (fun x => mem (place x)) a v.toNat
            (a + i) := by
    intro i hi
    rw [putVia_apply_add hSpread hi,
      write32_apply_add _ _ _ hi]
  have hRead :
      read32 (fun x => putVia place mem a v (place x)) a =
        read32
          (write32 (fun x => mem (place x)) a v.toNat) a :=
    read32_congr hBytes
  unfold wordVia
  rw [hRead, read32_write32_self _ _ v.toNat_lt,
    UInt32.ofNat_toNat]

------------------------------------------------------------
-- Words That Are Apart
------------------------------------------------------------

/- The word at `b` shares no place with the word at `a`. -/
def Apart
    (place : AddressMap)
    (a : Nat)
    (place' : AddressMap)
    (b : Nat) : Prop :=
  ∀ i j, i < 4 → j < 4 → place' (b + j) ≠ place (a + i)

theorem wordVia_putVia_of_apart
    (mem : ByteMemory)
    (v : UInt32)
    (hApart : Apart place a place' b) :
    wordVia place' (putVia place mem a v) b =
      wordVia place' mem b := by
  apply wordVia_congr
  intro j hj
  exact putVia_apply_of_ne fun i hi => hApart i j hi hj

------------------------------------------------------------
-- Sequences of Stores
------------------------------------------------------------

/- Store the words one after the other. -/
def putsVia
    (place : AddressMap)
    (mem : ByteMemory)
    (stores : List (Nat × UInt32)) : ByteMemory :=
  stores.foldl (fun mem s => putVia place mem s.1 s.2) mem

theorem putsVia_singleton
    (place : AddressMap)
    (mem : ByteMemory)
    (a : Nat)
    (v : UInt32) :
    putsVia place mem [(a, v)] = putVia place mem a v :=
  rfl

theorem putsVia_append
    (place : AddressMap)
    (mem : ByteMemory)
    (stores stores' : List (Nat × UInt32)) :
    putsVia place mem (stores ++ stores') =
      putsVia place (putsVia place mem stores) stores' :=
  List.foldl_append

variable {stores : List (Nat × UInt32)}

theorem wordVia_putsVia_of_apart
    (mem : ByteMemory)
    (hApart : ∀ s ∈ stores, Apart place s.1 place' b) :
    wordVia place' (putsVia place mem stores) b =
      wordVia place' mem b := by
  induction stores generalizing mem with
  | nil => rfl
  | cons s stores ih =>
      have hRest := ih (putVia place mem s.1 s.2)
        (fun t ht => hApart t (List.mem_cons_of_mem s ht))
      exact hRest.trans
        (wordVia_putVia_of_apart mem s.2
          (hApart s List.mem_cons_self))

theorem putsVia_apply_of_ne
    {x : Nat}
    (mem : ByteMemory)
    (hNe :
      ∀ s ∈ stores, ∀ i, i < 4 → x ≠ place (s.1 + i)) :
    putsVia place mem stores x = mem x := by
  induction stores generalizing mem with
  | nil => rfl
  | cons s stores ih =>
      have hRest := ih (putVia place mem s.1 s.2)
        (fun t ht => hNe t (List.mem_cons_of_mem s ht))
      exact hRest.trans
        (putVia_apply_of_ne (hNe s List.mem_cons_self))

/- Words stored apart from each other are all read back. -/
theorem wordVia_putsVia_mem
    {s : Nat × UInt32}
    (mem : ByteMemory)
    (hSpread : ∀ t ∈ stores, Spread place t.1)
    (hApart :
      stores.Pairwise fun t t' =>
        Apart place t'.1 place t.1)
    (hMem : s ∈ stores) :
    wordVia place (putsVia place mem stores) s.1 = s.2 := by
  induction stores generalizing mem with
  | nil => cases hMem
  | cons t stores ih =>
      rw [List.pairwise_cons] at hApart
      rcases List.mem_cons.mp hMem with rfl | hMem
      · have hRest :=
          wordVia_putsVia_of_apart
            (putVia place mem s.1 s.2) hApart.1
        exact hRest.trans
          (wordVia_putVia_self
            (hSpread s List.mem_cons_self))
      · exact ih (putVia place mem t.1 t.2)
          (fun u hu => hSpread u (List.mem_cons_of_mem t hu))
          hApart.2 hMem

end ByteMemory
