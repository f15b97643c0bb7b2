import Mathlib.Data.Nat.Bitwise
import Mathlib.Logic.Function.Basic
import Mathlib.Tactic.Linarith

/-
  The segment descriptors of `kernel/gdt.c`.

  Main declarations:
    * `GdtEntry`, `GdtEntry.descriptor`
    * `base`, `limit`, `access`, `flags`: decoding
    * `gdtSetGate`, `writeTss`, `initGdt`
    * `decodes_setGate`, `limit_writeTss`
    * `gdt_decodes_iff`
-/

------------------------------------------------------------
-- Descriptors
------------------------------------------------------------

namespace SosKernel

namespace Gdt

structure GdtEntry where
  limitLow : UInt16
  baseLow : UInt16
  baseMiddle : UInt8
  access : UInt8
  granularity : UInt8
  baseHigh : UInt8
deriving DecidableEq, Repr

/-
  The packed entry as the processor reads it, a number of 64
  bits with the first field lowest.
-/
def GdtEntry.descriptor (e : GdtEntry) : Nat :=
  e.limitLow.toNat + 2 ^ 16 * e.baseLow.toNat +
    2 ^ 32 * e.baseMiddle.toNat + 2 ^ 40 * e.access.toNat +
    2 ^ 48 * e.granularity.toNat + 2 ^ 56 * e.baseHigh.toNat

/- The `n` bits of `d` from bit `i` on. -/
def bits (d i n : Nat) : Nat :=
  d / 2 ^ i % 2 ^ n

------------------------------------------------------------
-- Decoding
------------------------------------------------------------

def base (d : Nat) : Nat :=
  bits d 16 24 + 2 ^ 24 * bits d 56 8

def limit (d : Nat) : Nat :=
  bits d 0 16 + 2 ^ 16 * bits d 48 4

def access (d : Nat) : Nat :=
  bits d 40 8

def flags (d : Nat) : Nat :=
  bits d 52 4

namespace GdtEntry

variable (e : GdtEntry)

/- The fields, with the bound each has by its type. -/
theorem fields_lt :
    e.limitLow.toNat < 2 ^ 16 ∧ e.baseLow.toNat < 2 ^ 16 ∧
      e.baseMiddle.toNat < 2 ^ 8 ∧ e.access.toNat < 2 ^ 8 ∧
      e.granularity.toNat < 2 ^ 8 ∧
      e.baseHigh.toNat < 2 ^ 8 :=
  ⟨e.limitLow.toNat_lt, e.baseLow.toNat_lt,
    e.baseMiddle.toNat_lt, e.access.toNat_lt,
    e.granularity.toNat_lt, e.baseHigh.toNat_lt⟩

theorem base_descriptor :
    base e.descriptor =
      e.baseLow.toNat + 2 ^ 16 * e.baseMiddle.toNat +
        2 ^ 24 * e.baseHigh.toNat := by
  have hLt := e.fields_lt
  unfold base bits descriptor
  omega

theorem limit_descriptor :
    limit e.descriptor =
      e.limitLow.toNat +
        2 ^ 16 * (e.granularity.toNat % 2 ^ 4) := by
  have hLt := e.fields_lt
  unfold limit bits descriptor
  omega

theorem access_descriptor :
    Gdt.access e.descriptor = e.access.toNat := by
  have hLt := e.fields_lt
  unfold Gdt.access bits descriptor
  omega

theorem flags_descriptor :
    flags e.descriptor = e.granularity.toNat / 2 ^ 4 := by
  have hLt := e.fields_lt
  unfold flags bits descriptor
  omega

end GdtEntry

------------------------------------------------------------
-- The Tables
------------------------------------------------------------

structure GdtPtr where
  limit : UInt16
  base : UInt32
deriving DecidableEq, Repr

structure TssEntry where
  prevTss : UInt32
  esp0 : UInt32
  ss0 : UInt32
  esp1 : UInt32
  ss1 : UInt32
  esp2 : UInt32
  ss2 : UInt32
  cr3 : UInt32
  eip : UInt32
  eflags : UInt32
  eax : UInt32
  ecx : UInt32
  edx : UInt32
  ebx : UInt32
  esp : UInt32
  ebp : UInt32
  esi : UInt32
  edi : UInt32
  es : UInt32
  cs : UInt32
  ss : UInt32
  ds : UInt32
  fs : UInt32
  gs : UInt32
  ldt : UInt32
  trap : UInt16
  iomapBase : UInt16
deriving DecidableEq, Repr

/- `sizeof(gdt_entry_t)`, the struct being packed. -/
def sizeofGdtEntry : Nat := 2 * 2 + 4 * 1

/- `sizeof(tss_entry)`: 25 words and two halves. -/
def sizeofTssEntry : Nat := 25 * 4 + 2 * 2

/- What `memset(&tss_entry, 0, ..)` leaves. -/
def TssEntry.zero : TssEntry where
  prevTss := 0
  esp0 := 0
  ss0 := 0
  esp1 := 0
  ss1 := 0
  esp2 := 0
  ss2 := 0
  cr3 := 0
  eip := 0
  eflags := 0
  eax := 0
  ecx := 0
  edx := 0
  ebx := 0
  esp := 0
  ebp := 0
  esi := 0
  edi := 0
  es := 0
  cs := 0
  ss := 0
  ds := 0
  fs := 0
  gs := 0
  ldt := 0
  trap := 0
  iomapBase := 0

/- The globals of the file. -/
structure State where
  entries : Fin 6 → GdtEntry
  ptr : GdtPtr
  tss : TssEntry

/- Where the linker has put two of them. -/
structure Link where
  gdtEntries : UInt32
  tssEntry : UInt32

/- The entry that `gdt_set_gate` leaves in the slot. -/
def gate
    (base limit : UInt32)
    (access gran : UInt8) : GdtEntry where
  baseLow := (base &&& 0xFFFF).toUInt16
  baseMiddle := ((base >>> 16) &&& 0xFF).toUInt8
  baseHigh := ((base >>> 24) &&& 0xFF).toUInt8
  limitLow := (limit &&& 0xFFFF).toUInt16
  granularity :=
    ((limit >>> 16) &&& 0x0F).toUInt8 ||| (gran &&& 0xF0)
  access := access

def gdtSetGate
    (s : State)
    (num : Fin 6)
    (base limit : UInt32)
    (access gran : UInt8) : State :=
  { s with
    entries :=
      Function.update s.entries num
        (gate base limit access gran) }

def writeTss
    (link : Link)
    (s : State)
    (num : Fin 6)
    (ss0 : UInt16)
    (esp0 : UInt32) : State :=
  let base := link.tssEntry
  let limit := base + UInt32.ofNat sizeofTssEntry
  { gdtSetGate s num base limit 0xE9 0x00 with
    tss :=
      { TssEntry.zero with
        ss0 := ss0.toUInt32
        esp0 := esp0
        cs := 0x0b
        ss := 0x13
        ds := 0x13
        es := 0x13
        fs := 0x13
        gs := 0x13 } }

def initGdt
    (link : Link)
    (s : State)
    (kstackPtr : UInt32) : State :=
  let ptr : GdtPtr :=
    { limit := UInt16.ofNat (sizeofGdtEntry * 6 - 1)
      base := link.gdtEntries }
  let s := { s with ptr := ptr }
  let s := gdtSetGate s 0 0 0 0 0
  let s := gdtSetGate s 1 0 0xFFFFF 0x9A 0xCF
  let s := gdtSetGate s 2 0 0xFFFFF 0x92 0xCF
  let s := gdtSetGate s 3 0 0xFFFFF 0xFA 0xCF
  let s := gdtSetGate s 4 0 0xFFFFF 0xF2 0xCF
  writeTss link s 5 0x10 kstackPtr

------------------------------------------------------------
-- The Fields of a Gate
------------------------------------------------------------

section

variable (x : UInt32)

theorem toNat_low :
    (x &&& 0xFFFF).toUInt16.toNat = x.toNat % 2 ^ 16 := by
  have hAnd : (x &&& 0xFFFF).toNat = x.toNat % 2 ^ 16 := by
    rw [UInt32.toNat_and]
    exact Nat.and_two_pow_sub_one_eq_mod x.toNat 16
  rw [UInt32.toNat_toUInt16, hAnd, Nat.mod_mod]

/- A byte of a word, through a shift and a mask. -/
theorem toNat_byte
    {y : UInt32}
    {i : Nat}
    (hShift : y.toNat = x.toNat / 2 ^ i) :
    (y &&& 0xFF).toUInt8.toNat =
      x.toNat / 2 ^ i % 2 ^ 8 := by
  have hAnd : (y &&& 0xFF).toNat = y.toNat % 2 ^ 8 := by
    rw [UInt32.toNat_and]
    exact Nat.and_two_pow_sub_one_eq_mod y.toNat 8
  rw [UInt32.toNat_toUInt8, hAnd, Nat.mod_mod, hShift]

theorem toNat_shift_16 :
    (x >>> 16).toNat = x.toNat / 2 ^ 16 := by
  rw [UInt32.toNat_shiftRight, Nat.shiftRight_eq_div_pow]
  rfl

theorem toNat_shift_24 :
    (x >>> 24).toNat = x.toNat / 2 ^ 24 := by
  rw [UInt32.toNat_shiftRight, Nat.shiftRight_eq_div_pow]
  rfl

theorem and_high_nibble
    (n : Nat)
    (hLt : n < 2 ^ 8) :
    0xF0 &&& n = 2 ^ 4 * (n / 2 ^ 4) := by
  apply Nat.eq_of_testBit_eq
  intro i
  rw [show 0xF0 = 2 ^ 4 * 0xF from rfl, Nat.testBit_and,
    Nat.testBit_two_pow_mul, Nat.testBit_two_pow_mul,
    Nat.testBit_div_two_pow]
  by_cases hi : 4 ≤ i
  · have hBit : Nat.testBit 0xF (i - 4) = decide (i - 4 < 4) :=
      Nat.testBit_two_pow_sub_one 4 (i - 4)
    rw [hBit, Nat.sub_add_cancel hi]
    by_cases hLow : i - 4 < 4
    · simp [hi, hLow]
    · have hHigh : 2 ^ 8 ≤ 2 ^ i :=
        Nat.pow_le_pow_right (by omega) (by omega)
      rw [Nat.testBit_lt_two_pow (lt_of_lt_of_le hLt hHigh)]
      simp
  · simp [hi]

/- The low nibble is the limit's, the high one `gran`'s. -/
theorem toNat_granularity (gran : UInt8) :
    (((x >>> 16) &&& 0x0F).toUInt8 |||
        (gran &&& 0xF0)).toNat =
      x.toNat / 2 ^ 16 % 2 ^ 4 +
        2 ^ 4 * (gran.toNat / 2 ^ 4) := by
  have hAnd :
      ((x >>> 16) &&& 0x0F).toNat =
        x.toNat / 2 ^ 16 % 2 ^ 4 := by
    rw [UInt32.toNat_and, toNat_shift_16]
    exact Nat.and_two_pow_sub_one_eq_mod _ 4
  have hLow :
      ((x >>> 16) &&& 0x0F).toUInt8.toNat =
        x.toNat / 2 ^ 16 % 2 ^ 4 := by
    rw [UInt32.toNat_toUInt8, hAnd]
    omega
  have hHigh :
      (gran &&& 0xF0).toNat =
        2 ^ 4 * (gran.toNat / 2 ^ 4) := by
    rw [UInt8.toNat_and, Nat.and_comm]
    exact and_high_nibble _ (gran.toNat_lt)
  rw [UInt8.toNat_or, hLow, hHigh, Nat.or_comm,
    ← Nat.two_pow_add_eq_or_of_lt (by omega), Nat.add_comm]

end

------------------------------------------------------------
-- Decoding a Gate
------------------------------------------------------------

section

variable (b l : UInt32)
variable (a g : UInt8)

theorem base_gate :
    base (gate b l a g).descriptor = b.toNat := by
  have hLt := b.toNat_lt
  rw [GdtEntry.base_descriptor]
  unfold gate
  dsimp only
  rw [toNat_low, toNat_byte b (toNat_shift_16 b),
    toNat_byte b (toNat_shift_24 b)]
  omega

/- The bits of the limit from 20 on are dropped. -/
theorem limit_gate :
    limit (gate b l a g).descriptor = l.toNat % 2 ^ 20 := by
  rw [GdtEntry.limit_descriptor]
  unfold gate
  dsimp only
  rw [toNat_low, toNat_granularity]
  omega

theorem access_gate :
    access (gate b l a g).descriptor = a.toNat :=
  GdtEntry.access_descriptor _

theorem flags_gate :
    flags (gate b l a g).descriptor =
      g.toNat / 2 ^ 4 := by
  rw [GdtEntry.flags_descriptor]
  unfold gate
  dsimp only
  rw [toNat_granularity]
  omega

end

------------------------------------------------------------
-- The Table
------------------------------------------------------------

/- The descriptor `e` says what these numbers say. -/
structure Decodes
    (e : GdtEntry)
    (b l a f : Nat) : Prop where
  base : base e.descriptor = b
  limit : limit e.descriptor = l
  access : access e.descriptor = a
  flags : flags e.descriptor = f

variable (link : Link)
variable (s : State)
variable (num : Fin 6)

theorem entries_setGate
    (base limit : UInt32)
    (access gran : UInt8) :
    (gdtSetGate s num base limit access gran).entries num =
      gate base limit access gran := by
  unfold gdtSetGate
  exact Function.update_self num _ _

/- A limit of 20 bits comes back as it was. -/
theorem decodes_setGate
    (base limit : UInt32)
    (access gran : UInt8)
    (hLimit : limit.toNat < 2 ^ 20) :
    Decodes
      ((gdtSetGate s num base limit access gran).entries num)
      base.toNat limit.toNat access.toNat
      (gran.toNat / 2 ^ 4) := by
  rw [entries_setGate]
  refine
    { base := base_gate base limit access gran
      limit := ?_
      access := access_gate base limit access gran
      flags := flags_gate base limit access gran }
  rw [limit_gate, Nat.mod_eq_of_lt hLimit]

theorem entries_writeTss
    (ss0 : UInt16)
    (esp0 : UInt32) :
    (writeTss link s num ss0 esp0).entries num =
      gate link.tssEntry
        (link.tssEntry + UInt32.ofNat sizeofTssEntry)
        0xE9 0x00 :=
  entries_setGate s num _ _ _ _

/- The limit is computed from the address of the segment. -/
theorem limit_writeTss
    (ss0 : UInt16)
    (esp0 : UInt32) :
    limit
        ((writeTss link s num ss0 esp0).entries
          num).descriptor =
      (link.tssEntry.toNat + sizeofTssEntry) % 2 ^ 20 := by
  have hSize :
      (UInt32.ofNat sizeofTssEntry).toNat =
        sizeofTssEntry := rfl
  rw [entries_writeTss, limit_gate, UInt32.toNat_add, hSize]
  omega

/-
  After `init_gdt` the four segments of code and data span
  the address space in pages.
-/
theorem initGdt_flat
    {i : Fin 6}
    (kstackPtr : UInt32)
    (hFirst : 1 ≤ i)
    (hLast : i ≤ 4) :
    ∃ a,
      Decodes ((initGdt link s kstackPtr).entries i)
        0 0xFFFFF a 0xC := by
  have hGate :
      ∃ a : UInt8,
        (initGdt link s kstackPtr).entries i =
          gate 0 0xFFFFF a 0xCF := by
    unfold initGdt
    have hi : i = 1 ∨ i = 2 ∨ i = 3 ∨ i = 4 := by
      revert hFirst hLast
      revert i
      decide
    rcases hi with rfl | rfl | rfl | rfl
    all_goals exact ⟨_, rfl⟩
  rcases hGate with ⟨a, hGate⟩
  rw [hGate]
  refine ⟨a.toNat, ?_⟩
  exact
    { base := base_gate 0 0xFFFFF a 0xCF
      limit := limit_gate 0 0xFFFFF a 0xCF
      access := access_gate 0 0xFFFFF a 0xCF
      flags := flags_gate 0 0xFFFFF a 0xCF }

------------------------------------------------------------
-- The Task State Segment
------------------------------------------------------------

/-
  The descriptor names the segment and the offset of its last
  byte.
-/
structure TssRight
    (link : Link)
    (e : GdtEntry) : Prop where
  base : base e.descriptor = link.tssEntry.toNat
  limit : limit e.descriptor = sizeofTssEntry - 1

theorem tssRight_iff
    (ss0 : UInt16)
    (esp0 : UInt32) :
    TssRight link
        ((writeTss link s num ss0 esp0).entries num) ↔
      link.tssEntry.toNat % 2 ^ 20 = 2 ^ 20 - 1 := by
  have hLimit := limit_writeTss link s num ss0 esp0
  unfold sizeofTssEntry at hLimit
  constructor
  · intro hRight
    have hLast := hRight.limit
    unfold sizeofTssEntry at hLast
    omega
  · intro hAddr
    refine { base := ?_, limit := ?_ }
    · rw [entries_writeTss, base_gate]
    · unfold sizeofTssEntry
      omega

/-
  The gates come back as they were set, and the descriptor of
  the task state segment is right for the addresses with 20
  ones at the end.
-/
theorem gdt_decodes_iff
    (ss0 : UInt16)
    (esp0 : UInt32) :
    (∀ base limit access gran, limit.toNat < 2 ^ 20 →
        Decodes
          ((gdtSetGate s num base limit access
            gran).entries num)
          base.toNat limit.toNat access.toNat
          (gran.toNat / 2 ^ 4)) ∧
      (TssRight link
          ((writeTss link s num ss0 esp0).entries num) ↔
        link.tssEntry.toNat % 2 ^ 20 = 2 ^ 20 - 1) :=
  ⟨decodes_setGate s num, tssRight_iff link s num ss0 esp0⟩

/- The globals are zero before the call. -/
def State.zero : State where
  entries := fun _ => gate 0 0 0 0
  ptr := { limit := 0, base := 0 }
  tss := TssEntry.zero

def lowLink : Link where
  gdtEntries := 0x107000
  tssEntry := 0x108000

/- A user data segment, decoded. -/
theorem userData_decodes :
    Decodes
      ((gdtSetGate State.zero 4 0 0xFFFFF 0xF2
        0xCF).entries 4)
      0 0xFFFFF 0xF2 0xC :=
  (gdt_decodes_iff lowLink State.zero 4 0 0).1
    0 0xFFFFF 0xF2 0xCF (by decide)

theorem lowLink_tss_wrong :
    ¬ ∀ link s num ss0 esp0,
      TssRight link
        ((writeTss link s num ss0 esp0).entries num) := by
  intro hAll
  have hRight := hAll lowLink State.zero 5 0x10 0
  have hLimit :=
    limit_writeTss lowLink State.zero 5 0x10 0
  rw [hRight.limit] at hLimit
  revert hLimit
  decide

end Gdt

end SosKernel
