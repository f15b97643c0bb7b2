import Mathlib.Data.List.Induction
import SosKernel.Fs.Strings

/-
  `elf_sym_map_from_multiboot` and `elf_sym_map_lookup` of
  `elf.c`, which the panic handler uses.

  Main declarations:
    * `SymMap`, `elfSymMapFromMultiboot`, `elfSymMapLookup`
    * `Covers`, `symbolName`: what the lookup is for
    * `LookupRight`, `CanName`
    * `sym_map_lookup_iff`
-/

------------------------------------------------------------
-- The Tables
------------------------------------------------------------

namespace SosKernel

namespace Elf

namespace SymMap

/- A byte at every address. -/
abbrev Memory : Type := UInt32 → UInt8

def read32 (mem : Memory) (a : UInt32) : UInt32 :=
  (mem a).toUInt32 + 256 * (mem (a + 1)).toUInt32 +
    65536 * (mem (a + 2)).toUInt32 +
    16777216 * (mem (a + 3)).toUInt32

/- A `multiboot_elf_section_header_table_t`. -/
structure SectionTable where
  num : UInt32
  addr : UInt32
  shndx : UInt32
deriving DecidableEq, Repr

/- The fields of an `Elf32_Shdr` that are read. -/
structure Shdr where
  name : UInt32
  addr : UInt32
  size : UInt32
deriving DecidableEq, Repr

/- The fields of an `Elf32_Sym` that are read. -/
structure Sym where
  name : UInt32
  value : UInt32
  size : UInt32
  info : UInt8
deriving DecidableEq, Repr

/- An `Elf32_Sym_Map`. -/
structure Map where
  symtab : UInt32
  symtabsz : UInt32
  strtab : UInt32
  strtabsz : UInt32
deriving DecidableEq, Repr

def shdrAt (mem : Memory) (a : UInt32) : Shdr where
  name := read32 mem a
  addr := read32 mem (a + 12)
  size := read32 mem (a + 20)

def symAt (mem : Memory) (a : UInt32) : Sym where
  name := read32 mem a
  value := read32 mem (a + 4)
  size := read32 mem (a + 8)
  info := mem (a + 12)

/- `sh[i]`, for a table of headers of 40 bytes. -/
def sectionAt
    (mem : Memory)
    (sec : SectionTable)
    (i : UInt32) : Shdr :=
  shdrAt mem (sec.addr + 40 * i)

def sections (mem : Memory) (sec : SectionTable) : List Shdr :=
  (List.range sec.num.toNat).map fun i =>
    sectionAt mem sec (UInt32.ofNat i)

/- The symbols of a table of `size` bytes. -/
def symbols (mem : Memory) (a size : UInt32) : List Sym :=
  (List.range (size / 16).toNat).map fun i =>
    symAt mem (a + 16 * UInt32.ofNat i)

------------------------------------------------------------
-- The Functions
------------------------------------------------------------

/- ".strtab" -/
def strtabName : List UInt8 := [46, 115, 116, 114, 116, 97, 98]

/- ".symtab" -/
def symtabName : List UInt8 := [46, 115, 121, 109, 116, 97, 98]

/- `strcmp` with a literal as the second argument. -/
def strcmp (mem : Memory) (str1 : UInt32) : List UInt8 → Int
| [] =>
    if mem str1 = 0 then
      0
    else
      (mem str1).toNat
| c :: str2 =>
    if mem str1 = c then
      if mem str1 = 0 then
        0
      else
        strcmp mem (str1 + 1) str2
    else
      ((mem str1).toNat : Int) - c.toNat

def shstrtab (mem : Memory) (sec : SectionTable) : UInt32 :=
  (sectionAt mem sec sec.shndx).addr

/- The body of the loop over the sections. -/
def readSection
    (mem : Memory)
    (sec : SectionTable)
    (elf : Map)
    (sh : Shdr) : Map :=
  let name := shstrtab mem sec + sh.name
  let elf :=
    if strcmp mem name strtabName = 0 then
      { elf with strtab := sh.addr, strtabsz := sh.size }
    else
      elf
  if strcmp mem name symtabName = 0 then
    { elf with symtab := sh.addr, symtabsz := sh.size }
  else
    elf

/- `elf` is the local variable as it was. -/
def elfSymMapFromMultiboot
    (mem : Memory)
    (sec : SectionTable)
    (elf : Map) : Map :=
  (sections mem sec).foldl (readSection mem sec) elf

/- What the lookup returns: the literal "", or a pointer. -/
inductive Name where
| empty
| pointer (a : UInt32)
deriving DecidableEq, Repr

def lookupLoop
    (strtab addr : UInt32) : List Sym → Name
| [] => .empty
| sym :: rest =>
    if sym.info &&& 0xF ≠ 0x2 then
      lookupLoop strtab addr rest
    else if addr ≥ sym.value ∧ addr < sym.value + sym.size then
      .pointer (strtab + sym.name)
    else
      lookupLoop strtab addr rest

def elfSymMapLookup
    (mem : Memory)
    (addr : UInt32)
    (elf : Map) : Name :=
  lookupLoop elf.strtab addr
    (symbols mem elf.symtab elf.symtabsz)

------------------------------------------------------------
-- What They Are For
------------------------------------------------------------

/- The string `s` is at `a`. -/
def NameAt (mem : Memory) (a : UInt32) : List UInt8 → Prop
| [] => mem a = 0
| c :: s => mem a = c ∧ NameAt mem (a + 1) s

instance decidableNameAt
    (mem : Memory)
    (a : UInt32) :
    (s : List UInt8) → Decidable (NameAt mem a s)
| [] => inferInstanceAs (Decidable (mem a = 0))
| c :: s =>
    have := decidableNameAt mem (a + 1) s
    inferInstanceAs
      (Decidable (mem a = c ∧ NameAt mem (a + 1) s))

/- The last section of the name, if there is one. -/
def sectionNamed
    (mem : Memory)
    (sec : SectionTable)
    (s : List UInt8) : Option Shdr :=
  ((sections mem sec).filter fun sh =>
    NameAt mem (shstrtab mem sec + sh.name) s).getLast?

/- The function symbol covers the address. -/
def Covers (addr : UInt32) (sym : Sym) : Prop :=
  sym.info &&& 0xF = 0x2 ∧
    sym.value.toNat ≤ addr.toNat ∧
    addr.toNat < sym.value.toNat + sym.size.toNat

instance (addr : UInt32) (sym : Sym) :
    Decidable (Covers addr sym) :=
  inferInstanceAs (Decidable (_ ∧ _ ∧ _))

/- The end of the symbol is no address. -/
def Wraps (sym : Sym) : Prop :=
  2 ^ 32 ≤ sym.value.toNat + sym.size.toNat

instance (sym : Sym) : Decidable (Wraps sym) :=
  inferInstanceAs (Decidable (_ ≤ _))

def symbolsOf
    (mem : Memory)
    (sec : SectionTable) : List Sym :=
  match sectionNamed mem sec symtabName with
  | none => []
  | some sh => symbols mem sh.addr sh.size

/- Nothing, if there is a symbol but no table of names. -/
def symbolName
    (mem : Memory)
    (sec : SectionTable)
    (addr : UInt32) : Option Name :=
  match (symbolsOf mem sec).find? fun sym => Covers addr sym with
  | none => some .empty
  | some sym =>
      (sectionNamed mem sec strtabName).map fun sh =>
        .pointer (sh.addr + sym.name)

/- The answer does not depend on the local variable. -/
def LookupRight
    (mem : Memory)
    (sec : SectionTable)
    (addr : UInt32) : Prop :=
  ∀ elf,
    symbolName mem sec addr =
      some
        (elfSymMapLookup mem addr
          (elfSymMapFromMultiboot mem sec elf))

------------------------------------------------------------
-- Names of Sections
------------------------------------------------------------

variable {mem : Memory}
variable {sec : SectionTable}
variable {a addr strtab : UInt32}
variable {s : List UInt8}

theorem strcmp_eq_zero_iff
    (hs : Fs.Unterminated s) :
    strcmp mem a s = 0 ↔ NameAt mem a s := by
  induction s generalizing a with
  | nil =>
      unfold strcmp NameAt
      by_cases hZero : mem a = 0
      · rw [if_pos hZero]
        exact iff_of_true rfl hZero
      · rw [if_neg hZero]
        refine iff_of_false ?_ hZero
        intro hNat
        apply hZero
        apply UInt8.toNat_inj.mp
        exact Int.ofNat_eq_zero.mp hNat
  | cons c s ih =>
      have hc : c ≠ 0 := hs c List.mem_cons_self
      have hRest : Fs.Unterminated s :=
        fun d hd => hs d (List.mem_cons_of_mem c hd)
      unfold strcmp NameAt
      by_cases hSame : mem a = c
      · rw [if_pos hSame, if_neg (by rw [hSame]; exact hc),
          ih hRest]
        exact (and_iff_right hSame).symm
      · rw [if_neg hSame]
        exact iff_of_false (Fs.sub_toNat_ne_zero hSame)
          fun h => hSame h.1

theorem unterminated_strtabName :
    Fs.Unterminated strtabName := by
  unfold Fs.Unterminated strtabName
  simp only [List.forall_mem_cons, List.not_mem_nil,
    false_implies, implies_true, and_true]
  decide

theorem unterminated_symtabName :
    Fs.Unterminated symtabName := by
  unfold Fs.Unterminated symtabName
  simp only [List.forall_mem_cons, List.not_mem_nil,
    false_implies, implies_true, and_true]
  decide

------------------------------------------------------------
-- What the Map Has
------------------------------------------------------------

/- A field that is set by the last element that sets it. -/
theorem foldl_last
    {α β γ : Type}
    {f : β → α → β}
    {p : α → Bool}
    {val : α → γ}
    (get : β → γ)
    (hStep :
      ∀ b x, get (f b x) = if p x then val x else get b)
    (xs : List α)
    (b : β) :
    get (xs.foldl f b) =
      ((xs.filter p).getLast?.map val).getD (get b) := by
  induction xs using List.reverseRecOn with
  | nil => rfl
  | append_singleton xs x ih =>
      rw [List.foldl_append, List.foldl_cons, List.foldl_nil,
        hStep, List.filter_append]
      by_cases hx : p x = true
      · rw [if_pos hx, List.filter_cons_of_pos hx,
          List.filter_nil, List.getLast?_concat]
        rfl
      · rw [if_neg hx, ih, List.filter_cons_of_neg hx,
          List.filter_nil, List.append_nil]

theorem readSection_strtab (elf : Map) (sh : Shdr) :
    (readSection mem sec elf sh).strtab =
      if NameAt mem (shstrtab mem sec + sh.name) strtabName then
        sh.addr
      else
        elf.strtab := by
  have hIff :
      strcmp mem (shstrtab mem sec + sh.name) strtabName = 0 ↔
        NameAt mem (shstrtab mem sec + sh.name) strtabName :=
    strcmp_eq_zero_iff unterminated_strtabName
  unfold readSection
  dsimp only
  by_cases hName :
      NameAt mem (shstrtab mem sec + sh.name) strtabName
  · rw [if_pos hName, if_pos (hIff.mpr hName)]
    split
    · rfl
    · rfl
  · rw [if_neg hName, if_neg (fun h => hName (hIff.mp h))]
    split
    · rfl
    · rfl

theorem readSection_symtab (elf : Map) (sh : Shdr) :
    ((readSection mem sec elf sh).symtab,
        (readSection mem sec elf sh).symtabsz) =
      if NameAt mem (shstrtab mem sec + sh.name) symtabName then
        (sh.addr, sh.size)
      else
        (elf.symtab, elf.symtabsz) := by
  have hIff :
      strcmp mem (shstrtab mem sec + sh.name) symtabName = 0 ↔
        NameAt mem (shstrtab mem sec + sh.name) symtabName :=
    strcmp_eq_zero_iff unterminated_symtabName
  unfold readSection
  dsimp only
  by_cases hName :
      NameAt mem (shstrtab mem sec + sh.name) symtabName
  · rw [if_pos hName, if_pos (hIff.mpr hName)]
  · rw [if_neg hName, if_neg (fun h => hName (hIff.mp h))]
    split
    · rfl
    · rfl

theorem strtab_fromMultiboot (elf : Map) :
    (elfSymMapFromMultiboot mem sec elf).strtab =
      ((sectionNamed mem sec strtabName).map Shdr.addr).getD
        elf.strtab := by
  refine foldl_last Map.strtab ?_ _ elf
  intro elf sh
  rw [readSection_strtab]
  simp only [decide_eq_true_eq]

theorem symtab_fromMultiboot (elf : Map) :
    ((elfSymMapFromMultiboot mem sec elf).symtab,
        (elfSymMapFromMultiboot mem sec elf).symtabsz) =
      ((sectionNamed mem sec symtabName).map
        fun sh => (sh.addr, sh.size)).getD
          (elf.symtab, elf.symtabsz) := by
  refine foldl_last
    (fun elf : Map => (elf.symtab, elf.symtabsz)) ?_ _ elf
  intro elf sh
  rw [readSection_symtab]
  simp only [decide_eq_true_eq]

------------------------------------------------------------
-- The Search
------------------------------------------------------------

/- The loop finds the symbols whose end does not wrap. -/
theorem found_iff (addr : UInt32) (sym : Sym) :
    (sym.info &&& 0xF = 0x2 ∧ addr ≥ sym.value ∧
        addr < sym.value + sym.size) ↔
      Covers addr sym ∧ ¬ Wraps sym := by
  have hAddr := addr.toNat_lt
  have hValue := sym.value.toNat_lt
  have hSize := sym.size.toNat_lt
  unfold Covers Wraps
  rw [ge_iff_le, UInt32.le_iff_toNat_le,
    UInt32.lt_iff_toNat_lt, UInt32.toNat_add, and_assoc]
  refine and_congr_right fun _ => ?_
  omega

def Found (addr : UInt32) (sym : Sym) : Prop :=
  Covers addr sym ∧ ¬ Wraps sym

instance (sym : Sym) : Decidable (Found addr sym) :=
  inferInstanceAs (Decidable (_ ∧ _))

theorem lookupLoop_eq (syms : List Sym) :
    lookupLoop strtab addr syms =
      ((syms.find? fun sym => Found addr sym).map
        fun sym => .pointer (strtab + sym.name)).getD
          .empty := by
  induction syms with
  | nil => rfl
  | cons sym rest ih =>
      have hIff := found_iff addr sym
      unfold lookupLoop
      by_cases hFound : Found addr sym
      · rcases hIff.mpr hFound with ⟨hType, hRange⟩
        rw [if_neg (not_not.mpr hType), if_pos hRange,
          List.find?_cons, decide_eq_true hFound]
        rfl
      · rw [List.find?_cons, decide_eq_false hFound]
        dsimp only
        rw [← ih]
        by_cases hType : sym.info &&& 0xF = 0x2
        · have hRange :
              ¬ (addr ≥ sym.value ∧
                addr < sym.value + sym.size) :=
            fun h => hFound (hIff.mp ⟨hType, h⟩)
          rw [if_neg (not_not.mpr hType), if_neg hRange]
        · rw [if_pos hType]

------------------------------------------------------------
-- When the Lookup Is Right
------------------------------------------------------------

/-
  Without a symbol table, no 16 bytes of memory could be taken
  for a symbol that covers the address.  With one, the first
  symbol that covers it has the name of the first one that
  does so and whose end does not wrap, if any covers it, and
  there are names.
-/
def CanName
    (mem : Memory)
    (sec : SectionTable)
    (addr : UInt32) : Prop :=
  match sectionNamed mem sec symtabName with
  | none => ∀ a, ¬ Found addr (symAt mem a)
  | some sh =>
      ∀ sym,
        (symbols mem sh.addr sh.size).find?
            (fun sym => Covers addr sym) = some sym →
          (sectionNamed mem sec strtabName).isSome ∧
            ∃ other,
              (symbols mem sh.addr sh.size).find?
                  (fun sym => Found addr sym) = some other ∧
                other.name = sym.name

theorem symbols_one (mem : Memory) (a : UInt32) :
    symbols mem a 16 = [symAt mem a] := by
  have hZero : a + 16 * UInt32.ofNat 0 = a :=
    UInt32.add_zero a
  change [symAt mem (a + 16 * UInt32.ofNat 0)] = _
  rw [hZero]

/- The lookup among the symbols that the map names. -/
theorem lookup_of_symtab
    {elf : Map}
    {start size : UInt32}
    (hSymtab :
      ((elfSymMapFromMultiboot mem sec elf).symtab,
          (elfSymMapFromMultiboot mem sec elf).symtabsz) =
        (start, size)) :
    elfSymMapLookup mem addr
        (elfSymMapFromMultiboot mem sec elf) =
      (((symbols mem start size).find?
          fun sym => Found addr sym).map fun sym =>
            .pointer
              (((sectionNamed mem sec strtabName).map
                Shdr.addr).getD elf.strtab + sym.name)).getD
                  .empty := by
  rcases Prod.mk.inj hSymtab with ⟨hStart, hSize⟩
  unfold elfSymMapLookup
  rw [lookupLoop_eq, hStart, hSize, strtab_fromMultiboot]

/- Any place in memory may be taken for the symbol table. -/
theorem lookupRight_none_iff
    (hNone : sectionNamed mem sec symtabName = none) :
    LookupRight mem sec addr ↔
      ∀ a, ¬ Found addr (symAt mem a) := by
  have hEmpty : symbolName mem sec addr = some .empty := by
    unfold symbolName symbolsOf
    rw [hNone]
    rfl
  have hSymtab :
      ∀ elf,
        ((elfSymMapFromMultiboot mem sec elf).symtab,
            (elfSymMapFromMultiboot mem sec elf).symtabsz) =
          (elf.symtab, elf.symtabsz) := by
    intro elf
    rw [symtab_fromMultiboot, hNone]
    rfl
  unfold LookupRight
  rw [hEmpty]
  constructor
  · intro hRight a hFound
    have hOne := hRight ⟨a, 16, 0, 0⟩
    rw [lookup_of_symtab (hSymtab _), symbols_one,
      List.find?_cons, decide_eq_true hFound] at hOne
    cases Option.some.inj hOne
  · intro hNowhere elf
    have hMissed :
        (symbols mem elf.symtab elf.symtabsz).find?
          (fun sym => Found addr sym) = none := by
      rw [List.find?_eq_none]
      intro sym hMem
      rcases List.mem_map.mp hMem with ⟨i, _, rfl⟩
      rw [decide_eq_true_eq]
      exact hNowhere _
    rw [lookup_of_symtab (hSymtab elf), hMissed]
    rfl

theorem lookupRight_some_iff
    {sh : Shdr}
    (hSome : sectionNamed mem sec symtabName = some sh) :
    LookupRight mem sec addr ↔
      ∀ sym,
        (symbols mem sh.addr sh.size).find?
            (fun sym => Covers addr sym) = some sym →
          (sectionNamed mem sec strtabName).isSome ∧
            ∃ other,
              (symbols mem sh.addr sh.size).find?
                  (fun sym => Found addr sym) = some other ∧
                other.name = sym.name := by
  have hSymbols :
      symbolsOf mem sec = symbols mem sh.addr sh.size := by
    unfold symbolsOf
    rw [hSome]
  have hSymtab :
      ∀ elf,
        ((elfSymMapFromMultiboot mem sec elf).symtab,
            (elfSymMapFromMultiboot mem sec elf).symtabsz) =
          (sh.addr, sh.size) := by
    intro elf
    rw [symtab_fromMultiboot, hSome]
    rfl
  have hLookup := fun elf =>
    (lookup_of_symtab (hSymtab elf) :
      elfSymMapLookup mem addr
        (elfSymMapFromMultiboot mem sec elf) = _)
  unfold LookupRight symbolName
  rw [hSymbols]
  generalize symbols mem sh.addr sh.size = syms at hLookup
  cases hFirst : syms.find? (fun sym => Covers addr sym) with
  | none =>
      -- what the loop finds covers the address
      have hMissed :
          syms.find? (fun sym => Found addr sym) = none := by
        rw [List.find?_eq_none] at hFirst ⊢
        intro sym hMem
        have hNot := hFirst sym hMem
        rw [decide_eq_true_eq] at hNot ⊢
        exact fun hFound => hNot hFound.1
      refine iff_of_true ?_ ?_
      · intro elf
        rw [hLookup elf, hMissed]
        rfl
      · intro sym hSym
        cases hSym
  | some sym =>
      constructor
      · intro hRight sym' hSym
        cases hSym
        have hOne := hRight ⟨0, 0, 0, 0⟩
        rw [hLookup] at hOne
        cases hNames : sectionNamed mem sec strtabName with
        | none =>
            rw [hNames] at hOne
            cases hOne
        | some names =>
            refine ⟨rfl, ?_⟩
            rw [hNames] at hOne
            have hOne := Option.some.inj hOne
            cases hFound :
                syms.find? (fun sym => Found addr sym) with
            | none =>
                rw [hFound] at hOne
                cases hOne
            | some other =>
                rw [hFound] at hOne
                refine ⟨other, rfl, ?_⟩
                have hAddr :
                    names.addr + other.name =
                      names.addr + sym.name :=
                  (Name.pointer.inj hOne).symm
                exact (UInt32.add_right_inj names.addr).mp
                  hAddr
      · intro hCan elf
        rcases hCan sym rfl with ⟨hNames, other, hFound, hName⟩
        rcases Option.isSome_iff_exists.mp hNames with
          ⟨names, hNames⟩
        rw [hLookup elf, hNames, hFound]
        change some (Name.pointer (names.addr + sym.name)) =
          some (Name.pointer (names.addr + other.name))
        rw [hName]

/-
  For every memory and section header table: the lookup is
  right, whatever was in the local variable, if and only if
  the sections are there and no sum that wraps matters.
-/
theorem sym_map_lookup_iff
    (mem : Memory)
    (sec : SectionTable)
    (addr : UInt32) :
    LookupRight mem sec addr ↔ CanName mem sec addr := by
  unfold CanName
  cases hSymtab : sectionNamed mem sec symtabName with
  | none => exact lookupRight_none_iff hSymtab
  | some sh => exact lookupRight_some_iff hSymtab

/-
  A function symbol at 0x2000 for 16 bytes from 0x100000 on,
  and no sections.
-/
def strippedMemory : Memory := fun a =>
  if a = 0x2006 then 0x10
  else if a = 0x2008 then 0x10
  else if a = 0x200C then 0x02
  else 0

def strippedTable : SectionTable where
  num := 0
  addr := 0x1000
  shndx := 0

theorem stripped_lookup_wrong :
    ¬ LookupRight strippedMemory strippedTable 0x100004 := by
  have hNone :
      sectionNamed strippedMemory strippedTable symtabName =
        none := rfl
  rw [lookupRight_none_iff hNone]
  intro hNowhere
  refine hNowhere 0x2000 ?_
  decide

end SymMap

end Elf

end SosKernel
