import SosKernel.Asm.Machine

/-
  Where the threads of the kernel have their stacks and
  records, and what it means that these do not overlap.

  Main declarations:
    * `World`, `World.NoOverlap`
    * `World.Mine`: the bytes that a thread reaches
    * `NoOverlap.word_puts`: what a thread has stored
    * `NoOverlap.word_puts_other`, `word_puts_stack`: what
      it has left alone
-/

------------------------------------------------------------
-- Threads and Their Memory
------------------------------------------------------------

namespace SosKernel

namespace Asm

/-
  The threads, by the addresses of their records.  `space`
  is the value of CR3 for the task of a thread, and its
  stack lies from `lo` to `hi` in that address space.
  `Data` are the bytes of task records and directories.
-/
structure World where
  place : Paging
  syms : Symbols
  Thread : UInt32 → Prop
  space : UInt32 → UInt32
  lo : UInt32 → Nat
  hi : UInt32 → UInt32
  Data : Nat → Prop

namespace World

variable (w : World)

def RECORD_SIZE : Nat := 40

/- The byte belongs to the record of `u`. -/
def InRecord (u : UInt32) (a : Nat) : Prop :=
  u.toNat ≤ a ∧ a < u.toNat + RECORD_SIZE

/- The byte belongs to the word at the symbol `g`. -/
def InSymbol (g a : Nat) : Prop :=
  g ≤ a ∧ a < g + 4

/- The variables that `switch_context` uses. -/
def IsSymbol (g : Nat) : Prop :=
  g = w.syms.currentThread ∨ g = w.syms.currentTask ∨
    g = w.syms.currentDirectory

/- The byte belongs to the memory that all tasks share. -/
def Kernel (a : Nat) : Prop :=
  (∃ u, w.Thread u ∧ InRecord u a) ∨
    (∃ g, w.IsSymbol g ∧ InSymbol g a) ∨ w.Data a

/- The byte belongs to the stack of `u`. -/
def InStack (u : UInt32) (a : Nat) : Prop :=
  w.lo u ≤ a ∧ a < (w.hi u).toNat

/- The address space of some thread. -/
def Space (c : UInt32) : Prop :=
  ∃ u, w.Thread u ∧ w.space u = c

/- The words at `a` and `b` do not overlap. -/
def Disjoint4 (a b : Nat) : Prop :=
  a + 4 ≤ b ∨ b + 4 ≤ a

/-
  Stacks and records do not overlap: kernel bytes are the
  same memory in all address spaces, and apart from that two
  bytes of the kernel or of stacks are different memory.
-/
structure NoOverlap : Prop where
  shared :
    ∀ c c' a, w.Space c → w.Space c' → w.Kernel a →
      w.place c a = w.place c' a
  kernel :
    ∀ c a b, w.Space c → w.Kernel a → w.Kernel b →
      w.place c a = w.place c b → a = b
  stack :
    ∀ u a b, w.Thread u → w.InStack u a → w.InStack u b →
      w.place (w.space u) a = w.place (w.space u) b → a = b
  stackKernel :
    ∀ u a b, w.Thread u → w.InStack u a → w.Kernel b →
      w.place (w.space u) a ≠ w.place (w.space u) b
  otherStack :
    ∀ u v a b, w.Thread u → w.Thread v → u ≠ v →
      w.InStack u a → w.InStack v b →
        w.place (w.space u) a ≠ w.place (w.space v) b
  recordEnd :
    ∀ u, w.Thread u → u.toNat + RECORD_SIZE ≤ 2 ^ 32
  records :
    ∀ u v, w.Thread u → w.Thread v → u ≠ v →
      u.toNat + RECORD_SIZE ≤ v.toNat ∨
        v.toNat + RECORD_SIZE ≤ u.toNat
  recordSymbol :
    ∀ u g, w.Thread u → w.IsSymbol g →
      u.toNat + RECORD_SIZE ≤ g ∨ g + 4 ≤ u.toNat
  symbols :
    Disjoint4 w.syms.currentThread w.syms.currentTask ∧
      Disjoint4 w.syms.currentThread
        w.syms.currentDirectory ∧
      Disjoint4 w.syms.currentTask w.syms.currentDirectory
  dataRecord :
    ∀ u a, w.Thread u → w.Data a → ¬ InRecord u a
  dataSymbol :
    ∀ g a, w.IsSymbol g → w.Data a → ¬ InSymbol g a

/- All four bytes are the kernel's. -/
def KernelWord (a : Nat) : Prop :=
  ∀ i, i < 4 → w.Kernel (a + i)

def StackWord (u : UInt32) (a : Nat) : Prop :=
  w.lo u ≤ a ∧ a + 4 ≤ (w.hi u).toNat

/- The bytes that thread `u` reaches. -/
def Mine (u : UInt32) (a : Nat) : Prop :=
  w.Kernel a ∨ w.InStack u a

def MineWord (u : UInt32) (a : Nat) : Prop :=
  ∀ i, i < 4 → w.Mine u (a + i)

/- A word of the record or of the stack of `u`. -/
def OwnWord (u : UInt32) (a : Nat) : Prop :=
  (∃ d, d + 4 ≤ RECORD_SIZE ∧ a = u.toNat + d) ∨
    w.StackWord u a

variable {w}
variable {u v c c' : UInt32}
variable {a b : Nat}

theorem space_of_thread (hu : w.Thread u) :
    w.Space (w.space u) :=
  ⟨u, hu, rfl⟩

theorem StackWord.inStack
    (hWord : w.StackWord u a)
    {i : Nat}
    (hi : i < 4) :
    w.InStack u (a + i) := by
  rcases hWord with ⟨hLo, hHi⟩
  exact ⟨by omega, by omega⟩

theorem StackWord.mine (hWord : w.StackWord u a) :
    w.MineWord u a :=
  fun _ hi => .inr (hWord.inStack hi)

theorem KernelWord.mine
    (hWord : w.KernelWord a)
    (u : UInt32) :
    w.MineWord u a :=
  fun i hi => .inl (hWord i hi)

/- A word of the saved state of a thread. -/
theorem kernelWord_record
    {d : Nat}
    (hu : w.Thread u)
    (hd : d + 4 ≤ RECORD_SIZE) :
    w.KernelWord (u.toNat + d) := by
  intro i hi
  exact .inl ⟨u, hu, by omega, by omega⟩

theorem kernelWord_symbol
    {g : Nat}
    (hg : w.IsSymbol g) :
    w.KernelWord g := by
  intro i hi
  exact .inr (.inl ⟨g, hg, by omega, by omega⟩)

theorem OwnWord.mine
    (hu : w.Thread u)
    (ha : w.OwnWord u a) :
    w.MineWord u a := by
  rcases ha with ⟨d, hd, rfl⟩ | ha
  · exact (kernelWord_record hu hd).mine u
  · exact ha.mine

namespace NoOverlap

variable (hNo : w.NoOverlap)

include hNo

/- What a thread reaches are different bytes of memory. -/
theorem mine
    (hu : w.Thread u)
    (ha : w.Mine u a)
    (hb : w.Mine u b)
    (hSame :
      w.place (w.space u) a = w.place (w.space u) b) :
    a = b := by
  rcases ha with ha | ha
  · rcases hb with hb | hb
    · exact hNo.kernel _ a b (space_of_thread hu) ha hb hSame
    · exact absurd hSame.symm
        (hNo.stackKernel u b a hu hb ha)
  · rcases hb with hb | hb
    · exact absurd hSame (hNo.stackKernel u a b hu ha hb)
    · exact hNo.stack u a b hu ha hb hSame

theorem spread
    (hu : w.Thread u)
    (ha : w.MineWord u a) :
    ByteMemory.Spread (w.place (w.space u)) a := by
  intro i j hi hj hSame
  have hEq := hNo.mine hu (ha i hi) (ha j hj) hSame
  omega

theorem apart
    (hu : w.Thread u)
    (ha : w.MineWord u a)
    (hb : w.MineWord u b)
    (hDisjoint : Disjoint4 a b) :
    ByteMemory.Apart (w.place (w.space u)) a
      (w.place (w.space u)) b := by
  intro i j hi hj hSame
  have hEq := hNo.mine hu (hb j hj) (ha i hi) hSame
  unfold Disjoint4 at hDisjoint
  omega

/- The stack of a thread is not in the kernel's memory. -/
theorem stack_range
    {lo hi : Nat}
    (hu : w.Thread u)
    (hStack : ∀ x, a ≤ x → x < b → w.InStack u x)
    (hRange : ∀ x, lo ≤ x → x < hi → w.Kernel x) :
    b ≤ lo ∨ hi ≤ a ∨ hi ≤ lo ∨ b ≤ a := by
  by_contra hOverlap
  have hMeet :
      ∃ x, (a ≤ x ∧ x < b) ∧ lo ≤ x ∧ x < hi := by
    by_cases hLe : lo ≤ a
    · exact ⟨a, by omega, by omega, by omega⟩
    · exact ⟨lo, by omega, by omega, by omega⟩
  rcases hMeet with ⟨x, ⟨hLow, hHigh⟩, hLo, hHi⟩
  exact hNo.stackKernel u x x hu (hStack x hLow hHigh)
    (hRange x hLo hHi) rfl

theorem stack_disjoint
    {lo hi : Nat}
    (hu : w.Thread u)
    (ha : w.StackWord u a)
    (hRange : ∀ x, lo ≤ x → x < hi → w.Kernel x) :
    a + 4 ≤ lo ∨ hi ≤ a ∨ hi ≤ lo := by
  rcases ha with ⟨hLo, hHi⟩
  have hMeet :=
    hNo.stack_range (a := a) (b := a + 4) hu
      (fun x hLe hLt => ⟨by omega, by omega⟩) hRange
  omega

theorem own_symbol
    {g : Nat}
    (hu : w.Thread u)
    (hg : w.IsSymbol g)
    (ha : w.OwnWord u a) :
    Disjoint4 a g := by
  unfold Disjoint4
  rcases ha with ⟨d, hd, rfl⟩ | ha
  · have hApart := hNo.recordSymbol u g hu hg
    omega
  · have hStack :=
      hNo.stack_disjoint hu ha
        (fun x hLo hHi => .inr (.inl ⟨g, hg, hLo, hHi⟩))
    omega

theorem stack_record
    {d : Nat}
    (hu : w.Thread u)
    (hv : w.Thread v)
    (hd : d + 4 ≤ RECORD_SIZE)
    (ha : w.StackWord u a) :
    Disjoint4 a (v.toNat + d) := by
  have hStack :=
    hNo.stack_disjoint hu ha
      (fun x hLo hHi => .inl ⟨v, hv, hLo, hHi⟩)
  unfold Disjoint4
  omega

theorem own_record
    {d : Nat}
    (hu : w.Thread u)
    (hv : w.Thread v)
    (hNe : v ≠ u)
    (hd : d + 4 ≤ RECORD_SIZE)
    (ha : w.OwnWord u a) :
    Disjoint4 a (v.toNat + d) := by
  rcases ha with ⟨d', hd', rfl⟩ | ha
  · have hApart := hNo.records v u hv hu hNe
    unfold Disjoint4
    omega
  · exact hNo.stack_record hu hv hd ha

/- Kernel words are the same in all address spaces. -/
theorem wordVia_kernel
    (mem : ByteMemory)
    (hc : w.Space c)
    (hc' : w.Space c')
    (ha : w.KernelWord a) :
    ByteMemory.wordVia (w.place c) mem a =
      ByteMemory.wordVia (w.place c') mem a := by
  apply ByteMemory.wordVia_congr
  intro i hi
  rw [hNo.shared c c' (a + i) hc hc' (ha i hi)]

/- Data words overlap no record and no symbol. -/
theorem data_record
    (hu : w.Thread u)
    (ha : ∀ i, i < 4 → w.Data (a + i)) :
    a + 4 ≤ u.toNat ∨ u.toNat + RECORD_SIZE ≤ a := by
  by_contra hOverlap
  by_cases hLe : u.toNat ≤ a
  · exact hNo.dataRecord u (a + 0) hu (ha 0 (by omega))
      ⟨by omega, by omega⟩
  · have hIn : a + (u.toNat - a) = u.toNat := by omega
    refine hNo.dataRecord u (a + (u.toNat - a)) hu
      (ha _ (by omega)) ⟨by omega, ?_⟩
    unfold RECORD_SIZE
    omega

theorem data_symbol
    {g : Nat}
    (hg : w.IsSymbol g)
    (ha : ∀ i, i < 4 → w.Data (a + i)) :
    Disjoint4 a g := by
  by_contra hOverlap
  unfold Disjoint4 at hOverlap
  by_cases hLe : g ≤ a
  · exact hNo.dataSymbol g (a + 0) hg (ha 0 (by omega))
      ⟨by omega, by omega⟩
  · have hIn : a + (g - a) = g := by omega
    exact hNo.dataSymbol g (a + (g - a)) hg
      (ha _ (by omega)) ⟨by omega, by omega⟩

------------------------------------------------------------
-- Sequences of Stores of One Thread
------------------------------------------------------------

variable {stores : List (Nat × UInt32)}

/- What a thread has stored last at an address is there. -/
theorem word_puts
    {s : Nat × UInt32}
    (mem : ByteMemory)
    (hu : w.Thread u)
    (hMine : ∀ t ∈ stores, w.MineWord u t.1)
    (hDisjoint :
      stores.Pairwise fun t t' => Disjoint4 t.1 t'.1)
    (hMem : s ∈ stores) :
    ByteMemory.wordVia (w.place (w.space u))
        (ByteMemory.putsVia (w.place (w.space u)) mem stores)
        s.1 = s.2 := by
  refine ByteMemory.wordVia_putsVia_mem mem ?_ ?_ hMem
  · intro t ht
    exact hNo.spread hu (hMine t ht)
  · apply hDisjoint.imp_of_mem
    intro t t' ht ht' hApart
    exact hNo.apart hu (hMine t' ht') (hMine t ht)
      (Or.symm hApart)

/- Other words that the thread reaches are as they were. -/
theorem word_puts_other
    (mem : ByteMemory)
    (hu : w.Thread u)
    (hMine : ∀ t ∈ stores, w.MineWord u t.1)
    (ha : w.MineWord u a)
    (hDisjoint : ∀ t ∈ stores, Disjoint4 t.1 a) :
    ByteMemory.wordVia (w.place (w.space u))
        (ByteMemory.putsVia (w.place (w.space u)) mem stores)
        a =
      ByteMemory.wordVia (w.place (w.space u)) mem a := by
  apply ByteMemory.wordVia_putsVia_of_apart
  intro t ht
  exact hNo.apart hu (hMine t ht) ha (hDisjoint t ht)

/-
  A word of the kernel that the stores do not overlap is as
  it was, in every address space.
-/
theorem word_puts_kernel
    (mem : ByteMemory)
    (hu : w.Thread u)
    (hv : w.Thread v)
    (hMine : ∀ t ∈ stores, w.MineWord u t.1)
    (ha : w.KernelWord a)
    (hDisjoint : ∀ t ∈ stores, Disjoint4 t.1 a) :
    ByteMemory.wordVia (w.place (w.space v))
        (ByteMemory.putsVia (w.place (w.space u)) mem stores)
        a =
      ByteMemory.wordVia (w.place (w.space v)) mem a := by
  have hSpace := space_of_thread hv
  have hSpace' := space_of_thread hu
  rw [hNo.wordVia_kernel _ hSpace hSpace' ha,
    hNo.wordVia_kernel mem hSpace hSpace' ha]
  exact hNo.word_puts_other mem hu hMine (ha.mine u)
    hDisjoint

/-
  The stack of another thread is as it was, in the address
  space of that thread.
-/
theorem word_puts_stack
    (mem : ByteMemory)
    (hu : w.Thread u)
    (hv : w.Thread v)
    (hNe : u ≠ v)
    (hMine : ∀ t ∈ stores, w.MineWord u t.1)
    (ha : w.StackWord v a) :
    ByteMemory.wordVia (w.place (w.space v))
        (ByteMemory.putsVia (w.place (w.space u)) mem stores)
        a =
      ByteMemory.wordVia (w.place (w.space v)) mem a := by
  apply ByteMemory.wordVia_putsVia_of_apart
  intro t ht i j hi hj hSame
  rcases hMine t ht i hi with hKernel | hStack
  · rw [hNo.shared _ (w.space v) (t.1 + i)
      (space_of_thread hu) (space_of_thread hv) hKernel]
      at hSame
    exact hNo.stackKernel v (a + j) (t.1 + i) hv
      (ha.inStack hj) hKernel hSame
  · exact hNo.otherStack v u (a + j) (t.1 + i) hv hu hNe.symm
      (ha.inStack hj) hStack hSame

end NoOverlap

end World

end Asm

end SosKernel
