import SosKernel.Asm.Threads

/-
  What `switch_context` stores, and the address space that
  it loads, up to the point where the old stack is gone.

  Main declarations:
    * `Ready`: the record and the stack of a thread that is
      not running
    * `Inv`: what holds between two steps
    * `Standing`: the running thread calls
    * `switchContext_transfers`
-/

------------------------------------------------------------
-- Threads That Wait
------------------------------------------------------------

namespace SosKernel

namespace Asm

variable (w : World)

/-
  The record of `u` holds the state in which it goes on, the
  return address is on its stack, and there is room below.
-/
structure Ready
    (m : Machine)
    (u : UInt32)
    (r : Resume) : Prop where
  esp :
    m.word w.place (w.space u) (u.toNat + 0) = r.ctx.esp - 4
  ebp :
    m.word w.place (w.space u) (u.toNat + 4) = r.ctx.ebp
  ebx :
    m.word w.place (w.space u) (u.toNat + 8) = r.ctx.ebx
  esi :
    m.word w.place (w.space u) (u.toNat + 12) = r.ctx.esi
  edi :
    m.word w.place (w.space u) (u.toNat + 16) = r.ctx.edi
  eflags :
    m.word w.place (w.space u) (u.toNat + 20) = r.ctx.eflags
  eip :
    m.word w.place (w.space u) (r.ctx.esp.toNat - 4) =
      r.ctx.eip
  words :
    ∀ i (hi : i < r.words.length),
      m.word w.place (w.space u) (r.ctx.esp.toNat + 4 * i) =
        r.words[i]
  room : w.lo u + 8 ≤ r.ctx.esp.toNat
  top :
    r.ctx.esp.toNat + 4 * r.words.length ≤ (w.hi u).toNat

/- What holds between two steps. -/
structure Inv (cfg : Config) : Prop where
  thread : w.Thread cfg.current
  loaded : cfg.machine.cr3 = w.space cfg.current
  current :
    cfg.machine.word w.place (w.space cfg.current)
      w.syms.currentThread = cfg.current
  ready :
    ∀ u r, u ≠ cfg.current → cfg.resume u = some r →
      w.Thread u ∧ Ready w cfg.machine u r

variable {w}
variable {cfg : Config}
variable {m m' : Machine}
variable {u v t task : UInt32}
variable {r : Resume}

/- A record and a stack that have not changed. -/
theorem Ready.congr
    (hReady : Ready w m u r)
    (hRecord :
      ∀ d, d + 4 ≤ World.RECORD_SIZE →
        m'.word w.place (w.space u) (u.toNat + d) =
          m.word w.place (w.space u) (u.toNat + d))
    (hStack :
      ∀ a, w.StackWord u a → r.ctx.esp.toNat - 4 ≤ a →
        m'.word w.place (w.space u) a =
          m.word w.place (w.space u) a) :
    Ready w m' u r where
  esp := (hRecord 0 (by decide)).trans hReady.esp
  ebp := (hRecord 4 (by decide)).trans hReady.ebp
  ebx := (hRecord 8 (by decide)).trans hReady.ebx
  esi := (hRecord 12 (by decide)).trans hReady.esi
  edi := (hRecord 16 (by decide)).trans hReady.edi
  eflags := (hRecord 20 (by decide)).trans hReady.eflags
  eip := by
    have hRoom := hReady.room
    have hTop := hReady.top
    refine (hStack _ ⟨?_, ?_⟩ (Nat.le_refl _)).trans
      hReady.eip
    · omega
    · omega
  words := by
    intro i hi
    have hRoom := hReady.room
    have hTop := hReady.top
    refine (hStack _ ⟨?_, ?_⟩ ?_).trans (hReady.words i hi)
    · omega
    · omega
    · omega
  room := hReady.room
  top := hReady.top

------------------------------------------------------------
-- Addresses
------------------------------------------------------------

theorem toNat_add_of_lt
    {x d : UInt32}
    (hLt : x.toNat + d.toNat < 2 ^ 32) :
    (x + d).toNat = x.toNat + d.toNat := by
  rw [UInt32.toNat_add]
  exact Nat.mod_eq_of_lt hLt

theorem toNat_sub_of_le
    {x d : UInt32}
    (hLe : d.toNat ≤ x.toNat) :
    (x - d).toNat = x.toNat - d.toNat :=
  UInt32.toNat_sub_of_le x d (UInt32.le_iff_toNat_le.mpr hLe)

/- A field of the saved state of a thread. -/
theorem record_address
    (hNo : w.NoOverlap)
    (hu : w.Thread u)
    {d : UInt32}
    (hd : d.toNat + 4 ≤ World.RECORD_SIZE) :
    (u + d).toNat = u.toNat + d.toNat := by
  have hEnd := hNo.recordEnd u hu
  apply toNat_add_of_lt
  omega

------------------------------------------------------------
-- The Stores of a Switch
------------------------------------------------------------

/-
  The thread `p` is running, with room on its stack for one
  word below the stack pointer and for three above.
-/
structure Standing
    (w : World)
    (m : Machine)
    (p : UInt32) : Prop where
  thread : w.Thread p
  loaded : m.cr3 = w.space p
  room : w.lo p + 4 ≤ (m.regs .esp).toNat
  frame : (m.regs .esp).toNat + 12 ≤ (w.hi p).toNat

variable {p : UInt32}
variable {s : Nat × UInt32}
variable {stores : List (Nat × UInt32)}

namespace Standing

theorem esp_below
    (hStanding : Standing w m p) :
    (m.regs .esp - 4).toNat = (m.regs .esp).toNat - 4 := by
  have hRoom := hStanding.room
  apply toNat_sub_of_le
  change 4 ≤ (m.regs .esp).toNat
  omega

theorem esp_above
    (hStanding : Standing w m p)
    {d : UInt32}
    (hd : d.toNat ≤ 8) :
    (m.regs .esp + d).toNat =
      (m.regs .esp).toNat + d.toNat := by
  have hFrame := hStanding.frame
  have hHi := (w.hi p).toNat_lt
  apply toNat_add_of_lt
  omega

/- The word below the stack pointer. -/
theorem below
    (hStanding : Standing w m p) :
    w.StackWord p (m.regs .esp - 4).toNat := by
  have hRoom := hStanding.room
  have hFrame := hStanding.frame
  rw [hStanding.esp_below]
  exact ⟨by omega, by omega⟩

/- The return address and the arguments. -/
theorem above
    (hStanding : Standing w m p)
    {d : Nat}
    (hd : d ≤ 8) :
    w.StackWord p ((m.regs .esp).toNat + d) := by
  have hRoom := hStanding.room
  have hFrame := hStanding.frame
  exact ⟨by omega, by omega⟩

/-
  The state is saved in the record of `q` and below the
  stack pointer of `p`.
-/
section Stores

variable {q : UInt32}
variable (hStanding : Standing w m p)
variable (hNo : w.NoOverlap)
variable (hq : w.Thread q)

include hStanding hNo hq

theorem saved_place
    (hs : s ∈ saved m q) :
    (∃ d, d + 4 ≤ World.RECORD_SIZE ∧ s.1 = q.toNat + d) ∨
      w.StackWord p s.1 ∧
        s.1 = (m.regs .esp).toNat - 4 := by
  have hField :
      ∀ d : UInt32, d.toNat + 4 ≤ World.RECORD_SIZE →
        (q + d).toNat = q.toNat + d.toNat :=
    fun d hd => record_address hNo hq hd
  simp only [saved, List.mem_cons, List.not_mem_nil,
    or_false] at hs
  rcases hs with rfl | rfl | rfl | rfl | rfl | rfl | rfl
  · exact .inl ⟨0, by decide, hField 0 (by decide)⟩
  · exact .inl ⟨4, by decide, hField 4 (by decide)⟩
  · exact .inl ⟨8, by decide, hField 8 (by decide)⟩
  · exact .inl ⟨12, by decide, hField 12 (by decide)⟩
  · exact .inl ⟨16, by decide, hField 16 (by decide)⟩
  · exact .inr ⟨hStanding.below, hStanding.esp_below⟩
  · exact .inl ⟨20, by decide, hField 20 (by decide)⟩

theorem saved_mine
    (hs : s ∈ saved m q) :
    w.MineWord p s.1 := by
  rcases hStanding.saved_place hNo hq hs with
    ⟨d, hd, hPlace⟩ | ⟨hStack, hPlace⟩
  · rw [hPlace]
    exact (World.kernelWord_record hq hd).mine p
  · exact hStack.mine

theorem saved_symbol
    {g : Nat}
    (hg : w.IsSymbol g)
    (hs : s ∈ saved m q) :
    World.Disjoint4 s.1 g := by
  rcases hStanding.saved_place hNo hq hs with
    hField | ⟨hStack, hPlace⟩
  · exact hNo.own_symbol hq hg (.inl hField)
  · exact hNo.own_symbol hStanding.thread hg (.inr hStack)

theorem saved_record
    {d : Nat}
    (hu : w.Thread u)
    (hNe : u ≠ q)
    (hd : d + 4 ≤ World.RECORD_SIZE)
    (hs : s ∈ saved m q) :
    World.Disjoint4 s.1 (u.toNat + d) := by
  rcases hStanding.saved_place hNo hq hs with
    hField | ⟨hStack, hPlace⟩
  · exact hNo.own_record hq hu hNe hd (.inl hField)
  · exact hNo.stack_record hStanding.thread hu hd hStack

theorem saved_pairwise :
    (saved m q).Pairwise
      fun s s' => World.Disjoint4 s.1 s'.1 := by
  have h0 := record_address hNo hq (d := 0) (by decide)
  have h4 := record_address hNo hq (d := 4) (by decide)
  have h8 := record_address hNo hq (d := 8) (by decide)
  have h12 := record_address hNo hq (d := 12) (by decide)
  have h16 := record_address hNo hq (d := 16) (by decide)
  have h20 := record_address hNo hq (d := 20) (by decide)
  have hStack :=
    hNo.stack_disjoint hStanding.thread hStanding.below
      (fun x hLo hHi => .inl ⟨q, hq, hLo, hHi⟩)
  unfold World.RECORD_SIZE at hStack
  simp only [UInt32.reduceToNat] at h0 h4 h8 h12 h16 h20
  simp only [saved, List.pairwise_cons, List.forall_mem_cons,
    List.not_mem_nil, h0, h4, h8, h12, h16, h20,
    World.Disjoint4, List.Pairwise.nil, and_true,
    false_implies, forall_const]
  and_intros <;> omega

-- Words at the variables of the switch may follow.
variable (hSymbols : ∀ s ∈ stores, w.IsSymbol s.1)

include hSymbols

theorem stores_mine :
    ∀ s ∈ saved m q ++ stores, w.MineWord p s.1 := by
  intro s hs
  rcases List.mem_append.mp hs with hs | hs
  · exact hStanding.saved_mine hNo hq hs
  · exact (World.kernelWord_symbol (hSymbols s hs)).mine p

/- A word that is stored is there. -/
theorem word_stored
    (hPairwise :
      stores.Pairwise
        fun s s' => World.Disjoint4 s.1 s'.1)
    (hs : s ∈ saved m q ++ stores) :
    ByteMemory.wordVia (w.place (w.space p))
        (ByteMemory.putsVia (w.place (w.space p)) m.ram
          (saved m q ++ stores))
        s.1 = s.2 := by
  refine hNo.word_puts m.ram hStanding.thread
    (hStanding.stores_mine hNo hq hSymbols) ?_ hs
  rw [List.pairwise_append]
  refine ⟨hStanding.saved_pairwise hNo hq, hPairwise, ?_⟩
  intro s hs s' hs'
  exact hStanding.saved_symbol hNo hq (hSymbols s' hs') hs

/- The records of other threads are as they were. -/
theorem word_other_record
    {d : Nat}
    (hu : w.Thread u)
    (hNe : u ≠ q)
    (hd : d + 4 ≤ World.RECORD_SIZE) :
    ByteMemory.wordVia (w.place (w.space u))
        (ByteMemory.putsVia (w.place (w.space p)) m.ram
          (saved m q ++ stores))
        (u.toNat + d) =
      ByteMemory.wordVia (w.place (w.space u)) m.ram
        (u.toNat + d) := by
  refine hNo.word_puts_kernel m.ram hStanding.thread hu
    (hStanding.stores_mine hNo hq hSymbols)
    (World.kernelWord_record hu hd) ?_
  intro s hs
  rcases List.mem_append.mp hs with hs | hs
  · exact hStanding.saved_record hNo hq hu hNe hd hs
  · have hApart := hNo.recordSymbol u s.1 hu (hSymbols s hs)
    unfold World.Disjoint4
    omega

/- The own stack is as it was from the stack pointer on. -/
theorem word_own_stack
    {a : Nat}
    (ha : w.StackWord p a)
    (hAbove : (m.regs .esp).toNat ≤ a) :
    ByteMemory.wordVia (w.place (w.space p))
        (ByteMemory.putsVia (w.place (w.space p)) m.ram
          (saved m q ++ stores))
        a =
      ByteMemory.wordVia (w.place (w.space p)) m.ram a := by
  have hp := hStanding.thread
  refine hNo.word_puts_other m.ram hp
    (hStanding.stores_mine hNo hq hSymbols) ha.mine ?_
  intro s hs
  rcases List.mem_append.mp hs with hs | hs
  · have hRoom := hStanding.room
    rcases hStanding.saved_place hNo hq hs with
      ⟨d, hd, hPlace⟩ | ⟨hStack, hPlace⟩
    · rw [hPlace]
      exact (hNo.stack_record hp hq hd ha).symm
    · exact .inl (by omega)
  · exact (hNo.own_symbol hp (hSymbols s hs) (.inr ha)).symm

/- Task records and directories are as they were. -/
theorem word_data
    {a : Nat}
    (ha : ∀ i, i < 4 → w.Data (a + i)) :
    ByteMemory.wordVia (w.place (w.space p))
        (ByteMemory.putsVia (w.place (w.space p)) m.ram
          (saved m q ++ stores))
        a =
      ByteMemory.wordVia (w.place (w.space p)) m.ram a := by
  have hp := hStanding.thread
  have hWord : w.KernelWord a :=
    fun i hi => .inr (.inr (ha i hi))
  refine hNo.word_puts_other m.ram hp
    (hStanding.stores_mine hNo hq hSymbols)
    (hWord.mine p) ?_
  intro s hs
  rcases List.mem_append.mp hs with hs | hs
  · have hRecord := hNo.data_record hq ha
    have hRange :
        ∀ x, a ≤ x → x < a + 4 → w.Kernel x := by
      intro x hLo hHi
      have hEq : a + (x - a) = x := by omega
      exact hEq ▸ hWord (x - a) (by omega)
    unfold World.Disjoint4
    rcases hStanding.saved_place hNo hq hs with
      ⟨d, hd, hPlace⟩ | ⟨hStack, hPlace⟩
    · omega
    · have hApart := hNo.stack_disjoint hp hStack hRange
      omega
  · exact (hNo.data_symbol (hSymbols s hs) ha).symm

end Stores

end Standing

------------------------------------------------------------
-- The Switch up to the New Stack
------------------------------------------------------------

/-
  The state of `p` is saved, `t` is the current thread, and
  its address space is loaded.
-/
structure Transferred
    (w : World)
    (m : Machine)
    (p t : UInt32)
    (stores : List (Nat × UInt32))
    (m' : Machine) : Prop where
  symbols : ∀ s ∈ stores, w.IsSymbol s.1
  pairwise :
    stores.Pairwise fun s s' => World.Disjoint4 s.1 s'.1
  current : (w.syms.currentThread, t) ∈ stores
  cr3 : m'.cr3 = w.space t
  ram :
    m'.ram =
      ByteMemory.putsVia (w.place (w.space p)) m.ram
        (saved m p ++ stores)

theorem run_append
    (place : Paging)
    (code code' : List Instr)
    (m : Machine) :
    run place (code ++ code') m =
      run place code' (run place code m) :=
  List.foldl_append

theorem saved_set_eax (m : Machine) (v p : UInt32) :
    saved (m.set .eax v) p = saved m p := by
  simp [saved, Machine.set]

/- `eax` becomes the argument at `esp + 8`. -/
theorem run_arguments
    (t task : UInt32)
    (place : Paging)
    (m : Machine)
    {g : Nat}
    (hThread :
      m.word place m.cr3 (m.regs .esp + 4).toNat = t)
    (hTask :
      ByteMemory.wordVia (place m.cr3)
        (ByteMemory.putVia (place m.cr3) m.ram g t)
        (m.regs .esp + 8).toNat = task) :
    run place
        [.load .eax (.mem .esp 4), .store (.sym g) .eax,
          .load .eax (.mem .esp 8), .cmpZero .eax] m =
      { regs := Function.update m.regs .eax task
        eflags := compareFlags task m.eflags
        eip := m.eip
        cr3 := m.cr3
        ram := ByteMemory.putVia (place m.cr3) m.ram g t } := by
  have hEsp :
      Function.update m.regs .eax t .esp = m.regs .esp :=
    Function.update_of_ne (by decide) _ _
  simp only [run, List.foldl_cons, List.foldl_nil,
    Instr.exec, Operand.addr, Machine.put, Machine.set,
    hThread, Function.update_self, hEsp]
  simp only [Machine.word, hTask, Function.update_idem]

/- The running thread saves its state in a record. -/
theorem run_save
    (hStanding : Standing w m p)
    (hNo : w.NoOverlap)
    (q : UInt32) :
    ∃ regs,
      regs .esp = m.regs .esp ∧
        run w.place saveState (m.set .eax q) =
          { regs := regs
            eflags := m.eflags
            eip := m.eip
            cr3 := w.space p
            ram :=
              ByteMemory.putsVia (w.place (w.space p)) m.ram
                (saved m q) } := by
  have hSpread :
      ByteMemory.Spread (w.place m.cr3)
        (m.regs .esp - 4).toNat := by
    rw [hStanding.loaded]
    exact hNo.spread hStanding.thread hStanding.below.mine
  have hSave := run_saveState (m.set .eax q) hSpread
  refine ⟨((m.set .eax q).set .ecx m.eflags).regs, ?_, ?_⟩
  · rw [set_regs_of_ne (by decide), set_regs_of_ne (by decide)]
  · rw [set_regs_self, saved_set_eax] at hSave
    rw [hSave, ← hStanding.loaded]
    rfl

/- The first part saves the state and sets the thread. -/
theorem run_switchEntry
    (hStanding : Standing w m p)
    (hNo : w.NoOverlap)
    (hCurrent :
      m.word w.place (w.space p) w.syms.currentThread = p)
    (hThread :
      m.word w.place (w.space p)
        ((m.regs .esp).toNat + 4) = t)
    (hTask :
      m.word w.place (w.space p)
        ((m.regs .esp).toNat + 8) = task) :
    ∃ regs,
      regs .eax = task ∧
        run w.place (switchEntry w.syms) m =
          { regs := regs
            eflags := compareFlags task m.eflags
            eip := m.eip
            cr3 := w.space p
            ram :=
              ByteMemory.putsVia (w.place (w.space p)) m.ram
                (saved m p ++ [(w.syms.currentThread, t)]) } := by
  have hFirst :
      run w.place [.load .eax (.sym w.syms.currentThread)] m =
        m.set .eax p := by
    rw [← hCurrent, ← hStanding.loaded]
    rfl
  rcases run_save hStanding hNo p with
    ⟨regs, hEsp, hSave⟩
  have hSplit :
      switchEntry w.syms =
        [.load .eax (.sym w.syms.currentThread)] ++
          (saveState ++
            [.load .eax (.mem .esp 4),
              .store (.sym w.syms.currentThread) .eax,
              .load .eax (.mem .esp 8),
              .cmpZero .eax]) := rfl
  refine ⟨Function.update regs .eax task,
    Function.update_self _ _ _, ?_⟩
  rw [hSplit, run_append, hFirst, run_append, hSave,
    run_arguments t task w.place,
    ByteMemory.putsVia_append]
  · rfl
  -- The arguments are above the stack pointer.
  · have hNone :
        ∀ s ∈ ([] : List (Nat × UInt32)),
          w.IsSymbol s.1 :=
      fun s hs => absurd hs List.not_mem_nil
    have hArg :=
      (hStanding.word_own_stack hNo hStanding.thread hNone
        (hStanding.above (d := 4) (by decide))
        (by omega)).trans hThread
    rw [List.append_nil] at hArg
    change
      ByteMemory.wordVia (w.place (w.space p)) _
        (regs .esp + 4).toNat = t
    rw [hEsp, hStanding.esp_above (d := 4) (by decide)]
    exact hArg
  · have hOne :
        ∀ s ∈ [(w.syms.currentThread, t)],
          w.IsSymbol s.1 := by
      intro s hs
      rw [List.mem_singleton.mp hs]
      exact .inl rfl
    have hArg :=
      (hStanding.word_own_stack hNo hStanding.thread hOne
        (hStanding.above (d := 8) (by decide))
        (by omega)).trans hTask
    rw [ByteMemory.putsVia_append] at hArg
    change
      ByteMemory.wordVia (w.place (w.space p)) _
        (regs .esp + 8).toNat = task
    rw [hEsp, hStanding.esp_above (d := 8) (by decide)]
    exact hArg

/- The current task and directory are set, and CR3. -/
theorem run_directory
    (syms : Symbols)
    (place : Paging)
    (m : Machine)
    {d c : UInt32}
    (hTask : m.regs .eax = task)
    (hDirectory :
      ByteMemory.wordVia (place m.cr3)
        (ByteMemory.putVia (place m.cr3) m.ram
          syms.currentTask task)
        task.toNat = d)
    (hSpace :
      ByteMemory.wordVia (place m.cr3)
        (ByteMemory.putsVia (place m.cr3) m.ram
          [(syms.currentTask, task),
            (syms.currentDirectory, d)])
        d.toNat = c) :
    run place (switchTask syms) m =
      { regs := Function.update m.regs .eax c
        eflags := m.eflags
        eip := m.eip
        cr3 := c
        ram :=
          ByteMemory.putsVia (place m.cr3) m.ram
            [(syms.currentTask, task),
              (syms.currentDirectory, d)] } := by
  simp only [ByteMemory.putsVia, List.foldl_cons,
    List.foldl_nil] at hSpace
  simp only [run, switchTask, List.foldl_cons,
    List.foldl_nil, Instr.exec, Operand.addr, Machine.put,
    Machine.set, Machine.word, hTask, UInt32.add_zero,
    hDirectory, Function.update_self, hSpace,
    Function.update_idem, ByteMemory.putsVia]

/- The stores to the variables when the task changes too. -/
def symbolStores
    (w : World)
    (t task d : UInt32) : List (Nat × UInt32) :=
  [(w.syms.currentThread, t), (w.syms.currentTask, task),
    (w.syms.currentDirectory, d)]

theorem isSymbol_symbolStores
    {d : UInt32} :
    ∀ s ∈ symbolStores w t task d, w.IsSymbol s.1 := by
  intro s hs
  simp only [symbolStores, List.mem_cons, List.not_mem_nil,
    or_false] at hs
  rcases hs with rfl | rfl | rfl
  · exact .inl rfl
  · exact .inr (.inl rfl)
  · exact .inr (.inr rfl)

theorem pairwise_symbolStores
    {d : UInt32}
    (hNo : w.NoOverlap) :
    (symbolStores w t task d).Pairwise
      fun s s' => World.Disjoint4 s.1 s'.1 := by
  rcases hNo.symbols with ⟨hTask, hDirectory, hBoth⟩
  simp only [symbolStores, List.pairwise_cons,
    List.forall_mem_cons, List.not_mem_nil, false_implies,
    forall_const, List.Pairwise.nil, and_true]
  exact ⟨⟨hTask, hDirectory⟩, hBoth⟩

/-
  Before the last part of the switch, the state of `p` is
  saved and the machine is in the address space of `t`.
-/
theorem switchContext_transfers
    (hStanding : Standing w m p)
    (hNo : w.NoOverlap)
    (hCurrent :
      m.word w.place (w.space p) w.syms.currentThread = p)
    (hThread :
      m.word w.place (w.space p)
        ((m.regs .esp).toNat + 4) = t)
    (hTask :
      m.word w.place (w.space p)
        ((m.regs .esp).toNat + 8) = task)
    (hLeads : LeadsTo w m t task) :
    ∃ stores m',
      Transferred w m p t stores m' ∧
        switchContext w.place w.syms m =
          run w.place (switchThread w.syms) m' := by
  rcases run_switchEntry hStanding hNo hCurrent hThread hTask
    with ⟨regs, hEax, hEntry⟩
  unfold switchContext
  rw [hEntry]
  by_cases hZero : task = 0
  -- The task stays: its address space is that of `t`.
  · have hFlag :=
      (zeroFlag_compareFlags task m.eflags).mpr hZero
    unfold LeadsTo at hLeads
    rw [if_pos hZero, hStanding.loaded] at hLeads
    refine ⟨[(w.syms.currentThread, t)], _, ?_, if_pos hFlag⟩
    exact
      { symbols := by
          intro s hs
          rw [List.mem_singleton.mp hs]
          exact .inl rfl
        pairwise := List.pairwise_singleton _ _
        current := List.mem_singleton.mpr rfl
        cr3 := hLeads.symm
        ram := rfl }
  -- The address space is found through the task record.
  · have hFlag :=
      mt (zeroFlag_compareFlags task m.eflags).mp hZero
    unfold LeadsTo at hLeads
    rw [if_neg hZero, hStanding.loaded] at hLeads
    rcases hLeads with ⟨hData, d, hd, hData', hSpace⟩
    have hTwo :
        ∀ s ∈ [(w.syms.currentThread, t),
          (w.syms.currentTask, task)], w.IsSymbol s.1 :=
      fun s hs =>
        isSymbol_symbolStores (d := d) s
          (List.mem_append_left [_] hs)
    have hRunTask :=
      run_directory w.syms w.place
        { regs := regs
          eflags := compareFlags task m.eflags
          eip := m.eip
          cr3 := w.space p
          ram :=
            ByteMemory.putsVia (w.place (w.space p)) m.ram
              (saved m p ++ [(w.syms.currentThread, t)]) }
        (d := d) (c := w.space t) hEax
        (by
          have hWord :=
            (hStanding.word_data hNo hStanding.thread hTwo
              hData).trans hd
          rw [List.append_cons,
            ByteMemory.putsVia_append] at hWord
          exact hWord)
        (by
          have hSymbols :
              ∀ s ∈ symbolStores w t task d,
                w.IsSymbol s.1 := isSymbol_symbolStores
          have hWord :=
            (hStanding.word_data hNo hStanding.thread hSymbols
              hData').trans hSpace
          unfold symbolStores at hWord
          rw [List.append_cons,
            ByteMemory.putsVia_append] at hWord
          exact hWord)
    refine ⟨symbolStores w t task d, _, ?_, if_neg hFlag⟩
    rw [hRunTask]
    exact
      { symbols := isSymbol_symbolStores
        pairwise := pairwise_symbolStores hNo
        current := List.mem_cons_self
        cr3 := rfl
        ram := by
          change
            ByteMemory.putsVia (w.place (w.space p))
              (ByteMemory.putsVia (w.place (w.space p)) m.ram
                (saved m p ++ [(w.syms.currentThread, t)]))
              [(w.syms.currentTask, task),
                (w.syms.currentDirectory, d)] = _
          rw [← ByteMemory.putsVia_append, List.append_assoc]
          rfl }

end Asm

end SosKernel
