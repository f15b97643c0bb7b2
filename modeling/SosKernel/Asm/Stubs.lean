import SosKernel.Asm.Processor
import SosKernel.Idt
import SosKernel.Lib.PushStack

/-
  The interrupt stubs of `asm/idt.s`, around the C handlers,
  and what an interrupted program sees of them.

  Main declarations:
    * `Cpu`, `Instr.exec`
    * `stubEntry`, `stubExit`: the instructions
    * `Cpu.entered`: the processor when the handler is entered
    * `Returns`: what a C handler may do
    * `Interrupted`: an interrupt, from its delivery to `iret`
    * `Interrupted.seen`: what the program sees of it
    * `handler_entered`: the record that the handler gets
-/

------------------------------------------------------------
-- The Processor
------------------------------------------------------------

namespace SosKernel

namespace Stub

open Asm (Core Reg INTERRUPT_FLAG addFlags)

inductive Seg where
| cs
| ds
| es
| fs
| gs
| ss
deriving DecidableEq, Repr

/- Registers and memory, in the current address space. -/
structure Cpu extends Core where
  segs : Seg → UInt16
  mem : ByteMemory

inductive Instr where
| cli
| pushImm (v : UInt32)
| push (r : Reg)
| pusha
| movAxSeg (s : Seg)
| movAx (v : UInt16)
| movSeg (s : Seg) (r : Reg)
| addEsp (v : UInt32)
| pop (r : Reg)
| popa
| iret
deriving DecidableEq, Repr

namespace Cpu

/- The word at the top of the stack, or above it. -/
def stackWord (c : Cpu) (i : Nat) : UInt32 :=
  .ofNat (c.mem.read32 ((c.regs .esp).toNat + 4 * i))

def set (c : Cpu) (r : Reg) (v : UInt32) : Cpu :=
  { c with regs := Function.update c.regs r v }

def setSeg (c : Cpu) (s : Seg) (v : UInt16) : Cpu :=
  { c with segs := Function.update c.segs s v }

def push (c : Cpu) (v : UInt32) : Cpu :=
  { c with
    regs := Function.update c.regs .esp (c.regs .esp - 4)
    mem := c.mem.write32 (c.regs .esp - 4).toNat v.toNat }

def pushAll (c : Cpu) (vs : List UInt32) : Cpu :=
  vs.foldl push c

/- The low half of `eax` is replaced. -/
def setAx (c : Cpu) (v : UInt16) : Cpu :=
  c.set .eax ((c.regs .eax &&& 0xFFFF0000) ||| v.toUInt32)

end Cpu

/- `popa` skips the stack pointer that `pusha` has pushed. -/
def Instr.exec (c : Cpu) : Instr → Cpu
| .cli => { c with eflags := c.eflags &&& ~~~INTERRUPT_FLAG }
| .pushImm v => c.push v
| .push r => c.push (c.regs r)
| .pusha =>
    c.pushAll
      [c.regs .eax, c.regs .ecx, c.regs .edx, c.regs .ebx,
        c.regs .esp, c.regs .ebp, c.regs .esi, c.regs .edi]
| .movAxSeg s => c.setAx (c.segs s)
| .movAx v => c.setAx v
| .movSeg s r => c.setSeg s (c.regs r).toUInt16
| .addEsp v =>
    { c.set .esp (c.regs .esp + v) with
      eflags := addFlags (c.regs .esp) v c.eflags }
| .pop r => (c.set .esp (c.regs .esp + 4)).set r (c.stackWord 0)
| .popa =>
    { c with
      regs := fun r =>
        match r with
        | .edi => c.stackWord 0
        | .esi => c.stackWord 1
        | .ebp => c.stackWord 2
        | .ebx => c.stackWord 4
        | .edx => c.stackWord 5
        | .ecx => c.stackWord 6
        | .eax => c.stackWord 7
        | .esp => c.regs .esp + 32 }
| .iret =>
    { c with
      regs := Function.update c.regs .esp (c.regs .esp + 12)
      segs := Function.update c.segs .cs (c.stackWord 1).toUInt16
      eflags := c.stackWord 2
      eip := c.stackWord 0 }

def run (code : List Instr) (c : Cpu) : Cpu :=
  code.foldl Instr.exec c

------------------------------------------------------------
-- The Stubs
------------------------------------------------------------

/- The exceptions for which the processor pushes a code. -/
def errorCode (n : Nat) : Bool :=
  n = 8 || (10 ≤ n && n ≤ 14) || n = 17

/- The stubs that are made by `ISR_ERRCODE`. -/
def errcodeStub (n : Nat) : Bool :=
  n = 8 || (10 ≤ n && n ≤ 14)

/- The stub for interrupt `n`, up to the jump. -/
def stubHead (n : Nat) : List Instr :=
  if errcodeStub n then
    [.cli, .pushImm (.ofNat n)]
  else
    [.cli, .pushImm 0, .pushImm (.ofNat n)]

/- The common stubs, up to the call of the C handler. -/
def stubEntry : List Instr :=
  [.pusha, .movAxSeg .ds, .push .eax, .movAx 0x10,
    .movSeg .ds .eax, .movSeg .es .eax, .movSeg .fs .eax,
    .movSeg .gs .eax, .movSeg .ss .eax, .push .esp]

/- The common stubs after the call. -/
def stubExit : List Instr :=
  [.addEsp 4, .pop .ebx, .movSeg .ds .ebx, .movSeg .es .ebx,
    .movSeg .fs .ebx, .movSeg .gs .ebx, .movSeg .ss .ebx,
    .popa, .addEsp 8, .iret]

/- The flags that an interrupt gate clears. -/
def GATE_FLAGS : UInt32 := 0x34300

/-
  The processor takes interrupt `n`, without a change of
  privilege: it pushes where it was, and the code `err` for
  some exceptions, and goes on where the gate says.
-/
def Cpu.deliver
    (c : Cpu)
    (n : Nat)
    (err : UInt32)
    (sel : UInt16)
    (stub : UInt32) : Cpu :=
  { c.pushAll
      ([c.eflags, (c.segs .cs).toUInt32, c.eip] ++
        if errorCode n then [err] else []) with
    segs := Function.update c.segs .cs sel
    eflags := c.eflags &&& ~~~GATE_FLAGS
    eip := stub }

/- `call`, with the address behind it. -/
def Cpu.call (c : Cpu) (back handler : UInt32) : Cpu :=
  { c.push back with eip := handler }

/- What the gate says, and the addresses in the stub. -/
structure Place where
  sel : UInt16
  stub : UInt32
  back : UInt32
  handler : UInt32

/- The processor when the C handler is entered. -/
def Cpu.entered
    (c : Cpu)
    (n : Nat)
    (err : UInt32)
    (place : Place) : Cpu :=
  (run stubEntry
      (run (stubHead n)
        (c.deliver n err place.sel place.stub))).call
    place.back place.handler

------------------------------------------------------------
-- Pushing
------------------------------------------------------------

variable {c c' : Cpu}
variable {n : Nat}
variable {err : UInt32}
variable {place : Place}

theorem toNat_sub_four
    {e : UInt32}
    (hRoom : 4 ≤ e.toNat) :
    (e - 4).toNat = e.toNat - 4 :=
  UInt32.toNat_sub_of_le e 4 hRoom

/- The stack pointer after `k` pushes. -/
def down (e : UInt32) : Nat → UInt32
| 0 => e
| k + 1 => down e k - 4

theorem toNat_down
    {e : UInt32}
    {k : Nat}
    (hRoom : 4 * k ≤ e.toNat) :
    (down e k).toNat = e.toNat - 4 * k := by
  induction k with
  | zero => rfl
  | succ k ih =>
      have hHere := ih (by omega)
      rw [down, toNat_sub_four (by omega), hHere]
      omega

/- The stack pointer and memory after pushes with room. -/
theorem pushAll_eq
    (c : Cpu)
    (vs : List UInt32)
    (hRoom : 4 * vs.length ≤ (c.regs .esp).toNat) :
    ((c.pushAll vs).regs .esp).toNat =
        (c.regs .esp).toNat - 4 * vs.length ∧
      (c.pushAll vs).mem =
        c.mem.pushes (c.regs .esp).toNat
          (vs.map UInt32.toNat) := by
  induction vs generalizing c with
  | nil => exact ⟨rfl, rfl⟩
  | cons v vs ih =>
      rw [List.length_cons] at hRoom
      have hEsp :
          ((c.push v).regs .esp).toNat =
            (c.regs .esp).toNat - 4 := by
        have hReg : (c.push v).regs .esp = c.regs .esp - 4 :=
          Function.update_self Reg.esp _ c.regs
        rw [hReg]
        exact toNat_sub_four (by omega)
      rcases ih (c.push v) (by omega) with ⟨hTail, hMem⟩
      rw [hEsp] at hTail hMem
      constructor
      · rw [List.length_cons]
        refine hTail.trans ?_
        omega
      · refine hMem.trans ?_
        rw [List.map_cons, ByteMemory.pushes]
        unfold Cpu.push
        rw [toNat_sub_four (by omega)]

/- The low half that `setAx` has written. -/
theorem low_setAx (v : UInt32) (s : UInt16) :
    ((v &&& 0xFFFF0000) ||| s.toUInt32).toUInt16 = s := by
  have hHigh : (0xFFFF0000 : UInt32).toUInt16 = 0 := rfl
  rw [UInt32.toUInt16_or, UInt32.toUInt16_and, hHigh,
    UInt16.and_zero, UInt16.zero_or, UInt16.toUInt16_toUInt32]

------------------------------------------------------------
-- What The Handler Gets
------------------------------------------------------------

/-
  The words that are on the stack when the handler is
  entered, in the order in which they are pushed.
-/
def frameWords
    (c : Cpu)
    (n : Nat)
    (err : UInt32) : List UInt32 :=
  [c.eflags, (c.segs .cs).toUInt32, c.eip,
    if errcodeStub n then err else 0, .ofNat n,
    c.regs .eax, c.regs .ecx, c.regs .edx, c.regs .ebx,
    down (c.regs .esp) 5, c.regs .ebp, c.regs .esi, c.regs .edi,
    (c.regs .eax &&& 0xFFFF0000) ||| (c.segs .ds).toUInt32]

/- The words above the record: its address, and `back`. -/
def callWords (c : Cpu) (place : Place) : List UInt32 :=
  [down (c.regs .esp) 14, place.back]

theorem mem_entered
    (hCode : errorCode n = errcodeStub n)
    (hRoom : 64 ≤ (c.regs .esp).toNat) :
    (c.entered n err place).mem =
      c.mem.pushes (c.regs .esp).toNat
        ((frameWords c n err ++ callWords c place).map
          UInt32.toNat) := by
  have hAll :=
    pushAll_eq c (frameWords c n err ++ callWords c place) hRoom
  rw [← hAll.2]
  unfold Cpu.entered stubHead Cpu.deliver frameWords callWords
  rw [hCode]
  cases errcodeStub n with
  | true =>
      simp only [run, stubEntry, Instr.exec, Cpu.call,
        Cpu.pushAll, Cpu.push, Cpu.setAx, Cpu.setSeg, Cpu.set,
        List.foldl_cons, List.foldl_nil, List.cons_append,
        List.nil_append, if_true, Function.update_apply,
        reduceCtorEq, if_false, down]
  | false =>
      simp only [run, stubEntry, Instr.exec, Cpu.call,
        Cpu.pushAll, Cpu.push, Cpu.setAx, Cpu.setSeg, Cpu.set,
        List.foldl_cons, List.foldl_nil, List.cons_append,
        List.nil_append, if_true, Function.update_apply,
        reduceCtorEq, if_false, down, Bool.false_eq_true]

theorem esp_entered
    (hCode : errorCode n = errcodeStub n) :
    (c.entered n err place).regs .esp =
      down (c.regs .esp) 16 := by
  unfold Cpu.entered stubHead Cpu.deliver
  rw [hCode]
  cases errcodeStub n with
  | true =>
      simp only [run, stubEntry, Instr.exec, Cpu.call,
        Cpu.pushAll, Cpu.push, Cpu.setAx, Cpu.setSeg, Cpu.set,
        List.foldl_cons, List.foldl_nil, List.cons_append,
        List.nil_append, if_true, Function.update_apply,
        reduceCtorEq, if_false, down]
  | false =>
      simp only [run, stubEntry, Instr.exec, Cpu.call,
        Cpu.pushAll, Cpu.push, Cpu.setAx, Cpu.setSeg, Cpu.set,
        List.foldl_cons, List.foldl_nil, List.cons_append,
        List.nil_append, if_true, Function.update_apply,
        reduceCtorEq, if_false, down, Bool.false_eq_true]

theorem eflags_entered :
    (c.entered n err place).eflags =
      (c.eflags &&& ~~~GATE_FLAGS) &&& ~~~INTERRUPT_FLAG := by
  unfold Cpu.entered stubHead
  cases errcodeStub n <;> rfl

/- The data segments are those of the kernel. -/
theorem segs_entered (s : Seg) :
    (c.entered n err place).segs s =
      if s = .cs then place.sel else 0x10 := by
  have hHead :
      (run (stubHead n) (c.deliver n err place.sel
        place.stub)).segs .cs = place.sel := by
    unfold stubHead
    cases errcodeStub n <;> rfl
  unfold Cpu.entered
  generalize run (stubHead n) _ = b at hHead ⊢
  simp only [run, stubEntry, Instr.exec, Cpu.call, Cpu.pushAll,
    Cpu.push, Cpu.setAx, Cpu.setSeg, Cpu.set, List.foldl_cons,
    List.foldl_nil, Function.update_apply, reduceCtorEq,
    if_true, if_false, low_setAx]
  cases s <;> simp [hHead]

/- The words, from the last that was pushed. -/
theorem word_entered
    (hCode : errorCode n = errcodeStub n)
    (hRoom : 64 ≤ (c.regs .esp).toNat)
    {i : Nat}
    (hi : i < 16) :
    (c.entered n err place).mem.read32
        ((c.regs .esp).toNat - 64 + 4 * i) =
      ((frameWords c n err ++ callWords c place).reverse.getD i
        0).toNat := by
  have hLen :
      ((frameWords c n err ++ callWords c place).map
        UInt32.toNat).length = 16 :=
    rfl
  have hRead :=
    ByteMemory.read32_pushes_reverse c.mem
      (c.regs .esp).toNat
      ((frameWords c n err ++ callWords c place).map
        UInt32.toNat)
      hRoom
      (fun v hv => by
        rcases List.mem_map.mp hv with ⟨w, _, rfl⟩
        exact w.toNat_lt)
      (i := i) (hLen ▸ hi)
  rw [hLen, ← List.map_reverse] at hRead
  rw [mem_entered hCode hRoom]
  refine hRead.trans ?_
  exact List.getD_map _ (0 : UInt32) UInt32.toNat

/-
  What the C handler may do: it returns, and changes memory
  in `K`, below its own stack frame, and in its argument.
  `lo` is the end of the stack.
-/
structure Returns
    (K : Nat → Prop)
    (lo : Nat)
    (e h : Cpu) : Prop where
  esp : h.regs .esp = e.regs .esp + 4
  eip : h.eip = e.stackWord 0
  mem :
    ∀ x, ¬ K x → x < lo ∨ (e.regs .esp).toNat + 8 ≤ x →
      h.mem x = e.mem x

------------------------------------------------------------
-- The Way Back
------------------------------------------------------------

variable {K : Nat → Prop}
variable {lo : Nat}
variable {h : Cpu}

/-
  The stack has room for the record, and holds nothing that
  belongs to the handlers.
-/
structure StackRoom
    (K : Nat → Prop)
    (lo : Nat)
    (c : Cpu) : Prop where
  room : lo + 64 ≤ (c.regs .esp).toNat
  clear : ∀ x, lo ≤ x → x < (c.regs .esp).toNat → ¬ K x

/- The record is still there when the handler returns. -/
theorem Returns.word
    (hReturns : Returns K lo (c.entered n err place) h)
    (hCode : errorCode n = errcodeStub n)
    (hStack : StackRoom K lo c)
    {i : Nat}
    (hi : i < 14) :
    h.mem.read32 ((c.regs .esp).toNat - 56 + 4 * i) =
      ((frameWords c n err).reverse.getD i 0).toNat := by
  have hRoom : 64 ≤ (c.regs .esp).toNat := by
    have hLo := hStack.room
    omega
  have hLo := hStack.room
  have hSame :
      h.mem.read32 ((c.regs .esp).toNat - 56 + 4 * i) =
        (c.entered n err place).mem.read32
          ((c.regs .esp).toNat - 64 + 4 * (i + 2)) := by
    have hAddr :
        (c.regs .esp).toNat - 64 + 4 * (i + 2) =
          (c.regs .esp).toNat - 56 + 4 * i := by
      omega
    rw [hAddr]
    apply ByteMemory.read32_congr
    intro j hj
    apply hReturns.mem
    · exact hStack.clear _ (by omega) (by omega)
    · rw [esp_entered hCode, toNat_down (by omega)]
      omega
  rw [hSame, word_entered hCode hRoom (by omega)]
  rfl

/- The stub reads the words of the record in their order. -/
theorem run_stubExit
    {e : Nat}
    (hEsp : (h.regs .esp).toNat + 60 = e)
    (he : e < 2 ^ 32) :
    let w := fun i =>
      UInt32.ofNat (h.mem.read32 (e - 56 + 4 * i))
    run stubExit h =
      { regs := fun r =>
          match r with
          | .edi => w 1
          | .esi => w 2
          | .ebp => w 3
          | .esp => h.regs .esp + 60
          | .ebx => w 5
          | .edx => w 6
          | .ecx => w 7
          | .eax => w 8
        segs := fun s =>
          match s with
          | .cs => (w 12).toUInt16
          | _ => (w 0).toUInt16
        eflags := w 13
        eip := w 11
        mem := h.mem } := by
  intro w
  have hAdd :
      ∀ k : UInt32, k.toNat ≤ 60 →
        (h.regs .esp + k).toNat = e - 60 + k.toNat := by
    intro k hk
    rw [UInt32.toNat_add]
    omega
  have hArg : (h.regs .esp + 4).toNat = e - 56 :=
    (hAdd 4 (by decide)).trans
      (by simp only [UInt32.reduceToNat]; omega)
  have hRegs : (h.regs .esp + 4 + 4).toNat = e - 52 := by
    rw [UInt32.add_assoc]
    exact (hAdd 8 (by decide)).trans
      (by simp only [UInt32.reduceToNat]; omega)
  have hIret :
      (h.regs .esp + 4 + 4 + 32 + 8).toNat = e - 12 := by
    rw [UInt32.add_assoc, UInt32.add_assoc, UInt32.add_assoc]
    exact (hAdd 48 (by decide)).trans
      (by simp only [UInt32.reduceToNat]; omega)
  have hEnd :
      h.regs .esp + 4 + 4 + 32 + 8 + 12 = h.regs .esp + 60 := by
    rw [UInt32.add_assoc, UInt32.add_assoc, UInt32.add_assoc,
      UInt32.add_assoc]
    rfl
  simp only [run, stubExit, List.foldl_cons, List.foldl_nil,
    Instr.exec, Cpu.setSeg, Cpu.set, Cpu.stackWord,
    Function.update_apply, reduceCtorEq, if_true, if_false,
    hArg, hRegs, hIret, hEnd]
  have hWord :
      ∀ i, e - 52 + 4 * i = e - 56 + 4 * (i + 1) := by
    omega
  have hTop :
      ∀ i, e - 12 + 4 * i = e - 56 + 4 * (i + 11) := by
    omega
  rw [Cpu.mk.injEq, Core.mk.injEq]
  refine ⟨⟨?_, ?_, ?_⟩, ?_, rfl⟩
  · funext r
    cases r <;>
      simp only [hWord] <;> rfl
  · rw [hTop]
  · rw [hTop]
  · funext s
    cases s <;>
      simp only [hTop] <;> rfl

structure SameRegs (c r : Cpu) : Prop where
  regs : r.regs = c.regs
  segs : r.segs = c.segs
  eflags : r.eflags = c.eflags
  eip : r.eip = c.eip

/-
  What a program sees: the registers, and memory that is not
  of the handlers, nor below its stack pointer on the stack.
-/
structure Seen
    (K : Nat → Prop)
    (lo : Nat)
    (c r : Cpu) : Prop extends SameRegs c r where
  mem :
    ∀ x, ¬ K x → x < lo ∨ (c.regs .esp).toNat ≤ x →
      r.mem x = c.mem x

theorem Seen.refl
    (K : Nat → Prop)
    (lo : Nat)
    (c : Cpu) :
    Seen K lo c c where
  regs := rfl
  segs := rfl
  eflags := rfl
  eip := rfl
  mem := fun _ _ _ => rfl

theorem Seen.mono
    {K' : Nat → Prop}
    (hSeen : Seen K lo c h)
    (hMore : ∀ x, K x → K' x) :
    Seen K' lo c h where
  toSameRegs := hSeen.toSameRegs
  mem := fun x hx => hSeen.mem x (mt (hMore x) hx)

theorem Seen.trans
    {r r' : Cpu}
    (h₁ : Seen K lo c r)
    (h₂ : Seen K lo r r') :
    Seen K lo c r' where
  regs := h₂.regs.trans h₁.regs
  segs := h₂.segs.trans h₁.segs
  eflags := h₂.eflags.trans h₁.eflags
  eip := h₂.eip.trans h₁.eip
  mem := by
    intro x hx hPlace
    rw [h₂.mem x hx (by rw [h₁.regs]; exact hPlace)]
    exact h₁.mem x hx hPlace

theorem down_add
    {e : UInt32}
    (hRoom : 64 ≤ e.toNat) :
    down e 16 + 4 + 60 = e := by
  have hDown := toNat_down (k := 16) hRoom
  have hLt := e.toNat_lt
  apply UInt32.toNat_inj.mp
  rw [UInt32.toNat_add, UInt32.toNat_add, hDown]
  simp only [UInt32.reduceToNat]
  omega

/-
  After the exit of the stub the program goes on where it
  was, with all that it sees.
-/
theorem seen_stubExit
    (hReturns : Returns K lo (c.entered n err place) h)
    (hCode : errorCode n = errcodeStub n)
    (hStack : StackRoom K lo c)
    (hFlat : ∀ s, s ≠ .cs → c.segs s = c.segs .ds) :
    Seen K lo c (run stubExit h) := by
  have hLo := hStack.room
  have hEsp : h.regs .esp = down (c.regs .esp) 16 + 4 := by
    rw [hReturns.esp, esp_entered hCode]
  have hBack : h.regs .esp + 60 = c.regs .esp := by
    rw [hEsp]
    exact down_add (by omega)
  have hNat :
      (h.regs .esp).toNat + 60 = (c.regs .esp).toNat := by
    have hSum := congrArg UInt32.toNat hBack
    have hDown :=
      toNat_down (e := c.regs .esp) (k := 16) (by omega)
    have hLt := (c.regs .esp).toNat_lt
    rw [hEsp, UInt32.toNat_add, hDown]
    simp only [UInt32.reduceToNat]
    omega
  have hWord :
      ∀ i < 14,
        UInt32.ofNat
            (h.mem.read32 ((c.regs .esp).toNat - 56 + 4 * i)) =
          (frameWords c n err).reverse.getD i 0 := by
    intro i hi
    rw [hReturns.word hCode hStack hi, UInt32.ofNat_toNat]
  rw [run_stubExit hNat (c.regs .esp).toNat_lt]
  refine
    { regs := ?_
      segs := ?_
      eflags := hWord 13 (by decide)
      eip := hWord 11 (by decide)
      mem := ?_ }
  · funext r
    cases r with
    | esp => exact hBack
    | edi => exact hWord 1 (by decide)
    | esi => exact hWord 2 (by decide)
    | ebp => exact hWord 3 (by decide)
    | ebx => exact hWord 5 (by decide)
    | edx => exact hWord 6 (by decide)
    | ecx => exact hWord 7 (by decide)
    | eax => exact hWord 8 (by decide)
  · have hData :
        (UInt32.ofNat
            (h.mem.read32
              ((c.regs .esp).toNat - 56 + 4 * 0))).toUInt16 =
          c.segs .ds := by
      rw [hWord 0 (by decide)]
      exact low_setAx _ _
    funext s
    cases s with
    | cs =>
        dsimp only
        rw [hWord 12 (by decide)]
        exact UInt16.toUInt16_toUInt32 _
    | ds => exact hData
    | es => exact hData.trans (hFlat .es (by decide)).symm
    | fs => exact hData.trans (hFlat .fs (by decide)).symm
    | gs => exact hData.trans (hFlat .gs (by decide)).symm
    | ss => exact hData.trans (hFlat .ss (by decide)).symm
  · intro x hx hPlace
    have hKept :
        h.mem x = (c.entered n err place).mem x := by
      apply hReturns.mem x hx
      rw [esp_entered hCode, toNat_down (by omega)]
      omega
    dsimp only
    rw [hKept, mem_entered hCode (by omega)]
    apply ByteMemory.pushes_apply _ (show 4 * 16 ≤ _ by omega)
    change x < (c.regs .esp).toNat - 4 * 16 ∨ _
    omega

------------------------------------------------------------
-- Interrupts
------------------------------------------------------------

/-
  The record that `asm/idt.s` makes for the C handlers.  The
  stubs push all of `eax` for `ds`, with its high half, and
  the fields after `eflags` are not there.
-/
structure Registers where
  ds : UInt32
  edi : UInt32
  esi : UInt32
  ebp : UInt32
  esp : UInt32
  ebx : UInt32
  edx : UInt32
  ecx : UInt32
  eax : UInt32
  intNo : UInt32
  errCode : UInt32
  eip : UInt32
  cs : UInt32
  eflags : UInt32
deriving DecidableEq, Repr

/- The record at `p`, as far as the processor has pushed it. -/
def readRegisters (mem : ByteMemory) (p : Nat) : Registers :=
  let w := fun i => UInt32.ofNat (mem.read32 (p + 4 * i))
  { ds := w 0
    edi := w 1
    esi := w 2
    ebp := w 3
    esp := w 4
    ebx := w 5
    edx := w 6
    ecx := w 7
    eax := w 8
    intNo := w 9
    errCode := w 10
    eip := w 11
    cs := w 12
    eflags := w 13 }

/-
  Interrupt `n`, from its delivery at `c` through the gate of
  the table, over a C handler, to the end of `iret` at `r`.
-/
structure Interrupt
    (t : Idt.State)
    (K : Nat → Prop)
    (lo : Nat)
    (n : Fin 256)
    (c r : Cpu) : Prop where
  taken :
    ∃ err place h,
      (t.entries n).target = some place.stub ∧
        Returns K lo (c.entered n.val err place) h ∧
        r = run stubExit h

/-
  Some interrupt, other than 17, that comes when the stack
  has room, and the data segments are those of the kernel.
-/
structure Interrupted
    (t : Idt.State)
    (K : Nat → Prop)
    (lo : Nat)
    (c r : Cpu) : Prop where
  stack : StackRoom K lo c
  flat : ∀ s, s ≠ .cs → c.segs s = c.segs .ds
  taken : ∃ n : Fin 256, n ≠ 17 ∧ Interrupt t K lo n c r

/- One stub does not expect the code that it gets. -/
theorem errorCode_eq_iff (n : Nat) :
    errorCode n = errcodeStub n ↔ n ≠ 17 := by
  unfold errorCode errcodeStub
  by_cases hn : n = 17
  · subst hn
    decide
  · simp [hn]

variable {t : Idt.State}

theorem Interrupted.seen
    {r : Cpu}
    (hTaken : Interrupted t K lo c r) :
    Seen K lo c r := by
  rcases hTaken.taken with
    ⟨n, hn, err, place, h, -, hReturns, rfl⟩
  have hCode : errorCode n.val = errcodeStub n.val := by
    rw [errorCode_eq_iff]
    exact fun hEq => hn (Fin.ext hEq)
  exact seen_stubExit hReturns hCode hTaken.stack hTaken.flat

/-
  When the handler is entered, with interrupts off and the
  segments of the kernel, its argument is a record of the
  number, the error code, and of what the stub restores.  The
  field `ds` has the high half of `eax`, and `esp` is the
  stack pointer below what had been pushed before `pusha`.
-/
theorem handler_entered
    (c : Cpu)
    (n : Nat)
    (err : UInt32)
    (place : Place)
    (hn : n ≠ 17)
    (hRoom : 64 ≤ (c.regs .esp).toNat) :
    let e := c.entered n err place
    e.eip = place.handler ∧
      e.stackWord 0 = place.back ∧
      e.eflags &&& INTERRUPT_FLAG = 0 ∧
      (∀ s, e.segs s = if s = .cs then place.sel else 0x10) ∧
      readRegisters e.mem (e.stackWord 1).toNat =
        { ds :=
            (c.regs .eax &&& 0xFFFF0000) |||
              (c.segs .ds).toUInt32
          edi := c.regs .edi
          esi := c.regs .esi
          ebp := c.regs .ebp
          esp := c.regs .esp - 20
          ebx := c.regs .ebx
          edx := c.regs .edx
          ecx := c.regs .ecx
          eax := c.regs .eax
          intNo := .ofNat n
          errCode := if errorCode n then err else 0
          eip := c.eip
          cs := (c.segs .cs).toUInt32
          eflags := c.eflags } := by
  have hCode := (errorCode_eq_iff n).mpr hn
  intro e
  have hEsp : (e.regs .esp).toNat = (c.regs .esp).toNat - 64 := by
    rw [esp_entered hCode, toNat_down hRoom]
  have hWord :
      ∀ i < 16,
        UInt32.ofNat
            (e.mem.read32 ((c.regs .esp).toNat - 64 + 4 * i)) =
          (frameWords c n err ++ callWords c place).reverse.getD
            i 0 := by
    intro i hi
    rw [word_entered hCode hRoom hi, UInt32.ofNat_toNat]
  have hStack :
      ∀ i < 16,
        e.stackWord i =
          (frameWords c n err ++ callWords c place).reverse.getD
            i 0 := by
    intro i hi
    unfold Cpu.stackWord
    rw [hEsp]
    exact hWord i hi
  have hArg :
      (e.stackWord 1).toNat = (c.regs .esp).toNat - 56 := by
    rw [hStack 1 (by decide)]
    exact toNat_down (k := 14) (by omega)
  have hField :
      ∀ i < 14,
        UInt32.ofNat
            (e.mem.read32 ((c.regs .esp).toNat - 56 + 4 * i)) =
          (frameWords c n err).reverse.getD i 0 := by
    intro i hi
    have hAddr :
        (c.regs .esp).toNat - 56 + 4 * i =
          (c.regs .esp).toNat - 64 + 4 * (i + 2) := by
      omega
    rw [hAddr, hWord (i + 2) (by omega)]
    rfl
  have hFive : down (c.regs .esp) 5 = c.regs .esp - 20 := by
    apply UInt32.toNat_inj.mp
    rw [toNat_down (by omega), UInt32.toNat_sub_of_le]
    · rfl
    · rw [UInt32.le_iff_toNat_le]
      simp only [UInt32.reduceToNat]
      omega
  refine ⟨rfl, hStack 0 (by decide), ?_, segs_entered, ?_⟩
  · rw [eflags_entered, UInt32.and_assoc]
    exact UInt32.and_zero
  · rw [hArg]
    unfold readRegisters
    rw [Registers.mk.injEq]
    refine ⟨hField 0 (by decide), hField 1 (by decide),
      hField 2 (by decide), hField 3 (by decide), ?_,
      hField 5 (by decide), hField 6 (by decide),
      hField 7 (by decide), hField 8 (by decide),
      hField 9 (by decide), ?_, hField 11 (by decide),
      hField 12 (by decide), hField 13 (by decide)⟩
    · exact (hField 4 (by decide)).trans hFive
    · rw [hCode]
      exact hField 10 (by decide)

/- A thread of the kernel, with 4 KiB of stack. -/
def kernelCpu : Cpu where
  regs := fun r => if r = .esp then 0x9000 else 0xDEADBEEF
  segs := fun s => if s = .cs then 0x08 else 0x10
  eflags := 0x202
  eip := 0x101000
  mem := fun _ => 0

def timerPlace : Place := ⟨0x08, 0x109000, 0x10A020, 0x102000⟩

theorem handler_entered_timer :
    let e := kernelCpu.entered 32 0 timerPlace
    let regs := readRegisters e.mem (e.stackWord 1).toNat
    e.eip = 0x102000 ∧
      regs.intNo = 32 ∧
      regs.ds = 0xDEAD0010 ∧
      regs.esp = 0x8FEC ∧
      regs.eip = 0x101000 := by
  have hEntered :=
    handler_entered kernelCpu 32 0 timerPlace (by decide)
      (by decide)
  dsimp only at hEntered ⊢
  rw [hEntered.2.2.2.2]
  exact ⟨hEntered.1, rfl, rfl, rfl, rfl⟩

end Stub

end SosKernel
