import SosKernel.Asm.Stubs
import SosKernel.Kprintf
import SosKernel.Lib.FrameChain
import SosKernel.Lib.Reachable

/-
  The functions `panic` and `print_stack_trace` of
  `kernel/panic.c`, in a thread that calls and returns as
  compiled functions do.

  Main declarations:
    * `printStackTrace`, `panic`
    * `Step`: calls, returns and a function's own steps
    * `lineText`: the line of a call
    * `panic_lists_calls`
-/

------------------------------------------------------------
-- The Functions
------------------------------------------------------------

namespace SosKernel

namespace Panic

open Elf.SymMap (elfSymMapLookup)
open Kprintf (Console Given InBuffer Known Prints argsOf format
  kprintf literal means_literal shown shown_of_unterminated
  unterminated_append unterminated_literal)
open Vsprintf (Args Format Means Texts)

/- Where the buffer of `kprintf`, "" and the symbols are. -/
structure Link where
  buf : UInt32
  empty : UInt32
  kernelElf : Elf.SymMap.Map

def Link.pointer (link : Link) : Elf.SymMap.Name → UInt32
| .empty => link.empty
| .pointer a => a

def lineFormat : Format :=
  format "\t[0x%x] %s\n" (by decide)

def headFormat : Format :=
  format "*** System panic: %s\n" (by decide)

def tailFormat : Format :=
  format "***\n" (by decide)

/- The loop `while (ebp)`, of as many rounds at most. -/
def printStackTrace
    (link : Link) : Nat → UInt32 → Console → Option Console
| 0, _, _ => none
| n + 1, ebp, c =>
    if ebp = 0 then
      some c
    else
      let eip := Elf.SymMap.read32 c.mem (ebp + 4)
      let name := elfSymMapLookup c.mem eip link.kernelElf
      (kprintf link.buf lineFormat
        (argsOf [eip, link.pointer name]) c).bind fun c =>
          printStackTrace link n
            (Elf.SymMap.read32 c.mem ebp) c

/- `panic`, up to the halt; `ebp` is that of the trace. -/
def panic
    (link : Link)
    (bound : Nat)
    (msg ebp : UInt32)
    (c : Console) : Option Console :=
  (kprintf link.buf headFormat (argsOf [msg]) c).bind fun c =>
    (printStackTrace link bound ebp c).bind fun c =>
      kprintf link.buf tailFormat (argsOf []) c

------------------------------------------------------------
-- Calls and Returns
------------------------------------------------------------

open ByteMemory (CallFrame Linked)
open Stub (Cpu)

/- `push ebp` and `mov ebp, esp`. -/
def prologue (c : Cpu) : Cpu :=
  (c.push (c.regs .ebp)).set .ebp (c.regs .esp - 4)

/- `call`, up to the body of the function. -/
def callee (c : Cpu) (back target : UInt32) : Cpu :=
  prologue (c.call back target)

/- `ret`. -/
def ret (c : Cpu) : Cpu :=
  { c.set .esp (c.regs .esp + 4) with eip := c.stackWord 0 }

/- `leave` and `ret`. -/
def leaveRet (c : Cpu) : Cpu :=
  ret (Stub.Instr.exec (c.set .esp (c.regs .ebp)) (.pop .ebp))

/-
  A processor, with the calls that have not returned, the
  last one first.
-/
structure Config where
  cpu : Cpu
  frames : List CallFrame

/- Up to where the function may use the stack. -/
def limit (hi : Nat) : List CallFrame → Nat
| [] => hi
| frame :: _ => frame.fp

/-
  The steps of a thread with a stack from `lo` to `hi`.  A
  function may do anything between its calls, but it keeps
  its frame pointer and the words of the frames.
-/
inductive Step (lo hi : Nat) : Config → Config → Prop
| call
    {c : Cpu}
    {frames : List CallFrame}
    (back target : UInt32)
    (hRoom : lo + 8 ≤ (c.regs .esp).toNat) :
    Step lo hi ⟨c, frames⟩
      ⟨callee c back target,
        ⟨(c.regs .esp).toNat - 8, back.toNat⟩ :: frames⟩
| own
    {c c' : Cpu}
    {frames : List CallFrame}
    (hEbp : c'.regs .ebp = c.regs .ebp)
    (hLow : lo ≤ (c'.regs .esp).toNat)
    (hEsp : (c'.regs .esp).toNat ≤ limit hi frames)
    (hKept :
      ∀ frame ∈ frames,
        c.mem.SameOn frame.fp (frame.fp + 8) c'.mem) :
    Step lo hi ⟨c, frames⟩ ⟨c', frames⟩
| ret
    {c : Cpu}
    {frame : CallFrame}
    {frames : List CallFrame} :
    Step lo hi ⟨c, frame :: frames⟩ ⟨leaveRet c, frames⟩

/-
  The start in `boot.s`, with `ebp` zero, or the entry of a
  thread, above which `create_thread` has put the address of
  `thread_exit`.
-/
inductive Started (lo hi : Nat) : Config → Prop
| boot
    {c : Cpu}
    (hEbp : c.regs .ebp = 0)
    (hLow : lo ≤ (c.regs .esp).toNat)
    (hEsp : (c.regs .esp).toNat ≤ hi) :
    Started lo hi ⟨c, []⟩
| thread
    {c : Cpu}
    (hEbp : c.regs .ebp = 0)
    (hLow : lo + 4 ≤ (c.regs .esp).toNat)
    (hEsp : (c.regs .esp).toNat + 4 ≤ hi) :
    Started lo hi
      ⟨prologue c,
        [⟨(c.regs .esp).toNat - 4, (c.stackWord 0).toNat⟩]⟩

/- The frames of the calls are linked in memory. -/
structure Inv (lo hi : Nat) (cfg : Config) : Prop where
  low : lo ≤ (cfg.cpu.regs .esp).toNat
  linked :
    cfg.cpu.mem.Linked hi (cfg.cpu.regs .esp).toNat
      (cfg.cpu.regs .ebp).toNat cfg.frames
  top : (cfg.cpu.regs .esp).toNat ≤ hi

------------------------------------------------------------
-- The Frames in Memory
------------------------------------------------------------

variable {lo hi : Nat}
variable {c c' : Cpu}
variable {cfg cfg' : Config}
variable {frame : CallFrame}
variable {frames : List CallFrame}

theorem mem_prologue
    (hRoom : 4 ≤ (c.regs .esp).toNat) :
    (prologue c).mem =
      c.mem.pushes (c.regs .esp).toNat
        [(c.regs .ebp).toNat] := by
  change c.mem.write32 (c.regs .esp - 4).toNat _ = _
  rw [Stub.toNat_sub_four hRoom]
  rfl

theorem esp_callee
    (c : Cpu)
    (back target : UInt32)
    (hRoom : 8 ≤ (c.regs .esp).toNat) :
    ((callee c back target).regs .esp).toNat =
        (c.regs .esp).toNat - 8 ∧
      ((callee c back target).regs .ebp).toNat =
        (c.regs .esp).toNat - 8 := by
  have hDown : (c.regs .esp - 4 - 4).toNat =
      (c.regs .esp).toNat - 8 := by
    have hFirst := Stub.toNat_sub_four (e := c.regs .esp)
      (by omega)
    rw [Stub.toNat_sub_four (by omega), hFirst]
    omega
  exact ⟨hDown, hDown⟩

theorem mem_callee
    (c : Cpu)
    (back target : UInt32)
    (hRoom : 8 ≤ (c.regs .esp).toNat) :
    (callee c back target).mem =
      c.mem.pushes (c.regs .esp).toNat
        [back.toNat, (c.regs .ebp).toNat] := by
  have hFirst : (c.regs .esp - 4).toNat =
      (c.regs .esp).toNat - 4 :=
    Stub.toNat_sub_four (by omega)
  have hEsp : (c.call back target).regs .esp =
      c.regs .esp - 4 := rfl
  unfold callee
  rw [mem_prologue (by rw [hEsp]; omega), hEsp, hFirst]
  change
    ((c.mem.write32 (c.regs .esp - 4).toNat
      back.toNat).pushes ((c.regs .esp).toNat - 4)
        [(c.regs .ebp).toNat]) = _
  rw [hFirst]
  rfl

theorem Inv.callee
    {back target : UInt32}
    (hInv : Inv lo hi ⟨c, frames⟩)
    (hPos : 0 < lo)
    (hRoom : lo + 8 ≤ (c.regs .esp).toNat) :
    Inv lo hi
      ⟨callee c back target,
        ⟨(c.regs .esp).toNat - 8, back.toNat⟩ :: frames⟩ := by
  have hTop : (c.regs .esp).toNat ≤ hi := hInv.top
  have hLow : 8 < (c.regs .esp).toNat := by omega
  have hEsp := esp_callee c back target (by omega)
  refine ⟨?_, ?_, ?_⟩
  · change lo ≤ ((Panic.callee c back target).regs .esp).toNat
    omega
  · change (Panic.callee c back target).mem.Linked hi
      ((Panic.callee c back target).regs .esp).toNat
      ((Panic.callee c back target).regs .ebp).toNat _
    rw [hEsp.1, hEsp.2, mem_callee c back target (by omega)]
    exact hInv.linked.enter hLow hTop (UInt32.toNat_lt _)
      (UInt32.toNat_lt _)
  · change ((Panic.callee c back target).regs .esp).toNat ≤ hi
    omega

/- The stack pointer stays below the frames. -/
theorem linked_of_limit
    {mem : ByteMemory}
    {e e' fp : Nat}
    (hLinked : mem.Linked hi e fp frames)
    (hLimit : e' ≤ limit hi frames) :
    mem.Linked hi e' fp frames := by
  cases frames with
  | nil => exact hLinked
  | cons frame frames =>
      rcases hLinked with ⟨hFp, hBack, _, hRest⟩
      exact ⟨hFp, hBack, hFp ▸ hLimit, hRest⟩

theorem limit_le
    {mem : ByteMemory}
    {e fp : Nat}
    (hLinked : mem.Linked hi e fp frames) :
    limit hi frames ≤ hi := by
  cases frames with
  | nil => exact Nat.le_refl hi
  | cons frame frames =>
      have hBounds := hLinked.bounds List.mem_cons_self
      change frame.fp ≤ hi
      omega

theorem Inv.own
    (hInv : Inv lo hi ⟨c, frames⟩)
    (hEbp : c'.regs .ebp = c.regs .ebp)
    (hLow : lo ≤ (c'.regs .esp).toNat)
    (hEsp : (c'.regs .esp).toNat ≤ limit hi frames)
    (hKept :
      ∀ frame ∈ frames,
        c.mem.SameOn frame.fp (frame.fp + 8) c'.mem) :
    Inv lo hi ⟨c', frames⟩ := by
  have hLinked := hInv.linked.congr hKept
  refine ⟨hLow, ?_, Nat.le_trans hEsp (limit_le hLinked)⟩
  change c'.mem.Linked hi _ (c'.regs .ebp).toNat frames
  rw [hEbp]
  exact linked_of_limit hLinked hEsp

theorem regs_leaveRet (c : Cpu) :
    (leaveRet c).regs .esp = c.regs .ebp + 4 + 4 ∧
      (leaveRet c).regs .ebp =
        .ofNat (c.mem.read32 (c.regs .ebp).toNat) :=
  ⟨rfl, rfl⟩

theorem Inv.leaveRet
    (hInv : Inv lo hi ⟨c, frame :: frames⟩)
    (hMax : hi < 2 ^ 32) :
    Inv lo hi ⟨leaveRet c, frames⟩ := by
  have hLinked : c.mem.Linked hi (c.regs .esp).toNat
      (c.regs .ebp).toNat (frame :: frames) := hInv.linked
  have hLow : lo ≤ (c.regs .esp).toNat := hInv.low
  have hAbove := hLinked.2.2.1
  have hHigh := hLinked.2.2.2.2.1
  have hEsp : ((Panic.leaveRet c).regs .esp).toNat =
      (c.regs .ebp).toNat + 8 := by
    have hFour : (4 : UInt32).toNat = 4 := rfl
    rw [(regs_leaveRet c).1, UInt32.toNat_add,
      UInt32.toNat_add, hFour]
    omega
  have hEbp : ((Panic.leaveRet c).regs .ebp).toNat =
      c.mem.read32 (c.regs .ebp).toNat := by
    rw [(regs_leaveRet c).2]
    exact UInt32.toNat_ofNat_of_lt'
      (ByteMemory.read32_lt c.mem _)
  refine ⟨?_, ?_, ?_⟩
  · change lo ≤ ((Panic.leaveRet c).regs .esp).toNat
    omega
  · change c.mem.Linked hi
      ((Panic.leaveRet c).regs .esp).toNat
      ((Panic.leaveRet c).regs .ebp).toNat frames
    rw [hEsp, hEbp]
    exact hLinked.leave
  · change ((Panic.leaveRet c).regs .esp).toNat ≤ hi
    rw [hEsp]
    exact hHigh

theorem Inv.step
    (hPos : 0 < lo)
    (hMax : hi < 2 ^ 32)
    (hInv : Inv lo hi cfg)
    (hStep : Step lo hi cfg cfg') :
    Inv lo hi cfg' := by
  cases hStep with
  | call back target hRoom => exact hInv.callee hPos hRoom
  | own hEbp hLow hEsp hKept =>
      exact hInv.own hEbp hLow hEsp hKept
  | ret => exact hInv.leaveRet hMax

theorem Inv.started
    (hPos : 0 < lo)
    (hStarted : Started lo hi cfg) :
    Inv lo hi cfg := by
  cases hStarted with
  | @boot c hEbp hLow hEsp =>
      refine ⟨hLow, ?_, hEsp⟩
      change (c.regs .ebp).toNat = 0
      rw [hEbp]
      rfl
  | @thread c hEbp hLow hEsp =>
      have hFp : ((prologue c).regs .esp).toNat =
          (c.regs .esp).toNat - 4 :=
        Stub.toNat_sub_four (by omega)
      have hMem := mem_prologue (c := c) (by omega)
      have hZero : (c.regs .ebp).toNat = 0 := by
        rw [hEbp]
        rfl
      have hLength :
          4 * [(c.regs .ebp).toNat].length ≤
            (c.regs .esp).toNat := by
        rw [List.length_singleton]
        omega
      -- the word that the call has left, and the one below
      have hBack :
          (prologue c).mem.read32 (c.regs .esp).toNat =
            c.mem.read32 (c.regs .esp).toNat := by
        rw [hMem]
        exact (ByteMemory.sameOn_pushes c.mem hLength
          (.inr (Nat.le_refl _))).read32 (Nat.le_refl _)
            (Nat.le_refl _)
      have hSaved :
          (prologue c).mem.read32 ((c.regs .esp).toNat - 4) =
            0 := by
        rw [hMem]
        refine (ByteMemory.read32_pushes c.mem hLength ?_
          (Nat.zero_lt_one : 0 < [(c.regs .ebp).toNat].length)
          ).trans hZero
        intro v hv
        rw [List.mem_singleton.mp hv]
        exact UInt32.toNat_lt _
      have hWord : (c.stackWord 0).toNat =
          c.mem.read32 (c.regs .esp).toNat :=
        UInt32.toNat_ofNat_of_lt' (ByteMemory.read32_lt c.mem _)
      have hUp :
          (c.regs .esp).toNat - 4 + 4 = (c.regs .esp).toNat := by
        omega
      refine ⟨?_, ?_, ?_⟩
      · change lo ≤ ((prologue c).regs .esp).toNat
        omega
      · change (prologue c).mem.Linked hi
          ((prologue c).regs .esp).toNat
          ((prologue c).regs .esp).toNat _
        rw [hFp]
        refine ⟨rfl, ?_, Nat.le_refl _, by omega, by omega,
          hSaved⟩
        rw [hUp, hBack]
        exact hWord
      · change ((prologue c).regs .esp).toNat ≤ hi
        omega

theorem Inv.reachable
    (hPos : 0 < lo)
    (hMax : hi < 2 ^ 32)
    (hReach : Reachable (Started lo hi) (Step lo hi) cfg) :
    Inv lo hi cfg :=
  hReach.invariant (fun _ hStarted => .started hPos hStarted)
    (fun _ _ _ hInv hStep => hInv.step hPos hMax hStep)

------------------------------------------------------------
-- The Texts
------------------------------------------------------------

/- The line of a call: its return address and a name. -/
def lineText (back : UInt32) (name : List UInt8) : List UInt8 :=
  literal "\t[0x" ++
    (Vsprintf.numeral Vsprintf.SMALL 16 back.toNat ++
      (literal "] " ++ (name ++ literal "\n")))

def headText (msg : List UInt8) : List UInt8 :=
  literal "*** System panic: " ++ (msg ++ literal "\n")

def tailText : List UInt8 :=
  literal "***\n"

variable {texts : Texts}
variable {name msg : List UInt8}

theorem means_line
    (back : UInt32)
    {p : UInt32}
    (hName : texts p = some name) :
    Means texts (Vsprintf.pieces lineFormat.chars)
      (argsOf [back, p]) (lineText back name) := by
  have hChars :
      lineFormat.chars =
        literal "\t[0x" ++
          (Vsprintf.percent :: Vsprintf.letter 'x' ::
            (literal "] " ++
              (Vsprintf.percent :: Vsprintf.letter 's' ::
                literal "\n"))) := by
    decide
  rw [hChars]
  refine Means.chars _ (by decide) (Means.hexadecimal ?_)
  refine Means.chars _ (by decide) (Means.string hName ?_)
  exact means_literal _ _ (by decide)

theorem means_head
    {p : UInt32}
    (hMsg : texts p = some msg) :
    Means texts (Vsprintf.pieces headFormat.chars)
      (argsOf [p]) (headText msg) := by
  have hChars :
      headFormat.chars =
        literal "*** System panic: " ++
          (Vsprintf.percent :: Vsprintf.letter 's' ::
            literal "\n") := by
    decide
  rw [hChars]
  refine Means.chars _ (by decide) (Means.string hMsg ?_)
  exact means_literal _ _ (by decide)

theorem shown_line
    (back : UInt32)
    (hName : Fs.Unterminated name) :
    shown (lineText back name) = lineText back name := by
  refine shown_of_unterminated ?_
  refine unterminated_append
    (unterminated_literal _ (by decide)) ?_
  refine unterminated_append
    (Vsprintf.unterminated_numeral _ (by decide) (by decide)) ?_
  refine unterminated_append
    (unterminated_literal _ (by decide)) ?_
  exact unterminated_append hName
    (unterminated_literal _ (by decide))

theorem length_line
    (back : UInt32)
    (hName : name.length ≤ 1000) :
    (lineText back name).length < Kprintf.BUF_SIZE := by
  have hNumeral :
      (Vsprintf.numeral Vsprintf.SMALL 16 back.toNat).length ≤
        8 :=
    Vsprintf.length_numeral (by decide) (by decide)
      back.toNat_lt
  have hFirst : (literal "\t[0x").length = 4 := by decide
  have hSecond : (literal "] ").length = 2 := by decide
  have hThird : (literal "\n").length = 1 := by decide
  unfold lineText Kprintf.BUF_SIZE
  rw [List.length_append, List.length_append,
    List.length_append, List.length_append]
  omega

theorem shown_head
    (hMsg : Fs.Unterminated msg) :
    shown (headText msg) = headText msg := by
  refine shown_of_unterminated ?_
  refine unterminated_append
    (unterminated_literal _ (by decide)) ?_
  exact unterminated_append hMsg
    (unterminated_literal _ (by decide))

theorem length_head
    (msg : List UInt8)
    (hMsg : msg.length ≤ 1000) :
    (headText msg).length < Kprintf.BUF_SIZE := by
  have hFirst :
      (literal "*** System panic: ").length = 18 := by decide
  have hThird : (literal "\n").length = 1 := by decide
  unfold headText Kprintf.BUF_SIZE
  rw [List.length_append, List.length_append]
  omega

------------------------------------------------------------
-- Memory and Its Symbols
------------------------------------------------------------

/- Memory as `kprintf` addresses it. -/
def bytesOf (mem : ByteMemory) : UInt32 → UInt8 :=
  fun a => mem a.toNat

/- No symbol is read from the buffer. -/
def SymbolsApart (link : Link) : Prop :=
  ∀ i, i < (link.kernelElf.symtabsz / 16).toNat →
    ∀ k, k < 16 →
      ¬ InBuffer link.buf
        (link.kernelElf.symtab + 16 * UInt32.ofNat i +
          UInt32.ofNat k)

/- What the symbols say about an address. -/
def nameAt
    (link : Link)
    (mem : UInt32 → UInt8)
    (a : UInt32) : Elf.SymMap.Name :=
  elfSymMapLookup mem a link.kernelElf

variable {link : Link}
variable {mem mem' : UInt32 → UInt8}

theorem read32_congr
    {a : UInt32}
    (hSame : ∀ k, k < 4 →
      mem' (a + UInt32.ofNat k) = mem (a + UInt32.ofNat k)) :
    Elf.SymMap.read32 mem' a = Elf.SymMap.read32 mem a := by
  have hZero := hSame 0 (by decide)
  rw [Vsprintf.add_ofNat_zero] at hZero
  have hOne : mem' (a + 1) = mem (a + 1) := hSame 1 (by decide)
  have hTwo : mem' (a + 2) = mem (a + 2) := hSame 2 (by decide)
  have hThree : mem' (a + 3) = mem (a + 3) := hSame 3 (by decide)
  unfold Elf.SymMap.read32
  rw [hZero, hOne, hTwo, hThree]

/- The names do not change with the buffer. -/
theorem nameAt_congr
    (hApart : SymbolsApart link)
    (hSame :
      ∀ x, ¬ InBuffer link.buf x → mem' x = mem x)
    (a : UInt32) :
    nameAt link mem' a = nameAt link mem a := by
  have hSymbols :
      Elf.SymMap.symbols mem' link.kernelElf.symtab
          link.kernelElf.symtabsz =
        Elf.SymMap.symbols mem link.kernelElf.symtab
          link.kernelElf.symtabsz := by
    apply List.map_congr_left
    intro i hi
    have hi := List.mem_range.mp hi
    have hByte (k : Nat) (hk : k < 16) :=
      hSame _ (hApart i hi k hk)
    have hWord (k : Nat) (hk : k + 4 ≤ 16) :
        Elf.SymMap.read32 mem'
            (link.kernelElf.symtab + 16 * UInt32.ofNat i +
              UInt32.ofNat k) =
          Elf.SymMap.read32 mem
            (link.kernelElf.symtab + 16 * UInt32.ofNat i +
              UInt32.ofNat k) := by
      apply read32_congr
      intro j hj
      rw [UInt32.add_assoc, ← UInt32.ofNat_add]
      exact hByte (k + j) (by omega)
    have hName := hWord 0 (by decide)
    rw [Vsprintf.add_ofNat_zero] at hName
    have hValue := hWord 4 (by decide)
    have hSize := hWord 8 (by decide)
    have hInfo := hByte 12 (by decide)
    change Elf.SymMap.symAt mem' _ = Elf.SymMap.symAt mem _
    unfold Elf.SymMap.symAt
    rw [hName]
    congr 1
  unfold nameAt elfSymMapLookup
  rw [hSymbols]

/- A word of the stack, as the trace reads it. -/
theorem read32_bytesOf
    {ram : ByteMemory}
    {a : UInt32}
    (hApart :
      ∀ k, k < 4 → ¬ InBuffer link.buf (a + UInt32.ofNat k))
    (hSame :
      ∀ x, ¬ InBuffer link.buf x → mem x = bytesOf ram x)
    (hHigh : a.toNat + 4 ≤ 2 ^ 32) :
    Elf.SymMap.read32 mem a = .ofNat (ram.read32 a.toNat) := by
  have hByte (k : Nat) (hk : k < 4) :
      mem (a + UInt32.ofNat k) = ram (a.toNat + k) := by
    rw [hSame _ (hApart k hk)]
    unfold bytesOf
    rw [UInt32.toNat_add, Kprintf.ofNat_toNat_lt (by omega)]
    congr 1
    omega
  have hZero := hByte 0 (by decide)
  rw [Vsprintf.add_ofNat_zero] at hZero
  have hOne : mem (a + 1) = ram (a.toNat + 1) :=
    hByte 1 (by decide)
  have hTwo : mem (a + 2) = ram (a.toNat + 2) :=
    hByte 2 (by decide)
  have hThree : mem (a + 3) = ram (a.toNat + 3) :=
    hByte 3 (by decide)
  unfold Elf.SymMap.read32 ByteMemory.read32
  rw [hZero, hOne, hTwo, hThree, UInt32.ofNat_add,
    UInt32.ofNat_add, UInt32.ofNat_add, UInt32.ofNat_mul,
    UInt32.ofNat_mul, UInt32.ofNat_mul, Nat.add_zero]
  simp only [UInt32.ofNat_uInt8ToNat]
  rfl

------------------------------------------------------------
-- The Trace
------------------------------------------------------------

/-
  The strings, the symbols and the stack lie apart from the
  buffer of `kprintf`.
-/
structure Placed
    (link : Link)
    (mem : UInt32 → UInt8)
    (texts : Texts)
    (lo hi : Nat) : Prop where
  known : Known link.buf mem texts
  symbols : SymbolsApart link
  stack : ∀ x : UInt32, lo ≤ x.toNat → x.toNat < hi →
    ¬ InBuffer link.buf x

/- The function of each call has a name that fits in a line. -/
def Named
    (link : Link)
    (mem : UInt32 → UInt8)
    (texts : Texts)
    (names : UInt32 → List UInt8)
    (frames : List CallFrame) : Prop :=
  ∀ frame ∈ frames,
    texts (link.pointer (nameAt link mem (.ofNat frame.back))) =
        some (names (.ofNat frame.back)) ∧
      (names (.ofNat frame.back)).length ≤ 1000

/- The lines of the calls. -/
def traceText
    (names : UInt32 → List UInt8)
    (frames : List CallFrame) : List UInt8 :=
  frames.flatMap fun frame =>
    lineText (.ofNat frame.back) (names (.ofNat frame.back))

variable {ram : ByteMemory}
variable {names : UInt32 → List UInt8}
variable {videoMem : Nat → Nat}
variable {bytes : List UInt8}
variable {con : Console}

theorem toNat_add_lt
    {a : UInt32}
    {k : Nat}
    (hSum : a.toNat + k < 2 ^ 32) :
    (a + UInt32.ofNat k).toNat = a.toNat + k := by
  rw [UInt32.toNat_add, Kprintf.ofNat_toNat_lt (by omega)]
  exact Nat.mod_eq_of_lt hSum

/- The return address and the saved pointer of a frame. -/
theorem read32_frame
    {a : UInt32}
    (hPlaced : Placed link (bytesOf ram) texts lo hi)
    (hMax : hi < 2 ^ 32)
    (hSame :
      ∀ x, ¬ InBuffer link.buf x → mem x = bytesOf ram x)
    (hLow : lo ≤ a.toNat)
    (hHigh : a.toNat + 4 ≤ hi) :
    Elf.SymMap.read32 mem a = .ofNat (ram.read32 a.toNat) := by
  refine read32_bytesOf ?_ hSame (by omega)
  intro k hk
  have hSum := @toNat_add_lt a k (by omega)
  exact hPlaced.stack _ (by omega) (by omega)

theorem print_text
    {fmt : Format}
    {args : Args}
    {out : List UInt8}
    (hKnown : Known link.buf con.mem texts)
    (hGiven : Given videoMem bytes con)
    (hMeans : Means texts (Vsprintf.pieces fmt.chars) args out)
    (hFits : out.length < Kprintf.BUF_SIZE)
    (hText : shown out = out) :
    ∃ con',
      kprintf link.buf fmt args con = some con' ∧
        Given videoMem (bytes ++ out) con' ∧
          ∀ x, ¬ InBuffer link.buf x → con'.mem x = con.mem x := by
  rcases Kprintf.kprintf_prints hKnown ⟨hMeans, hFits⟩ with
    ⟨con', hRun, hMonitor, hMem⟩
  rw [hText] at hMonitor
  exact ⟨con', hRun, hGiven.append hMonitor, hMem⟩

theorem printStackTrace_given
    {e : Nat}
    {fp : UInt32}
    (hPlaced : Placed link (bytesOf ram) texts lo hi)
    (hMax : hi < 2 ^ 32)
    (hNamed : Named link (bytesOf ram) texts names frames)
    (hLinked : ram.Linked hi e fp.toNat frames)
    (hLow : lo ≤ e)
    (hSame :
      ∀ x, ¬ InBuffer link.buf x → con.mem x = bytesOf ram x)
    (hGiven : Given videoMem bytes con) :
    ∃ con',
      printStackTrace link (frames.length + 1) fp con =
          some con' ∧
        Given videoMem (bytes ++ traceText names frames) con' ∧
          ∀ x, ¬ InBuffer link.buf x →
            con'.mem x = bytesOf ram x := by
  induction frames generalizing e fp con bytes with
  | nil =>
      have hZero : fp = 0 := UInt32.toNat_inj.mp hLinked
      refine ⟨con, ?_, ?_, hSame⟩
      · rw [printStackTrace, if_pos hZero]
      · change Given videoMem (bytes ++ []) con
        rw [List.append_nil]
        exact hGiven
  | cons frame frames ih =>
      rcases hLinked with
        ⟨_, hBack, hAbove, hPos, hHigh, hRest⟩
      have hNe : fp ≠ 0 := by
        rintro rfl
        exact absurd hPos (Nat.lt_irrefl 0)
      have hFour : (fp + 4).toNat = fp.toNat + 4 :=
        @toNat_add_lt fp 4 (by omega)
      -- what is read of the frame
      have hEip :
          Elf.SymMap.read32 con.mem (fp + 4) =
            .ofNat frame.back := by
        rw [read32_frame hPlaced hMax hSame (by omega)
          (by omega), hFour, hBack]
      have hName := hNamed frame List.mem_cons_self
      have hLookup :
          elfSymMapLookup con.mem (.ofNat frame.back)
              link.kernelElf =
            nameAt link (bytesOf ram) (.ofNat frame.back) :=
        nameAt_congr hPlaced.symbols hSame _
      have hKnown := hPlaced.known.congr hSame
      rcases print_text hKnown hGiven
          (means_line (.ofNat frame.back) hName.1)
          (length_line _ hName.2)
          (shown_line _
            (hKnown.string _ _ hName.1).unterminated) with
        ⟨con₁, hRun, hGiven₁, hMem⟩
      have hSame₁ :
          ∀ x, ¬ InBuffer link.buf x →
            con₁.mem x = bytesOf ram x :=
        fun x hx => (hMem x hx).trans (hSame x hx)
      have hSaved :
          (Elf.SymMap.read32 con₁.mem fp).toNat =
            ram.read32 fp.toNat := by
        rw [read32_frame hPlaced hMax hSame₁ (by omega)
          (by omega)]
        exact UInt32.toNat_ofNat_of_lt'
          (ByteMemory.read32_lt ram _)
      rw [← hSaved] at hRest
      rcases ih
          (fun f hf => hNamed f (List.mem_cons_of_mem _ hf))
          hRest (by omega) hSame₁ hGiven₁ with
        ⟨con₂, hRun₂, hGiven₂, hSame₂⟩
      refine ⟨con₂, ?_, ?_, hSame₂⟩
      · rw [List.length_cons, printStackTrace, if_neg hNe]
        dsimp only
        rw [hEip, hLookup, hRun]
        exact hRun₂
      · rw [List.append_assoc] at hGiven₂
        exact hGiven₂

/-
  In every run of calls and returns of a thread, `panic`
  shows the message and one line for each call that has not
  returned, the last call first, with its return address and
  the name that the symbols have for it.
-/
theorem panic_lists_calls
    {cpu : Cpu}
    {msg : UInt32}
    {text : List UInt8}
    (link : Link)
    (names : UInt32 → List UInt8)
    (hPos : 0 < lo)
    (hMax : hi < 2 ^ 32)
    (hReach :
      Reachable (Started lo hi) (Step lo hi) ⟨cpu, frames⟩)
    (hPlaced : Placed link (bytesOf cpu.mem) texts lo hi)
    (hNamed :
      Named link (bytesOf cpu.mem) texts names frames)
    (hMsg : texts msg = some text)
    (hShort : text.length ≤ 1000)
    (hMem : con.mem = bytesOf cpu.mem)
    (hGiven : Given videoMem bytes con) :
    ∃ con',
      panic link (frames.length + 1) msg (cpu.regs .ebp) con =
          some con' ∧
        Monitor.Shows con'.monitor
          (.putAll
            (bytes ++ headText text ++
              traceText names frames ++ tailText)) := by
  have hInv := Inv.reachable hPos hMax hReach
  have hSame :
      ∀ x, ¬ InBuffer link.buf x →
        con.mem x = bytesOf cpu.mem x :=
    fun x _ => congrFun hMem x
  have hKnown := hPlaced.known.congr hSame
  rcases print_text hKnown hGiven (means_head hMsg)
      (length_head text hShort)
      (shown_head
        (hKnown.string msg text hMsg).unterminated) with
    ⟨con₁, hRun₁, hGiven₁, hMem₁⟩
  have hSame₁ :
      ∀ x, ¬ InBuffer link.buf x →
        con₁.mem x = bytesOf cpu.mem x :=
    fun x hx => (hMem₁ x hx).trans (hSame x hx)
  rcases printStackTrace_given hPlaced hMax hNamed
      hInv.linked hInv.low hSame₁ hGiven₁ with
    ⟨con₂, hRun₂, hGiven₂, hSame₂⟩
  have hTail :
      Means texts (Vsprintf.pieces tailFormat.chars)
        (argsOf []) tailText :=
    means_literal _ _ (by decide)
  rcases print_text (hPlaced.known.congr hSame₂) hGiven₂ hTail
      (by decide)
      (shown_of_unterminated
        (unterminated_literal _ (by decide))) with
    ⟨con₃, hRun₃, hGiven₃, _⟩
  refine ⟨con₃, ?_, hGiven₃.putAll⟩
  have hTrace :
      printStackTrace link (frames.length + 1)
          (cpu.regs .ebp) con₁ = some con₂ := hRun₂
  unfold panic
  rw [hRun₁, Option.bind_some, hTrace, Option.bind_some]
  exact hRun₃

------------------------------------------------------------
-- A Panic
------------------------------------------------------------

/- What is looked up is in the list. -/
theorem mem_of_lookup
    {α β : Type}
    [BEq α]
    [LawfulBEq α]
    {xs : List (α × β)}
    {a : α}
    {b : β}
    (hLookup : xs.lookup a = some b) :
    (a, b) ∈ xs := by
  rcases List.lookup_eq_some_iff.mp hLookup with
    ⟨before, after, rfl, -⟩
  exact List.mem_append_right _ List.mem_cons_self

/-
  What memory holds: the message, the one symbol, of a
  function of 256 bytes at 0x101000, and its name.
-/
def bootBytes : List (Nat × UInt8) :=
  [(0x2000, 111), (0x2001, 107), (0x2800, 4), (0x2805, 0x10),
    (0x2806, 0x10), (0x2809, 1), (0x280C, 2), (0x2904, 103),
    (0x2905, 111)]

/- Where `boot.s` calls `kmain`. -/
def bootCpu : Cpu where
  regs := fun r => if r = .esp then 0x9000 else 0
  segs := fun _ => 0x10
  eflags := 0
  eip := 0x100000
  mem := fun x => (bootBytes.lookup x).getD 0

/- `kmain` has called that function, and it another one. -/
def calledCpu : Cpu :=
  callee (callee bootCpu 0x100010 0x101000) 0x101020 0x102000

def calledFrames : List CallFrame :=
  [⟨0x8FF0, 0x101020⟩, ⟨0x8FF8, 0x100010⟩]

theorem reachable_called :
    Reachable (Started 0x8000 0x9000) (Step 0x8000 0x9000)
      ⟨calledCpu, calledFrames⟩ :=
  .step
    (.step (.start (.boot rfl (by decide) (by decide)))
      (.call 0x100010 0x101000 (by decide)))
    (.call 0x101020 0x102000 (by decide))

def kernelLink : Link where
  buf := 0x1000
  empty := 0x3000
  kernelElf := ⟨0x2800, 16, 0x2900, 16⟩

def kernelStrings : List (UInt32 × List UInt8) :=
  [(0x2000, [111, 107]), (0x2904, [103, 111]), (0x3000, [])]

/- The name that is printed for an address. -/
def kernelNames (a : UInt32) : List UInt8 :=
  if a = 0x101020 then [103, 111] else []

theorem known_called :
    Known 0x1000 (bytesOf calledCpu.mem)
      (fun a => kernelStrings.lookup a) where
  string := by
    intro a text hText
    have hAll :
        ∀ s ∈ kernelStrings,
          Elf.SymMap.NameAt (bytesOf calledCpu.mem) s.1 s.2 ∧
            s.2.all (· ≠ 0) = true ∧ s.2.length < 3 := by
      decide
    have hString := hAll _ (mem_of_lookup hText)
    refine ⟨hString.1, ?_,
      Nat.lt_trans hString.2.2 (by decide)⟩
    intro c hc
    exact of_decide_eq_true
      (List.all_eq_true.mp hString.2.1 c hc)
  apart := by
    intro a text hText k hk
    have hAll :
        ∀ s ∈ kernelStrings, ∀ k, k < s.2.length + 1 →
          ¬ InBuffer 0x1000 (s.1 + .ofNat k) := by
      decide
    exact hAll _ (mem_of_lookup hText) k
      (Nat.lt_succ_of_le hk)

theorem placed_called :
    Placed kernelLink (bytesOf calledCpu.mem)
      (fun a => kernelStrings.lookup a) 0x8000 0x9000 where
  known := known_called
  symbols := by
    intro i hi k hk
    have hFirst : i = 0 := Nat.lt_one_iff.mp hi
    subst hFirst
    revert k
    decide
  stack := by
    intro x hLow hHigh hIn
    have hBuf : (x - 0x1000).toNat < 1024 := hIn
    have hThousand : (0x1000 : UInt32).toNat = 4096 := rfl
    rw [UInt32.toNat_sub_of_le x 0x1000 (by
      rw [UInt32.le_iff_toNat_le, hThousand]
      omega), hThousand] at hBuf
    omega

/- The caller's address is in the function of the symbol. -/
theorem named_called :
    Named kernelLink (bytesOf calledCpu.mem)
      (fun a => kernelStrings.lookup a) kernelNames
      calledFrames := by
  unfold Named
  decide

/- The screen after `init_monitor`. -/
def calledConsole : Console where
  mem := bytesOf calledCpu.mem
  monitor := Monitor.initMonitor (.static fun _ => 0)

theorem panic_lists_calls_named :
    ∃ con,
      panic kernelLink (calledFrames.length + 1) 0x2000
          (calledCpu.regs .ebp) calledConsole = some con ∧
        Monitor.Shows con.monitor
          (.putAll
            ([] ++ headText [111, 107] ++
              (lineText 0x101020 [103, 111] ++
                (lineText 0x100010 [] ++ [])) ++
                  tailText)) := by
  have hMsg :
      kernelStrings.lookup 0x2000 = some [111, 107] := rfl
  have hShort : [(111 : UInt8), 107].length ≤ 1000 := by
    decide
  have hGiven : Given (fun _ => 0) [] calledConsole := rfl
  exact panic_lists_calls kernelLink kernelNames
    (by decide) (by decide) reachable_called placed_called
    named_called hMsg hShort rfl hGiven

end Panic

end SosKernel
