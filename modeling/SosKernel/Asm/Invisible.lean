import Mathlib.Logic.Function.Iterate
import SosKernel.Asm.Stubs
import SosKernel.Lib.Interleaving

/-
  Programs that are interrupted between any two of their
  instructions.

  The handlers use the stack of the program, below its stack
  pointer.  A new stack frame has whatever they have left
  there, and the program may not read a byte of it before it
  has written it.

  Main declarations:
    * `Program`, `Program.fresh`, `Program.Careful`
    * `interrupts_invisible`
    * `codeProgram`: a program of instructions
    * `frameCode`: one with a stack frame
-/

------------------------------------------------------------
-- Programs
------------------------------------------------------------

namespace SosKernel

namespace Stub

open Asm (Core Reg)

/-
  A program with the bytes that a step reads, and those that
  it writes: the step depends on the registers and on what it
  reads, and keeps what it does not write.
-/
structure Program where
  step : Cpu → Cpu
  reads : Cpu → Nat → Prop
  writes : Cpu → Nat → Prop
  kept : ∀ c x, ¬ writes c x → (step c).mem x = c.mem x
  same_writes :
    ∀ c r, SameRegs c r → ∀ x, writes r x ↔ writes c x
  same_step :
    ∀ c r, SameRegs c r →
      (∀ x, reads c x → r.mem x = c.mem x) →
        SameRegs (step c) (step r) ∧
          ∀ x, writes c x → (step r).mem x = (step c).mem x

/-
  The bytes of new stack frames that the program has not
  written after `k` steps from `c`.
-/
def Program.fresh (p : Program) (c : Cpu) : Nat → Nat → Prop
| 0 => fun _ => False
| k + 1 => fun x =>
    let now := p.step^[k] c
    (p.fresh c k x ∨
        ((p.step now).regs .esp).toNat ≤ x ∧
          x < (now.regs .esp).toNat) ∧
      ¬ p.writes now x

/-
  Alone, the program reads no byte of `K`, none below its
  stack pointer on the stack, whose end is `lo`, and none of
  a frame that it has not written.
-/
def Program.Careful
    (p : Program)
    (K : Nat → Prop)
    (lo : Nat)
    (c : Cpu) : Prop :=
  ∀ k x, p.reads (p.step^[k] c) x →
    ¬ K x ∧ ¬ p.fresh c k x ∧
      (x < lo ∨ ((p.step^[k] c).regs .esp).toNat ≤ x)

variable {p : Program}
variable {K : Nat → Prop}
variable {lo : Nat}
variable {c r : Cpu}

/- What is seen of the program after a step. -/
theorem Program.Careful.step
    {k : Nat}
    (hCareful : p.Careful K lo c)
    (hSeen :
      Seen (fun x => K x ∨ p.fresh c k x) lo (p.step^[k] c) r) :
    Seen (fun x => K x ∨ p.fresh c (k + 1) x) lo
      (p.step^[k + 1] c) (p.step r) := by
  rw [Function.iterate_succ_apply']
  have hReads :
      ∀ x, p.reads (p.step^[k] c) x →
        r.mem x = (p.step^[k] c).mem x := by
    intro x hx
    rcases hCareful k x hx with ⟨hK, hFresh, hPlace⟩
    exact hSeen.mem x (not_or.mpr ⟨hK, hFresh⟩) hPlace
  rcases p.same_step _ _ hSeen.toSameRegs hReads with
    ⟨hSame, hWritten⟩
  refine ⟨hSame, ?_⟩
  intro x hx hPlace
  by_cases hWrites : p.writes (p.step^[k] c) x
  · exact hWritten x hWrites
  · -- a byte that is not written, and was there before
    have hOld :
        ¬ (p.fresh c k x ∨
          ((p.step (p.step^[k] c)).regs .esp).toNat ≤ x ∧
            x < ((p.step^[k] c).regs .esp).toNat) :=
      fun hFresh => hx (.inr ⟨hFresh, hWrites⟩)
    have hOther :=
      mt (p.same_writes _ _ hSeen.toSameRegs x).mp hWrites
    rw [p.kept _ x hWrites, p.kept _ x hOther]
    apply hSeen.mem x
    · exact not_or.mpr
        ⟨fun hK => hx (.inl hK), fun h => hOld (.inl h)⟩
    · rcases hPlace with hLow | hHigh
      · exact .inl hLow
      · right
        by_contra hBelow
        exact hOld (.inr ⟨hHigh, Nat.lt_of_not_le hBelow⟩)

/-
  A careful program, in any interleaving with interrupts,
  whose handlers do what they like with their own variables:
  it sees what it would have seen without the interrupts.
-/
theorem interrupts_invisible
    {k : Nat}
    (t : Idt.State)
    (hCareful : p.Careful K lo c)
    (hRun : Interleaved p.step (Interrupted t K lo) c k r) :
    Seen (fun x => K x ∨ p.fresh c k x) lo (p.step^[k] c) r := by
  refine Interleaved.invariant
    (I := fun k r =>
      Seen (fun x => K x ∨ p.fresh c k x) lo (p.step^[k] c) r)
    (Seen.refl _ lo c) (fun k r hSeen => hCareful.step hSeen)
    ?_ hRun
  intro k r r' hSeen hTaken
  exact hSeen.trans (hTaken.seen.mono fun x hx => .inl hx)

------------------------------------------------------------
-- Code
------------------------------------------------------------

/- The words that an instruction pushes, or reads above `esp`. -/
def Instr.pushed : Instr → Nat
| .pushImm _ => 1
| .push _ => 1
| .pusha => 8
| _ => 0

def Instr.popped : Instr → Nat
| .pop _ => 1
| .popa => 8
| .iret => 3
| _ => 0

/- The `n` words below the stack pointer. -/
def Below (e : UInt32) (n x : Nat) : Prop :=
  ∃ i < n, (down e (i + 1)).toNat ≤ x ∧
    x < (down e (i + 1)).toNat + 4

/- The `n` words from the stack pointer on. -/
def Above (e : UInt32) (n x : Nat) : Prop :=
  e.toNat ≤ x ∧ x < e.toNat + 4 * n

theorem down_sub_four (e : UInt32) (k : Nat) :
    down (e - 4) k = down e (k + 1) := by
  induction k with
  | zero => rfl
  | succ k ih =>
      rw [down, ih]
      rfl

theorem pushAll_kept
    {x : Nat}
    (vs : List UInt32)
    (hx : ¬ Below (c.regs .esp) vs.length x) :
    (c.pushAll vs).mem x = c.mem x := by
  induction vs generalizing c with
  | nil => rfl
  | cons v vs ih =>
      have hEsp : (c.push v).regs .esp = c.regs .esp - 4 :=
        Function.update_self Reg.esp _ c.regs
      refine (ih ?_).trans ?_
      · rw [hEsp]
        rintro ⟨i, hi, hWord⟩
        rw [down_sub_four] at hWord
        refine hx ⟨i + 1, ?_, hWord⟩
        rw [List.length_cons]
        exact Nat.succ_lt_succ hi
      · apply ByteMemory.write32_apply_of_apart
        by_contra hIn
        refine hx ⟨0, ?_, ?_⟩
        · rw [List.length_cons]
          exact Nat.succ_pos _
        · change (c.regs .esp - 4).toNat ≤ x ∧
            x < (c.regs .esp - 4).toNat + 4
          omega

/- The same words are pushed on both. -/
theorem SameRegs.pushAll
    (hSame : SameRegs c r)
    (vs : List UInt32) :
    SameRegs (c.pushAll vs) (r.pushAll vs) ∧
      ∀ x, r.mem x = c.mem x ∨
          Below (c.regs .esp) vs.length x →
        (r.pushAll vs).mem x = (c.pushAll vs).mem x := by
  induction vs generalizing c r with
  | nil =>
      refine ⟨hSame, ?_⟩
      rintro x (hByte | ⟨i, hi, _⟩)
      · exact hByte
      · cases hi
  | cons v vs ih =>
      have hPush : SameRegs (c.push v) (r.push v) := by
        refine
          { regs := ?_
            segs := hSame.segs
            eflags := hSame.eflags
            eip := hSame.eip }
        unfold Cpu.push
        dsimp only
        rw [hSame.regs]
      have hEsp : (c.push v).regs .esp = c.regs .esp - 4 :=
        Function.update_self Reg.esp _ c.regs
      rcases ih hPush with ⟨hRest, hMem⟩
      refine ⟨hRest, ?_⟩
      intro x hx
      apply hMem
      rw [hEsp]
      -- the first word, and the other ones
      have hFirst :
          (r.push v).mem x = (c.push v).mem x ∨
            ¬ ((c.regs .esp - 4).toNat ≤ x ∧
              x < (c.regs .esp - 4).toNat + 4) := by
        by_cases hIn :
            (c.regs .esp - 4).toNat ≤ x ∧
              x < (c.regs .esp - 4).toNat + 4
        · left
          unfold Cpu.push ByteMemory.write32
          dsimp only
          rw [hSame.regs, if_pos hIn, if_pos hIn]
        · exact .inr hIn
      rcases hFirst with hByte | hOut
      · exact .inl hByte
      · rcases hx with hByte | ⟨i, hi, hWord⟩
        · left
          unfold Cpu.push ByteMemory.write32
          dsimp only
          rw [hSame.regs, if_neg hOut, if_neg hOut]
          exact hByte
        · cases i with
          | zero => exact absurd hWord hOut
          | succ i =>
              right
              rw [List.length_cons] at hi
              refine ⟨i, Nat.lt_of_succ_lt_succ hi, ?_⟩
              rw [down_sub_four]
              exact hWord

/- The same words are found above the stack pointers. -/
theorem SameRegs.stackWord
    {n : Nat}
    (hSame : SameRegs c r)
    (hMem :
      ∀ x, Above (c.regs .esp) n x → r.mem x = c.mem x)
    {i : Nat}
    (hi : i < n) :
    r.stackWord i = c.stackWord i := by
  unfold Cpu.stackWord
  rw [hSame.regs]
  congr 1
  apply ByteMemory.read32_congr
  intro j hj
  apply hMem
  unfold Above
  omega

theorem SameRegs.exec
    (hSame : SameRegs c r)
    (i : Instr)
    (hMem :
      ∀ x, Above (c.regs .esp) i.popped x →
        r.mem x = c.mem x) :
    SameRegs (i.exec c) (i.exec r) ∧
      ∀ x, Below (c.regs .esp) i.pushed x →
        (i.exec r).mem x = (i.exec c).mem x := by
  have hWord :
      ∀ j, j < i.popped → r.stackWord j = c.stackWord j :=
    fun j hj => hSame.stackWord hMem hj
  rcases c with ⟨⟨regs, eflags, eip⟩, segs, mem⟩
  rcases r with ⟨⟨regs', eflags', eip'⟩, segs', mem'⟩
  rcases hSame with ⟨hRegs, hSegs, hFlags, hEip⟩
  dsimp only at hRegs hSegs hFlags hEip
  subst hRegs hSegs hFlags hEip
  have hOnly :
      SameRegs ⟨⟨regs', eflags', eip'⟩, segs', mem⟩
        ⟨⟨regs', eflags', eip'⟩, segs', mem'⟩ :=
    ⟨rfl, rfl, rfl, rfl⟩
  have hNone :
      ∀ {P : Nat → Prop} (x : Nat),
        Below (regs' .esp) 0 x → P x := by
    rintro P x ⟨j, hj, _⟩
    cases hj
  cases i with
  | pushImm v =>
      rcases hOnly.pushAll [v] with ⟨hRegs, hBytes⟩
      exact ⟨hRegs, fun x hx => hBytes x (.inr hx)⟩
  | push q =>
      rcases hOnly.pushAll [regs' q] with ⟨hRegs, hBytes⟩
      exact ⟨hRegs, fun x hx => hBytes x (.inr hx)⟩
  | pusha =>
      rcases hOnly.pushAll
          [regs' .eax, regs' .ecx, regs' .edx, regs' .ebx,
            regs' .esp, regs' .ebp, regs' .esi, regs' .edi]
        with ⟨hRegs, hBytes⟩
      exact ⟨hRegs, fun x hx => hBytes x (.inr hx)⟩
  | pop q =>
      have hTop := hWord 0 Nat.one_pos
      refine ⟨⟨?_, rfl, rfl, rfl⟩, hNone⟩
      unfold Instr.exec Cpu.set
      rw [hTop]
  | popa =>
      refine ⟨⟨?_, rfl, rfl, rfl⟩, hNone⟩
      funext q
      cases q with
      | esp => rfl
      | edi => exact hWord 0 (by decide)
      | esi => exact hWord 1 (by decide)
      | ebp => exact hWord 2 (by decide)
      | ebx => exact hWord 4 (by decide)
      | edx => exact hWord 5 (by decide)
      | ecx => exact hWord 6 (by decide)
      | eax => exact hWord 7 (by decide)
  | iret =>
      have hEip := hWord 0 (by decide)
      have hCs := hWord 1 (by decide)
      have hEflags := hWord 2 (by decide)
      refine ⟨⟨rfl, ?_, hEflags, hEip⟩, hNone⟩
      unfold Instr.exec
      rw [hCs]
  | cli => exact ⟨⟨rfl, rfl, rfl, rfl⟩, hNone⟩
  | movAxSeg s => exact ⟨⟨rfl, rfl, rfl, rfl⟩, hNone⟩
  | movAx v => exact ⟨⟨rfl, rfl, rfl, rfl⟩, hNone⟩
  | movSeg s q => exact ⟨⟨rfl, rfl, rfl, rfl⟩, hNone⟩
  | addEsp v => exact ⟨⟨rfl, rfl, rfl, rfl⟩, hNone⟩

/- An instruction changes no byte but those it pushes. -/
theorem exec_kept
    {x : Nat}
    (i : Instr)
    (hx : ¬ Below (c.regs .esp) i.pushed x) :
    (i.exec c).mem x = c.mem x := by
  cases i with
  | pushImm v => exact pushAll_kept [v] hx
  | push q => exact pushAll_kept [c.regs q] hx
  | pusha =>
      exact pushAll_kept
        [c.regs .eax, c.regs .ecx, c.regs .edx, c.regs .ebx,
          c.regs .esp, c.regs .ebp, c.regs .esi, c.regs .edi]
        hx
  | pop q => rfl
  | popa => rfl
  | iret => rfl
  | cli => rfl
  | movAxSeg s => rfl
  | movAx v => rfl
  | movSeg s q => rfl
  | addEsp v => rfl

/-
  What lies at an address: an instruction, with the address
  of the next one.  The program stops where there is none.
-/
abbrev Code := UInt32 → Option (Instr × UInt32)

def Code.step (code : Code) (c : Cpu) : Cpu :=
  match code c.eip with
  | none => c
  | some (i, next) => i.exec { c with eip := next }

/- The words that the next instruction pushes, or reads. -/
def Code.pushed (code : Code) (c : Cpu) : Nat :=
  match code c.eip with
  | none => 0
  | some (i, _) => i.pushed

def Code.popped (code : Code) (c : Cpu) : Nat :=
  match code c.eip with
  | none => 0
  | some (i, _) => i.popped

def codeProgram (code : Code) : Program where
  step := code.step
  reads c := Above (c.regs .esp) (code.popped c)
  writes c := Below (c.regs .esp) (code.pushed c)
  kept := by
    intro c x hx
    unfold Code.pushed at hx
    unfold Code.step
    split
    · rfl
    · next i next hCode =>
        rw [hCode] at hx
        exact exec_kept i hx
  same_writes := by
    intro c r hSame x
    unfold Code.pushed
    rw [hSame.regs, hSame.eip]
  same_step := by
    intro c r hSame hReads
    unfold Code.popped at hReads
    unfold Code.step Code.pushed
    rw [hSame.eip]
    split
    · next hCode =>
        refine ⟨hSame, ?_⟩
        rintro x ⟨j, hj, _⟩
        cases hj
    · next i next hCode =>
        rw [hCode] at hReads
        have hNext :
            SameRegs { c with eip := next }
              { r with eip := next } :=
          ⟨hSame.regs, hSame.segs, hSame.eflags, rfl⟩
        exact hNext.exec i hReads

------------------------------------------------------------
-- A Stack Frame
------------------------------------------------------------

/-
  A function with a frame of eight bytes.  It stores `eax` in
  the lower word, and leaves the upper one as it was.
-/
def frameCode : Code := fun a =>
  if a = 0x101000 then
    some (.addEsp 0xFFFFFFFC, 0x101003)
  else if a = 0x101003 then
    some (.push .eax, 0x101004)
  else if a = 0x101004 then
    some (.pop .ecx, 0x101005)
  else if a = 0x101005 then
    some (.addEsp 4, 0x101008)
  else
    none

/- The timer's handler counts at 0x5000. -/
def tickHandler (e : Cpu) : Cpu :=
  { e.set .esp (e.regs .esp + 4) with
    eip := e.stackWord 0
    mem := Function.update e.mem 0x5000 (e.mem 0x5000 + 1) }

theorem returns_tickHandler (e : Cpu) :
    Returns (fun x => x = 0x5000) lo e (tickHandler e) where
  esp := Function.update_self Reg.esp _ e.regs
  eip := rfl
  mem := by
    intro x hx _
    exact Function.update_of_ne hx _ _

def timerTable : Idt.State :=
  Idt.initIdt ⟨0x10C000, fun _ => 0x108000, fun _ => 0x109000⟩
    ⟨fun _ => .zero, ⟨0, 0⟩, fun _ => 0, Idt.readyPics⟩

/- The program after a tick of the timer. -/
def ticked (c : Cpu) : Cpu :=
  run stubExit (tickHandler (c.entered 32 0 timerPlace))

theorem interrupted_ticked
    (hRoom : 0x8040 ≤ (c.regs .esp).toNat)
    (hFlat : ∀ s, s ≠ .cs → c.segs s = c.segs .ds) :
    Interrupted timerTable (fun x => x = 0x5000) 0x8000 c
      (ticked c) where
  stack :=
    { room := hRoom
      clear := by
        intro x hLo _ hx
        omega }
  flat := hFlat
  taken :=
    ⟨32, by decide,
      { taken :=
          ⟨0, timerPlace, _, Idt.target_initIdt _ _ 32,
            returns_tickHandler _, rfl⟩ }⟩

/- After the four instructions the program stops. -/
theorem frameCode_stops (k : Nat) :
    frameCode.step^[k + 4] kernelCpu =
      frameCode.step^[4] kernelCpu := by
  rw [Function.iterate_add_apply]
  exact Function.iterate_fixed rfl k

/- The only word that is read has been written. -/
theorem careful_frameCode :
    (codeProgram frameCode).Careful (fun x => x = 0x5000)
      0x8000 kernelCpu := by
  have hNothing :
      ∀ {P : Prop} {k x : Nat},
        frameCode.popped (frameCode.step^[k] kernelCpu) = 0 →
          (codeProgram frameCode).reads
              (frameCode.step^[k] kernelCpu) x → P := by
    intro P k x hPopped hx
    change Above _ (frameCode.popped _) x at hx
    rw [hPopped] at hx
    unfold Above at hx
    omega
  intro k x hx
  rcases k with _ | _ | _ | _ | k
  · exact hNothing rfl hx
  · exact hNothing rfl hx
  · have hWord : 0x8FF8 ≤ x ∧ x < 0x8FF8 + 4 * 1 := hx
    refine ⟨?_, ?_, .inr hWord.1⟩
    · omega
    · rintro ⟨_, hNot⟩
      exact hNot ⟨0, Nat.one_pos, hWord⟩
  · exact hNothing rfl hx
  · refine hNothing ?_ hx
    rw [frameCode_stops]
    rfl

/-
  The timer ticks before the frame is there, and again before
  anything is stored in it.
-/
theorem interrupts_invisible_timer :
    let p := codeProgram frameCode
    let inside := ticked (p.step (ticked kernelCpu))
    let r := p.step (p.step (p.step inside))
    Seen (fun x => x = 0x5000 ∨ p.fresh kernelCpu 4 x) 0x8000
        (p.step^[4] kernelCpu) r ∧
      r.regs .ecx = 0xDEADBEEF := by
  intro p inside r
  have hFirst :
      Interrupted timerTable (fun x => x = 0x5000) 0x8000
        kernelCpu (ticked kernelCpu) :=
    interrupted_ticked (by decide) (by
      intro s hs
      cases s <;> first | rfl | exact absurd rfl hs)
  have hOpened :
      Interleaved p.step
        (Interrupted timerTable (fun x => x = 0x5000) 0x8000)
        kernelCpu 1 (p.step (ticked kernelCpu)) :=
    .step (.other .start hFirst)
  have hSame :=
    interrupts_invisible timerTable careful_frameCode hOpened
  have hSecond :
      Interrupted timerTable (fun x => x = 0x5000) 0x8000
        (p.step (ticked kernelCpu)) inside :=
    interrupted_ticked
      (by
        rw [hSame.regs]
        decide)
      (by
        intro s hs
        rw [hSame.segs]
        cases s <;> first | rfl | exact absurd rfl hs)
  have hSeen :=
    interrupts_invisible timerTable careful_frameCode
      (.step (.step (.step (.other hOpened hSecond))))
  refine ⟨hSeen, ?_⟩
  rw [hSeen.regs]
  rfl

end Stub

end SosKernel
