import SosKernel.Asm.Coroutine

/-
  `fork`: the stack is copied by `clone_directory`, and the
  registers are saved by a later call.

  Main declarations:
    * `ForkFrame`, `Forks`: a call of `fork`
    * `forkReturns`: what `fork` does after the entry point
    * `Config.fork`
    * `fork_returns_iff`
-/

------------------------------------------------------------
-- The Code
------------------------------------------------------------

namespace SosKernel

namespace Asm

/-
  Where the compiler puts what `fork` uses.  The words of
  the frame are numbered from the stack pointer on, as it is
  between two calls.

  `entryPoint` is the return address of the call of
  `save_thread_state`; `newThread` and `newTask` are the
  words of the variables; `words` are the words of the frame
  that the code after the entry point needs.
-/
structure ForkFrame where
  entryPoint : UInt32
  newThread : Nat
  newTask : Nat
  words : List Nat
deriving DecidableEq, Repr

variable (w : World)

/- The word number `i` above the stack pointer. -/
def local32 (m : Machine) (i : Nat) : UInt32 :=
  m.word w.place m.cr3 ((m.regs .esp).toNat + 4 * i)

/-
  The assignments to the fields of the new record at `q`,
  which `kmalloc` does not clear.
-/
def forkRecord (q tid : UInt32) (m : Machine) : Machine :=
  let p := m.word w.place m.cr3 w.syms.currentThread
  let m := m.put w.place (q + 28).toNat tid
  let m :=
    { m with
      ram :=
        Function.update m.ram
          (w.place m.cr3 (q + 36).toNat)
          THREAD_RUNNING.toUInt8 }
  let m :=
    m.put w.place (q + 24).toNat
      (m.word w.place m.cr3 (p + 24).toNat)
  m.put w.place (q + 32).toNat
    (m.word w.place m.cr3 (p + 32).toNat)

/- The value and the flags with which `fork` returns. -/
structure ForkResult where
  value : UInt32
  eflags : UInt32
deriving DecidableEq, Repr

/-
  `fork` from the entry point of the new task on.  There is
  no result if the machine goes on elsewhere.
-/
def forkReturns
    (f : ForkFrame)
    (m : Machine) : Option ForkResult :=
  if m.eip = f.entryPoint then
    if m.word w.place m.cr3 w.syms.currentThread =
        local32 w m f.newThread then
      some ⟨0, m.eflags⟩
    else
      some
        ⟨m.word w.place m.cr3
            (local32 w m f.newTask + 4).toNat,
          m.eflags ||| INTERRUPT_FLAG⟩
  else
    none

/-
  A call of `fork` by the running thread, with the machine

    * `begun` when `kmalloc` has returned `q`,
    * `copied` when `clone_directory` copies the pages of
      the stack, and
    * `call` at the first instruction of `save_thread_state`.

  The address space of the child is its own: between the
  copy and the call nothing is stored there.
-/
structure Forks
    (f : ForkFrame)
    (kernelThread : UInt32)
    (cfg : Config)
    (q tid : UInt32)
    (begun copied call : Machine) : Prop where
  user : cfg.current ≠ kernelThread
  thread : w.Thread q
  new : cfg.resume q = none
  other : q ≠ cfg.current
  sameLo : w.lo q = w.lo cfg.current
  sameHi : w.hi q = w.hi cfg.current
  begins : Leaves w cfg begun
  clones :
    Leaves w { cfg with machine := forkRecord w q tid begun }
      copied
  copies :
    ∀ a, w.InStack q a →
      call.ram (w.place (w.space q) a) =
        copied.ram (w.place (w.space cfg.current) a)
  calls : Leaves w { cfg with machine := copied } call
  room : w.lo cfg.current + 4 ≤ (call.regs .esp).toNat
  frame :
    (call.regs .esp).toNat + 12 ≤ (w.hi cfg.current).toNat
  inFrame :
    ∀ i, i ∈ f.words ∨ i = f.newTask →
      (call.regs .esp).toNat + 8 + 4 * i ≤
        (w.hi cfg.current).toNat
  needed : f.newThread ∈ f.words
  ret :
    call.word w.place call.cr3 (call.regs .esp).toNat =
      f.entryPoint
  arg :
    call.word w.place call.cr3
      ((call.regs .esp).toNat + 4) = q
  newThread :
    call.word w.place call.cr3
      ((call.regs .esp).toNat + 4 + 4 * f.newThread) = q
  newTask :
    ∀ i, i < 4 →
      w.Data
        ((call.word w.place call.cr3
            ((call.regs .esp).toNat + 4 + 4 * f.newTask) +
          4).toNat + i)

/-
  Where the child goes on: with the registers of the call,
  and the stack of the copy.
-/
def childResume
    (p : UInt32)
    (copied call : Machine) : Resume where
  ctx :=
    { callContext w call with
      eip :=
        copied.word w.place (w.space p)
          (call.regs .esp).toNat }
  words :=
    (List.range
        (((w.hi p).toNat - (call.regs .esp).toNat) / 4 -
          1)).map
      fun i =>
        copied.word w.place (w.space p)
          ((call.regs .esp).toNat + 4 + 4 * i)

/- The system when the parent is at the entry point. -/
def Config.fork
    (cfg : Config)
    (q : UInt32)
    (copied call : Machine) : Config where
  machine := saveThreadState w.place call
  current := cfg.current
  resume :=
    Function.update cfg.resume q
      (some (childResume w cfg.current copied call))

/- A step after which `q` is not running. -/
def StepWithout
    (q : UInt32)
    (cfg cfg' : Config) : Prop :=
  Step w cfg cfg' ∧ cfg'.current ≠ q

------------------------------------------------------------
-- The Property
------------------------------------------------------------

/-
  The child is at the entry point, with the frame of the
  parent; `fork` returns zero in it, and the process number
  of its task in the parent.
-/
structure ReturnsTwice
    (f : ForkFrame)
    (p : UInt32)
    (call child : Machine) : Prop where
  entryPoint : child.eip = f.entryPoint
  esp : child.regs .esp = call.regs .esp + 4
  frame :
    ∀ i ∈ f.words,
      local32 w child i =
        call.word w.place (w.space p)
          ((call.regs .esp).toNat + 4 + 4 * i)
  zero :
    (forkReturns w f child).map ForkResult.value = some 0
  pid :
    (forkReturns w f (saveThreadState w.place call)).map
        ForkResult.value =
      some
        (call.word w.place (w.space p)
          (call.word w.place (w.space p)
              ((call.regs .esp).toNat + 4 + 4 * f.newTask) +
            4).toNat)

/-
  The stack that is copied already looks as at the call of
  `save_thread_state`: the return address of that call is in
  its place, and the frame is as it is then.
-/
def CopiedFrame
    (f : ForkFrame)
    (p : UInt32)
    (copied call : Machine) : Prop :=
  copied.word w.place (w.space p) (call.regs .esp).toNat =
      f.entryPoint ∧
    ∀ i ∈ f.words,
      copied.word w.place (w.space p)
          ((call.regs .esp).toNat + 4 + 4 * i) =
        call.word w.place (w.space p)
          ((call.regs .esp).toNat + 4 + 4 * i)

------------------------------------------------------------
-- The Parent up to the Call
------------------------------------------------------------

variable {w}
variable {f : ForkFrame}
variable {kernelThread : UInt32}
variable {cfg cfg' : Config}
variable {m m' begun copied call : Machine}
variable {p q tid u t task : UInt32}
variable {r : Resume}

/-
  The running thread may change its own stack and record,
  and those of a thread that is not there yet.
-/
theorem leaves_of_own
    (hInv : Inv w cfg)
    (hNo : w.NoOverlap)
    (hq : w.Thread q)
    (hNew : q = cfg.current ∨ cfg.resume q = none)
    (hCr3 : m.cr3 = cfg.machine.cr3)
    (hRam :
      ∀ x,
        (∀ a, World.InRecord q a →
          x ≠ w.place cfg.machine.cr3 a) →
        (∀ a, w.InStack cfg.current a →
          x ≠ w.place cfg.machine.cr3 a) →
        (∀ a, w.InStack q a → x ≠ w.place (w.space q) a) →
        m.ram x = cfg.machine.ram x) :
    Leaves w cfg m := by
  have hp := hInv.thread
  have hLoaded := hInv.loaded
  have hSpace := World.space_of_thread hp
  have hSpace' := World.space_of_thread hq
  have hNotNew :
      ∀ u, u ≠ cfg.current → cfg.resume u ≠ none →
        u ≠ q := by
    intro u hNe hOther hEq
    rcases hNew with hNew | hNew
    · exact hNe (hEq.trans hNew)
    · exact hOther (hEq ▸ hNew)
  rw [hLoaded] at hRam
  refine ⟨hCr3, ?_, ?_, ?_⟩
  · intro g a hg ha
    have hKernel : w.Kernel a := .inr (.inl ⟨g, hg, ha⟩)
    rw [hLoaded]
    apply hRam
    · intro b hb hSame
      have hEq :=
        hNo.kernel _ a b hSpace hKernel (.inl ⟨q, hq, hb⟩)
          hSame
      have hApart := hNo.recordSymbol q g hq hg
      unfold World.InRecord at hb
      unfold World.InSymbol at ha
      omega
    · intro b hb hSame
      exact hNo.stackKernel _ b a hp hb hKernel hSame.symm
    · intro b hb hSame
      rw [hNo.shared _ _ a hSpace hSpace' hKernel] at hSame
      exact hNo.stackKernel q b a hq hb hKernel hSame.symm
  · intro u a hNe hOther ha
    rcases Option.ne_none_iff_exists'.mp hOther with ⟨r, hr⟩
    have hu := (hInv.ready u r hNe hr).1
    have hKernel : w.Kernel a := .inl ⟨u, hu, ha⟩
    have hFresh := hNotNew u hNe hOther
    rw [hLoaded]
    apply hRam
    · intro b hb hSame
      have hEq :=
        hNo.kernel _ a b hSpace hKernel (.inl ⟨q, hq, hb⟩)
          hSame
      have hApart := hNo.records u q hu hq hFresh
      unfold World.InRecord at ha hb
      omega
    · intro b hb hSame
      exact hNo.stackKernel _ b a hp hb hKernel hSame.symm
    · intro b hb hSame
      rw [hNo.shared _ _ a hSpace hSpace' hKernel] at hSame
      exact hNo.stackKernel q b a hq hb hKernel hSame.symm
  · intro u a hNe hOther ha
    rcases Option.ne_none_iff_exists'.mp hOther with ⟨r, hr⟩
    have hu := (hInv.ready u r hNe hr).1
    have hFresh := hNotNew u hNe hOther
    apply hRam
    · intro b hb hSame
      have hKernel : w.Kernel b := .inl ⟨q, hq, hb⟩
      rw [hNo.shared _ _ b hSpace (World.space_of_thread hu)
        hKernel] at hSame
      exact hNo.stackKernel u a b hu ha hKernel hSame
    · intro b hb
      exact hNo.otherStack u _ a b hu hp hNe ha hb
    · intro b hb
      exact hNo.otherStack u q a b hu hq hFresh ha hb

/- A store to a field changes the record only. -/
theorem put_apply_of_record
    {d c : UInt32}
    {x : Nat}
    (hNo : w.NoOverlap)
    (hq : w.Thread q)
    (hx : ∀ a, World.InRecord q a → x ≠ w.place c a)
    (m : Machine)
    (v : UInt32)
    (hd : d.toNat + 4 ≤ World.RECORD_SIZE)
    (hCr3 : m.cr3 = c) :
    (m.put w.place (q + d).toNat v).ram x = m.ram x := by
  apply ByteMemory.putVia_apply_of_ne
  intro i hi
  rw [hCr3]
  apply hx
  rw [record_address hNo hq hd]
  exact ⟨by omega, by omega⟩

theorem cr3_forkRecord (q tid : UInt32) (m : Machine) :
    (forkRecord w q tid m).cr3 = m.cr3 :=
  rfl

/- The new record is the only thing that changes. -/
theorem leaves_forkRecord
    (tid : UInt32)
    (hInv : Inv w cfg)
    (hNo : w.NoOverlap)
    (hq : w.Thread q)
    (hNew : cfg.resume q = none) :
    Leaves w cfg (forkRecord w q tid cfg.machine) := by
  refine leaves_of_own hInv hNo hq (.inr hNew)
    (cr3_forkRecord q tid _) ?_
  intro x hx _ _
  have hByte :
      x ≠ w.place cfg.machine.cr3 (q + 36).toNat := by
    apply hx
    rw [record_address hNo hq (by decide)]
    unfold World.InRecord World.RECORD_SIZE
    exact ⟨Nat.le_add_right _ _, by
      change q.toNat + 36 < q.toNat + 40
      omega⟩
  unfold forkRecord
  dsimp only
  rw [put_apply_of_record hNo hq hx _ _ (by decide) (by rfl),
    put_apply_of_record hNo hq hx _ _ (by decide) (by rfl)]
  change
    Function.update
      (cfg.machine.put w.place (q + 28).toNat tid).ram
      (w.place cfg.machine.cr3 (q + 36).toNat) _ x = _
  rw [Function.update_of_ne hByte,
    put_apply_of_record hNo hq hx _ _ (by decide) (by rfl)]

/- What holds between steps holds at the call. -/
theorem Forks.inv
    (hForks :
      Forks w f kernelThread cfg q tid begun copied call)
    (hInv : Inv w cfg)
    (hNo : w.NoOverlap) :
    Inv w { cfg with machine := call } := by
  have hBegun := hInv.compute hNo hForks.begins
  have hRecord :=
    hBegun.compute hNo
      (leaves_forkRecord tid hBegun hNo
        hForks.thread hForks.new)
  exact (hRecord.compute hNo hForks.clones).compute hNo
    hForks.calls

theorem Forks.standing
    (hForks :
      Forks w f kernelThread cfg q tid begun copied call)
    (hInv : Inv w cfg)
    (hNo : w.NoOverlap) :
    Standing w call cfg.current where
  thread := hInv.thread
  loaded := (hForks.inv hInv hNo).loaded
  room := hForks.room
  frame := hForks.frame

------------------------------------------------------------
-- The Saved State
------------------------------------------------------------

/- `save_thread_state` saves the state and returns. -/
theorem run_saveThreadState
    (hStanding : Standing w m p)
    (hNo : w.NoOverlap)
    (hq : w.Thread q)
    (hArg :
      m.word w.place (w.space p)
        ((m.regs .esp).toNat + 4) = q) :
    ∃ regs,
      regs .esp = m.regs .esp + 4 ∧
        saveThreadState w.place m =
          { regs := regs
            eflags := m.eflags
            eip :=
              m.word w.place (w.space p) (m.regs .esp).toNat
            cr3 := w.space p
            ram :=
              ByteMemory.putsVia (w.place (w.space p)) m.ram
                (saved m q) } := by
  have hNone :
      ∀ s ∈ ([] : List (Nat × UInt32)), w.IsSymbol s.1 :=
    fun s hs => absurd hs List.not_mem_nil
  have hAddr := hStanding.esp_above (d := 4) (by decide)
  have hFirst :
      run w.place [.load .eax (.mem .esp 4)] m =
        m.set .eax q := by
    rw [← hArg, ← hStanding.loaded]
    change
      m.set .eax
          (m.word w.place m.cr3 (m.regs .esp + 4).toNat) = _
    rw [hAddr]
    rfl
  have hRet :=
    hStanding.word_own_stack hNo hq hNone
      (hStanding.above (d := 0) (by decide)) (Nat.le_refl _)
  rw [List.append_nil, Nat.add_zero] at hRet
  rcases run_save hStanding hNo q with ⟨regs, hEsp, hSave⟩
  refine ⟨Function.update regs .esp (regs .esp + 4), ?_, ?_⟩
  · rw [Function.update_self, hEsp]
  · unfold saveThreadState
    rw [run_append, run_append, hFirst, hSave]
    simp only [run, List.foldl_cons, List.foldl_nil,
      Instr.exec, Machine.set, Machine.word, hEsp, hRet]

theorem no_symbols :
    ∀ s ∈ ([] : List (Nat × UInt32)), w.IsSymbol s.1 :=
  fun _ hs => absurd hs List.not_mem_nil

section Saved

variable (hStanding : Standing w m p)
variable (hNo : w.NoOverlap)
variable (hq : w.Thread q)
variable
  (hRam :
    m'.ram =
      ByteMemory.putsVia (w.place (w.space p)) m.ram
        (saved m q ++ []))

include hStanding hNo hq hRam

/- A field of the record of `q`, in its address space. -/
theorem word_saved
    {d v : UInt32}
    (hd : d.toNat + 4 ≤ World.RECORD_SIZE)
    (hs : ((q + d).toNat, v) ∈ saved m q) :
    m'.word w.place (w.space q) (q.toNat + d.toNat) = v := by
  have hStored :=
    hStanding.word_stored hNo hq no_symbols .nil
      (s := ((q + d).toNat, v)) (List.mem_append_left _ hs)
  unfold Machine.word
  rw [hRam, hNo.wordVia_kernel _ (World.space_of_thread hq)
    (World.space_of_thread hStanding.thread)
    (World.kernelWord_record hq hd),
    ← record_address hNo hq hd]
  exact hStored

/- The stack of `q` is left alone by the call. -/
theorem word_child_stack
    {a : Nat}
    (hOther : q ≠ p)
    (ha : w.StackWord q a) :
    m'.word w.place (w.space q) a =
      m.word w.place (w.space q) a := by
  unfold Machine.word
  rw [hRam]
  exact hNo.word_puts_stack m.ram hStanding.thread hq
    hOther.symm (hStanding.stores_mine hNo hq no_symbols) ha

/- A variable of the switch, for any thread. -/
theorem word_saved_symbol
    {g : Nat}
    (hg : w.IsSymbol g) :
    m'.word w.place (w.space p) g =
      m.word w.place (w.space p) g := by
  unfold Machine.word
  rw [hRam]
  refine hNo.word_puts_kernel m.ram hStanding.thread
    hStanding.thread
    (hStanding.stores_mine hNo hq no_symbols)
    (World.kernelWord_symbol hg) ?_
  intro s hs
  rw [List.append_nil] at hs
  exact hStanding.saved_symbol hNo hq hg hs

/- The other threads can go on as before. -/
theorem ready_saved
    (hu : w.Thread u)
    (hNe : u ≠ q)
    (hNotRunning : u ≠ p)
    (hReady : Ready w m u r) :
    Ready w m' u r := by
  apply hReady.congr
  · intro d hd
    unfold Machine.word
    rw [hRam]
    exact hStanding.word_other_record hNo hq no_symbols hu
      hNe hd
  · intro a ha hAbove
    unfold Machine.word
    rw [hRam]
    exact hNo.word_puts_stack m.ram hStanding.thread hu
      hNotRunning.symm
      (hStanding.stores_mine hNo hq no_symbols) ha

end Saved

/- The copy of a word of the stack. -/
theorem Forks.word_copied
    {a : Nat}
    (hForks :
      Forks w f kernelThread cfg q tid begun copied call)
    (ha : w.StackWord q a) :
    call.word w.place (w.space q) a =
      copied.word w.place (w.space cfg.current) a := by
  apply ByteMemory.wordVia_congr
  intro i hi
  exact hForks.copies (a + i) (ha.inStack hi)

section Call

variable
  (hForks :
    Forks w f kernelThread cfg q tid begun copied call)
variable (hInv : Inv w cfg)
variable (hNo : w.NoOverlap)

include hForks hInv hNo

/- The machine after `save_thread_state` in the parent. -/
theorem Forks.run_save :
    ∃ regs,
      regs .esp = call.regs .esp + 4 ∧
        saveThreadState w.place call =
          { regs := regs
            eflags := call.eflags
            eip := f.entryPoint
            cr3 := w.space cfg.current
            ram :=
              ByteMemory.putsVia
                (w.place (w.space cfg.current)) call.ram
                (saved call q ++ []) } := by
  have hStanding := hForks.standing hInv hNo
  have hArg := hForks.arg
  have hRet := hForks.ret
  rw [hStanding.loaded] at hArg hRet
  rw [List.append_nil, ← hRet]
  exact run_saveThreadState hStanding hNo hForks.thread hArg

/- The child can go on with the stack of the copy. -/
theorem Forks.ready_child :
    Ready w (saveThreadState w.place call) q
      (childResume w cfg.current copied call) := by
  have hStanding := hForks.standing hInv hNo
  have hq := hForks.thread
  have hRoom := hForks.room
  have hFrame := hForks.frame
  have hLo := hForks.sameLo
  have hHi := congrArg UInt32.toNat hForks.sameHi
  have hAbove := hStanding.esp_above (d := 4) (by decide)
  have hNext :
      (call.regs .esp + 4).toNat =
        (call.regs .esp).toNat + 4 := hAbove
  rcases hForks.run_save hInv hNo with
    ⟨regs, hEsp, hSaved⟩
  have hRam :=
    congrArg Machine.ram hSaved
  have hWord :
      ∀ a, w.StackWord q a →
        (saveThreadState w.place call).word w.place
            (w.space q) a =
          copied.word w.place (w.space cfg.current) a := by
    intro a ha
    rw [word_child_stack hStanding hNo hq hRam hForks.other
      ha]
    exact hForks.word_copied ha
  exact
    { esp := by
        change _ = call.regs .esp + 4 - 4
        rw [UInt32.add_sub_cancel]
        exact word_saved hStanding hNo hq hRam (d := 0)
          (by decide) (.head _)
      ebp :=
        word_saved hStanding hNo hq hRam (d := 4)
          (by decide) (.tail _ (.head _))
      ebx :=
        word_saved hStanding hNo hq hRam (d := 8)
          (by decide) (.tail _ (.tail _ (.head _)))
      esi :=
        word_saved hStanding hNo hq hRam (d := 12)
          (by decide) (.tail _ (.tail _ (.tail _ (.head _))))
      edi :=
        word_saved hStanding hNo hq hRam (d := 16)
          (by decide)
          (.tail _ (.tail _ (.tail _ (.tail _ (.head _)))))
      eflags :=
        word_saved hStanding hNo hq hRam (d := 20)
          (by decide)
          (List.mem_append_right
            [_, _, _, _, _, _] (List.mem_singleton_self _))
      eip := by
        change
          (saveThreadState w.place call).word w.place
              (w.space q) ((call.regs .esp + 4).toNat - 4) =
            copied.word w.place (w.space cfg.current)
              (call.regs .esp).toNat
        rw [hNext, Nat.add_sub_cancel]
        exact hWord _ ⟨by omega, by omega⟩
      words := by
        intro i hi
        have hLength := hi
        unfold childResume at hLength
        rw [List.length_map, List.length_range] at hLength
        have hGet :
            (childResume w cfg.current copied call).words[i] =
              copied.word w.place (w.space cfg.current)
                ((call.regs .esp).toNat + 4 + 4 * i) := by
          simp only [childResume, List.getElem_map,
            List.getElem_range]
        rw [hGet]
        change
          (saveThreadState w.place call).word w.place
              (w.space q)
              ((call.regs .esp + 4).toNat + 4 * i) = _
        rw [hNext]
        exact hWord _ ⟨by omega, by omega⟩
      room := by
        change w.lo q + 8 ≤ (call.regs .esp + 4).toNat
        omega
      top := by
        unfold childResume
        rw [List.length_map, List.length_range]
        change
          (call.regs .esp + 4).toNat +
              4 * (((w.hi cfg.current).toNat -
                (call.regs .esp).toNat) / 4 - 1) ≤
            (w.hi q).toNat
        omega }

/- What holds between steps holds after the call. -/
theorem Forks.inv_fork :
    Inv w (cfg.fork w q copied call) := by
  have hStanding := hForks.standing hInv hNo
  have hCall := hForks.inv hInv hNo
  rcases hForks.run_save hInv hNo with
    ⟨regs, hEsp, hSaved⟩
  have hRam := congrArg Machine.ram hSaved
  exact
    { thread := hInv.thread
      loaded := congrArg Machine.cr3 hSaved
      current :=
        (word_saved_symbol hStanding hNo hForks.thread hRam
          (.inl rfl)).trans hCall.current
      ready := by
        intro u r hNe hu
        change
          Function.update cfg.resume q
            (some (childResume w cfg.current copied call)) u =
              some r at hu
        by_cases hSame : u = q
        · subst hSame
          rw [Function.update_self] at hu
          cases hu
          exact ⟨hForks.thread, hForks.ready_child hInv hNo⟩
        · rw [Function.update_of_ne hSame] at hu
          rcases hCall.ready u r hNe hu with ⟨hIs, hWas⟩
          exact ⟨hIs,
            ready_saved hStanding hNo hForks.thread hRam hIs
              hSame hNe hWas⟩ }

/-
  The parent returns the process number of the new task, and
  sets the interrupt flag.
-/
theorem Forks.parent_result :
    forkReturns w f (saveThreadState w.place call) =
      some
        ⟨call.word w.place (w.space cfg.current)
            (call.word w.place (w.space cfg.current)
                ((call.regs .esp).toNat + 4 + 4 * f.newTask) +
              4).toNat,
          call.eflags ||| INTERRUPT_FLAG⟩ := by
  have hStanding := hForks.standing hInv hNo
  have hCall := hForks.inv hInv hNo
  have hq := hForks.thread
  have hAbove :
      (call.regs .esp + 4).toNat =
        (call.regs .esp).toNat + 4 :=
    hStanding.esp_above (d := 4) (by decide)
  have hNewThread := hForks.newThread
  have hNewTask := hForks.newTask
  rw [hStanding.loaded] at hNewThread hNewTask
  rcases hForks.run_save hInv hNo with ⟨regs, hEsp, hSaved⟩
  have hRam := congrArg Machine.ram hSaved
  have hCr3 := congrArg Machine.cr3 hSaved
  have hRegs :
      ((saveThreadState w.place call).regs .esp).toNat =
        (call.regs .esp).toNat + 4 := by
    rw [hSaved, ← hAbove, ← hEsp]
  have hLocal :
      ∀ i, i ∈ f.words ∨ i = f.newTask →
        local32 w (saveThreadState w.place call) i =
          call.word w.place (w.space cfg.current)
            ((call.regs .esp).toNat + 4 + 4 * i) := by
    intro i hi
    have hRoom := hForks.room
    have hInFrame := hForks.inFrame i hi
    unfold local32 Machine.word
    rw [hCr3, hRegs, hRam]
    exact hStanding.word_own_stack hNo hq no_symbols
      ⟨by omega, by omega⟩ (by omega)
  have hCurrent :
      (saveThreadState w.place call).word w.place
          (w.space cfg.current) w.syms.currentThread =
        cfg.current :=
    (word_saved_symbol hStanding hNo hq hRam (.inl rfl)).trans
      hCall.current
  have hData :
      ∀ a, (∀ i, i < 4 → w.Data (a + i)) →
        (saveThreadState w.place call).word w.place
            (w.space cfg.current) a =
          call.word w.place (w.space cfg.current) a := by
    intro a ha
    unfold Machine.word
    rw [hRam]
    exact hStanding.word_data hNo hq no_symbols ha
  have hEip :
      (saveThreadState w.place call).eip = f.entryPoint := by
    rw [hSaved]
  have hFlags :
      (saveThreadState w.place call).eflags = call.eflags := by
    rw [hSaved]
  unfold forkReturns
  rw [if_pos hEip, hCr3, hLocal _ (.inl hForks.needed),
    hNewThread, hCurrent, if_neg hForks.other.symm,
    hLocal _ (.inr rfl), hData _ hNewTask, hFlags]

theorem Forks.parent_returns :
    (forkReturns w f (saveThreadState w.place call)).map
        ForkResult.value =
      some
        (call.word w.place (w.space cfg.current)
          (call.word w.place (w.space cfg.current)
              ((call.regs .esp).toNat + 4 + 4 * f.newTask) +
            4).toNat) :=
  congrArg (Option.map ForkResult.value)
    (hForks.parent_result hInv hNo)

end Call

------------------------------------------------------------
-- Until the Child Is Dispatched
------------------------------------------------------------

/- A thread that is not running goes on where it did. -/
theorem StepWithout.resume
    (hStep : StepWithout w q cfg cfg')
    (hOther : q ≠ cfg.current)
    (hResume : cfg.resume q = some r) :
    cfg'.resume q = some r := by
  cases hStep.1 with
  | compute m hLeaves => exact hResume
  | create u fn arg stackSize tid hThread hNew hU hRoom =>
      have hNe : q ≠ u := by
        intro hEq
        rw [hEq, hNew] at hResume
        cases hResume
      exact (Function.update_of_ne hNe _ _).trans hResume
  | «switch» t task hCalls =>
      exact (resume_switch_of_ne hOther t).trans hResume

/- The child waits, ready, until it is dispatched. -/
theorem child_waits
    (hNo : w.NoOverlap)
    (hInv : Inv w cfg)
    (hOther : q ≠ cfg.current)
    (hResume : cfg.resume q = some r)
    (hRun : Reachable (· = cfg) (StepWithout w q) cfg') :
    Inv w cfg' ∧ q ≠ cfg'.current ∧
      cfg'.resume q = some r := by
  induction hRun with
  | start hStart =>
      rw [hStart]
      exact ⟨hInv, hOther, hResume⟩
  | step hPrev hStep ih =>
      rcases ih with ⟨hPrevInv, hPrevOther, hPrevResume⟩
      exact ⟨hPrevInv.step hNo hStep.1, hStep.2.symm,
        hStep.resume hPrevOther hPrevResume⟩

section Dispatch

variable
  (hForks :
    Forks w f kernelThread cfg q tid begun copied call)
variable (hInv : Inv w cfg)
variable (hNo : w.NoOverlap)
variable
  (hRun :
    Reachable (· = cfg.fork w q copied call)
      (StepWithout w q) cfg')
variable (hCalls : Calls w cfg' q task)

include hForks hInv hNo hRun hCalls

/- The child goes on with the copied stack. -/
theorem child_resumed :
    Resumed w (cfg'.switch w q).machine
        (childResume w cfg.current copied call) ∧
      Inv w (cfg'.switch w q) := by
  have hResume :
      (cfg.fork w q copied call).resume q =
        some (childResume w cfg.current copied call) :=
    Function.update_self _ _ _
  rcases child_waits hNo (hForks.inv_fork hInv hNo)
    hForks.other hResume hRun with ⟨hInv', hNe, hWaits⟩
  rcases hInv'.switch hNo hCalls with ⟨⟨r, hr, hRes⟩, hKept⟩
  rw [resume_switch_of_ne hNe, hWaits] at hr
  cases hr
  exact ⟨hRes, hKept⟩

theorem local32_child
    {i : Nat}
    (hi :
      (call.regs .esp).toNat + 8 + 4 * i ≤
        (w.hi cfg.current).toNat) :
    local32 w (cfg'.switch w q).machine i =
      copied.word w.place (w.space cfg.current)
        ((call.regs .esp).toNat + 4 + 4 * i) := by
  have hStanding := hForks.standing hInv hNo
  rcases child_resumed hForks hInv hNo hRun hCalls with
    ⟨hRes, hKept⟩
  have hAbove :
      (call.regs .esp + 4).toNat =
        (call.regs .esp).toNat + 4 :=
    hStanding.esp_above (d := 4) (by decide)
  have hEsp :
      ((cfg'.switch w q).machine.regs .esp).toNat =
        (call.regs .esp).toNat + 4 :=
    (congrArg UInt32.toNat hRes.esp).trans hAbove
  have hLength :
      i <
        (childResume w cfg.current copied call).words.length := by
    unfold childResume
    rw [List.length_map, List.length_range]
    omega
  have hWord := hRes.words i hLength
  change
    (cfg'.switch w q).machine.word w.place
        (cfg'.switch w q).machine.cr3
        ((call.regs .esp + 4).toNat + 4 * i) = _ at hWord
  rw [hAbove] at hWord
  unfold local32
  rw [hEsp]
  refine hWord.trans ?_
  simp only [childResume, List.getElem_map,
    List.getElem_range]

/- The child returns if the copied stack is complete. -/
theorem child_returns
    (hCopied :
      CopiedFrame w f cfg.current copied call) :
    (forkReturns w f (cfg'.switch w q).machine).map
        ForkResult.value = some 0 := by
  rcases child_resumed hForks hInv hNo hRun hCalls with
    ⟨hRes, hKept⟩
  have hEntry :
      (cfg'.switch w q).machine.eip = f.entryPoint :=
    hRes.eip.trans hCopied.1
  have hCurrent := hKept.current
  rw [← hKept.loaded] at hCurrent
  have hNewThread := hForks.newThread
  rw [(hForks.inv hInv hNo).loaded] at hNewThread
  have hLocal :
      local32 w (cfg'.switch w q).machine f.newThread = q := by
    rw [local32_child hForks hInv hNo hRun hCalls
      (hForks.inFrame _ (.inl hForks.needed)),
      hCopied.2 _ hForks.needed]
    exact hNewThread
  unfold forkReturns
  rw [if_pos hEntry, if_pos (hCurrent.trans hLocal.symm)]
  rfl

/-
  The child is at the entry point, and both return, if and
  only if the copied stack is complete.
-/
theorem returnsTwice_iff :
    ReturnsTwice w f cfg.current call
        (cfg'.switch w q).machine ↔
      CopiedFrame w f cfg.current copied call := by
  rcases child_resumed hForks hInv hNo hRun hCalls with
    ⟨hRes, hKept⟩
  have hLocal :
      ∀ i ∈ f.words,
        local32 w (cfg'.switch w q).machine i =
          copied.word w.place (w.space cfg.current)
            ((call.regs .esp).toNat + 4 + 4 * i) :=
    fun i hi =>
      local32_child hForks hInv hNo hRun hCalls
        (hForks.inFrame i (.inl hi))
  constructor
  · intro hReturns
    refine ⟨hRes.eip.symm.trans hReturns.entryPoint, ?_⟩
    intro i hi
    exact (hLocal i hi).symm.trans (hReturns.frame i hi)
  · intro hCopied
    exact
      { entryPoint := hRes.eip.trans hCopied.1
        esp := hRes.esp
        frame := fun i hi =>
          (hLocal i hi).trans (hCopied.2 i hi)
        zero :=
          child_returns hForks hInv hNo hRun hCalls hCopied
        pid := hForks.parent_returns hInv hNo }

end Dispatch

/-
  In every run, `fork` returns zero in the child and the
  process number in the parent if and only if the stack that
  `clone_directory` copies already holds what it holds at
  the later call of `save_thread_state`.
-/
theorem fork_returns_iff
    (hNo : w.NoOverlap)
    (hReach : Reachable (Started w) (Step w) cfg)
    (hForks :
      Forks w f kernelThread cfg q tid begun copied call)
    (hRun :
      Reachable (· = cfg.fork w q copied call)
        (StepWithout w q) cfg')
    (hCalls : Calls w cfg' q task) :
    ReturnsTwice w f cfg.current call
        (cfg'.switch w q).machine ↔
      CopiedFrame w f cfg.current copied call :=
  returnsTwice_iff hForks (Inv.reachable hNo hReach) hNo hRun
    hCalls

/-
  The first thread forks the second.  Its stack pointer is
  8220 at both calls, so that the word there is the return
  address of the call that is being made; `v` is the word
  when the stack is copied.
-/
def forkBegun (v : UInt32) : Machine where
  regs := fun r => if r = .esp then 8220 else 0
  eflags := 0
  eip := 0x200
  cr3 := 1
  ram :=
    ByteMemory.putsVia (twoThreads.place 1) (fun _ => 0)
      [(16, 64), (256, 264), (260, 9), (264, 2), (8220, v),
        (8224, 264), (8228, 128)]

def forkCopied (v : UInt32) : Machine :=
  forkRecord twoThreads 128 1 (forkBegun v)

/- The stack of the second thread is a copy of the first's. -/
def copyStack (mem : ByteMemory) : ByteMemory := fun x =>
  if 139264 ≤ x ∧ x < 139328 then
    mem (x - 65536)
  else
    mem x

def forkCall (v : UInt32) : Machine where
  regs := fun r => if r = .esp then 8220 else 0
  eflags := 0
  eip := 0x400
  cr3 := 1
  ram :=
    ByteMemory.putsVia (twoThreads.place 1)
      (copyStack (forkCopied v).ram)
      [(8232, 256), (8224, 128), (8220, 0x510)]

def forkFrame : ForkFrame := ⟨0x510, 1, 2, [1]⟩

def forkStart (v : UInt32) : Config :=
  ⟨forkBegun v, 64, fun _ => none⟩

def forkEnd (v : UInt32) : Config :=
  (forkStart v).fork twoThreads 128 (forkCopied v)
    (forkCall v)

/- Later, the parent calls `switch_context` for the child. -/
def forkSwitch (v : UInt32) : Machine where
  regs := fun r => if r = .esp then 8212 else 0
  eflags := 0
  eip := 0x600
  cr3 := 1
  ram :=
    ByteMemory.putsVia (twoThreads.place 1)
      (forkEnd v).machine.ram [(8216, 128), (8220, 256)]

section Run

variable {v : UInt32}
variable (hv : v = 0x500 ∨ v = 0x510)

include hv

theorem started_forkStart :
    Started twoThreads (forkStart v) where
  thread := .inl rfl
  loaded := rfl
  current := by rcases hv with rfl | rfl <;> decide
  alone := fun _ => rfl

theorem inv_forkCopied :
    Inv twoThreads
      { forkStart v with machine := forkCopied v } := by
  have hInv := (started_forkStart hv).inv
  exact hInv.compute noOverlap_twoThreads
    (leaves_forkRecord _ hInv noOverlap_twoThreads
      (.inr rfl) rfl)

/- The words of a list of stores to the first's stack. -/
omit hv in
theorem putsVia_apply_of_stack
    {stores : List (Nat × UInt32)}
    {mem : ByteMemory}
    {x : Nat}
    (hx :
      ∀ a, twoThreads.InStack 64 a →
        x ≠ twoThreads.place 1 a)
    (hStores : ∀ s ∈ stores, twoThreads.StackWord 64 s.1) :
    ByteMemory.putsVia (twoThreads.place 1) mem stores x =
      mem x := by
  apply ByteMemory.putsVia_apply_of_ne
  intro s hs i hi
  exact hx _ ((hStores s hs).inStack hi)

theorem leaves_forkCall :
    Leaves twoThreads
      { forkStart v with machine := forkCopied v }
      (forkCall v) := by
  have hCopied : (forkCopied v).cr3 = 1 :=
    cr3_forkRecord 128 1 (forkBegun v)
  have hSpace : twoThreads.space 128 = 2 := by decide
  refine leaves_of_own (q := 128) (inv_forkCopied hv)
    noOverlap_twoThreads (.inr rfl) (.inr rfl)
    hCopied.symm ?_
  intro x _ hOwn hChild
  have hNotChild : ¬ (139264 ≤ x ∧ x < 139328) := by
    rintro ⟨hLo, hHi⟩
    have hStack : twoThreads.InStack 128 (x - 131072) := by
      unfold World.InStack
      exact ⟨by change 8192 ≤ _; omega,
        by change _ < 8256; omega⟩
    have hNe := hChild _ hStack
    rw [hSpace, place_twoThreads_stack 2 hStack] at hNe
    have hTwo : (2 : UInt32).toNat = 2 := rfl
    omega
  have hStored :
      (forkCall v).ram x =
        copyStack (forkCopied v).ram x := by
    apply putsVia_apply_of_stack
    · intro a ha
      have hNe := hOwn a ha
      rw [hCopied] at hNe
      exact hNe
    · unfold World.StackWord
      decide
  rw [hStored]
  exact if_neg hNotChild

omit hv in
theorem esp_forkCall (v : UInt32) :
    ((forkCall v).regs .esp).toNat = 8220 :=
  rfl

omit hv in
theorem copies_forkCall
    {a : Nat}
    (v : UInt32)
    (ha : twoThreads.InStack 128 a) :
    (forkCall v).ram (twoThreads.place 2 a) =
      (forkCopied v).ram (twoThreads.place 1 a) := by
  have hLo : 8192 ≤ a := ha.1
  have hHi : a < 8256 := ha.2
  have hTwo : twoThreads.place 2 a = a + 65536 * 2 :=
    place_twoThreads_stack 2 ha
  have hOne : twoThreads.place 1 a = a + 65536 * 1 :=
    place_twoThreads_stack 1 ha
  have hStored :
      (forkCall v).ram (twoThreads.place 2 a) =
        copyStack (forkCopied v).ram
          (twoThreads.place 2 a) := by
    apply putsVia_apply_of_stack
    · intro b hb hSame
      have hBelow : b < 8256 := hb.2
      have hPlace : twoThreads.place 1 b = b + 65536 * 1 :=
        place_twoThreads_stack 1 hb
      omega
    · unfold World.StackWord
      decide
  have hBack :
      twoThreads.place 2 a - 65536 =
        twoThreads.place 1 a := by omega
  rw [hStored, ← hBack]
  exact if_pos ⟨by omega, by omega⟩

theorem forks_forkCall :
    Forks twoThreads forkFrame 32 (forkStart v) 128 1
      (forkBegun v) (forkCopied v) (forkCall v) where
  user := by
    change (64 : UInt32) ≠ 32
    decide
  thread := .inr rfl
  new := rfl
  other := by
    change (128 : UInt32) ≠ 64
    decide
  sameLo := rfl
  sameHi := rfl
  begins := ⟨rfl, fun _ _ _ _ => rfl, fun _ _ _ _ _ => rfl,
    fun _ _ _ _ _ => rfl⟩
  clones := ⟨rfl, fun _ _ _ _ => rfl, fun _ _ _ _ _ => rfl,
    fun _ _ _ _ _ => rfl⟩
  copies := fun _ ha => copies_forkCall v ha
  calls := leaves_forkCall hv
  room := by
    rw [esp_forkCall]
    change 8192 + 4 ≤ 8220
    decide
  frame := by
    rw [esp_forkCall]
    change 8220 + 12 ≤ 8256
    decide
  inFrame := by
    intro i hi
    rw [esp_forkCall]
    change 8220 + 8 + 4 * i ≤ 8256
    rcases hi with hi | rfl
    · rw [List.mem_singleton.mp hi]
      decide
    · decide
  needed := by decide
  ret := by rcases hv with rfl | rfl <;> decide
  arg := by rcases hv with rfl | rfl <;> decide
  newThread := by rcases hv with rfl | rfl <;> decide
  newTask := by
    have hTask :
        (forkCall v).word twoThreads.place (forkCall v).cr3
          (((forkCall v).regs .esp).toNat + 4 +
            4 * forkFrame.newTask) = 256 := by
      rcases hv with rfl | rfl <;> decide
    intro i hi
    rw [hTask]
    change 256 ≤ 260 + i ∧ 260 + i < 272
    omega

/- The child has not run when the parent switches to it. -/
theorem reachable_forkSwitch :
    Reachable (· = forkEnd v) (StepWithout twoThreads 128)
      { forkEnd v with machine := forkSwitch v } := by
  have hInv : Inv twoThreads (forkEnd v) :=
    (forks_forkCall hv).inv_fork (started_forkStart hv).inv
      noOverlap_twoThreads
  have hCr3 : (forkEnd v).machine.cr3 = 1 := hInv.loaded
  refine .step (.start rfl) ⟨.compute _ ?_, ?_⟩
  · refine leaves_of_own (q := 64) hInv noOverlap_twoThreads
      (.inl rfl) (.inl rfl) hCr3.symm ?_
    intro x _ hOwn _
    apply putsVia_apply_of_stack
    · intro a ha
      have hNe := hOwn a ha
      rw [hCr3] at hNe
      exact hNe
    · unfold World.StackWord
      decide
  · change (64 : UInt32) ≠ 128
    decide

theorem calls_forkSwitch :
    Calls twoThreads
      { forkEnd v with machine := forkSwitch v } 128 256 where
  thread := by
    refine .inr ?_
    change
      Function.update (fun _ => none) (128 : UInt32)
        (some _) 128 ≠ none
    rw [Function.update_self]
    exact Option.some_ne_none _
  room := by
    change 8192 + 4 ≤ 8212
    decide
  frame := by
    change 8212 + 12 ≤ 8256
    decide
  argThread := by rcases hv with rfl | rfl <;> decide
  argTask := by rcases hv with rfl | rfl <;> decide
  leads := by
    unfold LeadsTo
    rw [if_neg (by decide)]
    refine ⟨?_, 264, ?_, ?_, ?_⟩
    · intro i hi
      change 256 ≤ 256 + i ∧ 256 + i < 272
      omega
    · rcases hv with rfl | rfl <;> decide
    · intro i hi
      change 256 ≤ 264 + i ∧ 264 + i < 272
      omega
    · rcases hv with rfl | rfl <;> decide

end Run

/- With the right word on the copied stack, both return. -/
theorem fork_returns_complete :
    ReturnsTwice twoThreads forkFrame 64 (forkCall 0x510)
      (({ forkEnd 0x510 with
          machine := forkSwitch 0x510 } : Config).switch
        twoThreads 128).machine := by
  have hv : (0x510 : UInt32) = 0x500 ∨ (0x510 : UInt32) = 0x510 :=
    .inr rfl
  refine (fork_returns_iff noOverlap_twoThreads
    (.start (started_forkStart hv)) (forks_forkCall hv)
    (reachable_forkSwitch hv) (calls_forkSwitch hv)).mpr ?_
  unfold CopiedFrame
  decide

/-
  The word that is copied is the return address of the call
  of `clone_directory`, and the child goes on there.
-/
theorem child_misses_entry_point :
    twoThreads.NoOverlap ∧
      Reachable (Started twoThreads) (Step twoThreads)
        (forkStart 0x500) ∧
      Forks twoThreads forkFrame 32 (forkStart 0x500) 128 1
        (forkBegun 0x500) (forkCopied 0x500)
        (forkCall 0x500) ∧
      Reachable (· = forkEnd 0x500)
        (StepWithout twoThreads 128)
        { forkEnd 0x500 with machine := forkSwitch 0x500 } ∧
      Calls twoThreads
        { forkEnd 0x500 with machine := forkSwitch 0x500 }
        128 256 ∧
      ¬ ReturnsTwice twoThreads forkFrame 64 (forkCall 0x500)
        (({ forkEnd 0x500 with
            machine := forkSwitch 0x500 } : Config).switch
          twoThreads 128).machine := by
  have hv : (0x500 : UInt32) = 0x500 ∨ (0x500 : UInt32) = 0x510 :=
    .inl rfl
  have hStarted := started_forkStart hv
  refine ⟨noOverlap_twoThreads, .start hStarted,
    forks_forkCall hv, reachable_forkSwitch hv,
    calls_forkSwitch hv, ?_⟩
  intro hReturns
  have hCopied :=
    (returnsTwice_iff (forks_forkCall hv) hStarted.inv
      noOverlap_twoThreads (reachable_forkSwitch hv)
      (calls_forkSwitch hv)).mp hReturns
  revert hCopied
  unfold CopiedFrame
  decide

end Asm

end SosKernel
