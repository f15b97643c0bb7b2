import SosKernel.Asm.Switch

/-
  A switch hands over to the thread that it names, in the
  context in which that thread expects to go on.

  Main declarations:
    * `run_switchThread`: on the new stack
    * `Inv.switch`, `Inv.create`, `Inv.compute`
    * `switch_resumes`
-/

------------------------------------------------------------
-- After the Transfer
------------------------------------------------------------

namespace SosKernel

namespace Asm

variable {w : World}
variable {cfg cfg' : Config}
variable {m m' : Machine}
variable {p u t task : UInt32}
variable {r : Resume}
variable {stores : List (Nat × UInt32)}

namespace Transferred

section

variable (hTransferred : Transferred w m p t stores m')
variable (hStanding : Standing w m p)
variable (hNo : w.NoOverlap)

include hTransferred hStanding hNo

theorem word_stored
    {s : Nat × UInt32}
    (hs : s ∈ saved m p ++ stores) :
    m'.word w.place (w.space p) s.1 = s.2 := by
  unfold Machine.word
  rw [hTransferred.ram]
  exact hStanding.word_stored hNo hStanding.thread hTransferred.symbols
    hTransferred.pairwise hs

/- A field of the record of `p` has the value saved. -/
theorem word_field
    {d v : UInt32}
    (hd : d.toNat + 4 ≤ World.RECORD_SIZE)
    (hs : ((p + d).toNat, v) ∈ saved m p) :
    m'.word w.place (w.space p) (p.toNat + d.toNat) = v := by
  rw [← record_address hNo hStanding.thread hd]
  exact hTransferred.word_stored hStanding hNo
    (s := ((p + d).toNat, v)) (List.mem_append_left _ hs)

/- The variable is the new thread's record, for all tasks. -/
theorem word_current
    (ht : w.Thread t) :
    m'.word w.place (w.space t) w.syms.currentThread = t := by
  have hSymbol : w.IsSymbol w.syms.currentThread := .inl rfl
  have hWord :=
    hTransferred.word_stored hStanding hNo
      (List.mem_append_right _ hTransferred.current)
  unfold Machine.word at hWord ⊢
  rw [hNo.wordVia_kernel _ (World.space_of_thread ht)
    (World.space_of_thread hStanding.thread)
    (World.kernelWord_symbol hSymbol)]
  exact hWord

/- The thread that called can go on after its call. -/
theorem ready_caller :
    Ready w m' p ⟨callContext w m, []⟩ where
  esp := by
    have hField :=
      hTransferred.word_field hStanding hNo (d := 0)
        (v := m.regs .esp) (by decide) (.head _)
    change _ = m.regs .esp + 4 - 4
    rw [UInt32.add_sub_cancel]
    exact hField
  ebp :=
    hTransferred.word_field hStanding hNo (d := 4)
      (by decide) (.tail _ (.head _))
  ebx :=
    hTransferred.word_field hStanding hNo (d := 8)
      (by decide) (.tail _ (.tail _ (.head _)))
  esi :=
    hTransferred.word_field hStanding hNo (d := 12)
      (by decide) (.tail _ (.tail _ (.tail _ (.head _))))
  edi :=
    hTransferred.word_field hStanding hNo (d := 16)
      (by decide) (.tail _ (.tail _ (.tail _ (.tail _ (.head _)))))
  eflags :=
    hTransferred.word_field hStanding hNo (d := 20)
      (by decide)
      (List.mem_append_right
        [_, _, _, _, _, _] (List.mem_singleton_self _))
  eip := by
    have hAbove := hStanding.esp_above (d := 4) (by decide)
    have hEsp :
        (m.regs .esp + 4).toNat - 4 =
          (m.regs .esp).toNat := by
      rw [hAbove]
      exact Nat.add_sub_cancel _ 4
    have hStack := hStanding.above (d := 0) (by decide)
    change
      m'.word w.place (w.space p)
          ((m.regs .esp + 4).toNat - 4) =
        m.word w.place m.cr3 (m.regs .esp).toNat
    unfold Machine.word
    rw [hEsp, hTransferred.ram, hStanding.loaded]
    exact hStanding.word_own_stack hNo hStanding.thread
      hTransferred.symbols hStack (Nat.le_refl _)
  words := fun i hi => absurd hi (Nat.not_lt_zero i)
  room := by
    have hAbove := hStanding.esp_above (d := 4) (by decide)
    have hRoom := hStanding.room
    change w.lo p + 8 ≤ (m.regs .esp + 4).toNat
    rw [hAbove]
    change w.lo p + 8 ≤ (m.regs .esp).toNat + 4
    omega
  top := by
    have hAbove := hStanding.esp_above (d := 4) (by decide)
    have hFrame := hStanding.frame
    change (m.regs .esp + 4).toNat + 4 * 0 ≤ (w.hi p).toNat
    rw [hAbove]
    change (m.regs .esp).toNat + 4 + 4 * 0 ≤ (w.hi p).toNat
    omega

/- The other threads can go on as before. -/
theorem ready_other
    (hu : w.Thread u)
    (hNe : u ≠ p)
    (hReady : Ready w m u r) :
    Ready w m' u r := by
  apply hReady.congr
  · intro d hd
    unfold Machine.word
    rw [hTransferred.ram]
    exact hStanding.word_other_record hNo hStanding.thread
      hTransferred.symbols hu hNe hd
  · intro a ha hAbove
    unfold Machine.word
    rw [hTransferred.ram]
    exact hNo.word_puts_stack m.ram hStanding.thread hu
      hNe.symm
      (hStanding.stores_mine hNo hStanding.thread
        hTransferred.symbols) ha

end

end Transferred

------------------------------------------------------------
-- On the New Stack
------------------------------------------------------------

/- A field of the record of the thread, when it is loaded. -/
theorem word_loaded
    {d v : UInt32}
    (hNo : w.NoOverlap)
    (ht : w.Thread t)
    (hLoaded : m.cr3 = w.space t)
    (hd : d.toNat + 4 ≤ World.RECORD_SIZE)
    (hWord :
      m.word w.place (w.space t) (t.toNat + d.toNat) = v) :
    m.word w.place m.cr3 (t + d).toNat = v := by
  rw [hLoaded, record_address hNo ht hd]
  exact hWord

namespace Ready

section

variable (hReady : Ready w m t r)
variable (hNo : w.NoOverlap)
variable (ht : w.Thread t)

include hReady

theorem esp_sub_four :
    (r.ctx.esp - 4).toNat = r.ctx.esp.toNat - 4 := by
  have hRoom := hReady.room
  apply toNat_sub_of_le
  change 4 ≤ r.ctx.esp.toNat
  omega

theorem esp_sub_eight :
    (r.ctx.esp - 4 - 4).toNat = r.ctx.esp.toNat - 8 := by
  have hRoom := hReady.room
  have hBelow := hReady.esp_sub_four
  have hLe :
      (4 : UInt32).toNat ≤ (r.ctx.esp - 4).toNat := by
    change 4 ≤ (r.ctx.esp - 4).toNat
    omega
  rw [toNat_sub_of_le hLe, hBelow]
  exact Nat.sub_sub _ 4 4

/- The word that the flags take on the new stack. -/
theorem below :
    w.StackWord t (r.ctx.esp - 4 - 4).toNat := by
  have hRoom := hReady.room
  have hTop := hReady.top
  rw [hReady.esp_sub_eight]
  exact ⟨by omega, by omega⟩

include hNo ht

/- The flags do not overwrite what the thread expects. -/
theorem word_above
    {a : Nat}
    (v : UInt32)
    (ha : w.StackWord t a)
    (hAbove : r.ctx.esp.toNat - 4 ≤ a) :
    ByteMemory.wordVia (w.place (w.space t))
        (ByteMemory.putVia (w.place (w.space t)) m.ram
          (r.ctx.esp - 4 - 4).toNat v) a =
      m.word w.place (w.space t) a := by
  have hRoom := hReady.room
  refine ByteMemory.wordVia_putVia_of_apart m.ram v
    (hNo.apart ht hReady.below.mine ha.mine (.inl ?_))
  rw [hReady.esp_sub_eight]
  omega

end

end Ready

/-
  On the stack of `t`, the thread goes on as it expects.  A
  word below its stack is lost to the flags, which are left
  in `eax` too.
-/
theorem run_switchThread
    (hNo : w.NoOverlap)
    (ht : w.Thread t)
    (hLoaded : m.cr3 = w.space t)
    (hCurrent :
      m.word w.place (w.space t) w.syms.currentThread = t)
    (hReady : Ready w m t r) :
    Resumed w (run w.place (switchThread w.syms) m) r ∧
      (run w.place (switchThread w.syms) m).regs .eax =
        r.ctx.eflags ∧
      (run w.place (switchThread w.syms) m).cr3 = w.space t ∧
      (run w.place (switchThread w.syms) m).ram =
        ByteMemory.putVia (w.place (w.space t)) m.ram
          (r.ctx.esp - 4 - 4).toNat r.ctx.eflags := by
  have hFirst :
      run w.place (switchThread w.syms) m =
        run w.place restoreState (m.set .eax t) := by
    rw [← hLoaded] at hCurrent
    unfold switchThread run
    rw [List.foldl_cons, Instr.exec, Operand.addr, hCurrent]
  have hReturn :
      w.StackWord t (r.ctx.esp - 4).toNat := by
    have hRoom := hReady.room
    have hTop := hReady.top
    rw [hReady.esp_sub_four]
    exact ⟨by omega, by omega⟩
  have hSpread :
      ByteMemory.Spread (w.place m.cr3)
        (r.ctx.esp - 4 - 4).toNat := by
    rw [hLoaded]
    exact hNo.spread ht hReady.below.mine
  have hApart :
      ByteMemory.Apart (w.place m.cr3)
        (r.ctx.esp - 4 - 4).toNat (w.place m.cr3)
        (r.ctx.esp - 4).toNat := by
    rw [hLoaded]
    refine hNo.apart ht hReady.below.mine hReturn.mine
      (.inl ?_)
    have hRoom := hReady.room
    rw [hReady.esp_sub_eight, hReady.esp_sub_four]
    omega
  have hRestore :=
    run_restoreState (m.set .eax t) (set_regs_self m .eax t)
      (word_loaded hNo ht hLoaded (by decide) hReady.esp)
      (word_loaded hNo ht hLoaded (by decide) hReady.eflags)
      hSpread hApart
  rw [hFirst, hRestore]
  refine ⟨?_,
    word_loaded hNo ht hLoaded (by decide) hReady.eflags,
    hLoaded, by rw [← hLoaded]; rfl⟩
  exact
    { esp := by
        have hEsp :=
          word_loaded hNo ht hLoaded (d := 0) (by decide)
            hReady.esp
        change m.word w.place m.cr3 (t + 0).toNat + 4 = _
        rw [hEsp, sub_add_four]
      ebp :=
        word_loaded hNo ht hLoaded (by decide) hReady.ebp
      ebx :=
        word_loaded hNo ht hLoaded (by decide) hReady.ebx
      esi :=
        word_loaded hNo ht hLoaded (by decide) hReady.esi
      edi :=
        word_loaded hNo ht hLoaded (by decide) hReady.edi
      eflags := rfl
      eip := by
        have hWord := hReady.eip
        rw [← hReady.esp_sub_four, ← hLoaded] at hWord
        exact hWord
      words := by
        intro i hi
        have hTop := hReady.top
        have hRoom := hReady.room
        change
          ByteMemory.wordVia (w.place m.cr3)
              (ByteMemory.putVia (w.place m.cr3) m.ram
                (r.ctx.esp - 4 - 4).toNat r.ctx.eflags)
              (r.ctx.esp.toNat + 4 * i) =
            r.words[i]
        rw [hLoaded]
        refine (hReady.word_above hNo ht _ ⟨?_, ?_⟩ ?_).trans
          (hReady.words i hi)
        · omega
        · omega
        · omega }

------------------------------------------------------------
-- The Switch
------------------------------------------------------------

/-
  Stores of `t` to its record and its stack leave the other
  threads ready.
-/
theorem Ready.of_own
    (hReady : Ready w m u r)
    (hNo : w.NoOverlap)
    (ht : w.Thread t)
    (hu : w.Thread u)
    (hNe : u ≠ t)
    (hOwn : ∀ s ∈ stores, w.OwnWord t s.1)
    (hRam :
      m'.ram =
        ByteMemory.putsVia (w.place (w.space t)) m.ram
          stores) :
    Ready w m' u r := by
  have hMine : ∀ s ∈ stores, w.MineWord t s.1 :=
    fun s hs => (hOwn s hs).mine ht
  apply hReady.congr
  · intro d hd
    unfold Machine.word
    rw [hRam]
    exact hNo.word_puts_kernel m.ram ht hu hMine
      (World.kernelWord_record hu hd)
      (fun s hs => hNo.own_record ht hu hNe hd (hOwn s hs))
  · intro b hb hAbove
    unfold Machine.word
    rw [hRam]
    exact hNo.word_puts_stack m.ram ht hu hNe.symm hMine hb

/- They leave the variables alone too. -/
theorem word_symbol_of_own
    {g : Nat}
    (hNo : w.NoOverlap)
    (ht : w.Thread t)
    (hu : w.Thread u)
    (hg : w.IsSymbol g)
    (hOwn : ∀ s ∈ stores, w.OwnWord t s.1)
    (hRam :
      m'.ram =
        ByteMemory.putsVia (w.place (w.space t)) m.ram
          stores) :
    m'.word w.place (w.space u) g =
      m.word w.place (w.space u) g := by
  unfold Machine.word
  rw [hRam]
  exact hNo.word_puts_kernel m.ram ht hu
    (fun s hs => (hOwn s hs).mine ht)
    (World.kernelWord_symbol hg)
    (fun s hs => hNo.own_symbol ht hg (hOwn s hs))

theorem resume_switch_self (cfg : Config) (t : UInt32) :
    (cfg.switch w t).resume cfg.current =
      some ⟨callContext w cfg.machine, []⟩ :=
  Function.update_self _ _ _

theorem resume_switch_of_ne
    (hNe : u ≠ cfg.current)
    (t : UInt32) :
    (cfg.switch w t).resume u = cfg.resume u :=
  Function.update_of_ne hNe _ _

/- The running thread, when it calls `switch_context`. -/
theorem Inv.standing
    (hInv : Inv w cfg)
    (hCalls : Calls w cfg t task) :
    Standing w cfg.machine cfg.current where
  thread := hInv.thread
  loaded := hInv.loaded
  room := hCalls.room
  frame := hCalls.frame

/-
  A switch to `t` resumes it where it goes on, with its flags
  in `eax`, and keeps what holds between steps.
-/
theorem Inv.switch_eax
    (hInv : Inv w cfg)
    (hNo : w.NoOverlap)
    (hCalls : Calls w cfg t task) :
    (∃ r,
      (cfg.switch w t).resume t = some r ∧
        Resumed w (cfg.switch w t).machine r ∧
        (cfg.switch w t).machine.regs .eax = r.ctx.eflags) ∧
      Inv w (cfg.switch w t) := by
  have hStanding := hInv.standing hCalls
  have hThread := hCalls.argThread
  have hTask := hCalls.argTask
  rw [hInv.loaded] at hThread hTask
  rcases switchContext_transfers hStanding hNo hInv.current
    hThread hTask hCalls.leads with ⟨stores, m', hTr, hRun⟩
  -- Before the new stack is used, everybody is ready.
  have hReady :
      ∀ u r, (cfg.switch w t).resume u = some r →
        w.Thread u ∧ Ready w m' u r := by
    intro u r hu
    by_cases hSelf : u = cfg.current
    · subst hSelf
      rw [resume_switch_self] at hu
      cases hu
      exact ⟨hInv.thread, hTr.ready_caller hStanding hNo⟩
    · rw [resume_switch_of_ne hSelf] at hu
      rcases hInv.ready u r hSelf hu with ⟨hIs, hWas⟩
      exact ⟨hIs,
        hTr.ready_other hStanding hNo hIs hSelf hWas⟩
  have hSome : ∃ r, (cfg.switch w t).resume t = some r := by
    by_cases hSelf : t = cfg.current
    · subst hSelf
      exact ⟨_, resume_switch_self cfg _⟩
    · rw [resume_switch_of_ne hSelf]
      exact Option.ne_none_iff_exists'.mp
        (hCalls.thread.resolve_left hSelf)
  rcases hSome with ⟨r, hr⟩
  rcases hReady t r hr with ⟨ht, hReadyT⟩
  have hCurrent := hTr.word_current hStanding hNo ht
  rcases run_switchThread hNo ht hTr.cr3 hCurrent hReadyT
    with ⟨hResumed, hEax, hLoaded, hRam⟩
  rw [← hRun] at hResumed hEax hLoaded hRam
  rw [← ByteMemory.putsVia_singleton] at hRam
  have hOwn :
      ∀ s ∈ [((r.ctx.esp - 4 - 4).toNat, r.ctx.eflags)],
        w.OwnWord t s.1 := by
    intro s hs
    rw [List.mem_singleton.mp hs]
    exact .inr hReadyT.below
  refine ⟨⟨r, hr, hResumed, hEax⟩, ?_⟩
  exact
    { thread := ht
      loaded := hLoaded
      current :=
        (word_symbol_of_own hNo ht ht (.inl rfl) hOwn
          hRam).trans hCurrent
      ready := by
        intro u r' hNe hu
        rcases hReady u r' hu with ⟨hIs, hWas⟩
        exact ⟨hIs, hWas.of_own hNo ht hIs hNe hOwn hRam⟩ }

theorem Inv.switch
    (hInv : Inv w cfg)
    (hNo : w.NoOverlap)
    (hCalls : Calls w cfg t task) :
    (∃ r,
      (cfg.switch w t).resume t = some r ∧
        Resumed w (cfg.switch w t).machine r) ∧
      Inv w (cfg.switch w t) := by
  rcases hInv.switch_eax hNo hCalls with
    ⟨⟨r, hr, hResumed, -⟩, hKept⟩
  exact ⟨⟨r, hr, hResumed⟩, hKept⟩

------------------------------------------------------------
-- New Threads
------------------------------------------------------------

section

variable {fn arg stackSize tid : UInt32}
variable (hNo : w.NoOverlap)
variable (hu : w.Thread u)
variable (hRoom : w.lo u + 20 ≤ (w.hi u).toNat)

/- The stores of `kmalloc_zero` for a record at `p`. -/
def zeroStores (p : UInt32) : List (Nat × UInt32) :=
  (List.range 10).map fun i => (p.toNat + 4 * i, 0)

/- The stores of `create_thread` after `kmalloc_zero`. -/
def fieldStores
    (w : World)
    (p fn arg stack stackSize tid : UInt32) :
    List (Nat × UInt32) :=
  (threadStores w p fn arg stack stackSize tid).drop 10

theorem threadStores_eq (p stack : UInt32) :
    threadStores w p fn arg stack stackSize tid =
      zeroStores p ++
        fieldStores w p fn arg stack stackSize tid :=
  rfl

theorem own_zeroStores :
    ∀ s ∈ zeroStores u, w.OwnWord u s.1 := by
  intro s hs
  rcases List.mem_map.mp hs with ⟨i, hi, rfl⟩
  rw [List.mem_range] at hi
  unfold World.OwnWord World.RECORD_SIZE
  exact .inl ⟨4 * i, by omega, rfl⟩

theorem pairwise_zeroStores (p : UInt32) :
    (zeroStores p).Pairwise
      fun s s' => World.Disjoint4 s.1 s'.1 := by
  unfold zeroStores
  rw [List.pairwise_map]
  refine List.Pairwise.imp ?_ List.pairwise_lt_range
  intro a b hLt
  exact .inl (by omega)

include hRoom in
theorem hi_sub
    {k : UInt32}
    (hk : k.toNat ≤ 20) :
    (w.hi u - k).toNat = (w.hi u).toNat - k.toNat := by
  apply toNat_sub_of_le
  omega

include hNo hu hRoom

/- They are stores to fields and to four words of stack. -/
theorem fieldStores_eq :
    fieldStores w u fn arg (w.hi u) stackSize tid =
      [(u.toNat + 28, tid),
        (u.toNat + 36, THREAD_RUNNING),
        (u.toNat + 32, stackSize),
        (u.toNat + 24, w.hi u),
        ((w.hi u).toNat - 4, 0),
        ((w.hi u).toNat - 8, arg),
        ((w.hi u).toNat - 12, w.syms.threadExit),
        ((w.hi u).toNat - 16, fn),
        (u.toNat + 0, w.hi u - 16),
        (u.toNat + 4, 0),
        (u.toNat + 20, 0x200)] := by
  have h0 := record_address hNo hu (d := 0) (by decide)
  have h4 := record_address hNo hu (d := 4) (by decide)
  have h20 := record_address hNo hu (d := 20) (by decide)
  have h24 := record_address hNo hu (d := 24) (by decide)
  have h28 := record_address hNo hu (d := 28) (by decide)
  have h32 := record_address hNo hu (d := 32) (by decide)
  have h36 := record_address hNo hu (d := 36) (by decide)
  have s4 := hi_sub hRoom (k := 4) (by decide)
  have s8 := hi_sub hRoom (k := 8) (by decide)
  have s12 := hi_sub hRoom (k := 12) (by decide)
  have s16 := hi_sub hRoom (k := 16) (by decide)
  simp only [UInt32.reduceToNat] at h0 h4 h20 h24 h28 h32
  simp only [UInt32.reduceToNat] at h36 s4 s8 s12 s16
  rw [← h0, ← h4, ← h20, ← h24, ← h28, ← h32, ← h36, ← s4,
    ← s8, ← s12, ← s16]
  rfl

theorem own_fieldStores :
    ∀ s ∈ fieldStores w u fn arg (w.hi u) stackSize tid,
      w.OwnWord u s.1 := by
  have hField :
      ∀ d, d + 4 ≤ World.RECORD_SIZE →
        w.OwnWord u (u.toNat + d) :=
    fun d hd => .inl ⟨d, hd, rfl⟩
  have hStack :
      ∀ k, 4 ≤ k → k ≤ 20 →
        w.OwnWord u ((w.hi u).toNat - k) :=
    fun k hk hk' => .inr ⟨by omega, by omega⟩
  rw [fieldStores_eq hNo hu hRoom]
  simp only [List.forall_mem_cons, List.not_mem_nil,
    false_implies, forall_const, and_true]
  exact ⟨hField _ (by decide), hField _ (by decide),
    hField _ (by decide), hField _ (by decide),
    hStack 4 (by decide) (by decide),
    hStack 8 (by decide) (by decide),
    hStack 12 (by decide) (by decide),
    hStack 16 (by decide) (by decide),
    hField _ (by decide), hField _ (by decide),
    hField _ (by decide)⟩

theorem pairwise_fieldStores :
    (fieldStores w u fn arg (w.hi u) stackSize tid).Pairwise
      fun s s' => World.Disjoint4 s.1 s'.1 := by
  have hStack :=
    hNo.stack_range (a := (w.hi u).toNat - 16)
      (b := (w.hi u).toNat) hu
      (fun x hLe hLt => ⟨by omega, hLt⟩)
      (fun x hLo hHi => .inl ⟨u, hu, hLo, hHi⟩)
  unfold World.RECORD_SIZE at hStack
  rw [fieldStores_eq hNo hu hRoom]
  simp only [List.pairwise_cons, List.forall_mem_cons,
    List.not_mem_nil, World.Disjoint4, List.Pairwise.nil,
    and_true, false_implies, forall_const]
  and_intros <;> omega

theorem own_threadStores :
    ∀ s ∈ threadStores w u fn arg (w.hi u) stackSize tid,
      w.OwnWord u s.1 := by
  intro s hs
  rw [threadStores_eq] at hs
  rcases List.mem_append.mp hs with hs | hs
  · exact own_zeroStores s hs
  · exact own_fieldStores hNo hu hRoom s hs

variable
  (hRam :
    m'.ram =
      ByteMemory.putsVia (w.place (w.space u)) m.ram
        (threadStores w u fn arg (w.hi u) stackSize tid))

include hRam

/- A word that is stored after the clearing is there. -/
theorem word_fieldStores
    {a : Nat}
    {v : UInt32}
    (hs :
      (a, v) ∈
        fieldStores w u fn arg (w.hi u) stackSize tid) :
    m'.word w.place (w.space u) a = v := by
  unfold Machine.word
  rw [hRam, threadStores_eq, ByteMemory.putsVia_append]
  exact hNo.word_puts (s := (a, v)) _ hu
    (fun s hs =>
      (own_fieldStores hNo hu hRoom s hs).mine hu)
    (pairwise_fieldStores hNo hu hRoom) hs

/- The registers that are not set are zero. -/
theorem word_zeroStores
    {a : Nat}
    (ha : (a, 0) ∈ zeroStores u)
    (hFree :
      ∀ s ∈ fieldStores w u fn arg (w.hi u) stackSize tid,
        World.Disjoint4 s.1 a) :
    m'.word w.place (w.space u) a = 0 := by
  have hZero : ∀ s ∈ zeroStores u, w.MineWord u s.1 :=
    fun s hs => (own_zeroStores s hs).mine hu
  unfold Machine.word
  rw [hRam, threadStores_eq, ByteMemory.putsVia_append,
    hNo.word_puts_other _ hu
      (fun s hs =>
        (own_fieldStores hNo hu hRoom s hs).mine hu)
      (hZero _ ha) hFree]
  exact hNo.word_puts (s := (a, 0)) m.ram hu hZero
    (pairwise_zeroStores u) ha

/- A thread that has been created can be entered. -/
theorem ready_entry :
    Ready w m' u (entry w fn arg (w.hi u)) := by
  have hEq :
      fieldStores w u fn arg (w.hi u) stackSize tid = _ :=
    fieldStores_eq hNo hu hRoom
  have hStored :
      ∀ a v,
        (a, v) ∈
            fieldStores w u fn arg (w.hi u) stackSize tid →
          m'.word w.place (w.space u) a = v :=
    fun a v hs => word_fieldStores hNo hu hRoom hRam hs
  have hStack :=
    hNo.stack_range (a := (w.hi u).toNat - 16)
      (b := (w.hi u).toNat) hu
      (fun x hLe hLt => ⟨by omega, hLt⟩)
      (fun x hLo hHi => .inl ⟨u, hu, hLo, hHi⟩)
  have hCleared :
      ∀ d, d = 8 ∨ d = 12 ∨ d = 16 →
        m'.word w.place (w.space u) (u.toNat + d) = 0 := by
    intro d hd
    refine word_zeroStores hNo hu hRoom hRam ?_ ?_
    · refine List.mem_map.mpr ⟨d / 4, ?_, ?_⟩
      · exact List.mem_range.mpr (by omega)
      · exact Prod.ext (by omega) rfl
    · unfold World.RECORD_SIZE at hStack
      rw [hEq]
      simp only [List.forall_mem_cons, List.not_mem_nil,
        World.Disjoint4, false_implies, forall_const,
        and_true]
      and_intros <;> omega
  have hTop := hi_sub hRoom (k := 12) (by decide)
  simp only [UInt32.reduceToNat] at hTop
  rw [hEq] at hStored
  have hExit := hStored ((w.hi u).toNat - 12)
    w.syms.threadExit (by simp)
  have hArg := hStored ((w.hi u).toNat - 8) arg (by simp)
  have hZero := hStored ((w.hi u).toNat - 4) 0 (by simp)
  have hEsp : w.hi u - 12 - 4 = w.hi u - 16 := by grind
  exact
    { esp := by
        change
          m'.word w.place (w.space u) (u.toNat + 0) =
            w.hi u - 12 - 4
        rw [hEsp]
        exact hStored _ _ (by simp)
      ebp := hStored (u.toNat + 4) 0 (by simp)
      ebx := hCleared 8 (.inl rfl)
      esi := hCleared 12 (.inr (.inl rfl))
      edi := hCleared 16 (.inr (.inr rfl))
      eflags := hStored (u.toNat + 20) 0x200 (by simp)
      eip := by
        change
          m'.word w.place (w.space u)
              ((w.hi u - 12).toNat - 4) = fn
        rw [hTop, Nat.sub_sub]
        exact hStored _ _ (by simp)
      words := by
        intro i hi
        change
          m'.word w.place (w.space u)
              ((w.hi u - 12).toNat + 4 * i) = _
        rw [hTop]
        have hLt : i < 3 := hi
        rcases i with _ | _ | _ | i
        · exact hExit
        · have hNext :
              (w.hi u).toNat - 12 + 4 * 1 =
                (w.hi u).toNat - 8 := by omega
          change m'.word w.place (w.space u) _ = arg
          rw [hNext]
          exact hArg
        · have hNext :
              (w.hi u).toNat - 12 + 4 * 2 =
                (w.hi u).toNat - 4 := by omega
          change m'.word w.place (w.space u) _ = 0
          rw [hNext]
          exact hZero
        · omega
      room := by
        change w.lo u + 8 ≤ (w.hi u - 12).toNat
        omega
      top := by
        change (w.hi u - 12).toNat + 4 * 3 ≤ (w.hi u).toNat
        omega }

end

------------------------------------------------------------
-- Every Step
------------------------------------------------------------

theorem Inv.create
    {fn arg stackSize tid : UInt32}
    (hInv : Inv w cfg)
    (hNo : w.NoOverlap)
    (hu : w.Thread u)
    (hOther : u ≠ cfg.current)
    (hRoom : w.lo u + 20 ≤ (w.hi u).toNat) :
    Inv w
      { cfg with
        machine :=
          createThread w (w.space u) u fn arg (w.hi u)
            stackSize tid cfg.machine
        resume :=
          Function.update cfg.resume u
            (some (entry w fn arg (w.hi u))) } where
  thread := hInv.thread
  loaded := hInv.loaded
  current :=
    (word_symbol_of_own hNo hu hInv.thread (.inl rfl)
      (own_threadStores hNo hu hRoom) rfl).trans hInv.current
  ready := by
    intro v r hNe hv
    change
      Function.update cfg.resume u
        (some (entry w fn arg (w.hi u))) v = some r at hv
    by_cases hSame : v = u
    · subst hSame
      rw [Function.update_self] at hv
      cases hv
      exact ⟨hu, ready_entry hNo hu hRoom rfl⟩
    · rw [Function.update_of_ne hSame] at hv
      rcases hInv.ready v r hNe hv with ⟨hIs, hWas⟩
      exact ⟨hIs,
        hWas.of_own hNo hu hIs hSame
          (own_threadStores hNo hu hRoom) rfl⟩

/- What the running thread computes does not matter. -/
theorem Inv.compute
    (hInv : Inv w cfg)
    (hNo : w.NoOverlap)
    (hLeaves : Leaves w cfg m) :
    Inv w { cfg with machine := m } where
  thread := hInv.thread
  loaded := hLeaves.cr3.trans hInv.loaded
  current := by
    refine Eq.trans ?_ hInv.current
    apply ByteMemory.wordVia_congr
    intro i hi
    have hSame :=
      hLeaves.symbols w.syms.currentThread
        (w.syms.currentThread + i) (.inl rfl)
        ⟨by omega, by omega⟩
    rw [hInv.loaded] at hSame
    exact hSame
  ready := by
    intro u r hNe hu
    rcases hInv.ready u r hNe hu with ⟨hIs, hWas⟩
    have hOther : cfg.resume u ≠ none := by
      rw [hu]
      exact Option.some_ne_none r
    refine ⟨hIs, hWas.congr ?_ ?_⟩
    · intro d hd
      have hSpace := World.space_of_thread hIs
      have hSpace' := World.space_of_thread hInv.thread
      have hWord := World.kernelWord_record hIs hd
      unfold Machine.word
      rw [hNo.wordVia_kernel m.ram hSpace hSpace' hWord,
        hNo.wordVia_kernel cfg.machine.ram hSpace hSpace'
          hWord]
      apply ByteMemory.wordVia_congr
      intro i hi
      have hSame :=
        hLeaves.records u (u.toNat + d + i) hNe hOther
          ⟨by omega, by omega⟩
      rw [hInv.loaded] at hSame
      exact hSame
    · intro a ha hAbove
      apply ByteMemory.wordVia_congr
      intro i hi
      exact hLeaves.otherStacks u (a + i) hNe hOther
        (ha.inStack hi)

/- Every step keeps what holds between steps. -/
theorem Inv.step
    (hNo : w.NoOverlap)
    (hInv : Inv w cfg)
    (hStep : Step w cfg cfg') :
    Inv w cfg' := by
  cases hStep with
  | compute m hLeaves => exact hInv.compute hNo hLeaves
  | create u fn arg stackSize tid hThread hNew hOther hRoom =>
      exact hInv.create hNo hThread hOther hRoom
  | «switch» t task hCalls => exact (hInv.switch hNo hCalls).2

theorem Started.inv (hStarted : Started w cfg) : Inv w cfg where
  thread := hStarted.thread
  loaded := hStarted.loaded
  current := by
    have hCurrent := hStarted.current
    rw [hStarted.loaded] at hCurrent
    exact hCurrent
  ready := by
    intro u r hNe hu
    rw [hStarted.alone u] at hu
    cases hu

theorem Inv.reachable
    (hNo : w.NoOverlap)
    (hReach : Reachable (Started w) (Step w) cfg) :
    Inv w cfg :=
  hReach.invariant (fun _ hStarted => hStarted.inv)
    (fun _ _ _ hInv hStep => hInv.step hNo hStep)

/-
  In every run, a switch to `t` goes on where `t` made its
  own last call of `switch_context`, with the registers and
  flags of that call, or enters `t` as it was created.
-/
theorem switch_resumes
    (hNo : w.NoOverlap)
    (hReach : Reachable (Started w) (Step w) cfg)
    (hCalls : Calls w cfg t task) :
    ∃ r,
      (cfg.switch w t).resume t = some r ∧
        Resumed w (cfg.switch w t).machine r :=
  ((Inv.reachable hNo hReach).switch hNo hCalls).1

/-
  Two threads whose stacks are at the same virtual address
  in two address spaces.
-/
def twoThreads : World where
  place := fun c a =>
    if a < 4096 then a else a + 65536 * c.toNat
  syms := ⟨16, 20, 24, 0x100⟩
  Thread := fun u => u = 64 ∨ u = 128
  space := fun u => if u = 64 then 1 else 2
  lo := fun _ => 8192
  hi := fun _ => 8256
  Data := fun a => 256 ≤ a ∧ a < 272

theorem kernel_twoThreads
    {a : Nat}
    (ha : twoThreads.Kernel a) :
    a < 4096 := by
  rcases ha with ⟨u, hu, hRecord⟩ | ⟨g, hg, hSymbol⟩ | hData
  · rcases hRecord with ⟨hLo, hHi⟩
    rcases hu with rfl | rfl
    · change a < 64 + 40 at hHi
      omega
    · change a < 128 + 40 at hHi
      omega
  · rcases hSymbol with ⟨hLo, hHi⟩
    rcases hg with rfl | rfl | rfl
    · change a < 16 + 4 at hHi
      omega
    · change a < 20 + 4 at hHi
      omega
    · change a < 24 + 4 at hHi
      omega
  · have hHi : a < 272 := hData.2
    omega

theorem place_twoThreads_kernel
    {a : Nat}
    (c : UInt32)
    (ha : twoThreads.Kernel a) :
    twoThreads.place c a = a :=
  if_pos (kernel_twoThreads ha)

theorem place_twoThreads_stack
    {u : UInt32}
    {a : Nat}
    (c : UInt32)
    (ha : twoThreads.InStack u a) :
    twoThreads.place c a = a + 65536 * c.toNat := by
  have hLo : 8192 ≤ a := ha.1
  exact if_neg (by omega)

theorem noOverlap_twoThreads : twoThreads.NoOverlap where
  shared := by
    intro c c' a hc hc' ha
    rw [place_twoThreads_kernel c ha,
      place_twoThreads_kernel c' ha]
  kernel := by
    intro c a b hc ha hb hSame
    rw [place_twoThreads_kernel c ha,
      place_twoThreads_kernel c hb] at hSame
    exact hSame
  stack := by
    intro u a b hu ha hb hSame
    rw [place_twoThreads_stack _ ha,
      place_twoThreads_stack _ hb] at hSame
    omega
  stackKernel := by
    intro u a b hu ha hb hSame
    have hLo : 8192 ≤ a := ha.1
    have hLow := kernel_twoThreads hb
    rw [place_twoThreads_stack _ ha,
      place_twoThreads_kernel _ hb] at hSame
    omega
  otherStack := by
    intro u v a b hu hv hNe ha hb hSame
    have hHi : a < 8256 := ha.2
    have hHi' : b < 8256 := hb.2
    rw [place_twoThreads_stack _ ha,
      place_twoThreads_stack _ hb] at hSame
    rcases hu with rfl | rfl <;> rcases hv with rfl | rfl
    · exact hNe rfl
    · change a + 65536 * 1 = b + 65536 * 2 at hSame
      omega
    · change a + 65536 * 2 = b + 65536 * 1 at hSame
      omega
    · exact hNe rfl
  recordEnd := by
    intro u hu
    rcases hu with rfl | rfl <;> decide
  records := by
    intro u v hu hv hNe
    rcases hu with rfl | rfl <;> rcases hv with rfl | rfl
    · exact absurd rfl hNe
    · decide
    · decide
    · exact absurd rfl hNe
  recordSymbol := by
    intro u g hu hg
    rcases hu with rfl | rfl <;>
      rcases hg with rfl | rfl | rfl <;> decide
  symbols := by
    unfold World.Disjoint4
    decide
  dataRecord := by
    intro u a hu ha hRecord
    have hLo : 256 ≤ a := ha.1
    have hHi := hRecord.2
    rcases hu with rfl | rfl
    · change a < 64 + 40 at hHi
      omega
    · change a < 128 + 40 at hHi
      omega
  dataSymbol := by
    intro g a hg ha hSymbol
    have hLo : 256 ≤ a := ha.1
    have hHi := hSymbol.2
    rcases hg with rfl | rfl | rfl
    · change a < 16 + 4 at hHi
      omega
    · change a < 20 + 4 at hHi
      omega
    · change a < 24 + 4 at hHi
      omega

/-
  The first thread is about to call `switch_context` with the
  second thread and its task.
-/
def firstThread : Machine where
  regs := fun r => if r = .esp then 8240 else 0
  eflags := 0
  eip := 0x200
  cr3 := 1
  ram :=
    ByteMemory.putsVia (twoThreads.place 1) (fun _ => 0)
      [(16, 64), (256, 264), (264, 2), (8244, 128),
        (8248, 256)]

/- The second thread has been created, with `fn` at 0x300. -/
def secondCreated : Config where
  machine :=
    createThread twoThreads 2 128 0x300 7 8256 64 1
      firstThread
  current := 64
  resume :=
    Function.update (fun _ => none) 128
      (some (entry twoThreads 0x300 7 8256))

theorem second_thread_entered :
    ∃ r,
      (secondCreated.switch twoThreads 128).resume 128 =
          some r ∧
        Resumed twoThreads
          (secondCreated.switch twoThreads 128).machine r := by
  refine switch_resumes noOverlap_twoThreads ?_
    (?_ : Calls twoThreads secondCreated 128 256)
  · refine .step (s := ⟨firstThread, 64, fun _ => none⟩)
      (.start ?_) ?_
    · exact
        { thread := .inl rfl
          loaded := rfl
          current := by decide
          alone := fun u => rfl }
    · exact .create 128 0x300 7 64 1 (.inr rfl) rfl
        (by decide) (by decide)
  · exact
      { thread := .inr (by decide)
        room := by decide
        frame := by decide
        argThread := by decide
        argTask := by decide
        leads := by
          unfold LeadsTo
          rw [if_neg (by decide)]
          refine ⟨?_, 264, by decide, ?_,
            by decide⟩
          · intro i hi
            change 256 ≤ 256 + i ∧ 256 + i < 272
            omega
          · intro i hi
            change 256 ≤ 264 + i ∧ 264 + i < 272
            omega }

end Asm

end SosKernel
