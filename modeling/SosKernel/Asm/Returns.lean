import SosKernel.Asm.Coroutine

/-
  `switch_context` is a call that returns: to the thread that
  makes it, nothing has happened to its stack.

  Main declarations:
    * `Inv.switched`: the stores of a switch
    * `Inv.step_keeps_stack`
    * `Away`: runs while a thread is switched out
    * `switch_context_returns`
-/

------------------------------------------------------------
-- Stores and Stacks
------------------------------------------------------------

namespace SosKernel

namespace Asm

variable {w : World}
variable {cfg cfg₀ cfg' : Config}
variable {m m' : Machine}
variable {p u v t task : UInt32}
variable {r : Resume}
variable {stores : List (Nat × UInt32)}
variable {a : Nat}

/- What another thread reaches is not on the stack of `v`. -/
theorem stack_putsVia
    (mem : ByteMemory)
    (hNo : w.NoOverlap)
    (hu : w.Thread u)
    (hv : w.Thread v)
    (hNe : u ≠ v)
    (hMine : ∀ s ∈ stores, w.MineWord u s.1)
    (ha : w.InStack v a) :
    ByteMemory.putsVia (w.place (w.space u)) mem stores
        (w.place (w.space v) a) =
      mem (w.place (w.space v) a) := by
  apply ByteMemory.putsVia_apply_of_ne
  intro s hs i hi hSame
  rcases hMine s hs i hi with hKernel | hStack
  · rw [hNo.shared _ (w.space v) (s.1 + i)
      (World.space_of_thread hu) (World.space_of_thread hv)
      hKernel] at hSame
    exact hNo.stackKernel v a (s.1 + i) hv ha hKernel hSame
  · exact hNo.otherStack v u a (s.1 + i) hv hu hNe.symm ha
      hStack hSame

/- The words of other addresses of its own. -/
theorem own_putsVia
    (mem : ByteMemory)
    (hNo : w.NoOverlap)
    (hu : w.Thread u)
    (hMine : ∀ s ∈ stores, w.MineWord u s.1)
    (ha : w.InStack u a)
    (hOff : ∀ s ∈ stores, ∀ i, i < 4 → s.1 + i ≠ a) :
    ByteMemory.putsVia (w.place (w.space u)) mem stores
        (w.place (w.space u) a) =
      mem (w.place (w.space u) a) := by
  apply ByteMemory.putsVia_apply_of_ne
  intro s hs i hi hSame
  exact hOff s hs i hi
    (hNo.mine hu (hMine s hs i hi) (.inr ha) hSame.symm)

/- The thread saves its state below what it has pushed. -/
theorem Standing.stores_off
    (hStanding : Standing w m p)
    (hNo : w.NoOverlap)
    (hSymbols : ∀ s ∈ stores, w.IsSymbol s.1)
    (ha : w.InStack p a)
    (hAbove : (m.regs .esp).toNat ≤ a) :
    ∀ s ∈ saved m p ++ stores, ∀ i, i < 4 → s.1 + i ≠ a := by
  intro s hs i hi hEq
  have hp := hStanding.thread
  have hKernel : ¬ w.Kernel a := fun hKernel =>
    hNo.stackKernel p a a hp ha hKernel rfl
  rcases List.mem_append.mp hs with hs | hs
  · rcases hStanding.saved_place hNo hp hs with
      ⟨d, hd, hPlace⟩ | ⟨-, hPlace⟩
    · apply hKernel
      rw [← hEq, hPlace]
      exact World.kernelWord_record hp hd i hi
    · have hRoom := hStanding.room
      omega
  · apply hKernel
    rw [← hEq]
    exact World.kernelWord_symbol (hSymbols s hs) i hi

------------------------------------------------------------
-- One Switch
------------------------------------------------------------

/-
  The thread that calls saves its state; then the flags are
  pushed on the stack of the one that goes on.
-/
theorem Inv.switched
    (hInv : Inv w cfg)
    (hNo : w.NoOverlap)
    (hCalls : Calls w cfg t task) :
    ∃ stores r,
      (∀ s ∈ stores, w.IsSymbol s.1) ∧
        w.Thread t ∧
        (cfg.switch w t).resume t = some r ∧
        w.StackWord t (r.ctx.esp - 4 - 4).toNat ∧
        (r.ctx.esp - 4 - 4).toNat + 8 = r.ctx.esp.toNat ∧
        (cfg.switch w t).machine.ram =
          ByteMemory.putsVia (w.place (w.space t))
            (ByteMemory.putsVia
              (w.place (w.space cfg.current)) cfg.machine.ram
              (saved cfg.machine cfg.current ++ stores))
            [((r.ctx.esp - 4 - 4).toNat, r.ctx.eflags)] := by
  have hStanding := hInv.standing hCalls
  have hThread := hCalls.argThread
  have hTask := hCalls.argTask
  rw [hInv.loaded] at hThread hTask
  rcases switchContext_transfers hStanding hNo hInv.current
    hThread hTask hCalls.leads with ⟨stores, m', hTr, hRun⟩
  have hReady :
      ∃ r, (cfg.switch w t).resume t = some r ∧
        w.Thread t ∧ Ready w m' t r := by
    by_cases hSelf : t = cfg.current
    · subst hSelf
      exact ⟨_, resume_switch_self cfg _, hInv.thread,
        hTr.ready_caller hStanding hNo⟩
    · rcases Option.ne_none_iff_exists'.mp
        (hCalls.thread.resolve_left hSelf) with ⟨r, hr⟩
      rcases hInv.ready t r hSelf hr with ⟨hIs, hWas⟩
      exact ⟨r, (resume_switch_of_ne hSelf t).trans hr, hIs,
        hTr.ready_other hStanding hNo hIs hSelf hWas⟩
  rcases hReady with ⟨r, hr, ht, hReadyT⟩
  have hCurrent := hTr.word_current hStanding hNo ht
  rcases run_switchThread hNo ht hTr.cr3 hCurrent hReadyT
    with ⟨-, -, -, hRam⟩
  have hRoom := hReadyT.room
  refine ⟨stores, r, hTr.symbols, ht, hr, hReadyT.below, ?_,
    ?_⟩
  · rw [hReadyT.esp_sub_eight]
    omega
  · rw [ByteMemory.putsVia_singleton, ← hTr.ram, ← hRam,
      ← hRun]
    rfl

/-
  A byte of a stack, if it is not below the stack pointer of
  the thread that calls or of the one that goes on.
-/
theorem Inv.switch_keeps_stack
    (hInv : Inv w cfg)
    (hNo : w.NoOverlap)
    (hCalls : Calls w cfg t task)
    (hp : w.Thread p)
    (ha : w.InStack p a)
    (hSave :
      p = cfg.current → (cfg.machine.regs .esp).toNat ≤ a)
    (hLoad :
      ∀ r, p = t → (cfg.switch w t).resume t = some r →
        r.ctx.esp.toNat ≤ a + 4) :
    (cfg.switch w t).machine.ram (w.place (w.space p) a) =
      cfg.machine.ram (w.place (w.space p) a) := by
  have hStanding := hInv.standing hCalls
  rcases hInv.switched hNo hCalls with
    ⟨stores, r, hSymbols, ht, hr, hWord, hEight, hRam⟩
  have hMine :=
    hStanding.stores_mine hNo hInv.thread hSymbols
  have hMineT :
      ∀ s ∈ [((r.ctx.esp - 4 - 4).toNat, r.ctx.eflags)],
        w.MineWord t s.1 := by
    intro s hs
    rw [List.mem_singleton.mp hs]
    exact hWord.mine
  have hSaved :
      ByteMemory.putsVia (w.place (w.space cfg.current))
          cfg.machine.ram
          (saved cfg.machine cfg.current ++ stores)
          (w.place (w.space p) a) =
        cfg.machine.ram (w.place (w.space p) a) := by
    by_cases hSelf : p = cfg.current
    · have hAbove := hSave hSelf
      subst hSelf
      exact own_putsVia _ hNo hp hMine ha
        (hStanding.stores_off hNo hSymbols ha hAbove)
    · exact stack_putsVia _ hNo hInv.thread hp
        (Ne.symm hSelf) hMine ha
  rw [hRam, ← hSaved]
  by_cases hTo : p = t
  · have hAbove := hLoad r hTo hr
    subst hTo
    refine own_putsVia _ hNo hp hMineT ha ?_
    intro s hs i hi
    rw [List.mem_singleton.mp hs]
    dsimp only
    omega
  · exact stack_putsVia _ hNo ht hp (Ne.symm hTo) hMineT ha

------------------------------------------------------------
-- While a Thread is Switched Out
------------------------------------------------------------

/- A step of another thread does not resume `p`. -/
theorem Step.keeps_resume
    (hStep : Step w cfg cfg')
    (hAway : p ≠ cfg.current)
    (hResume : cfg.resume p = some r) :
    cfg'.resume p = some r := by
  cases hStep with
  | compute m hLeaves => exact hResume
  | create u fn arg stackSize tid hThread hNew =>
      have hNe : p ≠ u := by
        rintro rfl
        rw [hResume] at hNew
        cases hNew
      exact (Function.update_of_ne hNe _ _).trans hResume
  | «switch» t task hCalls =>
      exact (resume_switch_of_ne hAway t).trans hResume

/- Nor does it store to the stack of `p`. -/
theorem Inv.step_keeps_stack
    (hInv : Inv w cfg)
    (hNo : w.NoOverlap)
    (hStep : Step w cfg cfg')
    (hp : w.Thread p)
    (hAway : p ≠ cfg.current)
    (hStays : p ≠ cfg'.current)
    (hResume : cfg.resume p = some r)
    (ha : w.InStack p a) :
    cfg'.machine.ram (w.place (w.space p) a) =
      cfg.machine.ram (w.place (w.space p) a) := by
  have hCreated : cfg.resume p ≠ none := by
    rw [hResume]
    exact Option.some_ne_none r
  cases hStep with
  | compute m hLeaves =>
      exact hLeaves.otherStacks p a hAway hCreated ha
  | create u fn arg stackSize tid hThread hNew hOther hRoom =>
      have hNe : u ≠ p := by
        rintro rfl
        exact hCreated hNew
      refine stack_putsVia _ hNo hThread hp hNe ?_ ha
      intro s hs
      exact (own_threadStores hNo hThread hRoom s hs).mine
        hThread
  | «switch» t task hCalls =>
      exact hInv.switch_keeps_stack hNo hCalls hp ha
        (fun hSelf => absurd hSelf hAway)
        (fun _ hTo => absurd hTo hStays)

/-
  The current thread of `cfg₀` calls `switch_context`, and
  then other threads run.
-/
inductive Away (w : World) (cfg₀ : Config) : Config → Prop where
| left
    (t task : UInt32)
    (hCalls : Calls w cfg₀ t task)
    (hOther : cfg₀.current ≠ t) :
    Away w cfg₀ (cfg₀.switch w t)
| step
    {cfg cfg' : Config}
    (hAway : Away w cfg₀ cfg)
    (hStep : Step w cfg cfg')
    (hOther : cfg₀.current ≠ cfg'.current) :
    Away w cfg₀ cfg'

/- What the thread that has called can rely on. -/
theorem Away.kept
    (hAway : Away w cfg₀ cfg)
    (hNo : w.NoOverlap)
    (hInv : Inv w cfg₀) :
    Inv w cfg ∧
      cfg₀.current ≠ cfg.current ∧
      cfg.resume cfg₀.current =
        some ⟨callContext w cfg₀.machine, []⟩ ∧
      ∀ a, w.InStack cfg₀.current a →
        (cfg₀.machine.regs .esp).toNat ≤ a →
          cfg.machine.ram
              (w.place (w.space cfg₀.current) a) =
            cfg₀.machine.ram
              (w.place (w.space cfg₀.current) a) := by
  induction hAway with
  | left t task hCalls hOther =>
      refine ⟨(hInv.switch hNo hCalls).2, hOther,
        resume_switch_self cfg₀ t, ?_⟩
      intro a ha hAbove
      exact hInv.switch_keeps_stack hNo hCalls hInv.thread ha
        (fun _ => hAbove) (fun _ hTo => absurd hTo hOther)
  | step _ hStep hOther ih =>
      rcases ih with ⟨hInv', hNe, hResume, hBytes⟩
      refine ⟨hInv'.step hNo hStep, hOther,
        hStep.keeps_resume hNe hResume, ?_⟩
      intro a ha hAbove
      exact (hInv'.step_keeps_stack hNo hStep hInv.thread hNe
        hOther hResume ha).trans (hBytes a ha hAbove)

/-
  In every run, and whatever the other threads have done in
  the meantime: when a thread is switched to again, it is
  behind its call, with its registers, its flags, its address
  space, and all that it has on its stack.
-/
theorem switch_context_returns
    (hNo : w.NoOverlap)
    (hReach : Reachable (Started w) (Step w) cfg₀)
    (hAway : Away w cfg₀ cfg)
    (hCalls : Calls w cfg cfg₀.current task) :
    let p := cfg₀.current
    let back := (cfg.switch w p).machine
    Resumed w back ⟨callContext w cfg₀.machine, []⟩ ∧
      back.cr3 = cfg₀.machine.cr3 ∧
      ∀ a, w.InStack p a →
        (cfg₀.machine.regs .esp).toNat ≤ a →
          back.ram (w.place back.cr3 a) =
            cfg₀.machine.ram (w.place back.cr3 a) := by
  intro p back
  have hInv₀ := Inv.reachable hNo hReach
  rcases hAway.kept hNo hInv₀ with
    ⟨hInv, hNe, hResume, hBytes⟩
  have hBack : (cfg.switch w p).resume p =
      some ⟨callContext w cfg₀.machine, []⟩ :=
    (resume_switch_of_ne hNe p).trans hResume
  rcases hInv.switch hNo hCalls with ⟨⟨r, hr, hResumed⟩, hInv'⟩
  have hEq : r = ⟨callContext w cfg₀.machine, []⟩ :=
    Option.some_inj.mp (hr.symm.trans hBack)
  have hSpace : back.cr3 = w.space p := hInv'.loaded
  have hEsp :
      (callContext w cfg₀.machine).esp.toNat ≤
        (cfg₀.machine.regs .esp).toNat + 4 := by
    change (cfg₀.machine.regs .esp + 4).toNat ≤ _
    rw [UInt32.toNat_add]
    exact Nat.mod_le _ _
  refine ⟨hEq ▸ hResumed, hSpace.trans hInv₀.loaded.symm, ?_⟩
  intro a ha hAbove
  rw [hSpace, ← hBytes a ha hAbove]
  refine hInv.switch_keeps_stack hNo hCalls hInv₀.thread ha
    (fun hSelf => absurd hSelf hNe) ?_
  intro r' _ hr'
  have hEq' : r' = ⟨callContext w cfg₀.machine, []⟩ :=
    Option.some_inj.mp (hr'.symm.trans hBack)
  rw [hEq']
  exact hEsp.trans (Nat.add_le_add_right hAbove 4)

------------------------------------------------------------
-- Two Threads
------------------------------------------------------------

theorem reachable_secondCreated :
    Reachable (Started twoThreads) (Step twoThreads)
      secondCreated := by
  refine .step (s := ⟨firstThread, 64, fun _ => none⟩)
    (.start ?_) ?_
  · exact
      { thread := .inl rfl
        loaded := rfl
        current := by decide
        alone := fun u => rfl }
  · exact .create 128 0x300 7 64 1 (.inr rfl) rfl
      (by decide) (by decide)

theorem calls_secondCreated :
    Calls twoThreads secondCreated 128 256 where
  thread := .inr (by decide)
  room := by decide
  frame := by decide
  argThread := by decide
  argTask := by decide
  leads := by
    unfold LeadsTo
    rw [if_neg (by decide)]
    refine ⟨?_, 264, by decide, ?_, by decide⟩
    · intro i hi
      change 256 ≤ 256 + i ∧ 256 + i < 272
      omega
    · intro i hi
      change 256 ≤ 264 + i ∧ 264 + i < 272
      omega

def secondEntered : Config :=
  secondCreated.switch twoThreads 128

/- The second thread calls back, with a task record at 260. -/
def secondCalls : Config :=
  { secondEntered with
    machine :=
      { regs := fun r => if r = .esp then 8240 else 0
        eflags := 0
        eip := 0x380
        cr3 := secondEntered.machine.cr3
        ram :=
          ByteMemory.putsVia (twoThreads.place 2)
            secondEntered.machine.ram
            [(260, 268), (268, 1), (8244, 64), (8248, 260)] } }

theorem current_secondEntered :
    secondEntered.current = 128 := rfl

theorem cr3_secondEntered :
    secondEntered.machine.cr3 = 2 :=
  ((Inv.reachable noOverlap_twoThreads
    reachable_secondCreated).switch noOverlap_twoThreads
      calls_secondCreated).2.loaded

/- The words that the second thread has stored. -/
theorem word_secondCalls
    {x : Nat × UInt32}
    (hx :
      x ∈ [((260 : Nat), (268 : UInt32)), (268, 1),
        (8244, 64), (8248, 260)]) :
    secondCalls.machine.word twoThreads.place
        secondCalls.machine.cr3 x.1 = x.2 := by
  change
    ByteMemory.wordVia
        (twoThreads.place secondEntered.machine.cr3)
        (ByteMemory.putsVia (twoThreads.place 2) _ _) x.1 = x.2
  rw [cr3_secondEntered]
  generalize secondEntered.machine.ram = ram
  simp only [List.mem_cons, List.not_mem_nil, or_false] at hx
  rcases hx with rfl | rfl | rfl | rfl <;> rfl

theorem calls_secondCalls :
    Calls twoThreads secondCalls 64 260 where
  thread := .inr (by decide)
  room := by decide
  frame := by decide
  argThread := word_secondCalls (x := (8244, 64)) (by decide)
  argTask := word_secondCalls (x := (8248, 260)) (by decide)
  leads := by
    unfold LeadsTo
    rw [if_neg (by decide)]
    refine ⟨?_, 268,
      word_secondCalls (x := (260, 268)) (by decide), ?_,
      word_secondCalls (x := (268, 1)) (by decide)⟩
    · intro i hi
      change 256 ≤ 260 + i ∧ 260 + i < 272
      omega
    · intro i hi
      change 256 ≤ 268 + i ∧ 268 + i < 272
      omega

/- The places of its stores. -/
theorem ram_secondCalls
    {x : Nat}
    (hTask : x < 260 ∨ 272 ≤ x)
    (hStack : x < 139316 ∨ 139324 ≤ x) :
    secondCalls.machine.ram x = secondEntered.machine.ram x := by
  apply ByteMemory.putsVia_apply_of_ne
  intro s hs i hi
  simp only [List.mem_cons, List.not_mem_nil, or_false] at hs
  rcases hs with rfl | rfl | rfl | rfl
  · have hPlace : twoThreads.place 2 (260 + i) = 260 + i :=
      if_pos (by omega)
    dsimp only
    omega
  · have hPlace : twoThreads.place 2 (268 + i) = 268 + i :=
      if_pos (by omega)
    dsimp only
    omega
  · have hPlace :
        twoThreads.place 2 (8244 + i) = 8244 + i + 131072 :=
      if_neg (by omega)
    dsimp only
    omega
  · have hPlace :
        twoThreads.place 2 (8248 + i) = 8248 + i + 131072 :=
      if_neg (by omega)
    dsimp only
    omega

theorem thread_secondEntered
    (hOther : secondEntered.resume u ≠ none) :
    u = 64 ∨ u = 128 := by
  by_contra hNe
  rw [not_or] at hNe
  have hSecond : secondCreated.resume u = none :=
    Function.update_of_ne hNe.2 _ (fun _ => none)
  exact hOther
    ((resume_switch_of_ne hNe.1 128).trans hSecond)

theorem away_secondEntered :
    Away twoThreads secondCreated secondEntered :=
  .left 128 256 calls_secondCreated (by decide)

attribute [irreducible] secondEntered

theorem leaves_secondCalls :
    Leaves twoThreads secondEntered secondCalls.machine where
  cr3 := rfl
  symbols := by
    intro g a hg ha
    rw [place_twoThreads_kernel _ (.inr (.inl ⟨g, hg, ha⟩))]
    have hHi := ha.2
    rcases hg with rfl | rfl | rfl
    · change a < 16 + 4 at hHi
      exact ram_secondCalls (by omega) (by omega)
    · change a < 20 + 4 at hHi
      exact ram_secondCalls (by omega) (by omega)
    · change a < 24 + 4 at hHi
      exact ram_secondCalls (by omega) (by omega)
  records := by
    intro u a hNe hOther ha
    have hu := thread_secondEntered hOther
    rw [place_twoThreads_kernel _ (.inl ⟨u, hu, ha⟩)]
    have hHi := ha.2
    rcases hu with rfl | rfl
    · change a < 64 + 40 at hHi
      exact ram_secondCalls (by omega) (by omega)
    · exact absurd current_secondEntered.symm hNe
  otherStacks := by
    intro u a hNe hOther ha
    have hu := thread_secondEntered hOther
    have hLo : 8192 ≤ a := ha.1
    have hHi : a < 8256 := ha.2
    rw [place_twoThreads_stack _ ha]
    rcases hu with rfl | rfl
    · change secondCalls.machine.ram (a + 65536 * 1) =
        secondEntered.machine.ram (a + 65536 * 1)
      exact ram_secondCalls (by omega) (by omega)
    · exact absurd current_secondEntered.symm hNe

theorem first_thread_returns :
    let back := (secondCalls.switch twoThreads 64).machine
    Resumed twoThreads back
        ⟨callContext twoThreads secondCreated.machine, []⟩ ∧
      back.cr3 = 1 ∧
      ∀ a, 8240 ≤ a → a < 8256 →
        back.ram (a + 65536) =
          secondCreated.machine.ram (a + 65536) := by
  have hCurrent : secondCalls.current = 128 :=
    current_secondEntered
  have hAway : Away twoThreads secondCreated secondCalls :=
    .step away_secondEntered
      (.compute secondCalls.machine leaves_secondCalls)
      (by rw [hCurrent]; decide)
  rcases switch_context_returns noOverlap_twoThreads
    reachable_secondCreated hAway calls_secondCalls with
    ⟨hResumed, hSpace, hBytes⟩
  refine ⟨hResumed, hSpace, fun a hLo hHi => ?_⟩
  have hStack : twoThreads.InStack 64 a :=
    ⟨Nat.le_trans (by decide) hLo, hHi⟩
  have hByte := hBytes a hStack hLo
  rw [hSpace, place_twoThreads_stack _ hStack] at hByte
  exact hByte

end Asm

end SosKernel
