import SosKernel.Lib.Program
import SosKernel.Kheap.Tiling
import SosKernel.Kheap.Traced

/-
  What the parts of `kmalloc` and `kfree` have done when
  they return.

  Main declarations:
    * `load32_ok`
    * `growHeap_ok`, `shrinkHeap_ok`
    * `Fits`, `Examined`, `findChunk_ok`
-/

------------------------------------------------------------
-- Memory
------------------------------------------------------------

namespace SosKernel

namespace Kheap

/- The heap with another memory. -/
def Heap.withMem (h : Heap) (mem : ByteMemory) : Heap :=
  { h with mem := mem }

variable {h h' : Heap}

theorem touch_ok
    {a : Nat}
    {u : Unit}
    (hRun : (touch a).run h = .ok u h') :
    h' = h := by
  unfold touch at hRun
  rw [EStateM.bind_of_ok (EStateM.run_get h)] at hRun
  split at hRun
  · cases hRun
  · cases hRun
    rfl

theorem load32_ok
    {a v : Nat}
    (hRun : (load32 a).run h = .ok v h') :
    v = h.mem.read32 a ∧ h' = h := by
  unfold load32 at hRun
  rw [EStateM.bind_eq_ok_iff] at hRun
  rcases hRun with ⟨_, h₁, hFirst, hRun⟩
  rw [EStateM.bind_eq_ok_iff] at hRun
  rcases hRun with ⟨_, h₂, hLast, hRun⟩
  have h₁Eq := touch_ok hFirst
  have h₂Eq := touch_ok hLast
  subst h₁Eq h₂Eq
  cases hRun
  exact ⟨rfl, rfl⟩

------------------------------------------------------------
-- Header Fields
------------------------------------------------------------

theorem getNext_ok
    {a v : Nat}
    (hRun : (getNext a).run h = .ok v h') :
    v = h.mem.read32 (a + 4) ∧ h' = h :=
  load32_ok hRun

theorem getAllocated_ok
    {a v : Nat}
    (hRun : (getAllocated a).run h = .ok v h') :
    v = h.mem.read32 (a + 8) % 2 ∧ h' = h := by
  unfold getAllocated at hRun
  rw [EStateM.bind_eq_ok_iff] at hRun
  rcases hRun with ⟨word, h₁, hLoad, hRun⟩
  rcases load32_ok hLoad with ⟨rfl, rfl⟩
  cases hRun
  exact ⟨rfl, rfl⟩

theorem getLength_ok
    {a v : Nat}
    (hRun : (getLength a).run h = .ok v h') :
    v = h.mem.read32 (a + 8) / 2 ∧ h' = h := by
  unfold getLength at hRun
  rw [EStateM.bind_eq_ok_iff] at hRun
  rcases hRun with ⟨word, h₁, hLoad, hRun⟩
  rcases load32_ok hLoad with ⟨rfl, rfl⟩
  cases hRun
  exact ⟨rfl, rfl⟩

------------------------------------------------------------
-- Accesses with a Trace
------------------------------------------------------------

@[simp] theorem withMem_mem (mem : ByteMemory) :
    (h.withMem mem).mem = mem := rfl

@[simp] theorem withMem_withMem (mem mem' : ByteMemory) :
    (h.withMem mem).withMem mem' = h.withMem mem' := rfl

@[simp] theorem withMem_kheapMax (mem : ByteMemory) :
    (h.withMem mem).kheapMax = h.kheapMax := rfl

@[simp] theorem withMem_isMapped
    (mem : ByteMemory)
    (a : Nat) :
    (h.withMem mem).isMapped a = h.isMapped a := rfl

theorem touch_of_mapped
    {a : Nat}
    (hMapped : (h.mapping (a / PAGE_SIZE)).isSome = true) :
    (touch a).run h = .ok () h := by
  have hNot : ¬ (h.mapping (a / PAGE_SIZE)).isNone = true := by
    rw [← Option.not_isSome, hMapped]
    decide
  unfold touch
  rw [EStateM.bind_of_ok (EStateM.run_get h), if_neg hNot]
  rfl

theorem touch_of_unmapped
    {a : Nat}
    (hMapped : (h.mapping (a / PAGE_SIZE)).isSome = false) :
    (touch a).run h = .error (.pageFault a) h := by
  unfold touch
  rw [EStateM.bind_of_ok (EStateM.run_get h),
    if_pos (by simpa using hMapped)]
  rfl

/- Both ends of a word are touched before it is accessed. -/
theorem touch_word
    {α : Type}
    (x : HeapM α)
    (h : Heap)
    (a : Nat) :
    (do touch a; touch (a + 3); x : HeapM α).run h =
        x.run h ∧ h.isMapped a = true ∨
      ∃ e, (do touch a; touch (a + 3); x : HeapM α).run h =
        .error e h ∧ h.isMapped a = false := by
  unfold Heap.isMapped
  cases hFirst : (h.mapping (a / PAGE_SIZE)).isSome with
  | false =>
      refine .inr ⟨.pageFault a, ?_, rfl⟩
      exact EStateM.bind_of_error (touch_of_unmapped hFirst)
  | true =>
      rw [EStateM.bind_of_ok (touch_of_mapped hFirst)]
      cases hLast :
          (h.mapping ((a + 3) / PAGE_SIZE)).isSome with
      | false =>
          refine .inr ⟨.pageFault (a + 3), ?_, rfl⟩
          exact EStateM.bind_of_error
            (touch_of_unmapped hLast)
      | true =>
          rw [EStateM.bind_of_ok (touch_of_mapped hLast)]
          exact .inl ⟨rfl, rfl⟩

/- A load succeeds where the word is mapped. -/
theorem load32_run (h : Heap) (a : Nat) :
    (load32 a).run h = .ok (h.mem.read32 a) h ∧
        h.isMapped a = true ∨
      ∃ e, (load32 a).run h = .error e h ∧
        h.isMapped a = false :=
  touch_word _ h a

theorem store32_run (h : Heap) (a v : Nat) :
    (store32 a v).run h =
          .ok () (h.withMem (h.mem.write32 a v)) ∧
        h.isMapped a = true ∨
      ∃ e, (store32 a v).run h = .error e h ∧
        h.isMapped a = false :=
  touch_word _ h a

/- What an event must say for nothing to wrap. -/
def Event.Fits : Event → Prop
| .add a b => a + b < 2 ^ 32
| .sub a b => b ≤ a
| .length v => v < 2 ^ 31
| .store _ _ _ => True

/- Nothing in the trace wraps. -/
def Fit (trace : List Event) : Prop :=
  ∀ e ∈ trace, e.Fits

theorem Fit.nil : Fit [] := by
  intro e hMem
  cases hMem

theorem Fit.append
    {trace trace' : List Event}
    (hFit : Fit trace)
    (hFit' : Fit trace') :
    Fit (trace ++ trace') := by
  intro e hMem
  rcases List.mem_append.mp hMem with hMem | hMem
  · exact hFit e hMem
  · exact hFit' e hMem

theorem Fit.push
    {trace : List Event}
    {e : Event}
    (hFit : Fit trace)
    (hFits : e.Fits) :
    Fit (trace ++ [e]) := by
  apply hFit.append
  intro e' hMem
  cases List.mem_singleton.mp hMem
  exact hFits

/- The event is no store outside the mapped heap. -/
def Event.InHeap : Event → Prop
| .store a kheapMax mapped =>
    KHEAP_START ≤ a ∧ a + 4 ≤ kheapMax ∧ mapped = true
| _ => True

/- No store of the trace goes outside the mapped heap. -/
def InHeap (trace : List Event) : Prop :=
  ∀ e ∈ trace, e.InHeap

theorem inHeap_append
    {trace trace' : List Event} :
    InHeap (trace ++ trace') ↔
      InHeap trace ∧ InHeap trace' :=
  List.forall_mem_append

/- A computation stops with a trace in which nothing wraps. -/
def Stopped (_ : Stop) (s : WithTrace Heap Event) : Prop :=
  Fit s.trace

/- The store that is met at `a`. -/
def Heap.storeAt (h : Heap) (a : Nat) : Event :=
  .store a h.kheapMax true

section Sequences

variable {α : Type}
variable {a b v : Nat}
variable {trace : List Event}
variable {Q : α → WithTrace Heap Event → Prop}

/- A part without a trace, by what it does if it returns. -/
theorem sat_lift
    {β : Type}
    {x : HeapM β}
    {f : β → TraceM α}
    (hFit : Fit trace)
    (hNext :
      ∀ c h', x.run h = .ok c h' →
        ((f c).run ⟨h', trace⟩).Sat Q Stopped) :
    ((EStateM.lift x >>= f).run ⟨h, trace⟩).Sat
      Q Stopped := by
  cases hRun : x.run h with
  | ok c h' =>
      have hLift := EStateM.run_lift_ok
        (s := ⟨h, trace⟩) hRun
      rw [EStateM.bind_of_ok hLift]
      exact hNext c h' hRun
  | error e h' =>
      have hLift := EStateM.run_lift_error
        (s := ⟨h, trace⟩) hRun
      rw [EStateM.bind_of_error hLift]
      exact hFit

theorem sat_load32
    {f : Nat → TraceM α}
    (hFit : Fit trace)
    (hNext :
      ((f (h.mem.read32 a)).run ⟨h, trace⟩).Sat Q Stopped) :
    ((EStateM.lift (load32 a) >>= f).run ⟨h, trace⟩).Sat
      Q Stopped := by
  refine sat_lift hFit (fun v h' hRun => ?_)
  rcases load32_ok hRun with ⟨rfl, rfl⟩
  exact hNext

theorem sat_getPrev
    {f : Nat → TraceM α}
    (hFit : Fit trace)
    (hNext :
      ((f (h.mem.read32 a)).run ⟨h, trace⟩).Sat Q Stopped) :
    ((Traced.getPrev a >>= f).run ⟨h, trace⟩).Sat
      Q Stopped :=
  sat_load32 hFit hNext

theorem sat_getNext
    {f : Nat → TraceM α}
    (hFit : Fit trace)
    (hNext :
      ((f (h.mem.read32 (a + 4))).run ⟨h, trace⟩).Sat
        Q Stopped) :
    ((Traced.getNext a >>= f).run ⟨h, trace⟩).Sat
      Q Stopped :=
  sat_load32 hFit hNext

theorem sat_getAllocated
    {f : Nat → TraceM α}
    (hFit : Fit trace)
    (hNext :
      ((f (h.mem.read32 (a + 8) % 2)).run ⟨h, trace⟩).Sat
        Q Stopped) :
    ((Traced.getAllocated a >>= f).run ⟨h, trace⟩).Sat
      Q Stopped := by
  refine sat_lift hFit (fun v h' hRun => ?_)
  rcases getAllocated_ok hRun with ⟨rfl, rfl⟩
  exact hNext

theorem sat_getLength
    {f : Nat → TraceM α}
    (hFit : Fit trace)
    (hNext :
      ((f (h.mem.read32 (a + 8) / 2)).run ⟨h, trace⟩).Sat
        Q Stopped) :
    ((Traced.getLength a >>= f).run ⟨h, trace⟩).Sat
      Q Stopped := by
  refine sat_lift hFit (fun v h' hRun => ?_)
  rcases getLength_ok hRun with ⟨rfl, rfl⟩
  exact hNext

theorem sat_add
    {f : Nat → TraceM α}
    (hFit : Fit trace)
    (hFits : a + b < 2 ^ 32)
    (hNext :
      Fit (trace ++ [.add a b]) →
        ((f (a + b)).run ⟨h, trace ++ [.add a b]⟩).Sat
          Q Stopped) :
    ((Traced.add a b >>= f).run ⟨h, trace⟩).Sat
      Q Stopped := by
  have hNext := hNext (hFit.push hFits)
  rw [← add32_of_lt hFits] at hNext
  exact hNext

theorem sat_sub
    {f : Nat → TraceM α}
    (hFit : Fit trace)
    (hLe : b ≤ a)
    (hLt : a < 2 ^ 32)
    (hNext :
      Fit (trace ++ [.sub a b]) →
        ((f (a - b)).run ⟨h, trace ++ [.sub a b]⟩).Sat
          Q Stopped) :
    ((Traced.sub a b >>= f).run ⟨h, trace⟩).Sat
      Q Stopped := by
  have hNext := hNext (hFit.push hLe)
  rw [← sub32_of_le hLe hLt] at hNext
  exact hNext

/- A store, with what its success tells. -/
theorem sat_store32_mapped
    {f : Unit → TraceM α}
    (hFit : Fit trace)
    (hNext :
      h.isMapped a = true →
        Fit (trace ++ [h.storeAt a]) →
          ((f ()).run
            ⟨h.withMem (h.mem.write32 a v),
              trace ++ [h.storeAt a]⟩).Sat Q Stopped) :
    ((Traced.store32 a v >>= f).run ⟨h, trace⟩).Sat
      Q Stopped := by
  unfold Traced.store32
  rw [bind_assoc,
    EStateM.bind_of_ok (EStateM.run_record _ _)]
  rcases store32_run h a v with
    ⟨hRun, hMapped⟩ | ⟨e, hRun, _⟩
  · have hNext := hNext hMapped (hFit.push trivial)
    rw [EStateM.bind_of_ok (EStateM.run_lift_ok hRun)]
    dsimp only
    rw [hMapped]
    exact hNext
  · rw [EStateM.bind_of_error (EStateM.run_lift_error hRun)]
    exact hFit.push trivial

theorem sat_store32
    {f : Unit → TraceM α}
    (hFit : Fit trace)
    (hNext :
      Fit (trace ++ [h.storeAt a]) →
        ((f ()).run
          ⟨h.withMem (h.mem.write32 a v),
            trace ++ [h.storeAt a]⟩).Sat Q Stopped) :
    ((Traced.store32 a v >>= f).run ⟨h, trace⟩).Sat
      Q Stopped :=
  sat_store32_mapped hFit (fun _ => hNext)

theorem sat_setPrev
    {f : Unit → TraceM α}
    (hFit : Fit trace)
    (hNext :
      Fit (trace ++ [h.storeAt a]) →
        ((f ()).run
          ⟨h.withMem (h.mem.write32 a v),
            trace ++ [h.storeAt a]⟩).Sat Q Stopped) :
    ((Traced.setPrev a v >>= f).run ⟨h, trace⟩).Sat
      Q Stopped :=
  sat_store32 hFit hNext

theorem sat_setNext
    {f : Unit → TraceM α}
    (hFit : Fit trace)
    (hNext :
      Fit (trace ++ [h.storeAt (a + 4)]) →
        ((f ()).run
          ⟨h.withMem (h.mem.write32 (a + 4) v),
            trace ++ [h.storeAt (a + 4)]⟩).Sat Q Stopped) :
    ((Traced.setNext a v >>= f).run ⟨h, trace⟩).Sat
      Q Stopped :=
  sat_store32 hFit hNext

theorem sat_setAllocated
    {f : Unit → TraceM α}
    (hFit : Fit trace)
    (hNext :
      Fit (trace ++ [h.storeAt (a + 8)]) →
        ((f ()).run
          ⟨h.withMem
              (h.mem.write32 (a + 8)
                (h.mem.read32 (a + 8) / 2 * 2 + v % 2)),
            trace ++ [h.storeAt (a + 8)]⟩).Sat Q Stopped) :
    ((Traced.setAllocated a v >>= f).run ⟨h, trace⟩).Sat
      Q Stopped := by
  unfold Traced.setAllocated
  rw [bind_assoc]
  exact sat_load32 hFit (sat_store32 hFit hNext)

theorem sat_setLength
    {f : Unit → TraceM α}
    (hFit : Fit trace)
    (hFits : v < 2 ^ 31)
    (hNext :
      Fit (trace ++ [.length v, h.storeAt (a + 8)]) →
        ((f ()).run
          ⟨h.withMem
              (h.mem.write32 (a + 8)
                (v * 2 + h.mem.read32 (a + 8) % 2)),
            trace ++ [.length v, h.storeAt (a + 8)]⟩).Sat
              Q Stopped) :
    ((Traced.setLength a v >>= f).run ⟨h, trace⟩).Sat
      Q Stopped := by
  have hPush : Fit (trace ++ [.length v]) := hFit.push hFits
  have hTrace :
      trace ++ [.length v, h.storeAt (a + 8)] =
        (trace ++ [.length v]) ++ [h.storeAt (a + 8)] := by
    rw [List.append_assoc]
    rfl
  rw [hTrace] at hNext
  unfold Traced.setLength
  rw [Nat.mod_eq_of_lt hFits, bind_assoc,
    EStateM.bind_of_ok (EStateM.run_record _ _), bind_assoc]
  exact sat_load32 hPush (sat_store32 hPush hNext)

/- A program that ends with one more access. -/
theorem sat_of_bind_pure
    {x : TraceM α}
    (hSat :
      ((x >>= pure).run ⟨h, trace⟩).Sat Q Stopped) :
    (x.run ⟨h, trace⟩).Sat Q Stopped := by
  rw [bind_pure] at hSat
  exact hSat

end Sequences

------------------------------------------------------------
-- Growing and Shrinking
------------------------------------------------------------

/-
  Only pages from `kheap_max` on have been added, as many as
  the target needs: the memory below, the chain and the
  alignment are kept.
-/
structure Grown (h h' : Heap) (target : Nat) : Prop where
  mem : h.mem.SameOn 0 h.kheapMax h'.mem
  first : h'.kheapFirst = h.kheapFirst
  le : h.kheapMax ≤ h'.kheapMax
  reached : target ≤ h'.kheapMax
  tight :
    h'.kheapMax = h.kheapMax ∨
      h'.kheapMax < target + PAGE_SIZE
  maxLe : h'.kheapMax ≤ KHEAP_END
  aligned : h'.kheapMax % PAGE_SIZE = 0
  mapped :
    ∀ page, h.kheapMax / PAGE_SIZE ≤ page →
      page < h'.kheapMax / PAGE_SIZE →
        (h'.mapping page).isSome = true
  mapping :
    ∀ page, page < h.kheapMax / PAGE_SIZE ∨
        h'.kheapMax / PAGE_SIZE ≤ page →
      h'.mapping page = h.mapping page

theorem growHeap_ok
    {fuel target : Nat}
    {u : Unit}
    (hRun : (growHeap fuel target).run h = .ok u h')
    (hMax : h.kheapMax ≤ KHEAP_END)
    (hAligned : h.kheapMax % PAGE_SIZE = 0)
    (hTarget : target ≤ KHEAP_END) :
    Grown h h' target := by
  induction fuel generalizing h with
  | zero => cases hRun
  | succ fuel ih =>
      unfold growHeap at hRun
      rw [EStateM.bind_of_ok (EStateM.run_get h)] at hRun
      dsimp only at hRun
      split at hRun
      · -- one more page, then the rest of the loop
        rename_i hLt
        rw [EStateM.bind_eq_ok_iff] at hRun
        rcases hRun with ⟨page, h₁, hAlloc, hRun⟩
        have hSame :
            h₁.mem = h.mem ∧ h₁.kheapMax = h.kheapMax ∧
              h₁.kheapFirst = h.kheapFirst ∧
              h₁.mapping = h.mapping := by
          unfold pmmAllocPage at hAlloc
          rw [EStateM.bind_of_ok (EStateM.run_get h)]
            at hAlloc
          split at hAlloc
          · cases hAlloc
          · cases hAlloc
            exact ⟨rfl, rfl, rfl, rfl⟩
        unfold map at hRun
        rw [EStateM.bind_of_ok (EStateM.run_modify _ _),
          EStateM.bind_of_ok (EStateM.run_modify _ _)]
          at hRun
        rcases hSame with ⟨hMem, hMaxSame, hFirst, hPages⟩
        unfold KHEAP_END PAGE_SIZE at *
        have hStep : add32 h₁.kheapMax 0x1000 =
            h.kheapMax + 0x1000 := by
          rw [hMaxSame, add32_of_lt (by omega)]
        have hRest := ih hRun
          (by simp only [hStep]; omega)
          (by simp only [hStep]; omega)
        have hRestMem := hRest.mem
        have hRestLe := hRest.le
        have hRestTight := hRest.tight
        have hRestMapped := hRest.mapped
        have hRestPages := hRest.mapping
        unfold PAGE_SIZE at hRestTight hRestMapped hRestPages
        simp only [hStep] at hRestMem hRestLe hRestTight
        simp only [hStep] at hRestMapped hRestPages
        refine
          { mem := ?_
            first := hRest.first.trans hFirst
            le := by omega
            reached := hRest.reached
            tight := ?_
            maxLe := hRest.maxLe
            aligned := hRest.aligned
            mapped := ?_
            mapping := ?_ }
        · intro x hLo hHi
          have hOther :
              ¬ x / 0x1000 = h.kheapMax / 0x1000 := by
            omega
          rw [hRestMem x hLo (by omega)]
          simp only [hOther, if_false, hMem]
        · refine .inr ?_
          show h'.kheapMax < target + 0x1000
          omega
        · intro page hLo hHi
          unfold PAGE_SIZE at hLo hHi
          by_cases hHere : page = h.kheapMax / 0x1000
          · -- the page of this pass of the loop
            rw [hRestPages page (by omega), if_pos hHere]
            rfl
          · exact hRestMapped page (by omega) hHi
        · intro page hOut
          unfold PAGE_SIZE at hOut
          have hOther : ¬ page = h.kheapMax / 0x1000 := by
            omega
          rw [hRestPages page (by omega), if_neg hOther,
            hPages]
      · rename_i hNot
        cases hRun
        exact
          { mem := ByteMemory.SameOn.refl _ _ _
            first := rfl
            le := Nat.le_refl _
            reached := by omega
            tight := .inl rfl
            maxLe := hMax
            aligned := hAligned
            mapped := by
              intro page hLo hHi
              omega
            mapping := fun _ _ => rfl }

/- The events of the loop add pages to `kheap_max`. -/
theorem growHeap_events
    {target : Nat}
    {trace : List Event}
    (fuel : Nat)
    (hFit : Fit trace)
    (hTarget : target ≤ KHEAP_END) :
    ((Traced.growHeap fuel target).run ⟨h, trace⟩).Sat
      (fun _ s' => ∃ events,
        s'.trace = trace ++ events ∧
          Fit s'.trace ∧ InHeap events)
      Stopped := by
  induction fuel generalizing h trace with
  | zero => exact hFit
  | succ fuel ih =>
      unfold Traced.growHeap
      refine sat_lift hFit (fun h₀ h₁ hRun => ?_)
      cases hRun
      dsimp only
      split
      · rename_i hLt
        refine sat_lift hFit (fun page h₁ hRun => ?_)
        have hMax : h₁.kheapMax = h.kheapMax := by
          unfold pmmAllocPage at hRun
          rw [EStateM.bind_of_ok (EStateM.run_get h)] at hRun
          split at hRun
          · cases hRun
          · cases hRun
            rfl
        refine sat_lift hFit (fun u h₂ hRun => ?_)
        cases hRun
        rw [EStateM.bind_of_ok (EStateM.run_record _ _)]
        have hFit := hFit.push
          (e := .add h₁.kheapMax PAGE_SIZE) (by
            show _ < _
            unfold KHEAP_END at hTarget
            unfold PAGE_SIZE
            omega)
        refine sat_lift hFit (fun u h₃ hRun => ?_)
        cases hRun
        refine (ih hFit).imp ?_ ?_
        · rintro _ s' ⟨events, hTrace, hFit', hEvents⟩
          refine ⟨.add h₁.kheapMax PAGE_SIZE :: events, ?_,
            hFit', ?_⟩
          · rw [hTrace, List.append_assoc]
            rfl
          · intro e hMem
            rcases List.mem_cons.mp hMem with rfl | hMem
            · trivial
            · exact hEvents e hMem
        · intro e s hStopped
          exact hStopped
      · refine ⟨[], (List.append_nil _).symm, hFit, ?_⟩
        intro e hMem
        cases hMem

theorem allocChunk_sat
    {fuel start len : Nat}
    {trace : List Event}
    (hFit : Fit trace)
    (hMax : h.kheapMax ≤ KHEAP_END)
    (hAligned : h.kheapMax % PAGE_SIZE = 0)
    (hStart : start ≤ KHEAP_END) :
    ((Traced.allocChunk fuel start len).run ⟨h, trace⟩).Sat
      (fun _ s' =>
        start + len ≤ KHEAP_END ∧
          Grown h s'.state (start + len) ∧
          Fit s'.trace ∧
          ∃ events, s'.trace = trace ++ events ∧
            InHeap events)
      Stopped := by
  unfold Traced.allocChunk
  refine sat_sub hFit hStart (by decide) (fun hFit => ?_)
  split
  · exact hFit
  · rename_i hRoom
    have hEnd : start + len ≤ KHEAP_END := by omega
    have hFits : start + len < 2 ^ 32 := by
      unfold KHEAP_END at hEnd
      omega
    refine sat_add hFit hFits (fun hFit => ?_)
    have hEvents := growHeap_events
      (h := h) fuel hFit hEnd
    refine ((Traced.growHeap_traces _ _).sat_and_run
      hEvents).imp ?_ ?_
    · rintro _ s' ⟨⟨events, hTrace, hFit', hIn⟩, hRun⟩
      refine ⟨hEnd, growHeap_ok hRun hMax hAligned hEnd,
        hFit', [.sub KHEAP_END start, .add start len] ++
          events, ?_, ?_⟩
      · rw [hTrace]
        simp only [List.append_assoc, List.cons_append,
          List.nil_append]
      · rw [inHeap_append]
        refine ⟨?_, hIn⟩
        simp [InHeap, Event.InHeap]
    · intro e s hStopped
      exact hStopped

/- Every whole page from `chunk` on has been given back. -/
structure Shrunk (h h' : Heap) (chunk : Nat) : Prop where
  mem : h'.mem = h.mem
  first : h'.kheapFirst = h.kheapFirst
  le : h'.kheapMax ≤ h.kheapMax
  kept : chunk ≤ h'.kheapMax
  tight : h'.kheapMax < chunk + PAGE_SIZE
  aligned : h'.kheapMax % PAGE_SIZE = 0
  unmapped :
    ∀ page, h'.kheapMax / PAGE_SIZE ≤ page →
      page < h.kheapMax / PAGE_SIZE →
        h'.mapping page = none
  mapping :
    ∀ page, page < h'.kheapMax / PAGE_SIZE ∨
        h.kheapMax / PAGE_SIZE ≤ page →
      h'.mapping page = h.mapping page

theorem shrinkHeap_ok
    {fuel chunk : Nat}
    {u : Unit}
    (hRun : (shrinkHeap fuel chunk).run h = .ok u h')
    (hMax : h.kheapMax ≤ KHEAP_END)
    (hAligned : h.kheapMax % PAGE_SIZE = 0)
    (hStart : KHEAP_START ≤ chunk)
    (hKept : chunk ≤ h.kheapMax) :
    Shrunk h h' chunk := by
  induction fuel generalizing h with
  | zero => cases hRun
  | succ fuel ih =>
      unfold shrinkHeap at hRun
      rw [EStateM.bind_of_ok (EStateM.run_get h)] at hRun
      unfold KHEAP_END KHEAP_START PAGE_SIZE at *
      rw [sub32_of_le (by omega) (by omega)] at hRun
      split at hRun
      · rename_i hLe
        rw [EStateM.bind_of_ok (EStateM.run_modify _ _),
          EStateM.bind_of_ok (EStateM.run_get _),
          sub32_of_le (by omega) (by omega)] at hRun
        dsimp only at hRun
        rw [EStateM.bind_eq_ok_iff] at hRun
        rcases hRun with ⟨page, h₁, hGet, hRun⟩
        have hSame :
            h₁ = { h with kheapMax := h.kheapMax - 0x1000 } := by
          unfold getMapping at hGet
          rw [EStateM.bind_of_ok (EStateM.run_get _)] at hGet
          split at hGet
          · cases hGet
          · cases hGet
            rfl
        subst hSame
        unfold pmmFreePage unmap at hRun
        rw [EStateM.bind_of_ok (EStateM.run_modify _ _),
          EStateM.bind_of_ok (EStateM.run_modify _ _)]
          at hRun
        have hRest := ih hRun (by dsimp only; omega)
          (by dsimp only; omega) (by dsimp only; omega)
        have hLe := hRest.le
        have hUnmapped := hRest.unmapped
        have hPages := hRest.mapping
        unfold PAGE_SIZE at hUnmapped hPages
        dsimp only at hLe hUnmapped hPages
        refine
          { mem := hRest.mem
            first := hRest.first
            le := by omega
            kept := hRest.kept
            tight := hRest.tight
            aligned := hRest.aligned
            unmapped := ?_
            mapping := ?_ }
        · intro page hLo hHi
          unfold PAGE_SIZE at hLo hHi
          by_cases hHere :
              page = (h.kheapMax - 0x1000) / 0x1000
          · -- the page of this pass of the loop
            rw [hPages page (by omega), if_pos hHere]
          · exact hUnmapped page hLo (by omega)
        · intro page hOut
          unfold PAGE_SIZE at hOut
          have hOther :
              ¬ page = (h.kheapMax - 0x1000) / 0x1000 := by
            omega
          rw [hPages page (by omega), if_neg hOther]
      · rename_i hNot
        cases hRun
        exact
          { mem := rfl
            first := rfl
            le := Nat.le_refl _
            kept := hKept
            tight := by
              unfold PAGE_SIZE
              omega
            aligned := hAligned
            unmapped := by
              intro page hLo hHi
              omega
            mapping := fun _ _ => rfl }

------------------------------------------------------------
-- The Search
------------------------------------------------------------

/- The chunk at `a` is free and long enough. -/
def Fits (h : Heap) (len a : Nat) : Prop :=
  h.mem.read32 (a + 8) % 2 = 0 ∧
    len ≤ h.mem.read32 (a + 8) / 2

/- The headers that the search for `len` bytes examines. -/
inductive Examined (h : Heap) (len : Nat) : Nat → Prop where
| first
    (hFirst : h.kheapFirst ≠ 0) :
    Examined h len h.kheapFirst
| next
    {a : Nat}
    (hExamined : Examined h len a)
    (hNot : ¬ Fits h len a)
    (hNext : h.mem.read32 (a + 4) ≠ 0) :
    Examined h len (h.mem.read32 (a + 4))

/-
  The search ends at an examined chunk that fits, or null,
  and changes nothing.
-/
theorem findChunk_ok
    {fuel len cur prev : Nat}
    {found : Nat × Nat}
    (hRun :
      (findChunk fuel len cur prev).run h = .ok found h')
    (hCur : cur ≠ 0 → Examined h len cur) :
    h' = h ∧
      (found.1 ≠ 0 →
        Examined h len found.1 ∧ Fits h len found.1) := by
  induction fuel generalizing cur prev with
  | zero => cases hRun
  | succ fuel ih =>
      unfold findChunk at hRun
      split at hRun
      · cases hRun
        exact ⟨rfl, fun hNe => absurd rfl hNe⟩
      · rename_i hNe
        rw [EStateM.bind_eq_ok_iff] at hRun
        rcases hRun with ⟨allocated, h₁, hAlloc, hRun⟩
        rcases getAllocated_ok hAlloc with ⟨rfl, rfl⟩
        rw [EStateM.bind_eq_ok_iff] at hRun
        rcases hRun with ⟨length, h₁, hLength, hRun⟩
        rcases getLength_ok hLength with ⟨rfl, rfl⟩
        split at hRun
        · rename_i hFits
          cases hRun
          exact ⟨rfl, fun _ => ⟨hCur hNe, hFits⟩⟩
        · rename_i hNot
          rw [EStateM.bind_eq_ok_iff] at hRun
          rcases hRun with ⟨next, h₁, hNext, hRun⟩
          rcases getNext_ok hNext with ⟨rfl, rfl⟩
          exact ih hRun (fun hNext =>
            .next (hCur hNe) hNot hNext)

end Kheap

end SosKernel
