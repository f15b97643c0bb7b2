import SosKernel.Gdt
import Mathlib.Data.Fintype.Basic

/-
  The interrupt table of `kernel/idt.c`, the handlers, and
  the two interrupt controllers that it programs.

  Main declarations:
    * `Pic`, `Pics`: the interrupt controllers
    * `State`, `initIdt`, `registerInterruptHandler`
    * `idtHandler`, `irqHandler`
    * `target_initIdt`: where each interrupt leads
    * `Event`, `State.after`: what happens afterwards
    * `irqs_delivered`
-/

------------------------------------------------------------
-- The Interrupt Controllers
------------------------------------------------------------

namespace SosKernel

namespace Idt

/- The word that a controller expects on its data port. -/
inductive Phase where
| icw2
| icw3
| icw4
| ready
deriving DecidableEq, Repr

/-
  An 8259 controller; the words are those of its last
  initialisation, and `inService` has a bit for each line
  whose interrupt has not been acknowledged.
-/
structure Pic where
  phase : Phase
  icw1 : UInt8
  icw2 : UInt8
  icw3 : UInt8
  icw4 : UInt8
  mask : UInt8
  inService : UInt8
deriving DecidableEq, Repr

/-
  The first port: the start of an initialisation, or a
  command, of which the end of interrupt counts; it ends the
  service of the first line in service.
-/
def Pic.command (p : Pic) (value : UInt8) : Pic :=
  if value &&& 0x10 ≠ 0 then
    { p with
      phase := .icw2
      icw1 := value
      icw4 := 0
      mask := 0
      inService := 0 }
  else if value = 0x20 then
    { p with inService := p.inService &&& (p.inService - 1) }
  else
    p

/- The second port: words of an initialisation, or a mask. -/
def Pic.data (p : Pic) (value : UInt8) : Pic :=
  match p.phase with
  | .icw2 =>
      { p with
        icw2 := value
        phase :=
          if p.icw1 &&& 0x02 = 0 then .icw3
          else if p.icw1 &&& 0x01 ≠ 0 then .icw4
          else .ready }
  | .icw3 =>
      { p with
        icw3 := value
        phase := if p.icw1 &&& 0x01 ≠ 0 then .icw4 else .ready }
  | .icw4 => { p with icw4 := value, phase := .ready }
  | .ready => { p with mask := value }

/-
  Line `k` gets through: it is not masked, and no line that
  comes before it, nor itself, is in service.
-/
def Pic.accepts (p : Pic) (k : Nat) : Bool :=
  p.phase = .ready && (p.icw4 &&& 0x01 ≠ 0) &&
    !p.mask.toNat.testBit k &&
    p.inService.toNat % 2 ^ (k + 1) = 0

/- The processor takes the interrupt of line `k`. -/
def Pic.serve (p : Pic) (k : Nat) : Pic :=
  if p.icw4 &&& 0x02 = 0 then
    { p with inService := p.inService ||| UInt8.ofNat (2 ^ k) }
  else
    p

/- The number that the controller sends for line `k`. -/
def Pic.vector (p : Pic) (k : Nat) : Nat :=
  (p.icw2 &&& 0xF8).toNat + k

/- The master, and the slave on its line 2. -/
structure Pics where
  master : Pic
  slave : Pic
deriving DecidableEq, Repr

def Pics.receive
    (ps : Pics)
    (port : UInt16)
    (value : UInt8) : Pics :=
  if port = 0x20 then
    { ps with master := ps.master.command value }
  else if port = 0x21 then
    { ps with master := ps.master.data value }
  else if port = 0xA0 then
    { ps with slave := ps.slave.command value }
  else if port = 0xA1 then
    { ps with slave := ps.slave.data value }
  else
    ps

/-
  The processor takes interrupt request `k`: the number that
  it gets, and the controllers then.  No device is on line 2
  of the master.
-/
def Pics.acknowledge
    (ps : Pics)
    (k : Nat) : Option (Nat × Pics) :=
  if k < 8 then
    if k ≠ 2 && ps.master.accepts k &&
        !ps.master.icw3.toNat.testBit k then
      some (ps.master.vector k,
        { ps with master := ps.master.serve k })
    else
      none
  else if ps.master.icw3.toNat.testBit 2 &&
      ps.slave.icw3 = 2 && ps.master.accepts 2 &&
      ps.slave.accepts (k - 8) then
    some (ps.slave.vector (k - 8),
      { master := ps.master.serve 2
        slave := ps.slave.serve (k - 8) })
  else
    none

------------------------------------------------------------
-- The Table
------------------------------------------------------------

structure IdtEntry where
  baseLo : UInt16
  sel : UInt16
  always0 : UInt8
  flags : UInt8
  baseHi : UInt16
deriving DecidableEq, Repr

def IdtEntry.zero : IdtEntry := ⟨0, 0, 0, 0, 0⟩

structure IdtPtr where
  limit : UInt16
  base : UInt32
deriving DecidableEq, Repr

/-
  The globals of the file, and the controllers to which
  `outb` sends; the other ports are not used here.
-/
structure State where
  entries : Fin 256 → IdtEntry
  ptr : IdtPtr
  handlers : Fin 256 → UInt32
  pics : Pics

/- Where the linker has put the table and the stubs. -/
structure Link where
  idtEntries : UInt32
  isr : Nat → UInt32
  irq : Nat → UInt32

def outb (s : State) (port : UInt16) (value : UInt8) : State :=
  { s with pics := s.pics.receive port value }

/- The entry that `idt_set_gate` leaves in the slot. -/
def gate (base : UInt32) (sel : UInt16) (flags : UInt8) :
    IdtEntry where
  baseLo := (base &&& 0xFFFF).toUInt16
  baseHi := ((base >>> 16) &&& 0xFFFF).toUInt16
  sel := sel
  always0 := 0
  flags := flags

def idtSetGate
    (s : State)
    (num : Fin 256)
    (base : UInt32)
    (sel : UInt16)
    (flags : UInt8) : State :=
  { s with
    entries :=
      Function.update s.entries num (gate base sel flags) }

/- The bytes that remap the interrupts, in their order. -/
def remap : List (UInt16 × UInt8) :=
  [(0x20, 0x11), (0xA0, 0x11), (0x21, 0x20), (0xA1, 0x28),
    (0x21, 0x04), (0xA1, 0x02), (0x21, 0x01), (0xA1, 0x01),
    (0x21, 0x0), (0xA1, 0x0)]

/- The calls of `idt_set_gate`, with 0x08 and 0x8E. -/
def gates (link : Link) : List (Fin 256 × UInt32) :=
  (List.range 32).map (fun n => (Fin.ofNat 256 n, link.isr n)) ++
    (List.range 16).map
      (fun n => (Fin.ofNat 256 (32 + n), link.irq n)) ++
    [(255, link.isr 255)]

def setGates
    (s : State)
    (gs : List (Fin 256 × UInt32)) : State :=
  gs.foldl (fun s g => idtSetGate s g.1 g.2 0x08 0x8E) s

/- `memset` clears 255 of the entries only. -/
def initIdt (link : Link) (s : State) : State :=
  let s :=
    { s with
      handlers := fun _ => 0
      ptr := ⟨UInt16.ofNat (8 * 256 - 1), link.idtEntries⟩
      entries := fun i =>
        if i.val < 255 then IdtEntry.zero else s.entries i }
  setGates (remap.foldl (fun s p => outb s p.1 p.2) s)
    (gates link)

def registerInterruptHandler
    (s : State)
    (n : Fin 256)
    (h : UInt32) : State :=
  { s with handlers := Function.update s.handlers n h }

/-
  What the C handlers do: the handler that is called, if any.
  Without one `idt_handler` panics.
-/
inductive Dispatch where
| call (handler : UInt32)
| return
| panic
deriving DecidableEq, Repr

def idtHandler (s : State) (n : Fin 256) : Dispatch :=
  if s.handlers n ≠ 0 then
    .call (s.handlers n)
  else
    .panic

def irqHandler (s : State) (n : Fin 256) : State × Dispatch :=
  let s := if 40 ≤ n.val then outb s 0xA0 0x20 else s
  let s := outb s 0x20 0x20
  if s.handlers n ≠ 0 then
    (s, .call (s.handlers n))
  else
    (s, .return)

------------------------------------------------------------
-- Where Interrupts Lead
------------------------------------------------------------

/- Where the processor goes on, by the entry it finds. -/
def IdtEntry.target (e : IdtEntry) : Option UInt32 :=
  if e.flags &&& 0x80 ≠ 0 then
    some (UInt32.ofNat (e.baseLo.toNat + 2 ^ 16 * e.baseHi.toNat))
  else
    none

theorem target_gate (base : UInt32) (sel : UInt16) :
    (gate base sel 0x8E).target = some base := by
  have hFlags : ((0x8E : UInt8) &&& 0x80) ≠ 0 := by decide
  have hHigh :
      ((base >>> 16) &&& 0xFFFF).toUInt16.toNat =
        base.toNat / 2 ^ 16 % 2 ^ 16 := by
    rw [Gdt.toNat_low, Gdt.toNat_shift_16]
  have hSum :
      base.toNat % 2 ^ 16 +
          2 ^ 16 * (base.toNat / 2 ^ 16 % 2 ^ 16) =
        base.toNat := by
    have hLt := base.toNat_lt
    omega
  unfold IdtEntry.target gate
  rw [if_pos hFlags]
  dsimp only
  rw [Gdt.toNat_low, hHigh, hSum, UInt32.ofNat_toNat]

theorem entries_setGates_of_not_mem
    (s : State)
    (gs : List (Fin 256 × UInt32))
    {i : Fin 256}
    (hOff : i ∉ gs.map Prod.fst) :
    (setGates s gs).entries i = s.entries i := by
  induction gs generalizing s with
  | nil => rfl
  | cons g gs ih =>
      rw [List.map_cons, List.mem_cons, not_or] at hOff
      rw [setGates, List.foldl_cons]
      refine (ih _ hOff.2).trans ?_
      exact Function.update_of_ne hOff.1 _ _

/- A gate that is set once. -/
theorem entries_setGates_of_mem
    (s : State)
    (gs : List (Fin 256 × UInt32))
    {i : Fin 256}
    {base : UInt32}
    (hOnce : (gs.map Prod.fst).Nodup)
    (hMem : (i, base) ∈ gs) :
    (setGates s gs).entries i = gate base 0x08 0x8E := by
  induction gs generalizing s with
  | nil => cases hMem
  | cons g gs ih =>
      rw [List.map_cons, List.nodup_cons] at hOnce
      rw [setGates, List.foldl_cons]
      rcases List.mem_cons.mp hMem with rfl | hMem
      · refine (entries_setGates_of_not_mem _ gs hOnce.1).trans
          ?_
        exact Function.update_self _ _ _
      · exact ih _ hOnce.2 hMem

/- Which stub an interrupt leads to. -/
def stub (link : Link) (n : Nat) : Option UInt32 :=
  if n < 32 then
    some (link.isr n)
  else if n < 48 then
    some (link.irq (n - 32))
  else if n = 255 then
    some (link.isr 255)
  else
    none

theorem gates_fst (link : Link) :
    (gates link).map Prod.fst =
      (List.range 48).map (Fin.ofNat 256) ++ [255] := by
  rfl

theorem mem_gates
    (link : Link)
    {i : Fin 256}
    {base : UInt32}
    (hStub : stub link i.val = some base) :
    (i, base) ∈ gates link := by
  have hNum : Fin.ofNat 256 i.val = i :=
    Fin.ofNat_val_eq_self i
  unfold stub at hStub
  unfold gates
  rw [List.mem_append, List.mem_append, List.mem_map,
    List.mem_map]
  split at hStub
  · rename_i hLow
    cases hStub
    exact .inl (.inl
      ⟨i.val, List.mem_range.mpr hLow, by rw [hNum]⟩)
  · split at hStub
    · rename_i hLow hHigh
      cases hStub
      have hSum : 32 + (i.val - 32) = i.val := by omega
      exact .inl (.inr
        ⟨i.val - 32, List.mem_range.mpr (by omega),
          by rw [hSum, hNum]⟩)
    · split at hStub
      · rename_i hLast
        cases hStub
        have hi : i = 255 := Fin.ext hLast
        exact .inr (by rw [hi]; exact List.mem_singleton_self _)
      · cases hStub

theorem not_mem_gates
    (link : Link)
    {i : Fin 256}
    (hStub : stub link i.val = none) :
    i ∉ (gates link).map Prod.fst := by
  intro hMem
  rw [gates_fst, List.mem_append, List.mem_map,
    List.mem_singleton] at hMem
  unfold stub at hStub
  rcases hMem with ⟨n, hn, rfl⟩ | rfl
  · rw [List.mem_range] at hn
    have hVal : (Fin.ofNat 256 n).val = n :=
      Nat.mod_eq_of_lt (by omega)
    rw [hVal] at hStub
    split_ifs at hStub
  · simp at hStub

/-
  Every interrupt leads to its own stub; those without one
  have no gate.
-/
theorem target_initIdt
    (link : Link)
    (s : State)
    (i : Fin 256) :
    ((initIdt link s).entries i).target = stub link i.val := by
  have hOnce : ((gates link).map Prod.fst).Nodup := by
    rw [gates_fst]
    decide
  cases hStub : stub link i.val with
  | some base =>
      unfold initIdt
      rw [entries_setGates_of_mem _ _ hOnce
        (mem_gates link hStub)]
      exact target_gate base 0x08
  | none =>
      have hLow : i.val < 255 := by
        unfold stub at hStub
        split_ifs at hStub
        omega
      unfold initIdt
      rw [entries_setGates_of_not_mem _ _
        (not_mem_gates link hStub)]
      change (if i.val < 255 then IdtEntry.zero
        else s.entries i).target = none
      rw [if_pos hLow]
      decide

------------------------------------------------------------
-- Interrupts From Devices
------------------------------------------------------------

/-
  What happens after `init_idt`: a device requests an
  interrupt, or the kernel registers a handler.
-/
inductive Event where
| irq (k : Fin 16)
| register (n : Fin 256) (handler : UInt32)
deriving DecidableEq, Repr

/-
  An interrupt that the controllers let through is taken, and
  `irq_handler` runs for its number.
-/
def State.next (s : State) : Event → State
| .irq k =>
    match s.pics.acknowledge k.val with
    | some (v, pics) =>
        (irqHandler { s with pics := pics } (Fin.ofNat 256 v)).1
    | none => s
| .register n h => registerInterruptHandler s n h

def State.after (s : State) (events : List Event) : State :=
  events.foldl State.next s

/- The handler that was registered last. -/
def registered (events : List Event) (n : Fin 256) : UInt32 :=
  events.foldl
    (fun h e =>
      match e with
      | .register m h' => if m = n then h' else h
      | .irq _ => h)
    0

/- The controllers as `init_idt` programs them, and idle. -/
def readyPics : Pics where
  master := ⟨.ready, 0x11, 0x20, 0x04, 0x01, 0, 0⟩
  slave := ⟨.ready, 0x11, 0x28, 0x02, 0x01, 0, 0⟩

theorem pics_setGates
    (s : State)
    (gs : List (Fin 256 × UInt32)) :
    (setGates s gs).pics = s.pics := by
  induction gs generalizing s with
  | nil => rfl
  | cons g gs ih => exact ih _

theorem handlers_setGates
    (s : State)
    (gs : List (Fin 256 × UInt32)) :
    (setGates s gs).handlers = s.handlers := by
  induction gs generalizing s with
  | nil => rfl
  | cons g gs ih => exact ih _

/- Five bytes set a controller up, whatever it did before. -/
theorem Pic.initialised (p : Pic) (first line : UInt8) :
    ((((p.command 0x11).data first).data line).data 0x01).data
        0 =
      ⟨.ready, 0x11, first, line, 0x01, 0, 0⟩ := by
  have hStart : (0x11 : UInt8) &&& 0x10 ≠ 0 := by decide
  have hCascade : (0x11 : UInt8) &&& 0x02 = 0 := by decide
  have hFour : (0x11 : UInt8) &&& 0x01 ≠ 0 := by decide
  simp only [Pic.command, Pic.data, if_pos hStart,
    if_pos hCascade, if_pos hFour]

theorem receive_remap (ps : Pics) :
    remap.foldl (fun ps p => ps.receive p.1 p.2) ps =
      readyPics := by
  have hMaster := ps.master.initialised 0x20 0x04
  have hSlave := ps.slave.initialised 0x28 0x02
  simp only [readyPics, ← hMaster, ← hSlave]
  rfl

theorem pics_outbs
    (s : State)
    (bytes : List (UInt16 × UInt8)) :
    (bytes.foldl (fun s p => outb s p.1 p.2) s).pics =
      bytes.foldl (fun ps p => ps.receive p.1 p.2) s.pics := by
  induction bytes generalizing s with
  | nil => rfl
  | cons b bytes ih => exact ih _

theorem pics_initIdt (link : Link) (s : State) :
    (initIdt link s).pics = readyPics := by
  unfold initIdt
  rw [pics_setGates, pics_outbs]
  exact receive_remap _

theorem handlers_initIdt (link : Link) (s : State) :
    (initIdt link s).handlers = fun _ => 0 := by
  unfold initIdt
  rw [handlers_setGates]
  rfl

/- The controllers in the service of request `k`. -/
def serving (k : Nat) : Pics :=
  if k < 8 then
    { readyPics with master := readyPics.master.serve k }
  else
    { master := readyPics.master.serve 2
      slave := readyPics.slave.serve (k - 8) }

/- Idle controllers let every request through. -/
theorem acknowledge_ready
    (k : Fin 16)
    (hDevice : k ≠ 2) :
    readyPics.acknowledge k.val =
      some (32 + k.val, serving k.val) := by
  revert k
  decide

/- Nothing arrives from the cascade itself. -/
example : readyPics.acknowledge 2 = none := by
  decide

/-
  The bytes that `irq_handler` sends end the service, of the
  slave too when the request came from there.
-/
theorem pics_irqHandler
    (s : State)
    (k : Fin 16)
    (hServing : s.pics = serving k.val) :
    (irqHandler s (Fin.ofNat 256 (32 + k.val))).1 =
      { s with pics := readyPics } := by
  have hPics :
      (if 40 ≤ (Fin.ofNat 256 (32 + k.val)).val then
          (serving k.val).receive 0xA0 0x20
        else
          serving k.val).receive 0x20 0x20 = readyPics := by
    clear hServing
    revert k
    decide
  rw [← hPics, ← hServing]
  unfold irqHandler outb
  dsimp only
  split_ifs <;> rfl

/- What one event keeps. -/
theorem pics_next
    {s : State}
    (hReady : s.pics = readyPics)
    (e : Event) :
    (s.next e).pics = readyPics ∧
      (s.next e).entries = s.entries := by
  cases e with
  | register n h => exact ⟨hReady, rfl⟩
  | irq k =>
      unfold State.next
      dsimp only
      rw [hReady]
      by_cases hDevice : k = 2
      · subst hDevice
        exact ⟨hReady, rfl⟩
      · rw [acknowledge_ready k hDevice]
        dsimp only
        rw [pics_irqHandler _ k rfl]
        exact ⟨rfl, rfl⟩

/- What the events of a run keep. -/
theorem pics_after
    {s : State}
    (hReady : s.pics = readyPics)
    (events : List Event) :
    (s.after events).pics = readyPics ∧
      (s.after events).entries = s.entries := by
  induction events generalizing s with
  | nil => exact ⟨hReady, rfl⟩
  | cons e events ih =>
      have hNext := pics_next hReady e
      have hRest := ih hNext.1
      exact ⟨hRest.1, hRest.2.trans hNext.2⟩

theorem handlers_next (s : State) (e : Event) :
    (s.next e).handlers =
      match e with
      | .register n h => Function.update s.handlers n h
      | .irq _ => s.handlers := by
  cases e with
  | register n h => rfl
  | irq k =>
      unfold State.next
      dsimp only
      cases s.pics.acknowledge k.val with
      | none => rfl
      | some taken =>
          unfold irqHandler outb
          dsimp only
          split_ifs <;> rfl

theorem handlers_after
    (s : State)
    (events : List Event)
    (n : Fin 256) :
    (s.after events).handlers n =
      events.foldl
        (fun h e =>
          match e with
          | .register m h' => if m = n then h' else h
          | .irq _ => h)
        (s.handlers n) := by
  induction events generalizing s with
  | nil => rfl
  | cons e events ih =>
      refine (ih (s.next e)).trans ?_
      rw [List.foldl_cons, handlers_next]
      congr 1
      cases e with
      | irq k => rfl
      | register m h =>
          change Function.update s.handlers m h n = _
          by_cases hSame : m = n
          · rw [hSame, Function.update_self]
            exact (if_pos rfl).symm
          · rw [Function.update_of_ne (Ne.symm hSame)]
            exact (if_neg hSame).symm

/-
  Whatever the controllers did before `init_idt`, and after
  every run of interrupts and registrations: each number that
  has a stub leads to it, and the others have no gate; an
  exception goes to the handler that was registered last, or
  panics; and the interrupt of every device arrives, on its
  number, and has been acknowledged when the last registered
  handler is called.
-/
theorem irqs_delivered
    (link : Link)
    (s : State)
    (events : List Event)
    (k : Fin 16)
    (hDevice : k ≠ 2) :
    let t := (initIdt link s).after events
    let n := Fin.ofNat 256 (32 + k.val)
    (∀ i, (t.entries i).target = stub link i.val) ∧
      (∀ i, idtHandler t i =
        if registered events i ≠ 0 then
          .call (registered events i)
        else
          .panic) ∧
      ∃ pics, t.pics.acknowledge k.val = some (n.val, pics) ∧
        irqHandler { t with pics := pics } n =
          (t,
            if registered events n ≠ 0 then
              .call (registered events n)
            else
              .return) := by
  intro t n
  rcases pics_after (pics_initIdt link s) events with
    ⟨hReady, hEntries⟩
  have hHandlers : ∀ i, t.handlers i = registered events i := by
    intro i
    rw [handlers_after, handlers_initIdt]
    rfl
  have hNum : n.val = 32 + k.val :=
    Nat.mod_eq_of_lt (by omega)
  refine ⟨?_, ?_, serving k.val, ?_, ?_⟩
  · intro i
    rw [hEntries]
    exact target_initIdt link s i
  · intro i
    unfold idtHandler
    rw [hHandlers]
  · rw [hReady, hNum]
    exact acknowledge_ready k hDevice
  · have hState :=
      pics_irqHandler { t with pics := serving k.val } k rfl
    apply Prod.ext
    · rw [hState]
      change { t with pics := readyPics } = t
      rw [← hReady]
    · unfold irqHandler outb
      dsimp only
      rw [← hHandlers n]
      split_ifs <;> rfl

theorem irqs_delivered_keyboard :
    let link : Link :=
      ⟨0x10C000, fun n => .ofNat (0x108000 + 9 * n),
        fun n => .ofNat (0x109000 + 9 * n)⟩
    let s : State :=
      ⟨fun _ => .zero, ⟨0, 0⟩, fun _ => 1, readyPics⟩
    let t :=
      (initIdt link s).after
        [.register 33 0x1000, .irq 0, .irq 9, .irq 1]
    ∃ pics, t.pics.acknowledge 1 = some (33, pics) ∧
      irqHandler { t with pics := pics } 33 =
        (t, .call 0x1000) := by
  intro link s t
  exact (irqs_delivered link s
    [.register 33 0x1000, .irq 0, .irq 9, .irq 1] 1
    (by decide)).2.2

end Idt

end SosKernel
