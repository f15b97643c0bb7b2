import Mathlib.Data.Nat.Bitwise
import SosKernel.Layout
import SosKernel.Lib.Prefix
import SosKernel.Lib.Ring

/-
  The keyboard driver `kernel/kbd.c` and its buffer.

  Main declarations:
    * `kbdHandler`, `kbdGetchar`, `kbdBufferEmpty`
    * `Queue`: a bounded queue of characters
    * `kbd_fifo_iff`
    * `kbd_loses_full_buffer`

  The buffer is full for the driver when the end index is
  one less than the start index as 32-bit numbers, which
  no end index is when the start index is zero.
-/

------------------------------------------------------------
-- Layouts
------------------------------------------------------------

namespace SosKernel

namespace Kbd

def CONTROL : Nat := 0x1
def LSHIFT : Nat := 0x8
def RSHIFT : Nat := 0x10
def CAPSLOCK : Nat := 0x20

def RELEASED_MASK : Nat := 0x80

/- A `keymap_t`. -/
structure Keymap where
  scancodes : List Nat
  shiftScancodes : List Nat
  controlMap : List Nat
  controls : Nat
deriving DecidableEq, Repr

/- A row of a table, as the codes of its characters. -/
def keys (row : String) : List Nat :=
  row.toList.map Char.toNat

/-
  The places from `58` on, which the two tables share; all
  later ones are zero.
-/
def specialKeys : List Nat :=
  List.replicate 16 0 ++ keys "-" ++ [0, 0, 0] ++ keys "+"

/- `kbd_keymap_us`, with no control key active. -/
def kbdKeymapUs : Keymap where
  scancodes :=
    [0, 27] ++ keys "1234567890-=\x08" ++
      keys "\tqwertyuiop[]\n" ++
      [0] ++ keys "asdfghjkl;'\x60" ++
      [0] ++ keys "\\zxcvbnm,./" ++ [0] ++ keys "*" ++
      [0] ++ keys " " ++ specialKeys
  shiftScancodes :=
    [0, 27] ++ keys "!@#$%^&*()_+\x08" ++
      keys "\tQWERTYUIOP\x7b\x7d\n" ++
      [0] ++ keys "ASDFGHJKL:\"~" ++
      [0] ++ keys "|ZXCVBNM<>?" ++ [0] ++ keys "*" ++
      [0] ++ keys " " ++ specialKeys
  controlMap := [29, 56, 0, 42, 54, 58, 70, 69]
  controls := 0

/- The first of the first `n` control keys with this code. -/
def Keymap.controlKey
    (layout : Keymap)
    (n scancode : Nat) : Option Nat :=
  (List.range n).find? fun i =>
    layout.controlMap.getD i 0 == scancode

/- `controls &= ~(1 << i)`. -/
def Keymap.clearControl
    (layout : Keymap)
    (i : Nat) : Keymap :=
  { layout with
    controls :=
      layout.controls - (layout.controls &&& 1 <<< i) }

/- `controls |= 1 << i`. -/
def Keymap.setControl
    (layout : Keymap)
    (i : Nat) : Keymap :=
  { layout with controls := layout.controls ||| 1 <<< i }

/- The table in use, by the control keys that are active. -/
def Keymap.activeScancodes (layout : Keymap) : List Nat :=
  if layout.controls &&& (LSHIFT ||| RSHIFT ||| CAPSLOCK) ≠ 0
      ∧ layout.controls &&& CONTROL = 0 then
    layout.shiftScancodes
  else
    layout.scancodes

------------------------------------------------------------
-- The Driver
------------------------------------------------------------

/-
  The driver's variables: the contents of
  `*kbd_current_layout`, the two indices and the buffer.
-/
structure State where
  layout : Keymap
  bufferStart : Nat
  bufferEnd : Nat
  buffer : Nat → Nat

def kbdSwitchLayout (layout : Keymap) (s : State) : State :=
  { s with layout := layout }

def kbdInitDriver (s : State) : State :=
  { kbdSwitchLayout kbdKeymapUs s with
    bufferStart := 0
    bufferEnd := 0 }

def kbdGetchar (s : State) : Nat × State :=
  if s.bufferStart ≠ s.bufferEnd then
    (s.buffer s.bufferStart,
      { s with
        bufferStart := add32 s.bufferStart 1 &&& 255 })
  else
    (0, s)

def kbdBufferEmpty (s : State) : Bool :=
  s.bufferStart == s.bufferEnd

/- `kbd_handler`, for the code read from port `0x60`. -/
def kbdHandler (scancode : Nat) (s : State) : State :=
  if scancode &&& RELEASED_MASK ≠ 0 then
    match s.layout.controlKey 5
        (scancode - (scancode &&& RELEASED_MASK)) with
    | some i => { s with layout := s.layout.clearControl i }
    | none => s
  else
    match s.layout.controlKey 8 scancode with
    | some i =>
        if s.layout.controls &&& 1 <<< i ≠ 0 then
          { s with layout := s.layout.clearControl i }
        else
          { s with layout := s.layout.setControl i }
    | none =>
        let scancodes := s.layout.activeScancodes
        if s.bufferEnd ≠ sub32 s.bufferStart 1 then
          { s with
            buffer :=
              Function.update s.buffer s.bufferEnd
                (scancodes.getD scancode 0)
            bufferEnd := add32 s.bufferEnd 1 &&& 255 }
        else
          s

/-
  The character that a code stands for, when it is the make
  code of a key that is not a control key.
-/
def typed (layout : Keymap) (scancode : Nat) : Option Nat :=
  if scancode &&& RELEASED_MASK ≠ 0 then
    none
  else if (layout.controlKey 8 scancode).isSome then
    none
  else
    some (layout.activeScancodes.getD scancode 0)

theorem kbdHandler_of_typed
    {s : State}
    {scancode c : Nat}
    (hTyped : typed s.layout scancode = some c) :
    kbdHandler scancode s =
      if s.bufferEnd ≠ sub32 s.bufferStart 1 then
        { s with
          buffer :=
            Function.update s.buffer s.bufferEnd c
          bufferEnd := add32 s.bufferEnd 1 &&& 255 }
      else
        s := by
  unfold typed at hTyped
  unfold kbdHandler
  split at hTyped
  · cases hTyped
  · rename_i hPressed
    rw [if_neg hPressed]
    split at hTyped
    · cases hTyped
    · rename_i hKey
      rw [Option.not_isSome_iff_eq_none] at hKey
      cases hTyped
      rw [hKey]

/- Other codes leave the buffer alone. -/
theorem kbdHandler_of_not_typed
    {s : State}
    {scancode : Nat}
    (hTyped : typed s.layout scancode = none) :
    ∃ layout, kbdHandler scancode s =
      { s with layout := layout } := by
  unfold typed at hTyped
  unfold kbdHandler
  split at hTyped
  · rename_i hReleased
    rw [if_pos hReleased]
    split
    · exact ⟨_, rfl⟩
    · exact ⟨s.layout, rfl⟩
  · rename_i hPressed
    rw [if_neg hPressed]
    split at hTyped
    · rename_i hKey
      rcases Option.isSome_iff_exists.mp hKey with ⟨i, hi⟩
      simp only [hi]
      split
      · exact ⟨_, rfl⟩
      · exact ⟨_, rfl⟩
    · cases hTyped

------------------------------------------------------------
-- The Queue
------------------------------------------------------------

/- A queue of at most 255 characters, oldest first. -/
abbrev Queue := List Nat

/- Put a character at the back, or drop it when full. -/
def Queue.push (queue : Queue) (c : Nat) : Queue :=
  if queue.length < 255 then queue ++ [c] else queue

/- An interrupt with the code in the port, or a call. -/
inductive KbdEvent where
| irq (scancode : Nat)
| getchar
deriving DecidableEq, Repr

/-
  The driver, and beside it the queue of the characters
  typed and not yet fetched.
-/
def step
    (run : State × Queue) :
    KbdEvent → State × Queue
| .irq scancode =>
    (kbdHandler scancode run.1,
      match typed run.1.layout scancode with
      | some c => run.2.push c
      | none => run.2)
| .getchar => ((kbdGetchar run.1).2, run.2.tail)

/- The characters between the two indices of the buffer. -/
def State.pending (s : State) : List Nat :=
  ring 256 s.buffer s.bufferStart
    ((s.bufferEnd + 256 - s.bufferStart) % 256)

/-
  The buffer behaves as the queue: it holds its characters,
  it is empty when the queue is, and the next call gets the
  oldest of them, or zero.
-/
structure Behaves (run : State × Queue) : Prop where
  pending : run.1.pending = run.2
  empty : kbdBufferEmpty run.1 = true ↔ run.2 = []
  getchar : (kbdGetchar run.1).1 = run.2.headD 0

/-
  The event is not a key typed while the end index is 255
  and the start index zero.
-/
def Fits (run : State × Queue) : KbdEvent → Prop
| .irq scancode =>
    run.1.bufferStart = 0 ∧ run.1.bufferEnd = 255 →
      typed run.1.layout scancode = none
| .getchar => True

/- The indices are in the buffer, which holds the queue. -/
structure Kept (run : State × Queue) : Prop where
  bufferStart : run.1.bufferStart < 256
  bufferEnd : run.1.bufferEnd < 256
  pending : run.1.pending = run.2

------------------------------------------------------------
-- Refinement
------------------------------------------------------------

/- The number of characters between the indices. -/
def State.count (s : State) : Nat :=
  (s.bufferEnd + 256 - s.bufferStart) % 256

@[simp] theorem length_pending (s : State) :
    s.pending.length = s.count := by
  rw [State.pending, length_ring, State.count]

theorem next_index
    {i : Nat}
    (hi : i < 256) :
    add32 i 1 &&& 255 = (i + 1) % 256 := by
  rw [add32_of_lt (by omega)]
  exact Nat.and_two_pow_sub_one_eq_mod (i + 1) 8

variable {run : State × Queue}

theorem Kept.count (hKept : Kept run) :
    run.1.count = run.2.length := by
  rw [← length_pending, hKept.pending]

theorem Kept.empty_iff (hKept : Kept run) :
    run.1.bufferStart = run.1.bufferEnd ↔ run.2 = [] := by
  have hStart := hKept.bufferStart
  have hEnd := hKept.bufferEnd
  have hCount := hKept.count
  rw [State.count] at hCount
  rw [← List.length_eq_zero_iff]
  omega

/- The oldest character is under the start index. -/
theorem Kept.pending_cons
    {c : Nat}
    {queue : Queue}
    (hKept : Kept run)
    (hQueue : run.2 = c :: queue) :
    run.1.buffer run.1.bufferStart = c ∧
      ring 256 run.1.buffer ((run.1.bufferStart + 1) % 256)
        queue.length = queue := by
  have hCount := hKept.count
  have hPending := hKept.pending
  rw [hQueue, List.length_cons, State.count] at hCount
  rw [hQueue, State.pending, hCount, ring_succ,
    Nat.mod_eq_of_lt hKept.bufferStart] at hPending
  exact List.cons.inj hPending

theorem Kept.behaves (hKept : Kept run) : Behaves run where
  pending := hKept.pending
  empty := by
    rw [kbdBufferEmpty, beq_iff_eq]
    exact hKept.empty_iff
  getchar := by
    unfold kbdGetchar
    split
    · rename_i hSome
      cases hQueue : run.2 with
      | nil => exact absurd (hKept.empty_iff.mpr hQueue) hSome
      | cons c queue => exact (hKept.pending_cons hQueue).1
    · rename_i hNone
      rw [hKept.empty_iff.mp (not_not.mp hNone)]
      rfl

/- Fetching a character takes the oldest off the queue. -/
theorem Kept.getchar (hKept : Kept run) :
    Kept (step run .getchar) := by
  have hStart := hKept.bufferStart
  have hEnd := hKept.bufferEnd
  have hCount := hKept.count
  unfold step kbdGetchar
  cases hQueue : run.2 with
  | nil =>
      rw [if_neg (not_not.mpr (hKept.empty_iff.mpr hQueue))]
      refine ⟨hStart, hEnd, ?_⟩
      rw [hKept.pending, hQueue]
      rfl
  | cons c queue =>
      have hSome : run.1.bufferStart ≠ run.1.bufferEnd := by
        intro hSame
        rw [hKept.empty_iff.mp hSame] at hQueue
        cases hQueue
      rw [hQueue, List.length_cons, State.count] at hCount
      rw [if_pos hSome, next_index hStart]
      refine ⟨Nat.mod_lt _ (by decide), hEnd, ?_⟩
      have hLength :
          (run.1.bufferEnd + 256 -
            (run.1.bufferStart + 1) % 256) % 256 =
              queue.length := by
        omega
      simp only [State.pending, hLength]
      exact (hKept.pending_cons hQueue).2

/-
  A typed character goes to the back of the queue.  The
  driver's test for a full buffer is right except when the
  start index is zero and the end index 255.
-/
theorem Kept.press
    {scancode c : Nat}
    (hKept : Kept run)
    (hTyped : typed run.1.layout scancode = some c)
    (hWrap :
      ¬ (run.1.bufferStart = 0 ∧ run.1.bufferEnd = 255)) :
    Kept (kbdHandler scancode run.1, run.2.push c) := by
  have hStart := hKept.bufferStart
  have hEnd := hKept.bufferEnd
  have hCount := hKept.count
  rw [State.count] at hCount
  rw [kbdHandler_of_typed hTyped]
  by_cases hFull :
      run.1.bufferEnd = sub32 run.1.bufferStart 1
  · rw [if_neg (not_not.mpr hFull)]
    rw [sub32] at hFull
    have hLength : ¬ run.2.length < 255 := by omega
    refine ⟨hStart, hEnd, ?_⟩
    rw [Queue.push, if_neg hLength, hKept.pending]
  · rw [if_pos hFull]
    rw [sub32] at hFull
    have hLength : run.2.length < 255 := by omega
    rw [next_index hEnd]
    refine ⟨hStart, Nat.mod_lt _ (by decide), ?_⟩
    have hIndex :
        run.1.bufferEnd =
          (run.1.bufferStart + run.2.length) % 256 := by
      omega
    have hNext :
        ((run.1.bufferEnd + 1) % 256 + 256 -
          run.1.bufferStart) % 256 = run.2.length + 1 := by
      omega
    have hPending := hKept.pending
    simp only [State.pending, hCount] at hPending
    simp only [State.pending, hNext, Queue.push, hLength,
      if_true]
    rw [hIndex, ring_update run.1.buffer c (by omega),
      hPending]

theorem step_of_typed
    {scancode c : Nat}
    (hTyped : typed run.1.layout scancode = some c) :
    step run (.irq scancode) =
      (kbdHandler scancode run.1, run.2.push c) := by
  unfold step
  simp only [hTyped]

theorem step_of_not_typed
    {scancode : Nat}
    (hTyped : typed run.1.layout scancode = none) :
    step run (.irq scancode) =
      (kbdHandler scancode run.1, run.2) := by
  unfold step
  simp only [hTyped]

/- Every event that fits keeps the refinement. -/
theorem Kept.step
    {event : KbdEvent}
    (hKept : Kept run)
    (hFits : Fits run event) :
    Kept (step run event) := by
  cases event with
  | getchar => exact hKept.getchar
  | irq scancode =>
      cases hTyped : typed run.1.layout scancode with
      | some c =>
          have hWrap :
              ¬ (run.1.bufferStart = 0 ∧
                run.1.bufferEnd = 255) := by
            intro hAt
            have hNone := hFits hAt
            rw [hTyped] at hNone
            cases hNone
          rw [step_of_typed hTyped]
          exact hKept.press hTyped hWrap
      | none =>
          rcases kbdHandler_of_not_typed hTyped with
            ⟨layout, hHandler⟩
          rw [step_of_not_typed hTyped, hHandler]
          exact ⟨hKept.bufferStart, hKept.bufferEnd,
            hKept.pending⟩

/-
  A key typed at the exceptional indices makes the buffer
  empty, while 255 characters are pending.
-/
theorem Kept.fits_of_behaves
    {event : KbdEvent}
    (hKept : Kept run)
    (hAfter : Behaves (Kbd.step run event)) :
    Fits run event := by
  cases event with
  | getchar => trivial
  | irq scancode =>
      rintro ⟨hStart, hEnd⟩
      cases hTyped : typed run.1.layout scancode with
      | none => rfl
      | some c =>
          have hCount := hKept.count
          rw [State.count, hStart, hEnd] at hCount
          have hFull : ¬ run.2.length < 255 := by omega
          have hTest :
              run.1.bufferEnd ≠ sub32 run.1.bufferStart 1 := by
            rw [hStart, hEnd]
            decide
          have hEmpty := hAfter.empty
          rw [step_of_typed hTyped,
            kbdHandler_of_typed hTyped, if_pos hTest,
            Queue.push, if_neg hFull] at hEmpty
          have hNil : run.2 = [] := by
            apply hEmpty.mp
            simp only [kbdBufferEmpty, hStart, hEnd]
            decide
          rw [hNil] at hCount
          cases hCount

/- The start of the driver. -/
def initialRun (s : State) : State × Queue :=
  (kbdInitDriver s, [])

theorem kept_initialRun (s : State) :
    Kept (initialRun s) where
  bufferStart := Nat.zero_lt_succ 255
  bufferEnd := Nat.zero_lt_succ 255
  pending := by
    simp [initialRun, kbdInitDriver, State.pending]

/-
  From `kbd_init_driver` on, in whatever order codes and
  calls come: the buffer behaves as a queue of 255
  characters after each of them if and only if no key is
  typed while the start index is zero and the end index 255.
-/
theorem kbd_fifo_iff
    (s : State)
    (events : List KbdEvent) :
    (∀ before, before <+: events →
      Behaves (before.foldl step (initialRun s))) ↔
      AllFit step Fits (initialRun s) events :=
  forall_prefix_iff_allFit
    (fun _ hKept => hKept.behaves)
    (fun _ _ hKept hFits => hKept.step hFits)
    (fun _ _ hKept hAfter => hKept.fits_of_behaves hAfter)
    (kept_initialRun s) events

/- While the start index is zero, every `a` is stored. -/
theorem step_typed_a
    {n : Nat}
    (buffer : Nat → Nat)
    (queue : Queue)
    (hn : n < 256) :
    step (⟨kbdKeymapUs, 0, n, buffer⟩, queue) (.irq 30) =
      (⟨kbdKeymapUs, 0, (n + 1) % 256,
          Function.update buffer n 97⟩,
        queue.push 97) := by
  have hTyped : typed kbdKeymapUs 30 = some 97 := by
    decide
  have hTest : n ≠ sub32 0 1 := by
    rw [sub32]
    omega
  rw [step_of_typed hTyped, kbdHandler_of_typed hTyped,
    if_pos hTest, next_index hn]

/- The key `a` is typed `n` times and nothing is fetched. -/
theorem foldl_typed_a
    {n : Nat}
    (hn : n ≤ 255) :
    ∃ buffer,
      (List.replicate n (KbdEvent.irq 30)).foldl step
          (initialRun ⟨kbdKeymapUs, 0, 0, fun _ => 0⟩) =
        (⟨kbdKeymapUs, 0, n, buffer⟩,
          List.replicate n 97) := by
  induction n with
  | zero => exact ⟨_, rfl⟩
  | succ n ih =>
      rcases ih (by omega) with ⟨buffer, hRun⟩
      have hRoom : (List.replicate n 97).length < 255 := by
        rw [List.length_replicate]
        omega
      refine ⟨Function.update buffer n 97, ?_⟩
      rw [List.replicate_succ', List.foldl_append, hRun,
        List.foldl_cons, List.foldl_nil,
        step_typed_a buffer _ (by omega), Queue.push,
        if_pos hRoom, List.replicate_succ',
        Nat.mod_eq_of_lt (by omega)]

/-
  The key `a` is typed 256 times.  The buffer is empty then,
  and the next call returns zero, although 255 characters
  are pending.
-/
theorem kbd_loses_full_buffer :
    let events := List.replicate 256 (KbdEvent.irq 30)
    let run :=
      events.foldl step
        (initialRun ⟨kbdKeymapUs, 0, 0, fun _ => 0⟩)
    run.2 = List.replicate 255 97 ∧
      kbdBufferEmpty run.1 = true ∧
      (kbdGetchar run.1).1 = 0 ∧ ¬ Behaves run := by
  rcases foldl_typed_a (Nat.le_refl 255) with ⟨buffer, hRun⟩
  have hFull : ¬ (List.replicate 255 97).length < 255 := by
    rw [List.length_replicate]
    exact lt_irrefl 255
  intro events run
  have hAfter :
      run =
        (⟨kbdKeymapUs, 0, 0, Function.update buffer 255 97⟩,
          List.replicate 255 97) := by
    have hEvents :
        events =
          List.replicate 255 (KbdEvent.irq 30) ++
            [.irq 30] :=
      List.replicate_succ'
    simp only [run, hEvents]
    rw [List.foldl_append, hRun, List.foldl_cons,
      List.foldl_nil, step_typed_a buffer _ (by decide),
      Queue.push, if_neg hFull]
  rw [hAfter]
  refine ⟨rfl, rfl, rfl, ?_⟩
  intro hBehaves
  have hNil := hBehaves.empty.mp rfl
  cases hNil

end Kbd

end SosKernel
