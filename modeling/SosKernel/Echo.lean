import SosKernel.Kbd
import SosKernel.Monitor

/-
  The last loop of `kmain`, which puts what is typed on the
  screen, while the interrupts of the keyboard come between
  any two of its accesses.

  Main declarations:
    * `Echo`, `Phase`, `Echo.main`
    * `main_getchar`: the phases make up `kbd_getchar`
    * `Log`: what has been typed and not fetched yet
    * `Echoes`: the invariant
    * `echo_shows_typed`
-/

------------------------------------------------------------
-- The Loop
------------------------------------------------------------

namespace SosKernel

namespace Echo

open Kbd (Queue kbdHandler)
open Monitor (Shows Window Terminal)

/-
  Where the loop is: before the test of `kbd_getchar`, before
  `kbd_buffer_start++`, before the access of the buffer,
  before `&= 255`, or before `monitor_put`.
-/
inductive Phase where
| test
| bump
| read (i : Nat)
| mask (c : Nat)
| put (c : Nat)
deriving DecidableEq, Repr

structure System where
  kbd : Kbd.State
  monitor : Monitor.State
  phase : Phase

/- The loop goes on by one access. -/
def main (e : System) : System :=
  match e.phase with
  | .test =>
      if e.kbd.bufferStart ≠ e.kbd.bufferEnd then
        { e with phase := .bump }
      else
        { e with phase := .put 0 }
  | .bump =>
      { e with
        kbd :=
          { e.kbd with
            bufferStart := add32 e.kbd.bufferStart 1 }
        phase := .read e.kbd.bufferStart }
  | .read i => { e with phase := .mask (e.kbd.buffer i) }
  | .mask c =>
      { e with
        kbd :=
          { e.kbd with
            bufferStart := e.kbd.bufferStart &&& 255 }
        phase := .put c }
  | .put c =>
      { e with
        monitor := Monitor.monitorPut e.monitor (.ofNat c)
        phase := .test }

/- An interrupt with the code in the port, or the loop. -/
inductive Event where
| irq (scancode : Nat)
| main
deriving DecidableEq, Repr

def next (e : System) : Event → System
| .irq scancode =>
    { e with kbd := kbdHandler scancode e.kbd }
| .main => main e

/- `kbd_init_driver` and `init_monitor` have run. -/
def start (kbd : Kbd.State) (videoMem : Nat → Nat) : System where
  kbd := Kbd.kbdInitDriver kbd
  monitor := Monitor.initMonitor (.static videoMem)
  phase := .test

/- Without interrupts the phases make up `kbd_getchar`. -/
theorem main_getchar
    (e : System)
    (hTest : e.phase = .test) :
    ∃ n, main^[n] e =
      { e with
        kbd := (Kbd.kbdGetchar e.kbd).2
        phase := .put (Kbd.kbdGetchar e.kbd).1 } := by
  rcases e with ⟨kbd, monitor, phase⟩
  cases hTest
  unfold Kbd.kbdGetchar
  by_cases hSome : kbd.bufferStart ≠ kbd.bufferEnd
  · refine ⟨4, ?_⟩
    rw [if_pos hSome]
    simp only [Function.iterate_succ, Function.iterate_zero,
      Function.comp_apply, id_eq, main, if_pos hSome]
  · refine ⟨1, ?_⟩
    rw [if_neg hSome]
    simp only [Function.iterate_succ, Function.iterate_zero,
      Function.comp_apply, id_eq, main, if_neg hSome]

------------------------------------------------------------
-- What Has Been Typed
------------------------------------------------------------

/-
  The characters that have been typed, apart from those typed
  when 255 wait, and those of them that still wait.
-/
structure Log where
  accepted : List Nat
  queue : Queue
deriving DecidableEq, Repr

def Log.push (log : Log) (c : Nat) : Log :=
  if log.queue.length < 255 then
    { accepted := log.accepted ++ [c]
      queue := log.queue ++ [c] }
  else
    log

def Log.next (e : System) (log : Log) : Event → Log
| .irq scancode =>
    match Kbd.typed e.kbd.layout scancode with
    | some c => log.push c
    | none => log
| .main =>
    if e.phase = .bump then
      { log with queue := log.queue.tail }
    else
      log

/- The system and the log go on together. -/
def step (run : System × Log) (event : Event) : System × Log :=
  (next run.1 event, run.2.next run.1 event)

/-
  No key is typed while the start index is zero and the end
  index 255.
-/
def Fits (run : System × Log) : Event → Prop
| .irq scancode =>
    run.1.kbd.bufferStart = 0 ∧ run.1.kbd.bufferEnd = 255 →
      Kbd.typed run.1.kbd.layout scancode = none
| .main => True

/- The driver, with the start index taken modulo 256. -/
def masked (s : Kbd.State) : Kbd.State :=
  { s with bufferStart := s.bufferStart % 256 }

/- The character that the loop holds in a phase. -/
def Hand (s : Kbd.State) (queue : Queue) :
    Phase → List Nat → Prop
| .test, hand => s.bufferStart < 256 ∧ hand = []
| .bump, hand =>
    s.bufferStart < 256 ∧ hand = [] ∧ queue ≠ []
| .read i, hand =>
    s.bufferStart = i + 1 ∧ i < 256 ∧ hand = [s.buffer i]
| .mask c, hand =>
    0 < s.bufferStart ∧ s.bufferStart ≤ 256 ∧ hand = [c]
| .put c, hand =>
    s.bufferStart < 256 ∧ (hand = [c] ∨ c = 0 ∧ hand = [])

/-
  What waits is in the buffer, and what has been typed before
  is on the screen, apart from the character in hand.
-/
structure Echoes
    (run : System × Log)
    (shown hand : List Nat) : Prop where
  kept : Kbd.Kept (masked run.1.kbd, run.2.queue)
  holds : Hand run.1.kbd run.2.queue run.1.phase hand
  order : run.2.accepted = shown ++ hand ++ run.2.queue
  window :
    Window run.1.monitor
      (.putAll (shown.map UInt8.ofNat))
  shows :
    Shows run.1.monitor (.putAll (shown.map UInt8.ofNat))

variable {s : Kbd.State}
variable {run : System × Log}
variable {queue : Queue}
variable {shown hand : List Nat}

theorem Log.queue_push (log : Log) (c : Nat) :
    (log.push c).queue = log.queue.push c := by
  unfold Log.push Queue.push
  split <;> rfl

theorem Log.accepted_push
    {log : Log}
    {before : List Nat}
    (hOrder : log.accepted = before ++ log.queue)
    (c : Nat) :
    (log.push c).accepted = before ++ (log.push c).queue := by
  unfold Log.push
  split
  · dsimp only
    rw [hOrder, List.append_assoc]
  · exact hOrder

theorem masked_of_lt
    (hStart : s.bufferStart < 256) :
    masked s = s := by
  unfold masked
  rw [Nat.mod_eq_of_lt hStart]

------------------------------------------------------------
-- Interrupts
------------------------------------------------------------

/- A typed character is stored, or the buffer is full. -/
theorem kept_typed
    {scancode c : Nat}
    (hKept : Kbd.Kept (masked s, queue))
    (hStart : s.bufferStart ≤ 256)
    (hTyped : Kbd.typed s.layout scancode = some c)
    (hFits : ¬ (s.bufferStart = 0 ∧ s.bufferEnd = 255)) :
    Kbd.Kept
      (masked (kbdHandler scancode s), queue.push c) := by
  rcases Nat.lt_or_ge s.bufferStart 256 with hLt | hGe
  · rw [masked_of_lt hLt] at hKept
    have hPress := hKept.press hTyped hFits
    have hSame :
        (kbdHandler scancode s).bufferStart = s.bufferStart := by
      rw [Kbd.kbdHandler_of_typed hTyped]
      split <;> rfl
    rw [masked_of_lt (hSame ▸ hLt)]
    exact hPress
  · have hAt : s.bufferStart = 256 := by omega
    have hEndLt : s.bufferEnd < 256 := hKept.bufferEnd
    have hMasked : (masked s).bufferStart = 0 := by
      unfold masked
      rw [hAt]
    by_cases hFull : s.bufferEnd = 255
    · have hNot : ¬ s.bufferEnd ≠ sub32 s.bufferStart 1 := by
        rw [hAt, hFull]
        decide
      have hCount := hKept.count
      unfold Kbd.State.count at hCount
      rw [hMasked] at hCount
      change (s.bufferEnd + 256 - 0) % 256 = queue.length
        at hCount
      have hLength : ¬ queue.length < 255 := by omega
      rw [Kbd.kbdHandler_of_typed hTyped, if_neg hNot]
      unfold Queue.push
      rw [if_neg hLength]
      exact hKept
    · have hPress :=
        hKept.press hTyped
          (fun hWrap => hFull hWrap.2)
      have hTest : s.bufferEnd ≠ sub32 s.bufferStart 1 := by
        rw [hAt, show sub32 256 1 = 255 by decide]
        exact hFull
      have hTest' :
          (masked s).bufferEnd ≠
            sub32 (masked s).bufferStart 1 := by
        rw [hMasked, show sub32 0 1 = 4294967295 by decide]
        change s.bufferEnd ≠ 4294967295
        omega
      rw [Kbd.kbdHandler_of_typed (s := masked s) hTyped,
        if_pos hTest'] at hPress
      rw [Kbd.kbdHandler_of_typed hTyped, if_pos hTest]
      exact hPress

/- The handler does not disturb the loop. -/
theorem hand_typed
    {scancode c : Nat}
    {phase : Phase}
    (hTyped : Kbd.typed s.layout scancode = some c)
    (hHand : Hand s queue phase hand) :
    Hand (kbdHandler scancode s) (queue.push c) phase hand := by
  have hStart :
      (kbdHandler scancode s).bufferStart = s.bufferStart := by
    rw [Kbd.kbdHandler_of_typed hTyped]
    split <;> rfl
  cases phase with
  | test => exact ⟨hStart ▸ hHand.1, hHand.2⟩
  | bump =>
      refine ⟨hStart ▸ hHand.1, hHand.2.1, ?_⟩
      unfold Queue.push
      split
      · exact List.append_ne_nil_of_right_ne_nil _
          (List.cons_ne_nil c [])
      · exact hHand.2.2
  | read i =>
      rcases hHand with ⟨hAt, hi, hChar⟩
      refine ⟨hStart ▸ hAt, hi, ?_⟩
      -- the slot is the one before the start index
      have hSlot : sub32 s.bufferStart 1 = i := by
        rw [hAt, sub32_of_le (by omega) (by omega)]
        exact Nat.add_sub_cancel i 1
      rw [Kbd.kbdHandler_of_typed hTyped, hSlot]
      by_cases hFull : s.bufferEnd ≠ i
      · rw [if_pos hFull]
        dsimp only
        rw [Function.update_of_ne (Ne.symm hFull)]
        exact hChar
      · rw [if_neg hFull]
        exact hChar
  | mask c => exact ⟨hStart ▸ hHand.1, hStart ▸ hHand.2⟩
  | put c => exact ⟨hStart ▸ hHand.1, hHand.2⟩

theorem hand_le
    {phase : Phase}
    (hHand : Hand s queue phase hand) :
    s.bufferStart ≤ 256 := by
  cases phase with
  | test => exact Nat.le_of_lt hHand.1
  | bump => exact Nat.le_of_lt hHand.1
  | read i =>
      have hAt := hHand.1
      have hi := hHand.2.1
      omega
  | mask c => exact hHand.2.1
  | put c => exact Nat.le_of_lt hHand.1

/- An interrupt at any point of the loop. -/
theorem Echoes.irq
    {scancode : Nat}
    (hEchoes : Echoes run shown hand)
    (hFits : Fits run (.irq scancode)) :
    Echoes (step run (.irq scancode)) shown hand := by
  rcases run with ⟨⟨kbd, monitor, phase⟩, log⟩
  cases hTyped : Kbd.typed kbd.layout scancode with
  | none =>
      rcases Kbd.kbdHandler_of_not_typed hTyped with
        ⟨layout, hHandler⟩
      unfold step next Log.next
      dsimp only
      rw [hTyped, hHandler]
      have hHolds := hEchoes.holds
      exact
        { kept := ⟨hEchoes.kept.bufferStart,
            hEchoes.kept.bufferEnd, hEchoes.kept.pending⟩
          holds := by
            cases phase <;> exact hHolds
          order := hEchoes.order
          window := hEchoes.window
          shows := hEchoes.shows }
  | some c =>
      have hWrap :
          ¬ (kbd.bufferStart = 0 ∧ kbd.bufferEnd = 255) := by
        intro hAt
        have hNone := hFits hAt
        rw [hTyped] at hNone
        cases hNone
      have hLog :
          (step ⟨⟨kbd, monitor, phase⟩, log⟩
              (.irq scancode)).2 = log.push c := by
        unfold step Log.next
        dsimp only
        rw [hTyped]
      refine
        { kept := ?_
          holds := ?_
          order := ?_
          window := hEchoes.window
          shows := hEchoes.shows }
      · rw [hLog, Log.queue_push]
        exact kept_typed hEchoes.kept (hand_le hEchoes.holds)
          hTyped hWrap
      · rw [hLog, Log.queue_push]
        exact hand_typed hTyped hEchoes.holds
      · rw [hLog]
        exact Log.accepted_push hEchoes.order c

------------------------------------------------------------
-- The Loop Goes On
------------------------------------------------------------

/- The test finds a character, or the loop puts a zero. -/
theorem Echoes.test
    (hEchoes : Echoes run shown hand)
    (hPhase : run.1.phase = .test) :
    Echoes (step run .main) shown hand := by
  rcases run with ⟨⟨kbd, monitor, phase⟩, log⟩
  cases hPhase
  rcases hEchoes.holds with ⟨hStart, rfl⟩
  have hKept := hEchoes.kept
  rw [masked_of_lt hStart] at hKept
  unfold step next main Log.next
  dsimp only
  by_cases hSome : kbd.bufferStart ≠ kbd.bufferEnd
  · rw [if_pos hSome]
    exact
      { kept := hEchoes.kept
        holds :=
          ⟨hStart, rfl,
            fun hNil => hSome (hKept.empty_iff.mpr hNil)⟩
        order := hEchoes.order
        window := hEchoes.window
        shows := hEchoes.shows }
  · rw [if_neg hSome]
    exact
      { kept := hEchoes.kept
        holds := ⟨hStart, .inr ⟨rfl, rfl⟩⟩
        order := hEchoes.order
        window := hEchoes.window
        shows := hEchoes.shows }

/- The oldest character is taken from the queue. -/
theorem Echoes.bump
    (hEchoes : Echoes run shown hand)
    (hPhase : run.1.phase = .bump) :
    Echoes (step run .main) shown
      [run.1.kbd.buffer run.1.kbd.bufferStart] := by
  rcases run with ⟨⟨kbd, monitor, phase⟩, log⟩
  cases hPhase
  rcases hEchoes.holds with ⟨hStart, rfl, hSome⟩
  have hKept := hEchoes.kept
  rw [masked_of_lt hStart] at hKept
  change kbd.bufferStart < 256 at hStart
  rcases List.exists_cons_of_ne_nil hSome with
    ⟨c, queue, hQueue⟩
  change log.queue = c :: queue at hQueue
  have hChar := (hKept.pending_cons hQueue).1
  have hNext : add32 kbd.bufferStart 1 = kbd.bufferStart + 1 :=
    add32_of_lt (by omega)
  have hTaken := hKept.getchar
  have hMove : kbd.bufferStart ≠ kbd.bufferEnd := fun hSame =>
    hSome (hKept.empty_iff.mp hSame)
  unfold Kbd.step Kbd.kbdGetchar at hTaken
  dsimp only at hTaken
  rw [if_pos hMove, Kbd.next_index hStart] at hTaken
  refine
    { kept := ?_
      holds := ⟨hNext, hStart, rfl⟩
      order := ?_
      window := hEchoes.window
      shows := hEchoes.shows }
  · unfold step next main Log.next masked
    dsimp only
    rw [if_pos rfl, hNext]
    exact hTaken
  · have hOrder := hEchoes.order
    unfold step Log.next
    dsimp only at hOrder ⊢
    rw [if_pos rfl, hOrder, hQueue, hChar]
    simp

theorem Echoes.read
    {i : Nat}
    (hEchoes : Echoes run shown hand)
    (hPhase : run.1.phase = .read i) :
    Echoes (step run .main) shown hand := by
  rcases run with ⟨⟨kbd, monitor, phase⟩, log⟩
  cases hPhase
  rcases hEchoes.holds with ⟨hAt, hi, hChar⟩
  change kbd.bufferStart = i + 1 at hAt
  have hPos : 0 < kbd.bufferStart := by omega
  have hLe : kbd.bufferStart ≤ 256 := by omega
  exact
    { kept := hEchoes.kept
      holds := ⟨hPos, hLe, hChar⟩
      order := hEchoes.order
      window := hEchoes.window
      shows := hEchoes.shows }

theorem Echoes.mask
    {c : Nat}
    (hEchoes : Echoes run shown hand)
    (hPhase : run.1.phase = .mask c) :
    Echoes (step run .main) shown hand := by
  rcases run with ⟨⟨kbd, monitor, phase⟩, log⟩
  cases hPhase
  rcases hEchoes.holds with ⟨hPos, hLe, hChar⟩
  have hMask :
      kbd.bufferStart &&& 255 = kbd.bufferStart % 256 :=
    Nat.and_two_pow_sub_one_eq_mod _ 8
  have hLt : kbd.bufferStart % 256 < 256 :=
    Nat.mod_lt _ (by decide)
  have hMasked :
      masked
          { kbd with bufferStart := kbd.bufferStart &&& 255 } =
        masked kbd := by
    unfold masked
    dsimp only
    rw [hMask, Nat.mod_mod]
  exact
    { kept := by
        change Kbd.Kept (masked
          { kbd with
            bufferStart := kbd.bufferStart &&& 255 }, log.queue)
        rw [hMasked]
        exact hEchoes.kept
      holds := by
        refine ⟨?_, .inl hChar⟩
        change kbd.bufferStart &&& 255 < 256
        rw [hMask]
        exact hLt
      order := hEchoes.order
      window := hEchoes.window
      shows := hEchoes.shows }

/- The terminal after one byte more. -/
theorem putAll_concat (bytes : List UInt8) (byte : UInt8) :
    Terminal.putAll (bytes ++ [byte]) =
      (Terminal.putAll bytes).put byte.toNat := by
  unfold Terminal.putAll
  rw [List.foldl_concat]

/- The character in hand is put on the screen. -/
theorem Echoes.put
    {c : Nat}
    (hEchoes : Echoes run shown hand)
    (hPhase : run.1.phase = .put c) :
    Echoes (step run .main) (shown ++ hand) [] := by
  rcases run with ⟨⟨kbd, monitor, phase⟩, log⟩
  cases hPhase
  rcases hEchoes.holds with ⟨hStart, hHand⟩
  have hPut := hEchoes.window.put (UInt8.ofNat c).toNat_lt
  have hTerminal :
      (Terminal.putAll (shown.map UInt8.ofNat)).put
          (UInt8.ofNat c).toNat =
        .putAll ((shown ++ hand).map UInt8.ofNat) := by
    rcases hHand with rfl | ⟨rfl, rfl⟩
    · rw [List.map_append]
      exact (putAll_concat _ _).symm
    · rw [List.append_nil]
      rfl
  rw [hTerminal] at hPut
  exact
    { kept := hEchoes.kept
      holds := ⟨hStart, rfl⟩
      order := by
        rw [List.append_nil]
        exact hEchoes.order
      window := hPut.updateCursor
      shows := hPut.shows }

/- Every step keeps the invariant. -/
theorem Echoes.step
    {event : Event}
    (hEchoes : Echoes run shown hand)
    (hFits : Fits run event) :
    ∃ shown hand, Echoes (Echo.step run event) shown hand := by
  cases event with
  | irq scancode => exact ⟨_, _, hEchoes.irq hFits⟩
  | main =>
      cases hPhase : run.1.phase with
      | test => exact ⟨_, _, hEchoes.test hPhase⟩
      | bump => exact ⟨_, _, hEchoes.bump hPhase⟩
      | read i => exact ⟨_, _, hEchoes.read hPhase⟩
      | mask c => exact ⟨_, _, hEchoes.mask hPhase⟩
      | put c => exact ⟨_, _, hEchoes.put hPhase⟩

theorem echoes_start
    (kbd : Kbd.State)
    (videoMem : Nat → Nat) :
    Echoes (start kbd videoMem, ⟨[], []⟩) [] [] where
  kept := Kbd.kept_initialRun kbd
  holds := ⟨Nat.zero_lt_succ 255, rfl⟩
  order := rfl
  window := (Monitor.window_initMonitor videoMem).updateCursor
  shows := (Monitor.window_initMonitor videoMem).shows

/- A run of steps that fit keeps the invariant. -/
theorem Echoes.foldl
    {events : List Event}
    (hEchoes : Echoes run shown hand)
    (hFit : AllFit Echo.step Fits run events) :
    ∃ shown hand,
      Echoes (events.foldl Echo.step run) shown hand := by
  induction events generalizing run shown hand with
  | nil => exact ⟨_, _, hEchoes⟩
  | cons event events ih =>
      rcases hEchoes.step hFit.1 with ⟨shown', hand', hNext⟩
      exact ih hNext hFit.2

theorem length_hand
    {phase : Phase}
    (hHand : Hand s queue phase hand) :
    hand.length ≤ 1 := by
  cases phase with
  | test => simp [hHand.2]
  | bump => simp [hHand.2.1]
  | read i => simp [hHand.2.2]
  | mask c => simp [hHand.2.2]
  | put c =>
      rcases hHand.2 with rfl | ⟨-, rfl⟩
      · exact Nat.le_refl 1
      · exact Nat.zero_le 1

/-
  However the keyboard's interrupts come between the steps of
  the loop, unless a key is typed at the exceptional indices:
  the screen shows the characters that have been typed, each
  once and in their order, up to at most one that the loop
  holds and those that wait in the buffer.
-/
theorem echo_shows_typed
    (kbd : Kbd.State)
    (videoMem : Nat → Nat)
    (events : List Event)
    (hFit :
      AllFit step Fits (start kbd videoMem, ⟨[], []⟩) events) :
    let run :=
      events.foldl step (start kbd videoMem, ⟨[], []⟩)
    (∃ shown hand,
      run.2.accepted = shown ++ hand ++ run.2.queue ∧
        hand.length ≤ 1 ∧
        (masked run.1.kbd).pending = run.2.queue ∧
        Shows run.1.monitor
          (.putAll (shown.map UInt8.ofNat))) ∧
      (run.1.phase = .test → run.2.queue = [] →
        Shows run.1.monitor
          (.putAll (run.2.accepted.map UInt8.ofNat))) := by
  intro run
  rcases (echoes_start kbd videoMem).foldl hFit with
    ⟨shown, hand, hEchoes⟩
  refine ⟨⟨shown, hand, hEchoes.order,
    length_hand hEchoes.holds, hEchoes.kept.pending,
    hEchoes.shows⟩, ?_⟩
  intro hTest hEmpty
  have hHolds := hEchoes.holds
  change Hand run.1.kbd run.2.queue run.1.phase hand at hHolds
  rw [hTest] at hHolds
  have hAll : run.2.accepted = shown := by
    refine hEchoes.order.trans ?_
    change shown ++ hand ++ run.2.queue = shown
    rw [hHolds.2, hEmpty, List.append_nil, List.append_nil]
  rw [hAll]
  exact hEchoes.shows

/- The key `a` is typed, and `b` while the loop is at work. -/
def aThenB : List Event :=
  [.irq 30, .main, .main, .irq 48, .main, .main, .main, .main,
    .main, .main, .main, .main]

theorem echo_shows_typed_ab :
    let run :=
      aThenB.foldl step
        (start ⟨Kbd.kbdKeymapUs, 0, 0, fun _ => 0⟩ (fun _ => 0),
          ⟨[], []⟩)
    Shows run.1.monitor (.putAll [97, 98]) :=
  (echo_shows_typed ⟨Kbd.kbdKeymapUs, 0, 0, fun _ => 0⟩
    (fun _ => 0) aThenB
    ⟨fun hAt => absurd hAt.2 (by decide), trivial, trivial,
      fun hAt => absurd hAt.2 (by decide), trivial, trivial,
      trivial, trivial, trivial, trivial, trivial, trivial,
      trivial⟩).2 (by decide) (by decide)

end Echo

end SosKernel
