import SosKernel.Kprintf
import SosKernel.Lib.SpinLock
import SosKernel.Lock

/-
  The threads of `init/debug.c` that print two lines in turn,
  under a spin lock, with a step of another thread between
  any two stores of `kprintf`.

  Main declarations:
    * `Job`, `Job.step`: `kprintf`, store by store
    * `testThread`: the body of the loop
    * `Owes`: what a job has still to show
    * `lines_never_mix`
-/

------------------------------------------------------------
-- The Threads
------------------------------------------------------------

namespace SosKernel

namespace TestThread

open Kprintf (Console Given Known Prints argsOf format literal
  putBytes shown shown_of_unterminated store
  unterminated_append unterminated_literal)
open Vsprintf (Args Format Means Texts)

/-
  Where a thread is between `spinlock_lock` and
  `spinlock_unlock`: before its next call of `kprintf`, at the
  stores of `vsprintf` and of `kprintf`, or in the loop of
  `monitor_write` at `s`.
-/
inductive Job where
| calling (calls : List (Format × Args))
| storing (stores : List Vsprintf.Store)
    (calls : List (Format × Args))
| writing (s : UInt32) (calls : List (Format × Args))

/- One step; there is none at the end, or if `vsprintf` stops. -/
def Job.step
    (buf : UInt32) : Job → Console → Option (Job × Console)
| .calling [], _ => none
| .calling (call :: calls), c =>
    let start : Vsprintf.Call := ⟨buf, call.1, call.2, c.mem⟩
    match (Vsprintf.vsprintf start
        (call.1.chars.length + 1)).run start.start with
    | .error _ _ => none
    | .ok i s =>
        some
          (.storing
            (s.stores ++ [.byte (buf + i.toUInt32) 0]) calls,
            c)
| .storing [] calls, c => some (.writing buf calls, c)
| .storing (next :: stores) calls, c =>
    some
      (.storing stores calls,
        { c with mem := store c.mem next })
| .writing s calls, c =>
    if c.mem s = 0 then
      some (.calling calls, c)
    else
      some
        (.writing (s + 1) calls,
          { c with
            monitor := Monitor.monitorPut c.monitor (c.mem s) })

def firstFormat : Format :=
  format ">>> thread %d\n" (by decide)

def secondFormat : Format :=
  format "thread %d >>>\n" (by decide)

/- The loop of `test_thread`, for the argument of each thread. -/
def testThread
    {T : Type}
    (buf : UInt32)
    (arg : T → UInt32) : SpinLock.Body T Console Job where
  start t :=
    .calling
      [(firstFormat, argsOf [arg t]),
        (secondFormat, argsOf [arg t])]
  step := Job.step buf
  Ended job := job = .calling []

------------------------------------------------------------
-- What Is Shown
------------------------------------------------------------

def firstLine (arg : UInt32) : List UInt8 :=
  literal ">>> thread " ++
    (Vsprintf.signedText arg.toInt32 ++ literal "\n")

def secondLine (arg : UInt32) : List UInt8 :=
  literal "thread " ++
    (Vsprintf.signedText arg.toInt32 ++ literal " >>>\n")

/- The lines of one turn. -/
def turnText (arg : UInt32) : List UInt8 :=
  firstLine arg ++ secondLine arg

/- There are no strings among the arguments. -/
def noTexts : Texts := fun _ => none

theorem known_noTexts
    (buf : UInt32)
    (mem : UInt32 → UInt8) :
    Known buf mem noTexts where
  string := by
    intro a text hText
    cases hText
  apart := by
    intro a text hText
    cases hText

theorem means_number
    (before after : List UInt8)
    (arg : UInt32)
    (hBefore : before.all (· ≠ Vsprintf.percent) = true)
    (hAfter : after.all (· ≠ Vsprintf.percent) = true) :
    Means noTexts
      (Vsprintf.pieces
        (before ++
          (Vsprintf.percent :: Vsprintf.letter 'd' :: after)))
      (argsOf [arg])
      (before ++
        (Vsprintf.signedText arg.toInt32 ++ after)) :=
  Means.chars before hBefore
    (Means.decimal (Kprintf.means_literal _ after hAfter))

theorem length_number
    (before after : List UInt8)
    (arg : UInt32)
    (hLength : before.length + after.length ≤ 1000) :
    (before ++
        (Vsprintf.signedText arg.toInt32 ++ after)).length <
      Kprintf.BUF_SIZE := by
  have hNumber := Vsprintf.length_signedText arg.toInt32
  unfold Kprintf.BUF_SIZE
  rw [List.length_append, List.length_append]
  omega

theorem prints_first (arg : UInt32) :
    Prints noTexts firstFormat (argsOf [arg])
      (firstLine arg) where
  means := by
    have hChars :
        firstFormat.chars =
          literal ">>> thread " ++
            (Vsprintf.percent :: Vsprintf.letter 'd' ::
              literal "\n") := by
      decide
    rw [hChars]
    exact means_number _ _ arg (by decide) (by decide)
  fits := length_number _ _ arg (by decide)

theorem prints_second (arg : UInt32) :
    Prints noTexts secondFormat (argsOf [arg])
      (secondLine arg) where
  means := by
    have hChars :
        secondFormat.chars =
          literal "thread " ++
            (Vsprintf.percent :: Vsprintf.letter 'd' ::
              literal " >>>\n") := by
      decide
    rw [hChars]
    exact means_number _ _ arg (by decide) (by decide)
  fits := length_number _ _ arg (by decide)

theorem shown_number
    (before after : String)
    (arg : UInt32)
    (hBefore : (literal before).all (· ≠ 0) = true)
    (hAfter : (literal after).all (· ≠ 0) = true) :
    shown
        (literal before ++
          (Vsprintf.signedText arg.toInt32 ++ literal after)) =
      literal before ++
        (Vsprintf.signedText arg.toInt32 ++ literal after) := by
  refine shown_of_unterminated ?_
  refine unterminated_append
    (unterminated_literal before hBefore) ?_
  exact unterminated_append
    (Vsprintf.unterminated_signedText _)
    (unterminated_literal after hAfter)

------------------------------------------------------------
-- One Step of a Job
------------------------------------------------------------

variable {buf : UInt32}
variable {mem : UInt32 → UInt8}
variable {c c' : Console}
variable {job job' : Job}
variable {rest : List UInt8}

/- The calls print these texts. -/
def CallsPrint
    (calls : List (Format × Args))
    (outs : List (List UInt8)) : Prop :=
  List.Forall₂
    (fun call out => Prints noTexts call.1 call.2 out) calls
    outs

/-
  What a job has still to show, with this memory: the text is
  in the buffer after the stores, and from `s` on in the loop
  of `monitor_write`.
-/
inductive Owes
    (buf : UInt32) :
    Job → (UInt32 → UInt8) → List UInt8 → Prop where
| calling {calls : List (Format × Args)}
    {outs : List (List UInt8)} {mem : UInt32 → UInt8}
    (hCalls : CallsPrint calls outs) :
    Owes buf (.calling calls) mem (outs.flatMap shown)
| storing {stores : List Vsprintf.Store}
    {calls : List (Format × Args)}
    {outs : List (List UInt8)} {mem : UInt32 → UInt8}
    {out : List UInt8}
    (hName :
      Elf.SymMap.NameAt (stores.foldl store mem) buf out)
    (hCalls : CallsPrint calls outs) :
    Owes buf (.storing stores calls) mem
      (shown out ++ outs.flatMap shown)
| writing {s : UInt32} {calls : List (Format × Args)}
    {outs : List (List UInt8)} {mem : UInt32 → UInt8}
    {out : List UInt8}
    (hName : Elf.SymMap.NameAt mem s out)
    (hCalls : CallsPrint calls outs) :
    Owes buf (.writing s calls) mem
      (shown out ++ outs.flatMap shown)

/- A step shows a part of what the job owes. -/
def Pays
    (buf : UInt32)
    (c c' : Console)
    (job' : Job)
    (rest : List UInt8) : Prop :=
  ∃ part rest', part ++ rest' = rest ∧
    c'.monitor = part.foldl Monitor.monitorPut c.monitor ∧
      Owes buf job' c'.mem rest'

/- The step shows nothing. -/
theorem Pays.nothing
    (hMonitor : c'.monitor = c.monitor)
    (hOwes : Owes buf job' c'.mem rest) :
    Pays buf c c' job' rest :=
  ⟨[], rest, rfl, hMonitor, hOwes⟩

/- `vsprintf` makes stores that leave the text in the buffer. -/
theorem exists_stored
    {call : Format × Args}
    {out : List UInt8}
    (c : Console)
    (hPrints : Prints noTexts call.1 call.2 out) :
    ∃ stores,
      (∀ calls,
        (Job.calling (call :: calls)).step buf c =
          some (.storing stores calls, c)) ∧
        Elf.SymMap.NameAt (stores.foldl store c.mem) buf
          out := by
  have hFits := hPrints.fits
  unfold Kprintf.BUF_SIZE at hFits
  rcases Kprintf.vsprintf_stored
      (known_noTexts buf c.mem) hPrints with
    ⟨s, hRun, hMem⟩
  have hName := @Kprintf.nameAt_putBytes c.mem buf out [] (by
    rw [List.length_append, List.length_singleton]
    omega)
  rw [← hMem] at hName
  refine ⟨_, fun calls => by rw [Job.step, hRun], ?_⟩
  rw [List.foldl_append]
  exact hName

theorem pays_calling
    {call : Format × Args}
    {calls : List (Format × Args)}
    {outs : List (List UInt8)}
    (hCalls : CallsPrint (call :: calls) outs)
    (hStep :
      (Job.calling (call :: calls)).step buf c =
        some (job', c')) :
    Pays buf c c' job' (outs.flatMap shown) := by
  cases hCalls with
  | @cons _ out _ outs hFirst hRest =>
      rcases exists_stored c hFirst with
        ⟨stores, hStored, hName⟩
      rw [hStored] at hStep
      cases hStep
      rw [List.flatMap_cons]
      exact Pays.nothing rfl (.storing hName hRest)

theorem pays_writing
    {s : UInt32}
    {calls : List (Format × Args)}
    {outs : List (List UInt8)}
    {out : List UInt8}
    (hName : Elf.SymMap.NameAt c.mem s out)
    (hCalls : CallsPrint calls outs)
    (hStep :
      (Job.writing s calls).step buf c = some (job', c')) :
    Pays buf c c' job' (shown out ++ outs.flatMap shown) := by
  rw [Job.step] at hStep
  by_cases hEnd : c.mem s = 0
  · rw [if_pos hEnd] at hStep
    cases hStep
    -- the loop ends here, whatever comes after the null byte
    have hShown : shown out = [] := by
      cases out with
      | nil => rfl
      | cons b bs =>
          have hByte : b = 0 := hName.1.symm.trans hEnd
          unfold shown
          rw [List.takeWhile_cons_of_neg (by simp [hByte])]
    rw [hShown, List.nil_append]
    exact Pays.nothing rfl (.calling hCalls)
  · rw [if_neg hEnd] at hStep
    cases hStep
    cases out with
    | nil => exact absurd hName hEnd
    | cons b bs =>
        have hByte : c.mem s = b := hName.1
        rw [hByte] at hEnd
        have hShown : shown (b :: bs) = b :: shown bs := by
          unfold shown
          rw [List.takeWhile_cons_of_pos (by simp [hEnd])]
        rw [hShown, hByte]
        exact ⟨[b], _, rfl, rfl, .writing hName.2 hCalls⟩

theorem Owes.step
    (hOwes : Owes buf job c.mem rest)
    (hStep : job.step buf c = some (job', c')) :
    Pays buf c c' job' rest := by
  cases job with
  | calling calls =>
      cases calls with
      | nil => cases hStep
      | cons call calls =>
          cases hOwes with
          | calling hCalls => exact pays_calling hCalls hStep
  | storing stores calls =>
      cases hOwes with
      | storing hName hCalls =>
          cases stores with
          | nil =>
              cases hStep
              exact Pays.nothing rfl (.writing hName hCalls)
          | cons next stores =>
              cases hStep
              exact Pays.nothing rfl (.storing hName hCalls)
  | writing s calls =>
      cases hOwes with
      | writing hName hCalls =>
          exact pays_writing hName hCalls hStep

theorem Owes.ended (hOwes : Owes buf (.calling []) mem rest) :
    rest = [] := by
  cases hOwes with
  | calling hCalls =>
      cases hCalls
      rfl

theorem owes_start
    {T : Type}
    (arg : T → UInt32)
    (t : T) :
    Owes buf ((testThread buf arg).start t) mem
      (turnText (arg t)) := by
  have hCalls :
      CallsPrint
        [(firstFormat, argsOf [arg t]),
          (secondFormat, argsOf [arg t])]
        [firstLine (arg t), secondLine (arg t)] :=
    .cons (prints_first _) (.cons (prints_second _) .nil)
  have hText :
      [firstLine (arg t), secondLine (arg t)].flatMap shown =
        turnText (arg t) := by
    have hFirst : shown (firstLine (arg t)) = firstLine (arg t) :=
      shown_number _ _ _ (by decide) (by decide)
    have hSecond :
        shown (secondLine (arg t)) = secondLine (arg t) :=
      shown_number _ _ _ (by decide) (by decide)
    rw [List.flatMap_cons, List.flatMap_cons, List.flatMap_nil,
      hFirst, hSecond, List.append_nil]
    rfl
  rw [← hText]
  exact .calling hCalls

------------------------------------------------------------
-- The End of a Turn
------------------------------------------------------------

variable {T : Type}
variable {arg : T → UInt32}
variable {calls : List (Format × Args)}

theorem finishes_storing
    {stores : List Vsprintf.Store}
    (hWriting :
      SpinLock.Finishes (testThread buf arg)
        (.writing buf calls)
        { c with mem := stores.foldl store c.mem }) :
    SpinLock.Finishes (testThread buf arg)
      (.storing stores calls) c := by
  induction stores generalizing c with
  | nil => exact .work rfl hWriting
  | cons next stores ih => exact .work rfl (ih hWriting)

theorem finishes_writing
    {s : UInt32}
    {out : List UInt8}
    (hName : Elf.SymMap.NameAt c.mem s out)
    (hCalls :
      ∀ c, SpinLock.Finishes (testThread buf arg)
        (.calling calls) c) :
    SpinLock.Finishes (testThread buf arg)
      (.writing s calls) c := by
  induction out generalizing s c with
  | nil => exact .work (if_pos hName) (hCalls c)
  | cons b bs ih =>
      by_cases hEnd : c.mem s = 0
      · exact .work (if_pos hEnd) (hCalls c)
      · exact .work (if_neg hEnd) (ih hName.2)

theorem finishes_calling
    {outs : List (List UInt8)}
    (hCalls : CallsPrint calls outs) :
    ∀ c, SpinLock.Finishes (testThread buf arg)
      (.calling calls) c := by
  induction hCalls with
  | nil => exact fun _ => .ended rfl
  | @cons call out calls outs hFirst _ ih =>
      intro c
      rcases exists_stored c hFirst with ⟨stores, hStep, hName⟩
      exact .work (hStep calls)
        (finishes_storing (finishes_writing hName ih))

/- Alone, a thread comes to the end of what it owes. -/
theorem Owes.finishes (hOwes : Owes buf job c.mem rest) :
    SpinLock.Finishes (testThread buf arg) job c := by
  cases hOwes with
  | calling hCalls => exact finishes_calling hCalls c
  | storing hName hCalls =>
      exact finishes_storing
        (finishes_writing hName (finishes_calling hCalls))
  | writing hName hCalls =>
      exact finishes_writing hName (finishes_calling hCalls)

------------------------------------------------------------
-- Runs
------------------------------------------------------------

variable {videoMem : Nat → Nat}

/- The lines of whole turns, one after the other. -/
def turnTexts (arg : T → UInt32) (turns : List T) : List UInt8 :=
  turns.flatMap fun t => turnText (arg t)

/- The screen was given whole turns, and a part of one more. -/
def Shown
    (videoMem : Nat → Nat)
    (arg : T → UInt32)
    (turns : List T)
    (part : List UInt8)
    (c : Console) : Prop :=
  Given videoMem (turnTexts arg turns ++ part) c

/- A thread in its turn. -/
def InTurn
    (buf : UInt32)
    (videoMem : Nat → Nat)
    (arg : T → UInt32)
    (t : T)
    (turns : List T)
    (job : Job)
    (c : Console) : Prop :=
  ∃ part rest, part ++ rest = turnText (arg t) ∧
    Shown videoMem arg turns part c ∧ Owes buf job c.mem rest

theorem contract :
    SpinLock.Contract (testThread buf arg)
      (fun turns c => Shown videoMem arg turns [] c)
      (InTurn buf videoMem arg) where
  enter := by
    intro t turns c hShown
    exact ⟨[], turnText (arg t), rfl, hShown,
      owes_start arg t⟩
  work := by
    intro t turns job job' c c' hTurn hStep
    rcases hTurn with ⟨part, rest, hText, hShown, hOwes⟩
    rcases hOwes.step hStep with
      ⟨more, rest', hMore, hMonitor, hOwes'⟩
    refine ⟨part ++ more, rest', ?_, ?_, hOwes'⟩
    · rw [List.append_assoc, hMore, hText]
    · unfold Shown at hShown ⊢
      rw [← List.append_assoc]
      exact hShown.append hMonitor
  leave := by
    intro t turns job c hTurn hEnded
    have hJob : job = .calling [] := hEnded
    subst hJob
    rcases hTurn with ⟨part, rest, hText, hShown, hOwes⟩
    rw [hOwes.ended, List.append_nil] at hText
    unfold Shown turnTexts at hShown ⊢
    rw [List.append_nil, List.flatMap_append,
      List.flatMap_singleton, ← hText]
    exact hShown

variable [DecidableEq T]

/- The threads after `init_monitor`, before they run. -/
abbrev Started
    (mem : UInt32 → UInt8)
    (videoMem : Nat → Nat) :
    SpinLock.State T UInt32 Console Job → Prop :=
  SpinLock.Started Lock.spinlock
    ⟨mem, Monitor.initMonitor (.static videoMem)⟩

abbrev Step (buf : UInt32) (arg : T → UInt32) :
    SpinLock.State T UInt32 Console Job →
      SpinLock.State T UInt32 Console Job → Prop :=
  SpinLock.Step Lock.spinlock (testThread buf arg)

/-
  Any number of threads, in any order of their steps: the
  screen shows the two lines of each turn that is over, in the
  order of the turns, and after them a part of the lines of
  the one thread that has the lock, or nothing if it is free.
  That thread comes to the end of its turn, if it may run.
-/
theorem lines_never_mix
    {s : SpinLock.State T UInt32 Console Job}
    (hReach :
      Reachable (Started mem videoMem) (Step buf arg) s) :
    ∃ part,
      Monitor.Shows s.shared.monitor
          (.putAll (turnTexts arg s.turns ++ part)) ∧
        (s.word = Lock.SPINLOCK_UNLOCKED ∧ part = [] ∧
            (∀ t, s.place t = .outside) ∨
          s.word = Lock.SPINLOCK_LOCKED ∧
            ∃ t job, s.place t = .inside job ∧
              (∀ u, u ≠ t → s.place u = .outside) ∧
              part <+: turnText (arg t) ∧
              SpinLock.Finishes (testThread buf arg) job
                s.shared) := by
  have hStart :
      Shown videoMem arg [] []
        ⟨mem, Monitor.initMonitor (.static videoMem)⟩ := rfl
  have hInv :=
    SpinLock.Inv.reachable Lock.lawful_spinlock contract
      hStart hReach
  cases hInv with
  | free hWord hOut hFree =>
      exact ⟨[], Given.putAll hFree, .inl ⟨hWord, rfl, hOut⟩⟩
  | busy t job hWord hIn hOut hBusy =>
      rcases hBusy with ⟨part, rest, hText, hShown, hOwes⟩
      exact ⟨part, Given.putAll hShown,
        .inr ⟨hWord, t, job, hIn, hOut, ⟨rest, hText⟩,
          hOwes.finishes⟩⟩

def twoArgs (t : Bool) : UInt32 :=
  if t then 2 else 1

def twoStarted : SpinLock.State Bool UInt32 Console Job where
  word := Lock.SPINLOCK_UNLOCKED
  shared :=
    ⟨fun _ => 0, Monitor.initMonitor (.static fun _ => 0)⟩
  place := fun _ => .outside
  turns := []

/-
  The first thread takes the lock, and the second one loses an
  exchange; then the first one has its turn, and after it the
  second one has printed its lines too.
-/
theorem exists_secondTurn :
    ∃ s, Reachable (Started (fun _ => 0) (fun _ => 0))
        (Step 0x1000 twoArgs) s ∧
      s.turns = [false] ∧
        s.place true = .inside (.calling []) := by
  have hStart :
      Reachable (Started (fun _ => 0) (fun _ => 0))
        (Step 0x1000 twoArgs) twoStarted :=
    .start ⟨rfl, rfl, rfl, fun _ => rfl⟩
  have hFinishes :
      ∀ t c, SpinLock.Finishes (testThread 0x1000 twoArgs)
        ((testThread 0x1000 twoArgs).start t) c :=
    fun t _ => (owes_start twoArgs t).finishes
  have hTaken :=
    hStart.step
      (.take (t := false) Lock.lawful_spinlock rfl rfl)
  have hLost :=
    hTaken.step
      (.lose (t := true) Lock.lawful_spinlock rfl rfl)
  rcases (hFinishes false _).reachable (t := false) hLost
      rfl rfl with
    ⟨job, c, hEnded, hFirst⟩
  have hGiven :=
    hFirst.step
      (.unlock false rfl hEnded)
  have hTakenNext :=
    hGiven.step
      (.take (t := true) Lock.lawful_spinlock rfl rfl)
  rcases (hFinishes true _).reachable (t := true) hTakenNext
      rfl rfl with
    ⟨job', c', hEnded', hSecond⟩
  have hJob : job' = .calling [] := hEnded'
  subst hJob
  exact ⟨_, hSecond, rfl, rfl⟩

theorem lines_never_mix_secondTurn :
    ∃ s : SpinLock.State Bool UInt32 Console Job,
      s.turns = [false] ∧
      s.place true = .inside (.calling []) ∧
      ∃ part,
        Monitor.Shows s.shared.monitor
            (.putAll (turnTexts twoArgs s.turns ++ part)) ∧
          (s.word = Lock.SPINLOCK_UNLOCKED ∧ part = [] ∧
              (∀ t, s.place t = .outside) ∨
            s.word = Lock.SPINLOCK_LOCKED ∧
              ∃ t job, s.place t = .inside job ∧
                (∀ u, u ≠ t → s.place u = .outside) ∧
                part <+: turnText (twoArgs t) ∧
                SpinLock.Finishes (testThread 0x1000 twoArgs)
                  job s.shared) := by
  rcases exists_secondTurn with ⟨s, hReach, hTurns, hPlace⟩
  exact ⟨s, hTurns, hPlace, lines_never_mix hReach⟩

end TestThread

end SosKernel
