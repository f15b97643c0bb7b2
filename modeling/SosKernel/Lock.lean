import Mathlib.Logic.Function.Basic
import SosKernel.Lib.Reachable
import SosKernel.Lib.SpinLock

/-
  The spin lock of `lib/lock.c` under any number of threads.

  Main declarations:
    * `atomicTestAndSet`, `trylockResult`
    * `Point`, `Thread`, `State`: where the threads are
    * `Step`: one thread takes one atomic step
    * `Inv`: the lock word and the program points
    * `spinlock_safe`
    * `Matches`: threads that lock, work and unlock
    * `spinlock_followed`
-/

------------------------------------------------------------
-- The Lock
------------------------------------------------------------

namespace SosKernel

namespace Lock

def SPINLOCK_LOCKED : UInt32 := 0
def SPINLOCK_UNLOCKED : UInt32 := 1

/- The old value of the word, and the new one. -/
def atomicTestAndSet (lock : UInt32) : UInt32 × UInt32 :=
  (lock, SPINLOCK_LOCKED)

/- What `spinlock_trylock` returns for the old value. -/
def trylockResult (value : UInt32) : UInt8 :=
  if value = SPINLOCK_UNLOCKED then
    1
  else
    0

------------------------------------------------------------
-- Threads
------------------------------------------------------------

/-
  Where a thread is.  `value` is what the exchange returned,
  and `took` tells whether it changed the word; the code only
  sees the first.
-/
inductive Point where
| outside
| locking
| locked (value : UInt32) (took : Bool)
| trying
| tried (value : UInt32) (took : Bool)
| unlocking
deriving DecidableEq, Repr

/- `mine` if an attempt has returned to the thread with it. -/
structure Thread where
  mine : Bool
  point : Point
deriving DecidableEq, Repr

def Point.took : Point → Bool
| .locked _ took => took
| .tried _ took => took
| _ => false

/-
  A thread holds the lock from the exchange that changed the
  word up to the store that changes it back.
-/
def Thread.Holds (thread : Thread) : Prop :=
  thread.mine = true ∨ thread.point.took = true

variable {T : Type}

structure State (T : Type) where
  lock : UInt32
  thread : T → Thread

def State.Holds (s : State T) (t : T) : Prop :=
  (s.thread t).Holds

/- All threads are outside, and the lock is free. -/
def Started (s : State T) : Prop :=
  s.lock = SPINLOCK_UNLOCKED ∧
    ∀ t, s.thread t = ⟨false, .outside⟩

variable [DecidableEq T]

def State.set
    (s : State T)
    (t : T)
    (lock : UInt32)
    (thread : Thread) : State T where
  lock := lock
  thread := Function.update s.thread t thread

/-
  The steps of `spinlock_lock`, `spinlock_trylock` and
  `spinlock_unlock`.  Any thread may try again while it holds
  the lock, but only a thread that does may unlock.
-/
inductive Step : State T → State T → Prop where
| callLock {s : State T} (t : T) {mine : Bool}
    (hThread : s.thread t = ⟨mine, .outside⟩) :
    Step s (s.set t s.lock ⟨mine, .locking⟩)
| exchangeLock {s : State T} (t : T) {mine : Bool}
    (hThread : s.thread t = ⟨mine, .locking⟩) :
    Step s
      (s.set t (atomicTestAndSet s.lock).2
        ⟨mine,
          .locked (atomicTestAndSet s.lock).1
            (s.lock ≠ SPINLOCK_LOCKED)⟩)
| lockAgain {s : State T} (t : T) {mine took : Bool}
    {value : UInt32}
    (hThread : s.thread t = ⟨mine, .locked value took⟩)
    (hValue : value = SPINLOCK_LOCKED) :
    Step s (s.set t s.lock ⟨mine, .locking⟩)
| lockReturn {s : State T} (t : T) {mine took : Bool}
    {value : UInt32}
    (hThread : s.thread t = ⟨mine, .locked value took⟩)
    (hValue : ¬ value = SPINLOCK_LOCKED) :
    Step s (s.set t s.lock ⟨true, .outside⟩)
| callTrylock {s : State T} (t : T) {mine : Bool}
    (hThread : s.thread t = ⟨mine, .outside⟩) :
    Step s (s.set t s.lock ⟨mine, .trying⟩)
| exchangeTrylock {s : State T} (t : T) {mine : Bool}
    (hThread : s.thread t = ⟨mine, .trying⟩) :
    Step s
      (s.set t (atomicTestAndSet s.lock).2
        ⟨mine,
          .tried (atomicTestAndSet s.lock).1
            (s.lock ≠ SPINLOCK_LOCKED)⟩)
| trylockReturn {s : State T} (t : T) {mine took : Bool}
    {value : UInt32}
    (hThread : s.thread t = ⟨mine, .tried value took⟩) :
    Step s
      (s.set t s.lock
        ⟨mine || trylockResult value != 0, .outside⟩)
| callUnlock {s : State T} (t : T)
    (hThread : s.thread t = ⟨true, .outside⟩) :
    Step s (s.set t s.lock ⟨true, .unlocking⟩)
| storeUnlock {s : State T} (t : T) {mine : Bool}
    (hThread : s.thread t = ⟨mine, .unlocking⟩) :
    Step s (s.set t SPINLOCK_UNLOCKED ⟨false, .outside⟩)

------------------------------------------------------------
-- The Invariant
------------------------------------------------------------

/- The value that was returned tells if the word changed. -/
def Thread.Right (thread : Thread) : Prop :=
  match thread.point with
  | .locked value took =>
      ¬ value = SPINLOCK_LOCKED ↔ took = true
  | .tried value took =>
      trylockResult value = 1 ↔ took = true
  | .unlocking => thread.mine = true
  | _ => True

/-
  The word is locked just while a thread holds the lock, and
  one thread does at most.
-/
structure Inv (s : State T) : Prop where
  word :
    s.lock = SPINLOCK_LOCKED ∨ s.lock = SPINLOCK_UNLOCKED
  locked : s.lock = SPINLOCK_LOCKED ↔ ∃ t, s.Holds t
  one : ∀ t u, s.Holds t → s.Holds u → t = u
  right : ∀ t, (s.thread t).Right

theorem locked_ne_unlocked :
    ¬ SPINLOCK_LOCKED = SPINLOCK_UNLOCKED := by
  decide

theorem trylockResult_eq_one_iff {value : UInt32} :
    trylockResult value = 1 ↔ value = SPINLOCK_UNLOCKED := by
  unfold trylockResult
  by_cases hValue : value = SPINLOCK_UNLOCKED
  · rw [if_pos hValue]
    exact iff_of_true rfl hValue
  · rw [if_neg hValue]
    exact iff_of_false (by decide) hValue

theorem trylockResult_ne_zero_iff {value : UInt32} :
    trylockResult value ≠ 0 ↔ trylockResult value = 1 := by
  rw [trylockResult_eq_one_iff]
  unfold trylockResult
  by_cases hValue : value = SPINLOCK_UNLOCKED
  · rw [if_pos hValue]
    exact iff_of_true (by decide) hValue
  · rw [if_neg hValue]
    exact iff_of_false (fun h => h rfl) hValue

/- A thread holds the lock after an exchange that took it. -/
theorem holds_exchange
    {mine : Bool}
    {point point' : Point}
    {free : Prop}
    [Decidable free]
    (hBefore : point.took = false)
    (hAfter : point'.took = decide free) :
    Thread.Holds ⟨mine, point'⟩ ↔
      Thread.Holds ⟨mine, point⟩ ∨ free := by
  unfold Thread.Holds
  rw [hBefore, hAfter, decide_eq_true_iff]
  constructor
  · rintro (hMine | hFree)
    · exact .inl (.inl hMine)
    · exact .inr hFree
  · rintro ((hMine | hFalse) | hFree)
    · exact .inl hMine
    · cases hFalse
    · exact .inr hFree

/- The value that is returned is the right one. -/
theorem holds_trylock
    {mine took : Bool}
    {value : UInt32}
    (hRight : trylockResult value = 1 ↔ took = true) :
    Thread.Holds
        ⟨mine || trylockResult value != 0, .outside⟩ ↔
      Thread.Holds ⟨mine, .tried value took⟩ := by
  unfold Thread.Holds
  rw [Bool.or_eq_true, bne_iff_ne, trylockResult_ne_zero_iff,
    hRight, or_assoc]
  apply or_congr_right
  constructor
  · rintro (hTook | hFalse)
    · exact hTook
    · cases hFalse
  · exact .inl

omit [DecidableEq T] in
theorem inv_started
    {s : State T}
    (hStarted : Started s) :
    Inv s := by
  rcases hStarted with ⟨hLock, hThread⟩
  have hNone : ∀ t, ¬ s.Holds t := by
    intro t
    unfold State.Holds Thread.Holds
    rw [hThread t]
    rintro (hMine | hTook)
    · cases hMine
    · cases hTook
  refine
    { word := .inr hLock
      locked := ?_
      one := fun t u ht => absurd ht (hNone t)
      right := ?_ }
  · rw [hLock]
    refine iff_of_false (Ne.symm locked_ne_unlocked) ?_
    rintro ⟨t, ht⟩
    exact hNone t ht
  · intro t
    rw [hThread t]
    trivial

namespace State

variable {s : State T}
variable {t u : T}
variable {lock : UInt32}
variable {thread : Thread}

theorem thread_set_self :
    (s.set t lock thread).thread t = thread := by
  change Function.update s.thread t thread t = thread
  rw [Function.update_self]

theorem thread_set_of_ne
    (hNe : u ≠ t) :
    (s.set t lock thread).thread u = s.thread u := by
  change Function.update s.thread t thread u = s.thread u
  rw [Function.update_of_ne hNe]

theorem holds_set_self :
    (s.set t lock thread).Holds t ↔ thread.Holds := by
  unfold Holds
  rw [thread_set_self]

theorem holds_set_of_ne
    (hNe : u ≠ t) :
    (s.set t lock thread).Holds u ↔ s.Holds u := by
  unfold Holds
  rw [thread_set_of_ne hNe]

end State

namespace Inv

variable {s : State T}
variable {t : T}
variable {lock : UInt32}
variable {thread : Thread}

theorem right_set
    (hInv : Inv s)
    (hRight : thread.Right)
    (u : T) :
    ((s.set t lock thread).thread u).Right := by
  by_cases hSame : u = t
  · subst hSame
    rw [State.thread_set_self]
    exact hRight
  · rw [State.thread_set_of_ne hSame]
    exact hInv.right u

/- A step that leaves the word and the holders alone. -/
theorem keep
    (hInv : Inv s)
    (hRight : thread.Right)
    (hHolds : thread.Holds ↔ s.Holds t) :
    Inv (s.set t s.lock thread) := by
  have hSame :
      ∀ u, (s.set t s.lock thread).Holds u ↔ s.Holds u := by
    intro u
    by_cases hu : u = t
    · subst hu
      rw [State.holds_set_self, hHolds]
    · exact State.holds_set_of_ne hu
  refine
    { word := hInv.word
      locked := ?_
      one := ?_
      right := hInv.right_set hRight }
  · exact hInv.locked.trans
      (exists_congr fun u => (hSame u).symm)
  · intro u v hu hv
    exact hInv.one u v ((hSame u).mp hu) ((hSame v).mp hv)

/- The exchange takes the lock if it was free. -/
theorem exchange
    (hInv : Inv s)
    (hRight : thread.Right)
    (hHolds :
      thread.Holds ↔
        s.Holds t ∨ ¬ s.lock = SPINLOCK_LOCKED) :
    Inv (s.set t SPINLOCK_LOCKED thread) := by
  refine
    { word := .inl rfl
      locked := ?_
      one := ?_
      right := hInv.right_set hRight }
  · refine iff_of_true rfl ?_
    by_cases hLocked : s.lock = SPINLOCK_LOCKED
    · rcases hInv.locked.mp hLocked with ⟨u, hu⟩
      by_cases hSame : u = t
      · subst hSame
        exact ⟨u, State.holds_set_self.mpr
          (hHolds.mpr (.inl hu))⟩
      · exact ⟨u, (State.holds_set_of_ne hSame).mpr hu⟩
    · exact ⟨t, State.holds_set_self.mpr
        (hHolds.mpr (.inr hLocked))⟩
  · -- another holder had it before, so that it was locked
    have hOld :
        ∀ u, u ≠ t → s.Holds u →
          ¬ (s.set t SPINLOCK_LOCKED thread).Holds t := by
      intro u hNe hu ht
      rw [State.holds_set_self, hHolds] at ht
      rcases ht with ht | hFree
      · exact hNe (hInv.one u t hu ht)
      · exact hFree (hInv.locked.mpr ⟨u, hu⟩)
    intro u v hu hv
    by_cases hut : u = t
    · by_cases hvt : v = t
      · rw [hut, hvt]
      · rw [State.holds_set_of_ne hvt] at hv
        exact absurd (hut ▸ hu) (hOld v hvt hv)
    · rw [State.holds_set_of_ne hut] at hu
      by_cases hvt : v = t
      · exact absurd (hvt ▸ hv) (hOld u hut hu)
      · rw [State.holds_set_of_ne hvt] at hv
        exact hInv.one u v hu hv

/- The holder gives the lock back. -/
theorem release
    (hInv : Inv s)
    (hRight : thread.Right)
    (hOwner : s.Holds t)
    (hHolds : ¬ thread.Holds) :
    Inv (s.set t SPINLOCK_UNLOCKED thread) := by
  have hNone :
      ∀ u, ¬ (s.set t SPINLOCK_UNLOCKED thread).Holds u := by
    intro u hu
    by_cases hSame : u = t
    · subst hSame
      exact hHolds (State.holds_set_self.mp hu)
    · rw [State.holds_set_of_ne hSame] at hu
      exact hSame (hInv.one u t hu hOwner)
  refine
    { word := .inr rfl
      locked := ?_
      one := fun u v hu => absurd hu (hNone u)
      right := hInv.right_set hRight }
  refine iff_of_false (Ne.symm locked_ne_unlocked) ?_
  rintro ⟨u, hu⟩
  exact hNone u hu

end Inv

------------------------------------------------------------
-- Steps and Runs
------------------------------------------------------------

theorem Inv.step
    {s s' : State T}
    (hInv : Inv s)
    (hStep : Step s s') :
    Inv s' := by
  cases hStep with
  | callLock t hThread =>
      refine hInv.keep trivial ?_
      unfold State.Holds
      rw [hThread]
      exact Iff.rfl
  | exchangeLock t hThread =>
      refine hInv.exchange ?_ ?_
      · exact decide_eq_true_iff.symm
      · unfold State.Holds
        rw [hThread]
        exact holds_exchange rfl rfl
  | lockAgain t hThread hValue =>
      have hRight := hInv.right t
      rw [hThread] at hRight
      refine hInv.keep trivial ?_
      unfold State.Holds
      rw [hThread]
      apply or_congr_right
      exact iff_of_false (by nofun) fun hTook =>
        hRight.mpr hTook hValue
  | lockReturn t hThread hValue =>
      have hRight := hInv.right t
      rw [hThread] at hRight
      refine hInv.keep trivial ?_
      unfold State.Holds
      rw [hThread]
      exact iff_of_true (.inl rfl) (.inr (hRight.mp hValue))
  | callTrylock t hThread =>
      refine hInv.keep trivial ?_
      unfold State.Holds
      rw [hThread]
      exact Iff.rfl
  | exchangeTrylock t hThread =>
      refine hInv.exchange ?_ ?_
      · change trylockResult s.lock = 1 ↔ _
        rw [trylockResult_eq_one_iff, decide_eq_true_iff]
        constructor
        · rintro hFree hLocked
          exact locked_ne_unlocked (hLocked.symm.trans hFree)
        · exact hInv.word.resolve_left
      · unfold State.Holds
        rw [hThread]
        exact holds_exchange rfl rfl
  | trylockReturn t hThread =>
      have hRight := hInv.right t
      rw [hThread] at hRight
      refine hInv.keep trivial ?_
      unfold State.Holds
      rw [hThread]
      exact holds_trylock hRight
  | callUnlock t hThread =>
      refine hInv.keep rfl ?_
      unfold State.Holds
      rw [hThread]
      exact iff_of_true (.inl rfl) (.inl rfl)
  | storeUnlock t hThread =>
      have hRight := hInv.right t
      rw [hThread] at hRight
      refine hInv.release trivial ?_ ?_
      · unfold State.Holds
        rw [hThread]
        exact .inl hRight
      · rintro (hMine | hTook)
        · cases hMine
        · cases hTook

/-
  At most one thread holds the lock, the word is locked just
  while one does, and `spinlock_trylock` returns true just if
  its exchange took the lock.
-/
theorem spinlock_safe
    {s : State T}
    (hReach : Reachable Started Step s) :
    (∀ t u, s.Holds t → s.Holds u → t = u) ∧
      (s.lock = SPINLOCK_LOCKED ↔ ∃ t, s.Holds t) ∧
        ∀ t mine value took,
          s.thread t = ⟨mine, .tried value took⟩ →
            (trylockResult value ≠ 0 ↔ took = true) := by
  have hInv : Inv s :=
    hReach.invariant (fun _ h => inv_started h)
      fun _ _ _ hInv hStep => hInv.step hStep
  refine ⟨hInv.one, hInv.locked, ?_⟩
  intro t mine value took hThread
  have hRight := hInv.right t
  rw [hThread] at hRight
  exact trylockResult_ne_zero_iff.trans hRight

/- Two of the threads try at the same time. -/
def freeLock : State Nat where
  lock := SPINLOCK_UNLOCKED
  thread := fun _ => ⟨false, .outside⟩

def bothTrying : State Nat :=
  (freeLock.set 0 SPINLOCK_UNLOCKED ⟨false, .trying⟩).set 1
    SPINLOCK_UNLOCKED ⟨false, .trying⟩

def bothTried : State Nat :=
  (bothTrying.set 1 SPINLOCK_LOCKED
      ⟨false, .tried SPINLOCK_UNLOCKED true⟩).set 0
    SPINLOCK_LOCKED ⟨false, .tried SPINLOCK_LOCKED false⟩

theorem reachable_bothTried :
    Reachable Started Step bothTried := by
  have hStart : Reachable Started Step freeLock :=
    .start ⟨rfl, fun _ => rfl⟩
  have hFirst := hStart.step (.callTrylock 0 rfl)
  have hBoth := hFirst.step (.callTrylock 1 rfl)
  have hTook := hBoth.step (.exchangeTrylock 1 rfl)
  exact hTook.step (.exchangeTrylock 0 rfl)

theorem bothTried_safe :
    (∀ t u, bothTried.Holds t → bothTried.Holds u → t = u) ∧
      (bothTried.lock = SPINLOCK_LOCKED ↔
        ∃ t, bothTried.Holds t) ∧
        ∀ t mine value took,
          bothTried.thread t = ⟨mine, .tried value took⟩ →
            (trylockResult value ≠ 0 ↔ took = true) :=
  spinlock_safe reachable_bothTried

------------------------------------------------------------
-- Threads That Lock, Work and Unlock
------------------------------------------------------------

/- The lock, for the threads of `Lib.SpinLock`. -/
def spinlock : SpinLock.Lock UInt32 where
  testAndSet := atomicTestAndSet
  locked := SPINLOCK_LOCKED
  unlocked := SPINLOCK_UNLOCKED

theorem lawful_spinlock : spinlock.Lawful where
  swaps := fun _ => rfl
  ne := locked_ne_unlocked

variable {S L : Type*}
variable {l l₁ l' : State T}
variable {s s' : SpinLock.State T UInt32 S L}
variable {t : T}

/- Steps of one thread. -/
structure Moves (t : T) (l l' : State T) : Prop where
  steps : Relation.ReflTransGen Step l l'
  others : ∀ u, u ≠ t → l'.thread u = l.thread u

theorem Moves.refl : Moves t l l where
  steps := .refl
  others := fun _ _ => rfl

theorem Moves.step
    {lock : UInt32}
    {thread : Thread}
    (hMoves : Moves t l l₁)
    (hStep : Step l₁ (l₁.set t lock thread)) :
    Moves t l (l₁.set t lock thread) where
  steps := hMoves.steps.tail hStep
  others := fun u hu =>
    (State.thread_set_of_ne hu).trans (hMoves.others u hu)

/- A thread outside may have lost some exchanges. -/
def Located : SpinLock.Place L → Thread → Prop
| .outside, thread =>
    thread = ⟨false, .outside⟩ ∨ thread = ⟨false, .locking⟩
| .inside _, thread => thread = ⟨true, .outside⟩

/- The word and the threads, between two exchanges. -/
structure Matches
    (s : SpinLock.State T UInt32 S L)
    (l : State T) : Prop where
  word : l.lock = s.word
  located : ∀ t, Located (s.place t) (l.thread t)

theorem Matches.move
    {word : UInt32}
    {x : S}
    {p : SpinLock.Place L}
    {turns : List T}
    (hMatches : Matches s l)
    (hMoves : Moves t l l')
    (hWord : l'.lock = word)
    (hLocated : Located p (l'.thread t)) :
    Matches ⟨word, x, Function.update s.place t p, turns⟩
      l' where
  word := hWord
  located := by
    intro u
    by_cases hu : u = t
    · subst hu
      dsimp only
      rw [Function.update_self]
      exact hLocated
    · dsimp only
      rw [Function.update_of_ne hu, hMoves.others u hu]
      exact hMatches.located u

/- A thread outside comes to its next exchange. -/
theorem exists_locking
    (hThread :
      l.thread t = ⟨false, .outside⟩ ∨
        l.thread t = ⟨false, .locking⟩) :
    ∃ l₁, Moves t l l₁ ∧ l₁.lock = l.lock ∧
      l₁.thread t = ⟨false, .locking⟩ := by
  rcases hThread with hOutside | hLocking
  · exact ⟨_, Moves.refl.step (.callLock t hOutside), rfl,
      State.thread_set_self⟩
  · exact ⟨l, .refl, rfl, hLocking⟩

/- Each step is one of `spinlock_lock` and `spinlock_unlock`. -/
theorem Matches.step
    {body : SpinLock.Body T S L}
    (hMatches : Matches s l)
    (hStep : SpinLock.Step spinlock body s s') :
    ∃ l', Relation.ReflTransGen Step l l' ∧
      Matches s' l' := by
  cases hStep with
  | exchange t hPlace =>
      have hLocated := hMatches.located t
      rw [hPlace] at hLocated
      rcases exists_locking hLocated with
        ⟨l₁, hMoves, hLock, hThread⟩
      have hExchanged := hMoves.step (.exchangeLock t hThread)
      rw [hLock, hMatches.word] at hExchanged
      by_cases hLost :
          (spinlock.testAndSet s.word).1 = spinlock.locked
      · have hAgain :=
          hExchanged.step
            (.lockAgain t State.thread_set_self hLost)
        refine ⟨_, hAgain.steps, ?_⟩
        rw [if_pos hLost, ← Function.update_eq_self t s.place]
        refine hMatches.move hAgain rfl ?_
        rw [hPlace]
        exact .inr State.thread_set_self
      · have hTaken :=
          hExchanged.step
            (.lockReturn t State.thread_set_self hLost)
        refine ⟨_, hTaken.steps, ?_⟩
        rw [if_neg hLost]
        exact hMatches.move hTaken rfl State.thread_set_self
  | work t hPlace hBody =>
      have hLocated := hMatches.located t
      rw [hPlace] at hLocated
      exact ⟨l, .refl, hMatches.move .refl hMatches.word hLocated⟩
  | unlock t hPlace hEnded =>
      have hLocated := hMatches.located t
      rw [hPlace] at hLocated
      have hCalled := Moves.refl.step (.callUnlock t hLocated)
      have hStored :=
        hCalled.step (.storeUnlock t State.thread_set_self)
      exact ⟨_, hStored.steps,
        hMatches.move hStored rfl (.inl State.thread_set_self)⟩

/-
  A run of such threads is one of `spinlock_lock` and
  `spinlock_unlock`, whatever they do while they have the
  lock.
-/
theorem spinlock_followed
    {x : S}
    {body : SpinLock.Body T S L}
    (hReach :
      Reachable (SpinLock.Started spinlock x)
        (SpinLock.Step spinlock body) s) :
    ∃ l, Reachable Started Step l ∧ Matches s l := by
  induction hReach with
  | @start s hStart =>
      rcases hStart with ⟨hWord, -, -, hOut⟩
      refine ⟨⟨s.word, fun _ => ⟨false, .outside⟩⟩,
        .start ⟨hWord, fun _ => rfl⟩, rfl, ?_⟩
      intro t
      rw [hOut t]
      exact .inl rfl
  | step _ hStep ih =>
      rcases ih with ⟨l, hReach, hMatches⟩
      rcases hMatches.step hStep with ⟨l', hSteps, hMatches'⟩
      exact ⟨l', hReach.steps hSteps, hMatches'⟩

end Lock

end SosKernel
