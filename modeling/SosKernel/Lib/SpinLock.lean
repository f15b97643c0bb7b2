import Mathlib.Logic.Function.Basic
import SosKernel.Lib.Reachable

/-
  Threads that take a lock by an atomic exchange, do the steps
  of a body while they have it, and give it back.

  Main declarations:
    * `Lock`, `Body`, `State`, `Step`
    * `Contract`: what the lock protects
    * `Inv.reachable`
    * `Finishes`: a body that comes to its end
-/

------------------------------------------------------------
-- Threads
------------------------------------------------------------

namespace SpinLock

variable {T W S L : Type*}

/- The exchange gives the old word, and the new one. -/
structure Lock (W : Type*) where
  testAndSet : W → W × W
  locked : W
  unlocked : W

/- The exchange locks, and two words are told apart. -/
structure Lock.Lawful (lock : Lock W) : Prop where
  swaps : ∀ w, lock.testAndSet w = (w, lock.locked)
  ne : lock.locked ≠ lock.unlocked

/- What a thread does while it has the lock. -/
structure Body (T S L : Type*) where
  start : T → L
  step : L → S → Option (L × S)
  Ended : L → Prop

inductive Place (L : Type*) where
| outside
| inside (l : L)

/-
  `turns` are the threads that have given the lock back, one
  for each time, in that order.  No step depends on them.
-/
structure State (T W S L : Type*) where
  word : W
  shared : S
  place : T → Place L
  turns : List T

variable [DecidableEq T] [DecidableEq W]

/-
  One thread takes one step.  It stays outside if the word
  that the exchange gave is the locked one.
-/
inductive Step (lock : Lock W) (body : Body T S L) :
    State T W S L → State T W S L → Prop where
| exchange {s : State T W S L} (t : T)
    (hPlace : s.place t = .outside) :
    Step lock body s
      { word := (lock.testAndSet s.word).2
        shared := s.shared
        place :=
          if (lock.testAndSet s.word).1 = lock.locked then
            s.place
          else
            Function.update s.place t
              (.inside (body.start t))
        turns := s.turns }
| work {s : State T W S L} (t : T) {l l' : L} {x : S}
    (hPlace : s.place t = .inside l)
    (hStep : body.step l s.shared = some (l', x)) :
    Step lock body s
      { word := s.word
        shared := x
        place := Function.update s.place t (.inside l')
        turns := s.turns }
| unlock {s : State T W S L} (t : T) {l : L}
    (hPlace : s.place t = .inside l)
    (hEnded : body.Ended l) :
    Step lock body s
      { word := lock.unlocked
        shared := s.shared
        place := Function.update s.place t .outside
        turns := s.turns ++ [t] }

------------------------------------------------------------
-- What the Lock Protects
------------------------------------------------------------

/-
  `Free` holds of what is shared while no thread has the lock,
  after these turns, and `Busy` while a thread is in its body.
-/
structure Contract
    (body : Body T S L)
    (Free : List T → S → Prop)
    (Busy : T → List T → L → S → Prop) : Prop where
  enter :
    ∀ t turns x, Free turns x → Busy t turns (body.start t) x
  work :
    ∀ t turns l l' x x', Busy t turns l x →
      body.step l x = some (l', x') → Busy t turns l' x'
  leave :
    ∀ t turns l x, Busy t turns l x → body.Ended l →
      Free (turns ++ [t]) x

/- One thread is inside at most, and the word says if so. -/
inductive Inv
    (lock : Lock W)
    (Free : List T → S → Prop)
    (Busy : T → List T → L → S → Prop)
    (s : State T W S L) : Prop where
| free
    (hWord : s.word = lock.unlocked)
    (hOut : ∀ t, s.place t = .outside)
    (hFree : Free s.turns s.shared) : Inv lock Free Busy s
| busy (t : T) (l : L)
    (hWord : s.word = lock.locked)
    (hIn : s.place t = .inside l)
    (hOut : ∀ u, u ≠ t → s.place u = .outside)
    (hBusy : Busy t s.turns l s.shared) :
    Inv lock Free Busy s

variable {lock : Lock W}
variable {body : Body T S L}
variable {Free : List T → S → Prop}
variable {Busy : T → List T → L → S → Prop}
variable {s s' : State T W S L}
variable {t : T}
variable {l : L}

omit [DecidableEq W] in
/- Where a thread is that is in its body. -/
theorem Inv.inside
    (hInv : Inv lock Free Busy s)
    (hPlace : s.place t = .inside l) :
    s.word = lock.locked ∧
      (∀ u, u ≠ t → s.place u = .outside) ∧
        Busy t s.turns l s.shared := by
  cases hInv with
  | free hWord hOut hFree =>
      rw [hOut t] at hPlace
      cases hPlace
  | busy u k hWord hIn hOut hBusy =>
      by_cases hSame : t = u
      · subst hSame
        rw [hIn] at hPlace
        cases hPlace
        exact ⟨hWord, hOut, hBusy⟩
      · rw [hOut t hSame] at hPlace
        cases hPlace

omit [DecidableEq W] in
/- The other threads are where they were. -/
theorem outside_update
    {p : Place L}
    (hOut : ∀ u, u ≠ t → s.place u = .outside) :
    ∀ u, u ≠ t →
      Function.update s.place t p u = .outside := by
  intro u hu
  rw [Function.update_of_ne hu]
  exact hOut u hu

theorem Inv.step
    (hLock : lock.Lawful)
    (hContract : Contract body Free Busy)
    (hInv : Inv lock Free Busy s)
    (hStep : Step lock body s s') :
    Inv lock Free Busy s' := by
  cases hStep with
  | exchange t hPlace =>
      rw [hLock.swaps]
      cases hInv with
      | free hWord hOut hFree =>
          -- the lock is taken
          rw [hWord, if_neg hLock.ne.symm]
          exact .busy t (body.start t) rfl
            (Function.update_self t _ s.place)
            (outside_update fun u _ => hOut u)
            (hContract.enter t s.turns _ hFree)
      | busy u l hWord hIn hOut hBusy =>
          rw [hWord, if_pos rfl]
          exact .busy u l rfl hIn hOut hBusy
  | work t hPlace hBody =>
      rcases hInv.inside hPlace with ⟨hWord, hOut, hBusy⟩
      exact .busy t _ hWord
        (Function.update_self t _ s.place)
        (outside_update hOut)
        (hContract.work t s.turns _ _ _ _ hBusy hBody)
  | unlock t hPlace hEnded =>
      rcases hInv.inside hPlace with ⟨_, hOut, hBusy⟩
      refine .free rfl ?_
        (hContract.leave t s.turns _ _ hBusy hEnded)
      intro u
      by_cases hu : u = t
      · subst hu
        exact Function.update_self u _ s.place
      · exact outside_update hOut u hu

/- Every thread is outside, and no turn is over. -/
def Started
    (lock : Lock W)
    (x : S)
    (s : State T W S L) : Prop :=
  s.word = lock.unlocked ∧ s.shared = x ∧ s.turns = [] ∧
    ∀ t, s.place t = .outside

theorem Inv.reachable
    {x : S}
    (hLock : lock.Lawful)
    (hContract : Contract body Free Busy)
    (hFree : Free [] x)
    (hReach :
      Reachable (Started lock x) (Step lock body) s) :
    Inv lock Free Busy s := by
  refine hReach.invariant ?_ ?_
  · rintro s₀ ⟨hWord, hShared, hTurns, hOut⟩
    rw [← hShared, ← hTurns] at hFree
    exact .free hWord hOut hFree
  · intro s₁ s₂ _ hInv hStep
    exact hInv.step hLock hContract hStep

------------------------------------------------------------
-- Exchanges and Turns
------------------------------------------------------------

/- The exchange of a thread that finds the lock free. -/
theorem Step.take
    (hLock : lock.Lawful)
    (hWord : s.word = lock.unlocked)
    (hPlace : s.place t = .outside) :
    Step lock body s
      { word := lock.locked
        shared := s.shared
        place :=
          Function.update s.place t (.inside (body.start t))
        turns := s.turns } := by
  have hStep : Step lock body s _ := .exchange t hPlace
  rw [hLock.swaps, hWord, if_neg hLock.ne.symm] at hStep
  exact hStep

/- One that does not changes nothing. -/
theorem Step.lose
    (hLock : lock.Lawful)
    (hWord : s.word = lock.locked)
    (hPlace : s.place t = .outside) :
    Step lock body s s := by
  have hStep : Step lock body s _ := .exchange t hPlace
  rw [hLock.swaps, if_pos hWord, ← hWord] at hStep
  exact hStep

/- A thread that is left alone comes to the end of its body. -/
inductive Finishes (body : Body T S L) : L → S → Prop where
| ended {l : L} {x : S}
    (hEnded : body.Ended l) :
    Finishes body l x
| work {l l' : L} {x x' : S}
    (hStep : body.step l x = some (l', x'))
    (hFinishes : Finishes body l' x') :
    Finishes body l x

/- Its steps are those of a run. -/
theorem Finishes.reachable
    {start : State T W S L → Prop}
    {x : S}
    (hFinishes : Finishes body l x)
    (hReach : Reachable start (Step lock body) s)
    (hPlace : s.place t = .inside l)
    (hShared : s.shared = x) :
    ∃ k y, body.Ended k ∧
      Reachable start (Step lock body)
        { word := s.word
          shared := y
          place := Function.update s.place t (.inside k)
          turns := s.turns } := by
  induction hFinishes generalizing s with
  | @ended l x hEnded =>
      refine ⟨l, x, hEnded, ?_⟩
      rw [← hPlace, Function.update_eq_self, ← hShared]
      exact hReach
  | work hStep _ ih =>
      rw [← hShared] at hStep
      have hNext := hReach.step (.work t hPlace hStep)
      rcases ih hNext (Function.update_self t _ s.place) rfl
        with ⟨k, y, hEnded, hEnd⟩
      dsimp only at hEnd
      rw [Function.update_idem] at hEnd
      exact ⟨k, y, hEnded, hEnd⟩

end SpinLock
