import SosKernel.Lib.Program

/-
  State programs that keep a trace of what they do.

  Main declarations:
    * `WithTrace`: a state with a trace of events
    * `EStateM.lift`, `EStateM.record`
    * `EStateM.Traces`: a program is another one with events
    * `EStateM.Traces.bind`, `EStateM.Traces.sat`
    * `EStateM.run_upTo_trace`
-/

------------------------------------------------------------
-- States with a Trace
------------------------------------------------------------

/- A state, and the events up to it in their order. -/
structure WithTrace (σ ω : Type) where
  state : σ
  trace : List ω

namespace WithTrace

variable {σ ω : Type}

/- One more event. -/
def push (s : WithTrace σ ω) (event : ω) : WithTrace σ ω :=
  { s with trace := s.trace ++ [event] }

@[simp] theorem push_state
    (s : WithTrace σ ω)
    (event : ω) :
    (s.push event).state = s.state := rfl

@[simp] theorem push_trace
    (s : WithTrace σ ω)
    (event : ω) :
    (s.push event).trace = s.trace ++ [event] := rfl

end WithTrace

namespace EStateM

variable {ε σ ω α β : Type}

/- A program that adds no event. -/
def lift (x : EStateM ε σ α) : EStateM ε (WithTrace σ ω) α :=
  fun s =>
    match x s.state with
    | .ok a t => .ok a ⟨t, s.trace⟩
    | .error e t => .error e ⟨t, s.trace⟩

/- Add the event that the state gives. -/
def record (event : σ → ω) : EStateM ε (WithTrace σ ω) Unit :=
  fun s => .ok () (s.push (event s.state))

theorem run_record
    (event : σ → ω)
    (s : WithTrace σ ω) :
    (record event : EStateM ε (WithTrace σ ω) Unit).run s =
      .ok () (s.push (event s.state)) := rfl

theorem run_lift_ok
    {x : EStateM ε σ α}
    {s : WithTrace σ ω}
    {a : α}
    {t : σ}
    (hx : x.run s.state = .ok a t) :
    (lift x).run s = .ok a ⟨t, s.trace⟩ := by
  have hx : x s.state = .ok a t := hx
  show lift x s = _
  rw [lift, hx]

theorem run_lift_error
    {x : EStateM ε σ α}
    {s : WithTrace σ ω}
    {e : ε}
    {t : σ}
    (hx : x.run s.state = .error e t) :
    (lift x).run s = .error e ⟨t, s.trace⟩ := by
  have hx : x s.state = .error e t := hx
  show lift x s = _
  rw [lift, hx]

theorem lift_eq_ok
    {x : EStateM ε σ α}
    {s s' : WithTrace σ ω}
    {a : α}
    (hRun : (lift x).run s = .ok a s') :
    x.run s.state = .ok a s'.state := by
  cases hx : x.run s.state with
  | ok b t =>
      rw [run_lift_ok hx] at hRun
      cases hRun
      rfl
  | error e t =>
      rw [run_lift_error hx] at hRun
      cases hRun

------------------------------------------------------------
-- Forgetting the Trace
------------------------------------------------------------

/- The result without its trace. -/
def Result.forget :
    Result ε (WithTrace σ ω) α → Result ε σ α
| .ok a s => .ok a s.state
| .error e s => .error e s.state

/- The trace of a result. -/
def Result.trace : Result ε (WithTrace σ ω) α → List ω
| .ok _ s => s.trace
| .error _ s => s.trace

/-
  `x'` does what `x` does, and adds events to the trace.
-/
structure Traces
    (x' : EStateM ε (WithTrace σ ω) α)
    (x : EStateM ε σ α) : Prop where
  forget : ∀ s, (x'.run s).forget = x.run s.state
  grows : ∀ s, s.trace <+: (x'.run s).trace

namespace Traces

theorem pure (a : α) :
    Traces (Pure.pure a : EStateM ε (WithTrace σ ω) α)
      (Pure.pure a) where
  forget _ := rfl
  grows _ := List.prefix_rfl

theorem throw (e : ε) :
    Traces
      (MonadExcept.throw e : EStateM ε (WithTrace σ ω) α)
      (MonadExcept.throw e) where
  forget _ := rfl
  grows _ := List.prefix_rfl

theorem lift (x : EStateM ε σ α) :
    Traces (EStateM.lift x : EStateM ε (WithTrace σ ω) α)
      x where
  forget s := by
    cases hRun : x.run s.state with
    | ok a t =>
        rw [run_lift_ok hRun]
        rfl
    | error e t =>
        rw [run_lift_error hRun]
        rfl
  grows s := by
    cases hRun : x.run s.state with
    | ok a t =>
        rw [run_lift_ok hRun]
        exact List.prefix_rfl
    | error e t =>
        rw [run_lift_error hRun]
        exact List.prefix_rfl

theorem bind
    {x' : EStateM ε (WithTrace σ ω) α}
    {x : EStateM ε σ α}
    {f' : α → EStateM ε (WithTrace σ ω) β}
    {f : α → EStateM ε σ β}
    (hx : Traces x' x)
    (hf : ∀ a, Traces (f' a) (f a)) :
    Traces (x' >>= f') (x >>= f) where
  forget s := by
    have hForget := hx.forget s
    rw [run_bind, run_bind, ← hForget]
    cases hRun : x'.run s with
    | ok a t => exact (hf a).forget t
    | error e t => rfl
  grows s := by
    have hGrows := hx.grows s
    rw [run_bind]
    cases hRun : x'.run s with
    | ok a t =>
        rw [hRun] at hGrows
        exact hGrows.trans ((hf a).grows t)
    | error e t =>
        rw [hRun] at hGrows
        exact hGrows

/- An event before a program is an event of it. -/
theorem record
    {x' : EStateM ε (WithTrace σ ω) α}
    {x : EStateM ε σ α}
    (event : σ → ω)
    (hx : Traces x' x) :
    Traces (EStateM.record event >>= fun _ => x') x where
  forget s := by
    rw [bind_of_ok (run_record event s)]
    exact hx.forget _
  grows s := by
    rw [bind_of_ok (run_record event s)]
    have hPush : s.trace <+: (s.push (event s.state)).trace :=
      List.prefix_append _ _
    exact hPush.trans (hx.grows _)

/- The event stays in the trace. -/
theorem record_mem
    {x' : EStateM ε (WithTrace σ ω) α}
    {x : EStateM ε σ α}
    (event : σ → ω)
    (hx : Traces x' x)
    (s : WithTrace σ ω) :
    event s.state ∈
      ((EStateM.record event >>= fun _ => x').run s).trace := by
  have hPush : event s.state ∈ (s.push (event s.state)).trace :=
    List.mem_append_right _ List.mem_cons_self
  rw [bind_of_ok (run_record event s)]
  exact (hx.grows _).subset hPush

theorem ite
    {p : Prop}
    [Decidable p]
    {x' y' : EStateM ε (WithTrace σ ω) α}
    {x y : EStateM ε σ α}
    (hx : Traces x' x)
    (hy : Traces y' y) :
    Traces (if p then x' else y') (if p then x else y) := by
  by_cases hp : p
  · rw [if_pos hp, if_pos hp]
    exact hx
  · rw [if_neg hp, if_neg hp]
    exact hy

/- A run of the program is one with a trace. -/
theorem exists_run
    {x' : EStateM ε (WithTrace σ ω) α}
    {x : EStateM ε σ α}
    {a : α}
    {t : σ}
    (hx : Traces x' x)
    (s : WithTrace σ ω)
    (hRun : x.run s.state = .ok a t) :
    ∃ trace, x'.run s = .ok a ⟨t, trace⟩ := by
  have hForget := hx.forget s
  rw [hRun] at hForget
  cases hRun' : x'.run s with
  | ok b s' =>
      rw [hRun'] at hForget
      cases hForget
      exact ⟨s'.trace, rfl⟩
  | error e s' =>
      rw [hRun'] at hForget
      cases hForget

/- A run with a trace is one of the program. -/
theorem run_of_run
    {x' : EStateM ε (WithTrace σ ω) α}
    {x : EStateM ε σ α}
    {a : α}
    {s s' : WithTrace σ ω}
    (hx : Traces x' x)
    (hRun : x'.run s = .ok a s') :
    x.run s.state = .ok a s'.state := by
  rw [← hx.forget s, hRun]
  rfl

/- What is known of the run with a trace holds of a run. -/
theorem sat
    {x' : EStateM ε (WithTrace σ ω) α}
    {x : EStateM ε σ α}
    {a : α}
    {t : σ}
    {Q : α → WithTrace σ ω → Prop}
    {E : ε → WithTrace σ ω → Prop}
    (hx : Traces x' x)
    (s : WithTrace σ ω)
    (hSat : (x'.run s).Sat Q E)
    (hRun : x.run s.state = .ok a t) :
    ∃ trace, Q a ⟨t, trace⟩ := by
  rcases hx.exists_run s hRun with ⟨trace, hRun'⟩
  rw [hRun'] at hSat
  exact ⟨trace, hSat⟩

/- A run with a trace is known to be a run, too. -/
theorem sat_and_run
    {x' : EStateM ε (WithTrace σ ω) α}
    {x : EStateM ε σ α}
    {s : WithTrace σ ω}
    {Q : α → WithTrace σ ω → Prop}
    {E : ε → WithTrace σ ω → Prop}
    (hx : Traces x' x)
    (hSat : (x'.run s).Sat Q E) :
    (x'.run s).Sat
      (fun a s' => Q a s' ∧
        x.run s.state = .ok a s'.state) E := by
  cases hRun : x'.run s with
  | ok a s' =>
      rw [hRun] at hSat
      exact ⟨hSat, hx.run_of_run hRun⟩
  | error e s' =>
      rw [hRun] at hSat
      exact hSat

end Traces

------------------------------------------------------------
-- Loops That Only Report
------------------------------------------------------------

/- A loop whose body adds events and changes nothing else. -/
theorem run_upTo_trace
    {body : Nat → EStateM ε (WithTrace σ ω) Unit}
    {events : Nat → List ω}
    {t : σ}
    {n : Nat}
    (trace : List ω)
    (hBody :
      ∀ i trace, i < n →
        (body i).run ⟨t, trace⟩ =
          .ok () ⟨t, trace ++ events i⟩) :
    (upTo body n).run ⟨t, trace⟩ =
      .ok () ⟨t, trace ++ (List.range n).flatMap events⟩ := by
  induction n with
  | zero =>
      rw [List.range_zero, List.flatMap_nil, List.append_nil]
      rfl
  | succ n ih =>
      have hLoop := ih fun i trace hi =>
        hBody i trace (Nat.lt_succ_of_lt hi)
      rw [upTo, bind_of_ok hLoop,
        hBody n _ (Nat.lt_succ_self n), List.range_succ,
        List.flatMap_append, List.flatMap_singleton,
        List.append_assoc]

end EStateM
