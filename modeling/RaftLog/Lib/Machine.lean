import Mathlib

set_option autoImplicit false

namespace RaftLog.Lib

-- A labelled transition system. The step is a partial function of the state
-- and the label, so that a concrete run is an evaluation; every choice the
-- environment makes (which message, which crash point) belongs to the label.
structure Machine (State Action : Type) where
  start : State → Prop
  step : State → Action → Option State

variable {State Action : Type}

-- The states of the runs all of whose steps meet a side condition.
inductive Run (machine : Machine State Action) (allowed : State → Action → Prop) : State → Prop where
  | start (state : State) (starts : machine.start state) : Run machine allowed state
  | step (state next : State) (action : Action) (before : Run machine allowed state) (meets : allowed state action)
      (moves : machine.step state action = some next) : Run machine allowed next

def Reachable (machine : Machine State Action) : State → Prop := Run machine fun _ _ => True

theorem run_weaken (machine : Machine State Action) (allowed looser : State → Action → Prop)
    (weaker : ∀ state action, allowed state action → looser state action) (state : State)
    (run : Run machine allowed state) : Run machine looser state := by
  induction run with
  | start state starts => exact .start state starts
  | step state next action _ meets moves ih => exact .step state next action ih (weaker state action meets) moves

theorem run_reachable (machine : Machine State Action) (allowed : State → Action → Prop) (state : State)
    (run : Run machine allowed state) : Reachable machine state :=
  run_weaken machine allowed _ (fun _ _ _ => trivial) state run

-- The invariant may use that the state it is stepped from was reached.
theorem run_invariant (machine : Machine State Action) (allowed : State → Action → Prop) (inv : State → Prop)
    (initial : ∀ state, machine.start state → inv state)
    (preserved : ∀ state action next, Run machine allowed state → inv state → allowed state action →
      machine.step state action = some next → inv next)
    (state : State) (run : Run machine allowed state) : inv state := by
  induction run with
  | start state starts => exact initial state starts
  | step state next action before meets moves ih => exact preserved state action next before ih meets moves

-- A run goes through states of one kind only, its last one included, exactly when all of
-- its steps are of the kind that keeps to them.
theorem run_through_iff (machine : Machine State Action) (allowed : State → Action → Prop) (inv kind : State → Prop)
    (initial : ∀ state, machine.start state → inv state ∧ kind state)
    (preserved : ∀ state action next, inv state → machine.step state action = some next → inv next)
    (keeps : ∀ state action next, inv state → kind state → machine.step state action = some next →
      (kind next ↔ allowed state action))
    (state : State) : Run machine (fun state _ => kind state) state ∧ kind state ↔ Run machine allowed state := by
  constructor
  · rintro ⟨run, here⟩
    have invariant : ∀ state, Run machine (fun state _ => kind state) state → inv state :=
      run_invariant machine _ inv (fun state starts => (initial state starts).1)
        fun state action next _ holds _ moves => preserved state action next holds moves
    induction run with
    | start state starts => exact .start state starts
    | step state next action before stays moves ih =>
        exact .step state next action (ih stays) ((keeps state action next (invariant state before) stays moves).mp here) moves
  · intro run
    have all : (Run machine (fun state _ => kind state) state ∧ kind state) ∧ inv state := by
      induction run with
      | start state starts => exact ⟨⟨.start state starts, (initial state starts).2⟩, (initial state starts).1⟩
      | step state next action _ meets moves ih =>
          exact ⟨⟨.step state next action ih.1.1 ih.1.2 moves, (keeps state action next ih.2 ih.1.2 moves).mpr meets⟩,
            preserved state action next ih.2 moves⟩
    exact all.1

def exec (machine : Machine State Action) : State → List Action → Option State
  | state, [] => some state
  | state, action :: rest => (machine.step state action).bind fun next => exec machine next rest

-- Runs under a decidable side condition, for concrete schedules.
def execWhen (machine : Machine State Action) (allowed : State → Action → Bool) : State → List Action → Option State
  | state, [] => some state
  | state, action :: rest =>
      if allowed state action then (machine.step state action).bind fun next => execWhen machine allowed next rest
      else none

theorem exec_when_run (machine : Machine State Action) (allowed : State → Action → Prop)
    (test : State → Action → Bool) (sound : ∀ state action, test state action = true → allowed state action)
    (actions : List Action) (state final : State) (run : Run machine allowed state)
    (result : execWhen machine test state actions = some final) : Run machine allowed final := by
  induction actions generalizing state with
  | nil => cases result; exact run
  | cons action rest ih =>
      by_cases meets : test state action = true
      · cases moves : machine.step state action with
        | none => simp [execWhen, meets, moves] at result
        | some next =>
            have tail : execWhen machine test next rest = some final := by
              simpa [execWhen, meets, moves] using result
            exact ih next (.step state next action run (sound state action meets) moves) tail
      · simp [execWhen, meets] at result

theorem exec_reachable (machine : Machine State Action) (actions : List Action) (state final : State)
    (reach : Reachable machine state) (result : exec machine state actions = some final) :
    Reachable machine final := by
  induction actions generalizing state with
  | nil => cases result; exact reach
  | cons action rest ih =>
      cases moves : machine.step state action with
      | none => simp [exec, moves] at result
      | some next =>
          have tail : exec machine next rest = some final := by simpa [exec, moves] using result
          exact ih next (.step state next action reach trivial moves) tail

-- Where a schedule leads that is known to run to its end.
theorem exec_reaches (machine : Machine State Action) (actions : List Action) (state fallback : State)
    (reach : Reachable machine state) (runs : (exec machine state actions).isSome = true) :
    Reachable machine ((exec machine state actions).getD fallback) := by
  obtain ⟨final, result⟩ := Option.isSome_iff_exists.mp runs
  rw [result]
  exact exec_reachable machine actions state final reach result

theorem exec_when_reaches (machine : Machine State Action) (allowed : State → Action → Prop)
    (test : State → Action → Bool) (sound : ∀ state action, test state action = true → allowed state action)
    (actions : List Action) (state fallback : State) (run : Run machine allowed state)
    (runs : (execWhen machine test state actions).isSome = true) :
    Run machine allowed ((execWhen machine test state actions).getD fallback) := by
  obtain ⟨final, result⟩ := Option.isSome_iff_exists.mp runs
  rw [result]
  exact exec_when_run machine allowed test sound actions state final run result

-- The same steps from one state on.
def Machine.startAt (machine : Machine State Action) (state : State) : Machine State Action :=
  ⟨fun start => start = state, machine.step⟩

theorem run_continues (machine : Machine State Action) (allowed : State → Action → Prop) (state later : State)
    (run : Run machine allowed state) (more : Run (machine.startAt state) allowed later) : Run machine allowed later := by
  induction more with
  | start start starts => exact starts ▸ run
  | step before next action _ meets moves ih => exact .step before next action ih meets moves

theorem exec_when_append (machine : Machine State Action) (test : State → Action → Bool) (first second : List Action)
    (state : State) : execWhen machine test state (first ++ second) =
      (execWhen machine test state first).bind fun middle => execWhen machine test middle second := by
  induction first generalizing state with
  | nil => rfl
  | cons action rest ih =>
      rw [List.cons_append, execWhen, execWhen]
      split
      · cases machine.step state action with
        | none => rfl
        | some next => exact ih next
      · rfl

theorem exec_when_start_at (machine : Machine State Action) (test : State → Action → Bool) (start : State)
    (actions : List Action) (state : State) :
    execWhen (machine.startAt start) test state actions = execWhen machine test state actions := by
  induction actions generalizing state with
  | nil => rfl
  | cons action rest ih =>
      rw [execWhen, execWhen]
      simp only [ih]
      rfl

-- The second part of a schedule is a run from where the first part leads.
theorem exec_when_continues (machine : Machine State Action) (allowed : State → Action → Prop)
    (test : State → Action → Bool) (sound : ∀ state action, test state action = true → allowed state action)
    (first second : List Action) (state fallback : State)
    (runs : (execWhen machine test state (first ++ second)).isSome = true) :
    Run (machine.startAt ((execWhen machine test state first).getD fallback)) allowed
      ((execWhen machine test state (first ++ second)).getD fallback) := by
  obtain ⟨final, result⟩ := Option.isSome_iff_exists.mp runs
  rw [result]
  rw [exec_when_append] at result
  obtain ⟨middle, half, rest⟩ := Option.bind_eq_some_iff.mp result
  rw [half]
  rw [← exec_when_start_at machine test middle] at rest
  exact exec_when_run (machine.startAt middle) allowed test sound second middle final (.start _ rfl) rest

end RaftLog.Lib
