import Mathlib.Data.Option.Basic

set_option autoImplicit false

namespace Foundation.Runs

variable {Choice State : Type}

/-- The states that are reached from `start` by steps that are all allowed. -/
inductive Reached (step : Choice → State → Option State) (allowed : Choice → State → Prop)
    (start : State) : State → Prop
  | start : Reached step allowed start start
  | step {choice : Choice} {before after : State} (reached : Reached step allowed start before)
      (permitted : allowed choice before) (taken : step choice before = some after) :
      Reached step allowed start after

variable {step : Choice → State → Option State} {allowed : Choice → State → Prop}
  {start state : State}

/-- What holds at the start and is kept by every allowed step holds in every state reached. -/
theorem Reached.invariant (reached : Reached step allowed start state) {holds : State → Prop}
    (begins : holds start)
    (kept : ∀ choice before after, holds before → allowed choice before →
      step choice before = some after → holds after) : holds state := by
  induction reached with
  | start => exact begins
  | step _ permitted taken ih => exact kept _ _ _ ih permitted taken

/-- The state a schedule leads to, if it can be followed. -/
def follow (step : Choice → State → Option State) : State → List Choice → Option State
  | state, [] => some state
  | state, choice :: schedule => (step choice state).bind fun next => follow step next schedule

theorem Reached.follow {before : State} (reached : Reached step (fun _ _ => True) start before)
    {schedule : List Choice} (led : Runs.follow step before schedule = some state) :
    Reached step (fun _ _ => True) start state := by
  induction schedule generalizing before with
  | nil =>
      cases led
      exact reached
  | cons choice schedule ih =>
      obtain ⟨next, taken, rest⟩ := Option.bind_eq_some_iff.mp led
      exact ih (reached.step trivial taken) rest

/-- A run of a step that refuses what is not allowed is a run of allowed steps. -/
theorem Reached.guarded [∀ choice state, Decidable (allowed choice state)]
    (reached : Reached
      (fun choice state => if allowed choice state then step choice state else none)
      (fun _ _ => True) start state) : Reached step allowed start state := by
  induction reached with
  | start => exact .start
  | step _ _ taken ih =>
      split at taken
      · next permitted => exact ih.step permitted taken
      · cases taken

end Foundation.Runs
