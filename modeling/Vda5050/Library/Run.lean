import Mathlib.Data.List.Basic

/-!
# Runs of executable transition systems

A system is an executable step function on states and events. A run is a
sequence of events whose every step is enabled and satisfies a side condition
on the event and the state before it. Side conditions express what an
environment promises or what restricts the runs a result is about.
-/

set_option autoImplicit false

namespace Library

variable {State Event : Type}

/-- Runs from `init`, indexed by their events and by the state reached. -/
inductive Run (step : State → Event → Option State) (allowed : State → Event → Prop)
    (init : State) : List Event → State → Prop where
  | start : Run step allowed init [] init
  | advance {events : List Event} {state next : State} {event : Event} :
      Run step allowed init events state → allowed state event →
      step state event = some next →
      Run step allowed init (events ++ [event]) next

namespace Run

variable {step : State → Event → Option State} {allowed : State → Event → Prop}
  {init : State}

/-- A property that holds initially and survives every step holds of every
state reached. The step obligation may use the run up to the step. -/
theorem invariant (inv : State → Prop) (initial : inv init)
    (preserved : ∀ {events state event next}, Run step allowed init events state →
      inv state → allowed state event → step state event = some next → inv next)
    {events : List Event} {state : State} (run : Run step allowed init events state) :
    inv state := by
  induction run with
  | start => exact initial
  | advance run permitted stepped ih => exact preserved run ih permitted stepped

/-- Runs under a stronger side condition are runs under a weaker one. -/
theorem weaken {weaker : State → Event → Prop}
    (weakens : ∀ state event, allowed state event → weaker state event)
    {events : List Event} {state : State} (run : Run step allowed init events state) :
    Run step weaker init events state := by
  induction run with
  | start => exact .start
  | advance _ permitted stepped ih => exact .advance ih (weakens _ _ permitted) stepped

/-- What holds of all events of a run may be taken as part of its side condition. -/
theorem restrict {holds : Event → Prop} {events : List Event} {state : State}
    (run : Run step allowed init events state) (all : ∀ event ∈ events, holds event) :
    Run step (fun state event => allowed state event ∧ holds event) init events state := by
  induction run with
  | start => exact .start
  | advance _ permitted stepped ih =>
      exact .advance (ih fun event member => all event (List.mem_append_left _ member))
        ⟨permitted, all _ (by simp)⟩ stepped

end Run

/-- Execute events in order as long as each is enabled and permitted. -/
def execute (step : State → Event → Option State) (allowed : State → Event → Prop)
    [∀ state event, Decidable (allowed state event)] (state : State) :
    List Event → Option State
  | [] => some state
  | event :: events =>
      if allowed state event then
        (step state event).bind fun next => execute step allowed next events
      else none

/-- Every successful execution is a run of the same events. -/
theorem Run.of_execute {step : State → Event → Option State}
    {allowed : State → Event → Prop} [∀ state event, Decidable (allowed state event)]
    {init state finish : State} {past : List Event} {events : List Event}
    (run : Run step allowed init past state)
    (executed : execute step allowed state events = some finish) :
    Run step allowed init (past ++ events) finish := by
  induction events generalizing state past with
  | nil =>
      simp only [execute, Option.some.injEq] at executed
      subst executed
      simpa using run
  | cons event events ih =>
      simp only [execute] at executed
      split at executed
      next permitted =>
        obtain ⟨next, stepped, rest⟩ := Option.bind_eq_some_iff.mp executed
        have extended := ih (run.advance permitted stepped) rest
        simpa using extended
      next => cases executed

/-- A decidable check on the state after an execution yields a run that
reaches a state passing the check. -/
theorem exists_run_of_execute {step : State → Event → Option State}
    {allowed : State → Event → Prop} [∀ state event, Decidable (allowed state event)]
    {init : State} {events : List Event} {check : State → Bool}
    (passed : (execute step allowed init events).any check = true) :
    ∃ state, Run step allowed init events state ∧ check state = true := by
  cases executed : execute step allowed init events with
  | none => simp [executed] at passed
  | some state =>
      have reached := Run.of_execute Run.start executed
      exact ⟨state, by simpa using reached, by simpa [executed] using passed⟩

end Library
