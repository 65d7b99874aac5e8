import Mathlib.Data.List.Basic

/-!
# Completion of executions

A system that moves by itself is given by the next state of every state that
has one. An execution is complete in a state without a next one.
-/

set_option autoImplicit false

namespace Library

variable {State : Type} {next : State → Option State}

/-- The execution from one state is complete in the other. -/
inductive Completes (next : State → Option State) : State → State → Prop where
  | completed {state : State} : next state = none → Completes next state state
  | advance {state middle finish : State} :
      next state = some middle → Completes next middle finish → Completes next state finish

namespace Completes

variable {state middle finish other : State}

/-- An execution continues with the next state. -/
theorem advance_iff (stepped : next state = some middle) :
    Completes next state finish ↔ Completes next middle finish := by
  constructor
  · intro completes
    cases completes with
    | completed stopped =>
        rw [stepped] at stopped
        cases stopped
    | advance moved rest =>
        obtain rfl := Option.some.inj (stepped.symm.trans moved)
        exact rest
  · intro rest
    exact .advance stepped rest

/-- An execution has one outcome. -/
theorem deterministic (first : Completes next state finish)
    (second : Completes next state other) : finish = other := by
  induction first with
  | completed stopped =>
      cases second with
      | completed => rfl
      | advance stepped =>
          rw [stopped] at stepped
          cases stepped
  | advance stepped _ ih => exact ih ((advance_iff stepped).mp second)

/-- A reflexive and transitive relation that holds of every step relates a
state to the outcome of its execution. -/
theorem related (relation : State → State → Prop) (refl : ∀ state, relation state state)
    (trans : ∀ {state middle finish}, relation state middle → relation middle finish →
      relation state finish)
    (stepped : ∀ {state middle}, next state = some middle → relation state middle)
    (completes : Completes next state finish) : relation state finish := by
  induction completes with
  | completed => exact refl _
  | advance moved _ ih => exact trans (stepped moved) ih

end Completes

end Library
