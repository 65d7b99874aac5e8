import Mathlib.Data.List.Basic

/-!
# Traces judged by their past

A trace is a list of observations in the order in which they are made. The
properties considered here judge each observation by the observations before
it, so that a trace is extended one observation at a time.
-/

set_option autoImplicit false

namespace Library

variable {Observation : Type}

/-- Every observation of the trace stands in the given relation to its past. -/
def Always (holds : List Observation → Observation → Prop)
    (trace : List Observation) : Prop :=
  ∀ past observation future, trace = past ++ observation :: future →
    holds past observation

namespace Always

variable {holds : List Observation → Observation → Prop} {trace : List Observation}

@[simp] theorem nil : Always holds [] := by
  intro past observation future split
  simp at split

/-- A trace is extended by judging the new observation against all earlier ones. -/
@[simp] theorem snoc_iff {observation : Observation} :
    Always holds (trace ++ [observation]) ↔ Always holds trace ∧ holds trace observation := by
  constructor
  · intro always
    constructor
    · intro past earlier future split
      exact always past earlier (future ++ [observation]) (by simp [split])
    · exact always trace observation [] rfl
  · rintro ⟨always, last⟩ past earlier future split
    rcases List.eq_nil_or_concat future with rfl | ⟨future, final, rfl⟩
    · have parts := List.append_inj' split rfl
      obtain ⟨rfl, same⟩ := parts
      cases same
      exact last
    · rw [List.concat_eq_append, ← List.cons_append, ← List.append_assoc] at split
      obtain ⟨rfl, -⟩ := List.append_inj' split rfl
      exact always past earlier future rfl

/-- A trace is extended by observations that are in order one after the other. -/
theorem append_of {observations : List Observation} (always : Always holds trace)
    (added : ∀ past observation future, observations = past ++ observation :: future →
      holds (trace ++ past) observation) :
    Always holds (trace ++ observations) := by
  induction observations generalizing trace with
  | nil => simpa using always
  | cons observation observations ih =>
      have first := added [] observation observations rfl
      rw [List.append_nil] at first
      have rest := ih (snoc_iff.mpr ⟨always, first⟩) fun past other future split => by
        have later := added (observation :: past) other future (by rw [split]; rfl)
        rwa [List.append_assoc]
      rwa [List.append_assoc] at rest

/-- A trace is extended by observations that are in order whatever precedes them. -/
theorem append {observations : List Observation} (always : Always holds trace)
    (added : ∀ past, ∀ observation ∈ observations, holds past observation) :
    Always holds (trace ++ observations) :=
  always.append_of fun past observation _ split => added _ observation (by simp [split])

theorem imp {weaker : List Observation → Observation → Prop}
    (weakens : ∀ past observation, holds past observation → weaker past observation)
    (always : Always holds trace) : Always weaker trace :=
  fun past observation future split => weakens _ _ (always past observation future split)

end Always

end Library
