import Vda5050.Library.Trace

/-!
# Monitors

A monitor is an abstract machine that watches a trace. It permits or refuses
the next observation by the phase it has reached, and moves on.
-/

set_option autoImplicit false

namespace Library

structure Monitor (Observation Phase : Type) where
  initial : Phase
  permits : Phase → Observation → Prop
  next : Phase → Observation → Phase

namespace Monitor

variable {Observation Phase : Type} (monitor : Monitor Observation Phase)

/-- The phase reached by a trace. -/
def after (trace : List Observation) : Phase := trace.foldl monitor.next monitor.initial

/-- Every observation of the trace is permitted in the phase it is made in. -/
def Accepts (trace : List Observation) : Prop :=
  Always (fun past observation => monitor.permits (monitor.after past) observation) trace

/-- An observation is permitted and does not end the phase. -/
def Stays (phase : Phase) (observation : Observation) : Prop :=
  monitor.permits phase observation ∧ monitor.next phase observation = phase

variable {monitor}

@[simp] theorem after_nil : monitor.after [] = monitor.initial := rfl

@[simp] theorem after_concat (trace : List Observation) (observation : Observation) :
    monitor.after (trace ++ [observation]) = monitor.next (monitor.after trace) observation := by
  simp [after]

theorem accepts_nil : monitor.Accepts [] := Always.nil

/-- A trace is extended by a permitted observation. -/
theorem accepts_concat {trace : List Observation} {observation : Observation} :
    monitor.Accepts (trace ++ [observation]) ↔
      monitor.Accepts trace ∧ monitor.permits (monitor.after trace) observation :=
  Always.snoc_iff

/-- The monitor stays in its phase over observations that do not end it. -/
theorem Accepts.append {trace observations : List Observation} (accepted : monitor.Accepts trace)
    (stays : ∀ observation ∈ observations, monitor.Stays (monitor.after trace) observation) :
    monitor.Accepts (trace ++ observations) ∧
      monitor.after (trace ++ observations) = monitor.after trace := by
  induction observations generalizing trace with
  | nil => simpa using accepted
  | cons observation observations ih =>
      obtain ⟨permitted, same⟩ := stays observation List.mem_cons_self
      have extended : monitor.after (trace ++ [observation]) = monitor.after trace := by
        rw [after_concat, same]
      have rest := ih (accepts_concat.mpr ⟨accepted, permitted⟩) fun other member =>
        extended ▸ stays other (List.mem_cons_of_mem _ member)
      rwa [List.append_assoc, List.singleton_append, extended] at rest

end Monitor

end Library
