import Vda5050.Library.Run
import Vda5050.AgvController.ErrorObjects

/-!
# Publications under way

A state is serialized when it is published, and counted when its publication has
completed. The controller is followed together with the states whose publications
are under way and with those that have been published successfully.
-/

set_option autoImplicit false

namespace Vda5050

open Library AgvController

/-- An event of the controller, or the completion of one of the publications under way. -/
inductive PublicationEvent where
  | controller (event : Event)
  | completed (index : Nat) (succeeded : Bool)

/-- The controller with its publications, and the identities of all errors that have
been recorded to be counted. -/
structure Publications where
  config : Config
  pending : List State := []
  delivered : List State := []
  recorded : List Nat := []

namespace Publications

def initial (finalInstantActionStateChangePublishCount : Nat) : Publications where
  config := Config.initial finalInstantActionStateChangePublishCount

/-- The publications of a step are under way when it is done. -/
def continueWith (p : Publications) (next : Config) : Publications :=
  { p with
    config := next
    pending := p.pending ++ next.published.drop p.config.published.length
    recorded := p.recorded ∪ next.agv.erroredPublishCountKeys }

/-- The given publication has completed. -/
def complete (p : Publications) (next : Config) (index : Nat) (state : State)
    (succeeded : Bool) : Publications :=
  { p with
    config := next
    pending := p.pending.eraseIdx index
    delivered := if succeeded then p.delivered ++ [state] else p.delivered }

def step (p : Publications) : PublicationEvent → Option Publications
  | .controller (.published _) => none
  | .controller event => (p.config.step event).map p.continueWith
  | .completed index succeeded =>
      p.pending[index]?.bind fun state =>
        (p.config.step (.published succeeded)).map fun next =>
          p.complete next index state succeeded

theorem step_controller {p after : Publications} {event : Event}
    (stepped : p.step (.controller event) = some after) :
    (∀ succeeded, event ≠ .published succeeded) ∧
      ∃ next, p.config.step event = some next ∧ after = p.continueWith next := by
  cases event with
  | published succeeded => cases stepped
  | _ =>
      obtain ⟨next, performed, rfl⟩ := Option.map_eq_some_iff.mp stepped
      exact ⟨nofun, next, performed, rfl⟩

theorem step_completed {p after : Publications} {index : Nat} {succeeded : Bool}
    (stepped : p.step (.completed index succeeded) = some after) :
    ∃ state next, p.pending[index]? = some state ∧
      p.config.step (.published succeeded) = some next ∧
      after = p.complete next index state succeeded := by
  obtain ⟨state, found, completed⟩ := Option.bind_eq_some_iff.mp stepped
  obtain ⟨next, performed, rfl⟩ := Option.map_eq_some_iff.mp completed
  exact ⟨state, next, found, performed, rfl⟩

/-- The states under way are published ones. -/
def PendingPublished (p : Publications) : Prop := p.pending ⊆ p.config.published

theorem PendingPublished.step {p after : Publications} {event : PublicationEvent}
    (published : p.PendingPublished) (stepped : p.step event = some after) :
    after.PendingPublished := by
  cases event with
  | controller event =>
      obtain ⟨-, next, performed, rfl⟩ := step_controller stepped
      obtain ⟨-, rfl⟩ := Config.step_eq_some.mp performed
      obtain ⟨states, same, -⟩ := (p.config.perform_errorsCreated event).published
      have kept : p.pending ⊆ (p.config.perform event).published := fun state member =>
        same ▸ List.mem_append_left _ (published member)
      exact List.append_subset.mpr ⟨kept, List.drop_subset _ _⟩
  | completed index succeeded =>
      obtain ⟨state, next, -, performed, rfl⟩ := step_completed stepped
      obtain ⟨-, rfl⟩ := Config.step_eq_some.mp performed
      obtain ⟨states, same, -⟩ := (p.config.perform_errorsCreated (.published succeeded)).published
      exact fun state member =>
        same ▸ List.mem_append_left _ (published (List.mem_of_mem_eraseIdx member))

end Publications

end Vda5050
