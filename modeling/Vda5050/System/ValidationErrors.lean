import Vda5050.System.AnsweredMessages

/-!
# Validation errors of instant actions

Whether the errors that are reported on instant actions are those of rejected
messages. They are if each message is answered before the next one, they are not
if two messages are underway.
-/

set_option autoImplicit false

namespace Vda5050

namespace System

open MasterController

variable {agvId : AgvId} {sys : System}

/-- In every state of a run that attributes validation errors to rejected
messages, the errors without an action that have been reported on handlers are
errors of rejected messages; and a State removes an instant action only if the
action has ended, an error refers to the action, or its message was rejected. -/
theorem validation_errors_attributed {limit : Nat} {events : List SystemEvent}
    (run : SystemRun (AttributesToRejected agvId) agvId limit events sys) :
    (∀ cache error, .instantActionError cache error ∈ sys.master.notifications →
        !refersToAction error → cache.eventHandler ∈ sys.rejectedInstantActions) ∧
      ∀ current after, sys.master.dispatching = some current →
        AttributesToRejected agvId sys .continueDispatch →
        sys.step agvId .continueDispatch = some after →
        ∀ entry ∈ sys.master.cachedInstantActions agvId,
          entry.1 ∉ (after.master.cachedInstantActions agvId).map (·.1) →
          (current.state.actionStates.find? (·.actionId = entry.1)).any
              (·.actionStatus.isEnded) ∨
            (getActionError (errorsOf current.state) entry.1 true).isSome ∨
            entry.2.eventHandler ∈ sys.rejectedInstantActions := by
  have attributed := ErrorsAttributed.of_run run
  constructor
  · exact attributed.reported
  · intro current after dispatching fits stepped
    obtain ⟨_, masterRun⟩ := SystemRun.masterRun run
    rcases step_cases stepped with ⟨happened, atMaster, -, rfl⟩ | ⟨_, atVehicle, -, -⟩
    · obtain rfl := Option.some.inj atMaster
      have continued : ErrorsAttributed agvId
          { sys with master := sys.master.continueDispatch } ∧ _ :=
        attributed.continueDispatch (CacheBooks.of_run masterRun) fits dispatching rfl rfl
      exact continued.2
    · cases atVehicle

/-! ## Messages underway -/

/-- A message without the `blockingType` of its action, as the vehicle sees it. -/
def malformedActions (actionId : String) : Message InstantActions where
  content := { actions := [startCharging actionId] }
  violation := some
    (.obj
      [("headerId", .num 1 "1"),
        ("actions", .arr [.obj
          [("actionId", .str actionId), ("actionType", .str "startCharging")]])],
      "must have required property 'blockingType'")

def wellformedActions (actionId : String) : Message InstantActions where
  content := { actions := [startCharging actionId] }

/-- The publication of the only message of an action, which is cached in the given map. -/
def publication (actionId : String) (actionStateCaches instantActionsRef : Nat) : SystemEvent :=
  .instantActionsPublished
    { agvId := MasterController.vehicle
      actionStateCaches := actionStateCaches
      actions := [startCharging actionId]
      instantActionsRef := instantActionsRef } true

/-- One message after the other is published, and the State that reports the
first one as invalid is dispatched before the vehicle receives the second one. -/
def messagesUnderway : List SystemEvent :=
  [.initiateInstantActions (malformedActions "first") true, publication "first" 0 1,
    .initiateInstantActions (wellformedActions "second") true, publication "second" 0 2,
    .receiveInstantActions {}, .dispatchState, .continueDispatch, .continueDispatch,
    .receiveInstantActions {}]

/-- The error of the first message is reported on the second one, which the
vehicle accepts. -/
theorem not_validation_errors_attributed :
    ∃ sys, SystemRun (fun _ _ => True) MasterController.vehicle 5 messagesUnderway sys ∧
      sys.rejectedInstantActions = [0] ∧
      .instantActionAccepted (startCharging "second") ∈ sys.vehicle.log ∧
      (sys.master.cachedInstantActions MasterController.vehicle).map (·.1) = ["first"] ∧
      ∃ cache error, .instantActionError cache error ∈ sys.master.notifications ∧
        !refersToAction error ∧ cache.eventHandler = 1 := by
  obtain ⟨sys, run, passed⟩ := SystemRun.exists_of_execute (fun _ _ => True)
    MasterController.vehicle 5 messagesUnderway
    (fun sys => sys.rejectedInstantActions = [0] &&
      decide (.instantActionAccepted (startCharging "second") ∈ sys.vehicle.log) &&
      (sys.master.cachedInstantActions MasterController.vehicle).map (·.1) = ["first"] &&
      sys.master.notifications.any fun
        | .instantActionError cache error => !refersToAction error && cache.eventHandler = 1
        | _ => false)
    (by decide)
  simp only [Bool.and_eq_true, decide_eq_true_eq, List.any_eq_true] at passed
  obtain ⟨⟨⟨rejected, accepted⟩, cached⟩, notification, member, reported⟩ := passed
  refine ⟨sys, run, rejected, accepted, cached, ?_⟩
  cases notification with
  | instantActionError cache error =>
      simp only [Bool.and_eq_true, decide_eq_true_eq] at reported
      exact ⟨cache, error, member, reported⟩
  | _ => cases reported

/-- Of three messages that are answered one after the other, the vehicle accepts
the second one only. -/
def answeredMessages : List SystemEvent :=
  [.initiateInstantActions (malformedActions "first") true, publication "first" 0 1,
    .receiveInstantActions {}, .dispatchState, .continueDispatch, .continueDispatch,
    .initiateInstantActions (wellformedActions "second") true, publication "second" 1 2,
    .receiveInstantActions {}, .vehicle .proceed, .vehicle .proceed, .vehicle .proceed,
    .vehicle .proceed,
    .initiateInstantActions (malformedActions "third") true, publication "third" 1 3,
    .receiveInstantActions {}, .dispatchState, .continueDispatch, .continueDispatch,
    .continueDispatch]

/-- The errors of the first and the third message are reported on their actions. -/
theorem validation_errors_attributed_of_answered :
    ∃ sys, SystemRun (AttributesToRejected MasterController.vehicle)
        MasterController.vehicle 5 answeredMessages sys ∧
      sys.rejectedInstantActions = [0, 2] ∧
      (∃ cache error, .instantActionError cache error ∈ sys.master.notifications ∧
        !refersToAction error ∧ cache.eventHandler = 2) ∧
      ∀ cache error, .instantActionError cache error ∈ sys.master.notifications →
        !refersToAction error → cache.eventHandler ∈ sys.rejectedInstantActions := by
  obtain ⟨sys, run, passed⟩ := SystemRun.exists_of_execute Answered MasterController.vehicle 5
    answeredMessages
    (fun sys => sys.rejectedInstantActions = [0, 2] && sys.master.notifications.any fun
      | .instantActionError cache error => !refersToAction error && cache.eventHandler = 2
      | _ => false)
    (by decide)
  have attributing := attributesToRejected_of_answered run
  simp only [Bool.and_eq_true, decide_eq_true_eq, List.any_eq_true] at passed
  obtain ⟨rejected, notification, member, reported⟩ := passed
  refine ⟨sys, attributing, rejected, ?_, (validation_errors_attributed attributing).1⟩
  cases notification with
  | instantActionError cache error =>
      simp only [Bool.and_eq_true, decide_eq_true_eq] at reported
      exact ⟨cache, error, member, reported⟩
  | _ => cases reported

end System

end Vda5050
