import Vda5050.AgvController.Decision
import Vda5050.AgvController.History

/-!
# Upkeep of the state

Rejected and discarded messages, partial states of the adapter, publications
and the removal of ended instant actions leave orders, instant actions and
pending calls as they are.
-/

set_option autoImplicit false

namespace Vda5050

open AgvController

/-- What is observed of a message that leads to nothing. -/
def Observation.isUpkeep : Observation → Bool
  | .orderRejected _ | .orderDiscarded => true
  | _ => false

def Config.endedPublishCountKeys (c : Config) : List String :=
  c.agv.instantActionsEndedPublishCount.map (·.1)

/-- The controller reports the vehicle state `linkedState`, and forgets the
instant actions `removed`, which have been reported as ended often enough. -/
structure Upkeep (linkedState : PartialState) (removed : List String) (c next : Config) :
    Prop where
  agv : ∃ currentState ended errored nextErrorRef,
    next.agv =
      { c.agv with
        currentState := currentState
        instantActionsEndedPublishCount := ended
        instantActionsErroredPublishCount := errored
        nextErrorRef := nextErrorRef }
  actionStates : next.agv.currentState.actionStates =
    c.agv.currentState.actionStates.filter (·.actionId ∉ removed)
  nodeStates : next.agv.currentState.nodeStates = c.agv.currentState.nodeStates
  edgeStates : next.agv.currentState.edgeStates = c.agv.currentState.edgeStates
  lastNodeId : next.agv.currentState.lastNodeId =
    linkedState.lastNodeId.getD c.agv.currentState.lastNodeId
  lastNodeSequenceId : next.agv.currentState.lastNodeSequenceId =
    linkedState.lastNodeSequenceId.getD c.agv.currentState.lastNodeSequenceId
  paused : next.agv.currentState.paused = (linkedState.paused <|> c.agv.currentState.paused)
  counted : ∀ id ∈ next.endedPublishCountKeys, id ∈ c.endedPublishCountKeys
  forgotten : ∀ id ∈ removed, id ∈ c.endedPublishCountKeys ∧
    ∃ state ∈ c.agv.currentState.actionStates, state.actionId = id ∧ state.actionStatus.isEnded
  remaining : ∀ id ∈ c.endedPublishCountKeys, id ∉ removed → id ∈ next.endedPublishCountKeys
  executing : next.executing = c.executing
  traversing : next.traversing = c.traversing
  stopping : next.stopping = c.stopping
  log : ∃ observations, next.log = c.log ++ observations ∧
    ∀ observation ∈ observations, observation.isUpkeep
  stack : next.crashed = c.crashed ∧ next.stack = c.stack ∨ next.crashed ∧ next.stack = []

namespace Upkeep

theorem refl (c : Config) : Upkeep {} [] c c where
  agv := ⟨_, _, _, _, rfl⟩
  actionStates := by simp
  nodeStates := rfl
  edgeStates := rfl
  lastNodeId := rfl
  lastNodeSequenceId := rfl
  paused := by simp
  counted := fun _ member => member
  forgotten := by simp
  remaining := fun _ member _ => member
  executing := rfl
  traversing := rfl
  stopping := rfl
  log := ⟨[], by simp, by simp⟩
  stack := .inl ⟨rfl, rfl⟩

theorem crash (c : Config) : Upkeep {} [] c c.throwTypeError :=
  { refl c with stack := .inr ⟨rfl, rfl⟩ }

/-- Bookkeeping of messages and error objects precedes an update. -/
theorem of_same {linkedState : PartialState} {removed : List String} {c same next : Config}
    (kept : Upkeep linkedState removed same next)
    (agv : ∃ errored nextErrorRef,
      same.agv =
        { c.agv with
          instantActionsErroredPublishCount := errored
          nextErrorRef := nextErrorRef })
    (executing : same.executing = c.executing) (traversing : same.traversing = c.traversing)
    (stopping : same.stopping = c.stopping) (log : same.log = c.log)
    (stack : same.stack = c.stack) (crashed : same.crashed = c.crashed) :
    Upkeep linkedState removed c next := by
  obtain ⟨errored, ref, agv⟩ := agv
  obtain ⟨moved, actionStates, nodeStates, edgeStates, lastNodeId, lastNodeSequenceId, paused,
    counted, forgotten, remaining, executing', traversing', stopping', log', stack'⟩ := kept
  simp only [Config.endedPublishCountKeys, agv, executing, traversing, stopping, log, stack,
    crashed] at *
  exact ⟨moved, actionStates, nodeStates, edgeStates, lastNodeId, lastNodeSequenceId, paused,
    counted, forgotten, remaining, executing', traversing', stopping', log', stack'⟩

/-- A message that leads to nothing is observed. -/
theorem observe {linkedState : PartialState} {removed : List String} {c next : Config}
    (kept : Upkeep linkedState removed c next) {observation : Observation}
    (upkeep : observation.isUpkeep) : Upkeep linkedState removed c (next.observe observation) := by
  obtain ⟨observations, log, upkeeps⟩ := kept.log
  refine { kept with log := ⟨observations ++ [observation], ?_, ?_⟩ }
  · simp [Config.observe, log]
  · intro other member
    rcases List.mem_append.mp member with member | member
    · exact upkeeps other member
    · exact List.mem_singleton.mp member ▸ upkeep

theorem quiet {linkedState : PartialState} {removed : List String} {c next : Config}
    (kept : Upkeep linkedState removed c next) : c.Quiet next := by
  obtain ⟨observations, log, upkeeps⟩ := kept.log
  refine ⟨observations, log, fun observation member => ?_⟩
  have upkeep := upkeeps observation member
  cases observation <;> simp_all [Observation.isUpkeep, Observation.isAcceptance]

end Upkeep

namespace Config

variable (c : Config)

theorem isVehicleState_errors (errors : List StateError) :
    ({ errors := some errors } : PartialState).isVehicleState :=
  ⟨rfl, rfl, rfl, rfl, rfl⟩

private theorem updateState_upkeep {newPartialState : PartialState}
    (vehicle : newPartialState.isVehicleState) (publishImmediately : Bool) :
    Upkeep newPartialState [] c (c.updateState newPartialState publishImmediately) := by
  obtain ⟨noActions, noNodes, noEdges, -, -⟩ := vehicle
  constructor
  case agv => exact ⟨_, _, _, _, updateState_agv c newPartialState publishImmediately⟩
  case log => exact ⟨[], by simp, by simp⟩
  case stack => exact .inl (by simp)
  all_goals simp [State.merge, endedPublishCountKeys, noActions, noNodes, noEdges]

private theorem publishCurrentState_upkeep : Upkeep {} [] c c.publishCurrentState := by
  constructor
  case agv => exact ⟨_, _, _, _, publishCurrentState_agv c⟩
  case log => exact ⟨[], by simp, by simp⟩
  case stack => exact .inl (by simp)
  all_goals simp [endedPublishCountKeys]

private theorem addError_upkeep (error : Error) : Upkeep {} [] c (c.addError error) := by
  have updated := fun (c : Config) (errors : List StateError) =>
    updateState_upkeep c (isVehicleState_errors errors) true
  exact Upkeep.of_same { updated _ _ with } ⟨_, _, rfl⟩ rfl rfl rfl rfl rfl rfl

private theorem addInstantActionError_upkeep (error : Error) :
    Upkeep {} [] c (c.addInstantActionError error) :=
  (addError_upkeep _ error).of_same ⟨_, _, rfl⟩ rfl rfl rfl rfl rfl rfl

private theorem rejectOrder_upkeep (error : Error) : Upkeep {} [] c (c.rejectOrder error) :=
  (addError_upkeep c error).observe rfl

theorem updatePartialState_upkeep {newState : PartialState} (vehicle : newState.isVehicleState)
    (reportImmediately : Bool) :
    Upkeep newState [] c (c.updatePartialState newState reportImmediately) := by
  obtain ⟨errors, cloned⟩ : ∃ errors,
      (c.agv.cloneState newState).1 = { newState with errors := errors } :=
    ⟨_, cloneState_fst c.agv newState⟩
  obtain ⟨nextErrorRef, agv⟩ : ∃ nextErrorRef,
      (c.agv.cloneState newState).2 = { c.agv with nextErrorRef := nextErrorRef } :=
    ⟨_, cloneState_snd c.agv newState⟩
  have updated : ({ newState with errors := errors } : PartialState).isVehicleState := vehicle
  have kept := updateState_upkeep { c with agv := { c.agv with nextErrorRef := nextErrorRef } }
    updated reportImmediately
  unfold updatePartialState
  simp only [cloned, agv]
  exact Upkeep.of_same { kept with } ⟨_, _, rfl⟩ rfl rfl rfl rfl rfl rfl

private theorem updateErrors_upkeep (error : Error) (mode : UpdateMode) (reportImmediately : Bool) :
    Upkeep {} [] c (c.updateErrors error mode reportImmediately) := by
  unfold updateErrors
  split
  · exact .crash c
  · exact .refl c
  · exact { updatePartialState_upkeep c (isVehicleState_errors _) reportImmediately with }

theorem countPublication_eq_some {limit count next : Nat} :
    countPublication limit count = some next ↔ count + 1 < limit ∧ count + 1 = next := by
  unfold countPublication
  split <;> simp <;> omega

theorem countPublication_isNone {limit count : Nat} :
    (countPublication limit count).isNone ↔ limit ≤ count + 1 := by
  unfold countPublication
  split <;> simp <;> omega

/-- The action state found by its actionId has ended. -/
private def isEndedEntry (entry : String × Nat) : Bool :=
  (c.agv.currentState.actionStates.find? (·.actionId = entry.1)).any (·.actionStatus.isEnded)

/-- The actionIds of the instant actions whose states are removed. -/
def removedInstantActions : List String :=
  (c.agv.instantActionsEndedPublishCount.filter fun entry =>
    isEndedEntry c entry &&
      (countPublication c.agv.finalInstantActionStateChangePublishCount entry.2).isNone).map (·.1)

/-- Only states of ended instant actions are removed, together with their counts. -/
theorem cleanupInstantActionStates_upkeep :
    Upkeep {} c.removedInstantActions c c.cleanupInstantActionStates := by
  constructor
  case agv => exact ⟨_, _, _, _, rfl⟩
  case actionStates =>
    refine List.filter_congr fun state _ => ?_
    rw [Bool.eq_iff_iff, decide_eq_true_iff]
    simp [removedInstantActions, isEndedEntry]
    grind
  case counted =>
    intro id member
    obtain ⟨entry, known, rfl⟩ := List.mem_map.mp member
    obtain ⟨original, included, same⟩ := List.mem_filterMap.mp known
    refine List.mem_map.mpr ⟨original, included, ?_⟩
    split at same
    · obtain ⟨count, -, rfl⟩ := Option.map_eq_some_iff.mp same
      rfl
    · cases same
      rfl
  case forgotten =>
    intro id member
    obtain ⟨entry, included, rfl⟩ := List.mem_map.mp member
    obtain ⟨included, last⟩ := List.mem_filter.mp included
    refine ⟨List.mem_map_of_mem included, ?_⟩
    simp only [Bool.and_eq_true, isEndedEntry, Option.any_eq_true] at last
    obtain ⟨⟨state, found, ended⟩, -⟩ := last
    exact ⟨state, List.mem_of_find?_eq_some found, by simpa using List.find?_some found, ended⟩
  case remaining =>
    intro id member kept
    obtain ⟨entry, included, rfl⟩ := List.mem_map.mp member
    have going : isEndedEntry c entry = true →
        ∃ count, countPublication c.agv.finalInstantActionStateChangePublishCount entry.2 =
          some count := by
      intro ended
      rw [← Option.isSome_iff_exists]
      by_contra last
      refine kept (List.mem_map_of_mem (List.mem_filter.mpr ⟨included, ?_⟩))
      simpa [ended] using last
    cases ended : isEndedEntry c entry with
    | true =>
        obtain ⟨count, counted⟩ := going ended
        refine List.mem_map.mpr ⟨(entry.1, count), List.mem_filterMap.mpr ⟨entry, included, ?_⟩, rfl⟩
        simp only [isEndedEntry] at ended
        simp [ended, counted]
    | false =>
        refine List.mem_map.mpr ⟨entry, List.mem_filterMap.mpr ⟨entry, included, ?_⟩, rfl⟩
        simp only [isEndedEntry] at ended
        simp [ended]
  case log => exact ⟨[], by simp [cleanupInstantActionStates], by simp⟩
  case stack => exact .inl ⟨rfl, rfl⟩
  all_goals simp [cleanupInstantActionStates]

end Config

/-- The vehicle state the adapter supplies. -/
def Event.suppliedState : Event → PartialState
  | .updatePartialState newState _ => newState
  | .updateActionStatus _ change => change.linkedState
  | _ => {}

/-- Events that do not concern orders and instant actions. -/
def Event.isUpkeep : Event → Bool
  | .invalidOrder .. | .invalidInstantActions .. | .updatePartialState .. | .updateErrors .. |
    .publishTimer | .published _ | .connection _ => true
  | _ => false

namespace Config

variable (c : Config)

/-- Orders that are not accepted change nothing else. -/
theorem processOrder_upkeep {order : Order} {adapter : AdapterAnswers}
    (notAccepted : ∀ mode,
      c.agv.decideOrder adapter (allocateNodes c.received order) ≠ .accept mode) :
    Upkeep {} [] c (c.processOrder order adapter) := by
  unfold processOrder
  simp only
  split
  · exact (rejectOrder_upkeep _ _).of_same ⟨_, _, rfl⟩ rfl rfl rfl rfl rfl rfl
  · have updated := updateState_upkeep { c with received := c.received + 1 }
      PartialState.isVehicleState_empty true
    exact (updated.of_same ⟨_, _, rfl⟩ rfl rfl rfl rfl rfl rfl).observe rfl
  · next mode decided => exact absurd decided (notAccepted mode)

theorem perform_upkeep {event : Event} (upkeep : event.isUpkeep)
    (contract : AdapterContract c event) :
    ∃ removed, Upkeep event.suppliedState removed c (c.perform event) := by
  cases event with
  | invalidOrder payload message =>
      refine ⟨[], ?_⟩
      simp only [perform, processInvalidOrder]
      split
      · exact .crash c
      · exact rejectOrder_upkeep c _
  | invalidInstantActions payload message =>
      refine ⟨[], ?_⟩
      simp only [perform, processInvalidInstantActions]
      split
      · exact .crash c
      · exact addInstantActionError_upkeep c _
  | updatePartialState newState reportImmediately =>
      exact ⟨[], updatePartialState_upkeep c contract reportImmediately⟩
  | updateErrors error mode reportImmediately =>
      exact ⟨[], updateErrors_upkeep c error mode reportImmediately⟩
  | publishTimer => exact ⟨[], publishCurrentState_upkeep c⟩
  | published succeeded =>
      cases succeeded with
      | false => exact ⟨[], (Upkeep.refl _).of_same ⟨_, _, rfl⟩ rfl rfl rfl rfl rfl rfl⟩
      | true =>
          exact ⟨_, (cleanupInstantActionStates_upkeep { c with inFlight := c.inFlight - 1 }).of_same
            ⟨_, _, rfl⟩ rfl rfl rfl rfl rfl rfl⟩
  | connection online =>
      refine ⟨[], ?_⟩
      simp only [perform]
      split
      · exact (publishCurrentState_upkeep _).of_same ⟨_, _, rfl⟩ rfl rfl rfl rfl rfl rfl
      · exact (Upkeep.refl _).of_same ⟨_, _, rfl⟩ rfl rfl rfl rfl rfl rfl
  | _ => simp [Event.isUpkeep] at upkeep

end Config

end Vda5050
