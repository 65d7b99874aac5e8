import Vda5050.AgvController.Machine
import Vda5050.Library.Run
import Vda5050.Library.Trace

/-!
# The environment of the AGV controller

What the `AgvAdapter` contract promises about the callbacks of an adapter, and
the distinctness of the actionIds of accepted orders and instant actions.
-/

set_option autoImplicit false

namespace Vda5050

open AgvController

/-- A partial state supplied by the adapter describes the vehicle. The order
related properties are maintained by the controller. -/
def PartialState.isVehicleState (state : PartialState) : Prop :=
  state.actionStates = none ∧ state.nodeStates = none ∧ state.edgeStates = none ∧
    state.orderId = none ∧ state.orderUpdateId = none

instance (state : PartialState) : Decidable state.isVehicleState :=
  inferInstanceAs (Decidable (_ ∧ _))

theorem PartialState.isVehicleState_empty : ({} : PartialState).isVehicleState := by decide

/-- Callbacks belong to handlers that have been invoked and are not repeated
after the last one: an executed action ends once, an edge is traversed once,
and `stopped` is invoked once. -/
def AdapterContract (c : Config) : Event → Prop
  | .updateActionStatus context change =>
      context ∈ c.executing ∧ change.actionStatus ≠ .waiting ∧
        change.linkedState.isVehicleState
  | .edgeTraversed context => context ∈ c.traversing
  | .stopped context => context ∈ c.stopping
  | .drivingToNextNode _ => c.stopping ≠ []
  | .updatePartialState newState _ => newState.isVehicleState
  | _ => True

instance (c : Config) (event : Event) : Decidable (AdapterContract c event) :=
  match event with
  | .updateActionStatus context change =>
      inferInstanceAs (Decidable (context ∈ c.executing ∧ change.actionStatus ≠ .waiting ∧
        change.linkedState.isVehicleState))
  | .edgeTraversed context => inferInstanceAs (Decidable (context ∈ c.traversing))
  | .stopped context => inferInstanceAs (Decidable (context ∈ c.stopping))
  | .drivingToNextNode _ => inferInstanceAs (Decidable (c.stopping ≠ []))
  | .updatePartialState newState _ => inferInstanceAs (Decidable newState.isVehicleState)
  | .proceed | .order .. | .invalidOrder .. | .instantActions .. | .invalidInstantActions ..
  | .updateErrors .. | .publishTimer | .published _ | .connection _ => isTrue trivial

/-! ## Distinct actionIds -/

def actionIds (actions : List Action) : List String := actions.map (·.actionId)

/-- The instant actions accepted so far, in the order of their acceptance. -/
def acceptedInstantActions (log : List Observation) : List Action :=
  log.filterMap fun
    | .instantActionAccepted action => some action
    | _ => none

/-- The actions of the released nodes and edges of the orders accepted so far. -/
def acceptedOrderActions (log : List Observation) : List Action :=
  log.flatMap fun
    | .orderAccepted _ order => order.releasedActions
    | _ => []

@[simp] theorem acceptedInstantActions_append (log observations : List Observation) :
    acceptedInstantActions (log ++ observations) =
      acceptedInstantActions log ++ acceptedInstantActions observations :=
  List.filterMap_append

@[simp] theorem acceptedOrderActions_append (log observations : List Observation) :
    acceptedOrderActions (log ++ observations) =
      acceptedOrderActions log ++ acceptedOrderActions observations :=
  List.flatMap_append

def Config.instantIds (c : Config) : List String := actionIds (acceptedInstantActions c.log)

def Config.orderIds (c : Config) : List String := actionIds (acceptedOrderActions c.log)

/-- An actionId is used once among the accepted instant actions and the
released nodes and edges of accepted orders. Horizon actions are sent again
when they are released. -/
def DistinctActionIds (c : Config) : Event → Prop
  | .order order adapter =>
      (∃ mode, c.agv.decideOrder adapter (Config.allocateNodes c.received order) =
        .accept mode) →
      (actionIds order.releasedActions).Nodup ∧
        ∀ id ∈ actionIds order.releasedActions, id ∉ c.orderIds ∧ id ∉ c.instantIds
  | .instantActions message _ =>
      (actionIds message.actions).Nodup ∧
        ∀ id ∈ actionIds message.actions, id ∉ c.orderIds ∧ id ∉ c.instantIds
  | _ => True

instance (decision : OrderDecision) : Decidable (∃ mode, decision = .accept mode) :=
  match decision with
  | .accept mode => isTrue ⟨mode, rfl⟩
  | .reject _ | .discard => isFalse (by simp)

instance (c : Config) (event : Event) : Decidable (DistinctActionIds c event) := by
  cases event <;> unfold DistinctActionIds <;> infer_instance

/-- An environment the controller is made for. -/
def Environment (c : Config) (event : Event) : Prop :=
  AdapterContract c event ∧ DistinctActionIds c event

instance (c : Config) (event : Event) : Decidable (Environment c event) :=
  inferInstanceAs (Decidable (_ ∧ _))

/-- Runs of the controller in such an environment that satisfy one more
condition on every step. -/
abbrev ControllerRun (condition : Config → Event → Prop) (limit : Nat) :
    List Event → Config → Prop :=
  Library.Run Config.step (fun c event => Environment c event ∧ condition c event)
    (Config.initial limit)

namespace ControllerRun

variable {condition : Config → Event → Prop} {limit : Nat} {events : List Event} {c : Config}

/-- What holds initially and is preserved by every permitted step holds in
every state reached. -/
theorem invariant (inv : Config → Prop) (initial : inv (Config.initial limit))
    (preserved : ∀ {c : Config} {event : Event}, inv c → Environment c event →
      condition c event → c.enabled event → inv (c.perform event))
    (run : ControllerRun condition limit events c) : inv c := by
  refine Library.Run.invariant inv initial ?_ run
  intro events c event next run holds permitted stepped
  obtain ⟨environment, permitted⟩ := permitted
  obtain ⟨enabled, rfl⟩ := Config.step_eq_some.mp stepped
  exact preserved holds environment permitted enabled

/-- Executing events by the step function yields a run. -/
theorem exists_of_execute (condition : Config → Event → Prop)
    [∀ c event, Decidable (condition c event)] (limit : Nat) (events : List Event)
    (check : Config → Bool)
    (passed : (Library.execute Config.step (fun c event => Environment c event ∧ condition c event)
      (Config.initial limit) events).any check = true) :
    ∃ c, ControllerRun condition limit events c ∧ check c = true :=
  Library.exists_run_of_execute passed

end ControllerRun

/-- An order that takes the vehicle along one edge. -/
def driveOrder (orderId : String) (startActions edgeActions endActions : List Action) : Order where
  orderId := orderId
  orderUpdateId := 0
  nodes :=
    [{ nodeId := "start", sequenceId := 0, released := true, actions := startActions },
      { nodeId := "end", sequenceId := 2, released := true, actions := endActions }]
  edges :=
    [{ edgeId := "edge"
       sequenceId := 1
       released := true
       startNodeId := "start"
       endNodeId := "end"
       actions := edgeActions }]

/-- The traversal of the edge of the first order received, if it is such an order. -/
def driveContext (startActions edgeActions endActions : List Action) : TraverseEdgeContext where
  edge :=
    { edgeId := "edge"
      sequenceId := 1
      released := true
      startNodeId := "start"
      endNodeId := "end"
      actions := edgeActions }
  startNode := some
    { ref := (0, 0), nodeId := "start", sequenceId := 0, released := true, actions := startActions }
  endNode := some
    { ref := (0, 1), nodeId := "end", sequenceId := 2, released := true, actions := endActions }
  trajectory := none

end Vda5050
