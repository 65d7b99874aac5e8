import Vda5050.Types

/-!
# State of the AGV controller

The fields of the AGV controller, the contexts it hands to the adapter, and
the pure helper functions of its order and action processing.
-/

set_option autoImplicit false

namespace Vda5050

/-! ## Contexts handed to the adapter -/

/-- The scope of an action, with the node or edge it belongs to. -/
inductive ActionScope where
  | instant
  | node (node : Node)
  | edge (edge : Edge)
  deriving DecidableEq, Repr

structure ActionContext where
  action : Action
  scope : ActionScope
  stopDriving : Option Bool := none
  activeOrderId : Option String := none
  deriving DecidableEq, Repr

structure TraverseEdgeContext where
  edge : Edge
  startNode : Option Node
  endNode : Option Node
  trajectory : Option Trajectory
  deriving DecidableEq, Repr

/-- The callbacks of a `stopTraverse` invocation. Which cancelation they
belong to is recorded here, the controller itself only knows the latest one. -/
structure StopTraverseContext where
  cancelOrderContext : Option ActionContext
  deriving DecidableEq, Repr

/-! ## Partial states -/

/-- `Partial<Headerless<State>>` -/
structure PartialState where
  actionStates : Option (List ActionState) := none
  batteryState : Option BatteryState := none
  driving : Option Bool := none
  edgeStates : Option (List EdgeState) := none
  errors : Option (List StateError) := none
  lastNodeId : Option String := none
  lastNodeSequenceId : Option Nat := none
  nodeStates : Option (List NodeState) := none
  operatingMode : Option OperatingMode := none
  orderId : Option String := none
  orderUpdateId : Option Nat := none
  safetyState : Option SafetyStatus := none
  distanceSinceLastNode : Option Rat := none
  newBaseRequest : Option Bool := none
  paused : Option Bool := none
  deriving DecidableEq, Repr

/-- `_mergeState`. Properties of a cloned partial state are never `undefined`. -/
def State.merge (state : State) (newPartialState : PartialState) : State where
  actionStates := newPartialState.actionStates.getD state.actionStates
  batteryState := newPartialState.batteryState.getD state.batteryState
  driving := newPartialState.driving.getD state.driving
  edgeStates := newPartialState.edgeStates.getD state.edgeStates
  errors := newPartialState.errors.getD state.errors
  lastNodeId := newPartialState.lastNodeId.getD state.lastNodeId
  lastNodeSequenceId := newPartialState.lastNodeSequenceId.getD state.lastNodeSequenceId
  nodeStates := newPartialState.nodeStates.getD state.nodeStates
  operatingMode := newPartialState.operatingMode.getD state.operatingMode
  orderId := newPartialState.orderId.getD state.orderId
  orderUpdateId := newPartialState.orderUpdateId.getD state.orderUpdateId
  safetyState := newPartialState.safetyState.getD state.safetyState
  distanceSinceLastNode := newPartialState.distanceSinceLastNode <|> state.distanceSinceLastNode
  newBaseRequest := newPartialState.newBaseRequest <|> state.newBaseRequest
  paused := newPartialState.paused <|> state.paused

/-- `Object.assign(target, source)` -/
def PartialState.assign (target source : PartialState) : PartialState where
  actionStates := source.actionStates <|> target.actionStates
  batteryState := source.batteryState <|> target.batteryState
  driving := source.driving <|> target.driving
  edgeStates := source.edgeStates <|> target.edgeStates
  errors := source.errors <|> target.errors
  lastNodeId := source.lastNodeId <|> target.lastNodeId
  lastNodeSequenceId := source.lastNodeSequenceId <|> target.lastNodeSequenceId
  nodeStates := source.nodeStates <|> target.nodeStates
  operatingMode := source.operatingMode <|> target.operatingMode
  orderId := source.orderId <|> target.orderId
  orderUpdateId := source.orderUpdateId <|> target.orderUpdateId
  safetyState := source.safetyState <|> target.safetyState
  distanceSinceLastNode := source.distanceSinceLastNode <|> target.distanceSinceLastNode
  newBaseRequest := source.newBaseRequest <|> target.newBaseRequest
  paused := source.paused <|> target.paused

structure ActionStatusChangeInfo where
  actionStatus : ActionStatus
  resultDescription : Option String := none
  errorDescription : Option String := none
  linkedState : PartialState := {}
  deriving DecidableEq, Repr

/-! ## The controller -/

/-- The fields of class `AgvController`. The two maps count publications of
ended instant actions, by actionId, and of errored instant actions, by the
identity of the error object. -/
structure AgvController where
  currentOrder : Option Order := none
  currentState : State
  currentPausedNode : Option Node := none
  currentInstantActions : List Action := []
  instantActionsEndedPublishCount : List (String × Nat) := []
  instantActionsErroredPublishCount : List (Nat × Nat) := []
  cancelOrderContext : Option ActionContext := none
  finalInstantActionStateChangePublishCount : Nat := 5
  nextErrorRef : Nat := 0
  deriving DecidableEq, Repr

/-- `Map.set` -/
def setEntry {Key Value : Type} [DecidableEq Key] (key : Key) (value : Value)
    (entries : List (Key × Value)) : List (Key × Value) :=
  if entries.any (·.1 = key) then
    entries.map fun entry => if entry.1 = key then (key, value) else entry
  else entries ++ [(key, value)]

namespace AgvController

def isInstantActionState (agv : AgvController) (state : ActionState) : Bool :=
  agv.instantActionsEndedPublishCount.any (·.1 = state.actionId)

def hasActiveOrder (agv : AgvController) : Bool :=
  !agv.currentState.nodeStates.isEmpty ||
    !agv.currentState.edgeStates.isEmpty ||
    agv.currentState.actionStates.any fun state =>
      !agv.isInstantActionState state && !state.actionStatus.isEnded

/-- An order counts as active though none has been accepted. Reading
`currentOrder.orderId` then throws a `TypeError`. -/
def lacksCurrentOrder (agv : AgvController) : Bool :=
  agv.hasActiveOrder && agv.currentOrder.isNone

def hasCancelingOrder (agv : AgvController) : Bool :=
  agv.cancelOrderContext.isSome

def isPaused (agv : AgvController) : Bool :=
  agv.currentState.paused = some true

def isActionEnded (agv : AgvController) (action : Action) : Bool :=
  match agv.currentState.actionStates.find? (·.actionId = action.actionId) with
  | none => false
  | some state => state.actionStatus.isEnded

/-! ### Nodes and edges of an order -/

/-- The elements in front of the first one that is not released. -/
def beforeHorizon {Element : Type} (released : Element → Bool) (elements : List Element) :
    List Element :=
  match elements.findIdx? fun element => !released element with
  | none => elements
  | some currentHorizonStartIndex => elements.take currentHorizonStartIndex

/-- The last node of the base, `undefined` if the order starts with its horizon. -/
def currentBaseEnd (order : Order) : Option Node :=
  match order.nodes.findIdx? fun node => !node.released with
  | none => order.nodes.getLast?
  | some 0 => none
  | some (lastBaseIndex + 1) => order.nodes[lastBaseIndex]?

def getEdgeStartNode (order : Order) (edge : Edge) : Option Node :=
  order.nodes.find? fun node =>
    node.nodeId = edge.startNodeId && node.sequenceId + 1 = edge.sequenceId

def getEdgeEndNode (order : Order) (edge : Edge) : Option Node :=
  order.nodes.find? fun node =>
    node.nodeId = edge.endNodeId && node.sequenceId = edge.sequenceId + 1

def getTrailingEdge (order : Order) (node : Node) : Option Edge :=
  order.edges.find? fun edge =>
    edge.startNodeId = node.nodeId && edge.sequenceId = node.sequenceId + 1

/-! ### Scheduling of actions by blocking type -/

def isHard (action : Action) : Bool := action.blockingType = .hard

def isSoft (action : Action) : Bool := action.blockingType = .soft

/-- The index behind the given action, or the start if there is none. -/
def startIndex (actions : List Action) : Option Action → Nat
  | none => 0
  | some afterAction =>
      match actions.findIdx? (·.actionId = afterAction.actionId) with
      | none => 0
      | some afterIndex => afterIndex + 1

/-- The first index from `start` on whose action satisfies the test. -/
def findIndexFrom (test : Action → Bool) (start : Nat) (actions : List Action) : Option Nat :=
  ((actions.drop start).findIdx? test).map (· + start)

/-- The actions to be executed next behind a given action. -/
inductive Schedule where
  | processed
  | hard (action : Action)
  | parallel (actions : List Action) (stopDriving : Bool)
  deriving DecidableEq, Repr

/-- The common part of `_processNodeActions` and `_processEdgeActions`. -/
def scheduleAfter (actions : List Action) (afterAction : Option Action) : Schedule :=
  let start := startIndex actions afterAction
  let hardIndex := findIndexFrom isHard start actions
  let softIndex := findIndexFrom isSoft start actions
  let stopIndex := hardIndex.getD actions.length
  let stopDriving := softIndex.any (· < stopIndex)
  if stopIndex = start then
    match hardIndex.bind (actions[·]?) with
    | none => .processed
    | some action => .hard action
  else .parallel ((actions.drop start).take (stopIndex - start)) stopDriving

def getHardBlockingActionAfterParallelActions (actions : List Action) (action : Action) :
    Option Action :=
  (actions.drop (startIndex actions (some action))).find? isHard

/-- One direction of the scan of `_areParallelActionsEnded`: all actions up to
the next HARD one have ended, where only SOFT ones count if so requested. -/
def parallelActionsEnded (agv : AgvController) (softOnly : Bool) : List Action → Bool
  | [] => true
  | action :: actions =>
      if isHard action then true
      else if (!softOnly || isSoft action) && !agv.isActionEnded action then false
      else parallelActionsEnded agv softOnly actions

def areParallelActionsEnded (agv : AgvController) (actions : List Action)
    (endedAction : Action) (softOnly : Bool) : Bool :=
  match actions.findIdx? (·.actionId = endedAction.actionId) with
  | none => parallelActionsEnded agv softOnly actions
  | some actionIndex =>
      parallelActionsEnded agv softOnly (actions.take actionIndex).reverse &&
        parallelActionsEnded agv softOnly (actions.drop (actionIndex + 1))

/-- What follows the end of a node or edge action. -/
inductive Continuation where
  | processActions
  | executeHard (action : Action)
  | drive
  | wait
  deriving DecidableEq, Repr

/-- The common decision of `_updateActionStatus` for node and edge actions. -/
def continuation (agv : AgvController) (actions : List Action) (action : Action) :
    Continuation :=
  if isHard action then .processActions
  else
    match getHardBlockingActionAfterParallelActions actions action with
    | some nextHardAction =>
        if agv.areParallelActionsEnded actions action false then .executeHard nextHardAction
        else .wait
    | none =>
        if agv.areParallelActionsEnded actions action true then .drive else .wait

/-! ### States derived from an order -/

def getNodeStates (nodes : List Node) : List NodeState :=
  nodes.map fun node =>
    { nodeId := node.nodeId
      sequenceId := node.sequenceId
      released := node.released
      nodeDescription := node.nodeDescription
      nodePosition := node.nodePosition }

/-- The trajectory handler of the adapter, if present, replaces the trajectory
of the edge. -/
abbrev TrajectoryHandler := Option (Edge → Option Node → Option Node → Option Trajectory)

def getEdgeStates (trajectory : TrajectoryHandler) (order : Order) : List EdgeState :=
  order.edges.map fun edge =>
    { edgeId := edge.edgeId
      sequenceId := edge.sequenceId
      released := edge.released
      edgeDescription := edge.edgeDescription
      trajectory :=
        match trajectory with
        | none => edge.trajectory
        | some calculate =>
            calculate edge (getEdgeStartNode order edge) (getEdgeEndNode order edge) }

def getActionStates (order : Order) : List ActionState :=
  order.releasedActions.map fun action =>
    { actionId := action.actionId
      actionStatus := .waiting
      actionType := action.actionType
      actionDescription := action.actionDescription }

def getInstantActionStates (agv : AgvController) : List ActionState :=
  agv.currentState.actionStates.filter agv.isInstantActionState

def isErroredInstantAction (agv : AgvController) (error : StateError) : Bool :=
  agv.instantActionsErroredPublishCount.any (·.1 = error.ref)

def getNonOrderRejectionErrors (agv : AgvController) (shouldKeepOrderActionErrors : Bool) :
    List StateError :=
  agv.currentState.errors.filter fun error =>
    agv.isErroredInstantAction error ||
      (shouldKeepOrderActionErrors &&
        (error.error.errorReferences.getD []).any (·.referenceKey = "actionId"))

/-- `_areAllOrderActionsCanceled` -/
def areAllOrderActionsCanceled (agv : AgvController) (order : Order) : Bool :=
  (order.nodes.takeWhile (·.released)).all (fun node => node.actions.all agv.isActionEnded) &&
    (order.edges.takeWhile (·.released)).all fun edge => edge.actions.all agv.isActionEnded

/-! ### Cloning -/

/-- Error objects of a cloned state are new objects. -/
def cloneErrors (nextErrorRef : Nat) (errors : List StateError) : List StateError :=
  errors.zipIdx.map fun entry => { ref := nextErrorRef + entry.2, error := entry.1.error }

/-- `_cloneState` -/
def cloneState (agv : AgvController) (state : PartialState) : PartialState × AgvController :=
  match state.errors with
  | none => (state, agv)
  | some errors =>
      ({ state with errors := some (cloneErrors agv.nextErrorRef errors) },
        { agv with nextErrorRef := agv.nextErrorRef + errors.length })

end AgvController

end Vda5050
