import Vda5050.AgvController.Orders

/-!
# The AGV controller as a machine

The controller runs to completion on every message and callback, except that
each handler of the adapter it invokes may call back before it returns. The
machine therefore keeps the calls still to be made as a stack of frames: what
is left of a loop or of a method body when an adapter handler has been
invoked. A frame `adapter` on top says that control is inside a handler.

Besides the controller a configuration records what the adapter owes it (the
actions being executed, the edges being traversed and the pending
`stopTraverse` calls), the published states, and a log of the calls made.
-/

set_option autoImplicit false

namespace Vda5050

open AgvController

inductive Frame where
  | adapter
  | finishEdgeActions (edge : Edge) (actions : List Action)
  | nodeTraversed (node : Node) (traversedEdge : Option Edge)
  | processNodeAction (node : Node) (action : Action) (stopDriving : Bool)
  | processEdgeAction (edge : Edge) (action : Action) (stopDriving : Bool)
  | cancelOrderActions (states : List ActionState) (hasActionsToBeCanceled : Bool)
  | processInstantActionChunk (afterAction : Option Action) (skipInitialHard : Bool)
  | processInstantActions (i stopIndex : Nat) (stopDriving : Bool)
  | processInstantAction (action : Option Action) (stopDriving : Bool)
  | resumePausedNode
  deriving DecidableEq, Repr

/-- What the controller does in the course of a run, as seen from outside. -/
inductive Observation where
  | orderAccepted (mode : AcceptMode) (order : Order)
  | orderRejected (error : Error)
  | orderDiscarded
  | executeAction (context : ActionContext)
  | cancelAction (context : Option ActionContext)
  | finishEdgeAction (context : ActionContext)
  | traverseEdge (context : TraverseEdgeContext)
  | edgeTraversed (context : TraverseEdgeContext)
  | stopTraverse (context : StopTraverseContext)
  | stopped (context : StopTraverseContext) (cancelOrderContext : Option ActionContext)
  | nodeTraversed (node : Node)
  | actionStatus (context : ActionContext) (status : ActionStatus)
  | instantActionAccepted (action : Action)
  | instantActionRejected (action : Action)
  | instantActionProcessed (action : Option Action)
  | cancelOrder (context : ActionContext) (hasActiveOrder hasCancelingOrder : Bool)
  deriving DecidableEq, Repr

structure Config where
  agv : AgvController
  stack : List Frame := []
  executing : List ActionContext := []
  traversing : List TraverseEdgeContext := []
  stopping : List StopTraverseContext := []
  online : Bool := true
  inFlight : Nat := 0
  published : List State := []
  log : List Observation := []
  received : Nat := 0
  crashed : Bool := false

namespace Config

/-! ## Calls, errors and publications -/

/-- Make the given calls, in their order, before anything else. -/
def call (c : Config) (frames : List Frame) : Config :=
  { c with stack := frames ++ c.stack }

def observe (c : Config) (observation : Observation) : Config :=
  { c with log := c.log ++ [observation] }

/-- An error thrown by the controller is caught nowhere on the stack and ends
the process. -/
def throwTypeError (c : Config) : Config :=
  { c with stack := [], crashed := true }

/-- `_publishCurrentState`. A state is published as it is at the time of the
call; it is dropped while offline and refused by outbound validation if an
error in it does not conform to the schema. -/
def publishCurrentState (c : Config) : Config :=
  if c.online && c.agv.currentState.errors.all (·.error.conforms) then
    { c with published := c.published ++ [c.agv.currentState], inFlight := c.inFlight + 1 }
  else c

def mergeState (c : Config) (newPartialState : PartialState) : Config :=
  { c with agv := { c.agv with currentState := c.agv.currentState.merge newPartialState } }

/-- `_updateState` -/
def updateState (c : Config) (newPartialState : PartialState) (publishImmediately : Bool) :
    Config :=
  if publishImmediately then (c.mergeState newPartialState).publishCurrentState
  else c.mergeState newPartialState

/-- Append a new error object to the errors of the current state. -/
def addError (c : Config) (error : Error) : Config :=
  let errors := c.agv.currentState.errors ++ [{ ref := c.agv.nextErrorRef, error := error }]
  ({ c with agv := { c.agv with nextErrorRef := c.agv.nextErrorRef + 1 } }).updateState
    { errors := some errors } true

/-- Append an error of an instant action that is to be reported a limited
number of times. -/
def addInstantActionError (c : Config) (error : Error) : Config :=
  let counts := setEntry c.agv.nextErrorRef 0 c.agv.instantActionsErroredPublishCount
  ({ c with agv := { c.agv with instantActionsErroredPublishCount := counts } }).addError error

/-! ## Traversal of nodes and edges -/

/-- `_traverseEdge` -/
def traverseEdge (c : Config) (edge : Edge) : Config :=
  match c.agv.currentOrder with
  | none => c.throwTypeError
  | some order =>
      let context : TraverseEdgeContext :=
        { edge := edge
          startNode := getEdgeStartNode order edge
          endNode := getEdgeEndNode order edge
          trajectory :=
            (c.agv.currentState.edgeStates.find? fun state =>
              state.edgeId = edge.edgeId && state.sequenceId = edge.sequenceId).bind
                (·.trajectory) }
      ({ c with traversing := context :: c.traversing }.observe (.traverseEdge context)).call
        [.adapter]

/-- `_processEdgeActions` -/
def processEdgeActions (c : Config) (edge : Edge) (afterAction : Option Action) : Config :=
  match scheduleAfter edge.actions afterAction with
  | .processed => c.traverseEdge edge
  | .hard action => c.call [.processEdgeAction edge action true]
  | .parallel actions stopDriving =>
      c.call (actions.map (Frame.processEdgeAction edge · stopDriving))

/-- `_processEdge` -/
def processEdge (c : Config) (node : Node) : Config :=
  match c.agv.currentOrder with
  | none => c.throwTypeError
  | some order =>
      match getTrailingEdge order node with
      | none => c
      | some edge => if edge.released then c.processEdgeActions edge none else c

/-- `_processNodeActions` -/
def processNodeActions (c : Config) (node : Node) (afterAction : Option Action) : Config :=
  match scheduleAfter node.actions afterAction with
  | .processed => c.processEdge node
  | .hard action => c.call [.processNodeAction node action true]
  | .parallel actions stopDriving =>
      c.call (actions.map (Frame.processNodeAction node · stopDriving))

/-- The part of `_processNode` behind the termination of edge actions. -/
def nodeTraversed (c : Config) (node : Node) (traversedEdge : Option Edge) : Config :=
  let state := c.agv.currentState
  let c := c.updateState
    { nodeStates := some (state.nodeStates.filter fun s =>
        !(s.nodeId = node.nodeId && s.sequenceId = node.sequenceId))
      edgeStates := traversedEdge.map fun edge => state.edgeStates.filter fun s =>
        !(s.edgeId = edge.edgeId && s.sequenceId = edge.sequenceId)
      lastNodeId := some node.nodeId
      lastNodeSequenceId := some node.sequenceId } true
  (c.observe (.nodeTraversed node)).processNodeActions node none

/-- `_processNode` -/
def processNode (c : Config) (node : Node) (traversedEdge : Option Edge) : Config :=
  if !node.released then c
  else if c.agv.isPaused then { c with agv := { c.agv with currentPausedNode := some node } }
  else
    match traversedEdge with
    | none => c.nodeTraversed node none
    | some edge =>
        c.call [.finishEdgeActions edge edge.actions, .nodeTraversed node (some edge)]

/-- An order action handed over to the adapter by `_processNodeAction` or
`_processEdgeAction`. -/
def executeOrderAction (c : Config) (action : Action) (scope : ActionScope)
    (stopDriving : Bool) : Config :=
  match c.agv.currentOrder with
  | none => c.throwTypeError
  | some order =>
      let context : ActionContext :=
        { action := action
          scope := scope
          stopDriving := some stopDriving
          activeOrderId := some order.orderId }
      ({ c with executing := context :: c.executing }.observe (.executeAction context)).call
        [.adapter]

/-- One iteration of `_finishEdgeActions`. -/
def finishEdgeAction (c : Config) (edge : Edge) (action : Action) (actions : List Action) :
    Config :=
  if c.agv.isActionEnded action then c.call [.finishEdgeActions edge actions]
  else
    match c.agv.currentOrder with
    | none => c.throwTypeError
    | some order =>
        let context : ActionContext :=
          { action := action, scope := .edge edge, activeOrderId := some order.orderId }
        (c.observe (.finishEdgeAction context)).call
          [.adapter, .finishEdgeActions edge actions]

/-! ## Action processing -/

/-- `_onOrderActionsCanceled` -/
def onOrderActionsCanceled (c : Config) : Config :=
  let context : StopTraverseContext := ⟨c.agv.cancelOrderContext⟩
  ({ c with stopping := context :: c.stopping }.observe (.stopTraverse context)).call [.adapter]

/-- The branch of `_updateActionStatus` for an ended action of a node or edge
whose order is being canceled. -/
def orderActionCanceled (c : Config) : Config :=
  match c.agv.currentOrder with
  | none => c.throwTypeError
  | some order =>
      if c.agv.areAllOrderActionsCanceled order then c.onOrderActionsCanceled else c

/-- The branch of `_updateActionStatus` for an ended node action. -/
def nodeActionEnded (c : Config) (node : Node) (action : Action) : Config :=
  match c.agv.continuation node.actions action with
  | .processActions => c.processNodeActions node (some action)
  | .executeHard nextHardAction => c.call [.processNodeAction node nextHardAction true]
  | .drive => c.processEdge node
  | .wait => c

/-- The branch of `_updateActionStatus` for an ended edge action. -/
def edgeActionEnded (c : Config) (edge : Edge) (action : Action) : Config :=
  match c.agv.continuation edge.actions action with
  | .processActions => c.processEdgeActions edge (some action)
  | .executeHard nextHardAction => c.call [.processEdgeAction edge nextHardAction true]
  | .drive => c.traverseEdge edge
  | .wait => c

/-- `splice(actionIndex, 1)`, where index `-1` addresses the last element. -/
def spliceAction (actions : List Action) (action : Action) : List Action :=
  match actions.findIdx? (·.actionId = action.actionId) with
  | none => actions.dropLast
  | some actionIndex => actions.eraseIdx actionIndex

/-- The branch of `_updateActionStatus` for an ended instant action. -/
def instantActionEnded (c : Config) (action : Action) : Config :=
  let actions := c.agv.currentInstantActions
  let c' :=
    { c with agv := { c.agv with currentInstantActions := spliceAction actions action } }
  if isHard action then c'.call [.processInstantActionChunk none false]
  else
    match getHardBlockingActionAfterParallelActions actions action with
    | none => c'
    | some nextHardAction =>
        if c.agv.areParallelActionsEnded actions action false then
          c'.call [.processInstantAction (some nextHardAction) true]
        else c'

/-- The action state reported by `_updateActionStatus`. -/
def newActionState (context : ActionContext) (change : ActionStatusChangeInfo) : ActionState where
  actionId := context.action.actionId
  actionStatus := change.actionStatus
  actionType := context.action.actionType
  actionDescription := context.action.actionDescription
  resultDescription := change.resultDescription

def newActionStates (states : List ActionState) (state : ActionState) : List ActionState :=
  match states.findIdx? (·.actionId = state.actionId) with
  | none => states ++ [state]
  | some i => states.set i state

/-- The error reported together with a failed action, if any. -/
def actionError (context : ActionContext) (change : ActionStatusChangeInfo) : Option Error :=
  match change.actionStatus, change.errorDescription with
  | .failed, some errorDescription =>
      if errorDescription = "" then none
      else some <| createActionError context
        (match context.scope with
          | .instant => ErrorType.instantAction
          | .node _ | .edge _ => ErrorType.orderAction) errorDescription []
  | _, _ => none

/-- The state update of `_updateActionStatus`. -/
def reportActionStatus (c : Config) (context : ActionContext)
    (change : ActionStatusChangeInfo) : Config :=
  let errors := (actionError context change).map fun error =>
    c.agv.currentState.errors ++ [{ ref := c.agv.nextErrorRef, error := error }]
  let agv := { c.agv with nextErrorRef := c.agv.nextErrorRef + 1 }
  let (linkedState, agv) := agv.cloneState change.linkedState
  let states := newActionStates c.agv.currentState.actionStates (newActionState context change)
  ({ c with agv := agv }.updateState
      (PartialState.assign { actionStates := some states, errors := errors } linkedState)
      true).observe (.actionStatus context change.actionStatus)

/-- `_updateActionStatus` -/
def updateActionStatus (c : Config) (context : ActionContext)
    (change : ActionStatusChangeInfo) : Config :=
  let c := c.reportActionStatus context change
  if !change.actionStatus.isEnded then c
  else
    match context.scope with
    | .instant => c.instantActionEnded context.action
    | .node node =>
        if c.agv.hasCancelingOrder then c.orderActionCanceled
        else c.nodeActionEnded node context.action
    | .edge edge =>
        if c.agv.hasCancelingOrder then c.orderActionCanceled
        else c.edgeActionEnded edge context.action

/-! ## Cancelation -/

/-- A waiting order action becomes `FAILED` when its order is canceled. -/
def failWaitingAction (agv : AgvController) (state : ActionState) : ActionState :=
  if !agv.isInstantActionState state && state.actionStatus = .waiting then
    { state with actionStatus := .failed }
  else state

/-- The action states are updated in place, and not yet reported. -/
def failWaitingActions (agv : AgvController) : AgvController :=
  { agv with
    currentState :=
      { agv.currentState with
        actionStates := agv.currentState.actionStates.map (failWaitingAction agv) } }

/-- Enter the cancelation with waiting order actions failed. -/
def startCancelation (c : Config) (context : ActionContext) : Config :=
  { c with agv := failWaitingActions { c.agv with cancelOrderContext := some context } }

/-- `_cancelOrder` up to its loop over the actions to be canceled. -/
def cancelOrder (c : Config) (context : ActionContext) : Config :=
  let c := c.observe (.cancelOrder context c.agv.hasActiveOrder c.agv.hasCancelingOrder)
  let c := (c.startCancelation context).updateActionStatus context { actionStatus := .running }
  c.call [.cancelOrderActions c.agv.currentState.actionStates false]

/-- The context of a scheduled action of the current order, searched in the
released nodes and then in the released edges. -/
def cancelActionContext (order : Order) (actionId : String) : Option ActionContext :=
  ((order.nodes.takeWhile (·.released)).findSome? fun node =>
      (node.actions.find? (·.actionId = actionId)).map fun action =>
        { action := action, scope := .node node, activeOrderId := some order.orderId }) <|>
    (order.edges.takeWhile (·.released)).findSome? fun edge =>
      (edge.actions.find? (·.actionId = actionId)).map fun action =>
        { action := action, scope := .edge edge, activeOrderId := some order.orderId }

/-- One iteration of the loop of `_cancelOrder`. -/
def cancelOrderAction (c : Config) (state : ActionState) (states : List ActionState)
    (hasActionsToBeCanceled : Bool) : Config :=
  if !c.agv.isInstantActionState state && !state.actionStatus.isEnded then
    match c.agv.currentOrder with
    | none => c.throwTypeError
    | some order =>
        (c.observe (.cancelAction (cancelActionContext order state.actionId))).call
          [.adapter, .cancelOrderActions states true]
  else c.call [.cancelOrderActions states hasActionsToBeCanceled]

/-! ## Instant actions -/

/-- `_processInstantActionChunk`, up to its loop. -/
def processInstantActionChunk (c : Config) (afterAction : Option Action)
    (skipInitialHard : Bool) : Config :=
  let actions := c.agv.currentInstantActions
  let start := startIndex actions afterAction
  let hardIndex := findIndexFrom isHard start actions
  let softIndex := findIndexFrom isSoft start actions
  let stopIndex := hardIndex.getD actions.length
  let stopDriving := softIndex.any (· < stopIndex)
  if stopIndex = start then
    if hardIndex.isSome && !skipInitialHard then
      c.call [.processInstantAction actions[stopIndex]? true]
    else c
  else c.call [.processInstantActions start stopIndex stopDriving]

/-- `executeInstantAction` -/
def executeInstantAction (c : Config) (context : ActionContext) : Config :=
  ({ c with executing := context :: c.executing }.observe (.executeAction context)).call
    [.adapter]

/-- The context of an instant action, if its evaluation does not throw. -/
def instantActionContext (agv : AgvController) (action : Action)
    (stopDriving : Option Bool) : ActionContext where
  action := action
  scope := .instant
  stopDriving := stopDriving
  activeOrderId := if agv.hasActiveOrder then agv.currentOrder.map (·.orderId) else none

/-- `_instantActionsEndedPublishCount.set(action.actionId, 0)` -/
def resetEndedPublishCount (c : Config) (action : Action) : Config :=
  { c with
    agv :=
      { c.agv with
        instantActionsEndedPublishCount :=
          setEntry action.actionId 0 c.agv.instantActionsEndedPublishCount } }

/-- `_processInstantAction` -/
def processInstantAction (c : Config) (action : Option Action) (stopDriving : Bool) : Config :=
  let c := c.observe (.instantActionProcessed action)
  match action with
  | none => c.throwTypeError
  | some action =>
      if c.agv.lacksCurrentOrder then c.throwTypeError
      else
      let context := instantActionContext c.agv action (some stopDriving)
      let c := c.resetEndedPublishCount action
      if action.actionType = "stateRequest" then
        c.updateActionStatus context
          { actionStatus := .finished, resultDescription := some "Reported new state" }
      else if action.actionType = "cancelOrder" then c.cancelOrder context
      else c.executeInstantAction context

/-- `_checkInstantActionExecutable`: the error, if the action is not executable. -/
def checkInstantActionExecutable (agv : AgvController) (adapter : AdapterAnswers)
    (action : Action) : Option Error :=
  let context := instantActionContext agv action none
  if action.actionType = "cancelOrder" then
    let notCancelable (detail : String) :=
      createActionError context ErrorType.instantActionNoOrderToCancel
        "instant action is not executable"
        [textReference refKeyErrorDescriptionDetail detail]
    if !agv.hasActiveOrder then some (notCancelable "no active order to be canceled")
    else if agv.hasCancelingOrder then some (notCancelable "cancel order already pending")
    else none
  else
    let errorRefs := adapter.isActionExecutable context
    if errorRefs.isEmpty then none
    else some <| createActionError context ErrorType.instantAction
      "instant action is not executable" errorRefs

/-- Filter the executable actions of a message, reporting an error for each
other one, and append them to the queue. -/
def acceptInstantActions (c : Config) (adapter : AdapterAnswers) : List Action → Config
  | [] => c
  | action :: actions =>
      match checkInstantActionExecutable c.agv adapter action with
      | some error =>
          ((c.addInstantActionError error).observe (.instantActionRejected action))
            |>.acceptInstantActions adapter actions
      | none =>
          ({ c with agv :=
              { c.agv with
                currentInstantActions := c.agv.currentInstantActions ++ [action] } }.observe
            (.instantActionAccepted action)) |>.acceptInstantActions adapter actions

/-- `_processInstantActions` on a message that conforms to its schema. Checking
its actions leaves open whether an order is active, so that where the context of
one action throws, that of the first one does, before anything is changed. -/
def processInstantActions (c : Config) (message : InstantActions) (adapter : AdapterAnswers) :
    Config :=
  if !message.actions.isEmpty && c.agv.lacksCurrentOrder then c.throwTypeError
  else
  let afterAction := c.agv.currentInstantActions.getLast?
  let hasPendingHardAction := c.agv.currentInstantActions.any isHard
  let c := c.acceptInstantActions adapter message.actions
  if hasPendingHardAction then c
  else c.call [.processInstantActionChunk afterAction afterAction.isSome]

/-- `_processInstantActions` on any other payload. -/
def processInvalidInstantActions (c : Config) (payload : Json) (message : String) : Config :=
  match createInstantActionsValidationError payload ("invalid instant actions: " ++ message) with
  | .error _ => c.throwTypeError
  | .ok error => c.addInstantActionError error

/-! ## Orders -/

/-- `_rejectOrder` -/
def rejectOrder (c : Config) (error : Error) : Config :=
  (c.addError error).observe (.orderRejected error)

/-- The node objects of a received order are new objects. -/
def allocateNodes (received : Nat) (order : Order) : Order :=
  { order with
    nodes := order.nodes.mapIdx fun index node => { node with ref := (received, index) } }

/-- Let every holder of a reference to a node object see its update. Orders
are processed with nothing on the stack. -/
def replaceNode (c : Config) (updated : Node) : Config :=
  { c with
    agv :=
      { c.agv with
        currentPausedNode := c.agv.currentPausedNode.map (AgvController.replaceNode updated) }
    executing := c.executing.map (ActionContext.replaceNode updated)
    traversing := c.traversing.map (TraverseEdgeContext.replaceNode updated) }

/-- `_acceptOrder` for new orders and order updates, up to the processing of
the first node. -/
def beginOrder (c : Config) (trajectory : TrajectoryHandler) (order : Order)
    (mode : AcceptMode) : Config :=
  let accepted := c.agv.acceptedState trajectory order mode
  let c := c.observe (.orderAccepted mode order)
  ({ c with agv := { c.agv with currentOrder := some order } }).updateState accepted true

/-- `_acceptOrder` for stitching orders, up to the processing of an edge. -/
def stitchOrder (c : Config) (trajectory : TrajectoryHandler) (currentOrder : Order)
    (baseEnd : Node) (order : Order) : Config :=
  let accepted := c.agv.acceptedState trajectory order .stitch
  let c := (c.observe (.orderAccepted .stitch order)).replaceNode (stitchedBaseEnd baseEnd order)
  ({ c with
      agv :=
        { c.agv with currentOrder := some (stitchedOrder currentOrder baseEnd order) } }).updateState
    accepted true

/-- `_acceptOrder` -/
def acceptOrder (c : Config) (trajectory : TrajectoryHandler) (order : Order)
    (mode : AcceptMode) : Config :=
  match mode with
  | .new | .update =>
      let c := c.beginOrder trajectory order mode
      match order.nodes.head? with
      | none => c.throwTypeError
      | some firstNode => c.processNode firstNode none
  | .stitch =>
      match c.agv.currentOrder with
      | none => (c.observe (.orderAccepted .stitch order)).throwTypeError
      | some currentOrder =>
          match currentBaseEnd currentOrder with
          | none => (c.observe (.orderAccepted .stitch order)).throwTypeError
          | some baseEnd =>
              -- whether the base end is done is determined before the states are replaced
              let isDone := c.agv.isLastBaseNodeDone baseEnd order
              let c := c.stitchOrder trajectory currentOrder baseEnd order
              if isDone then c.processEdge (stitchedBaseEnd baseEnd order) else c

/-- `_processOrder` on an order that conforms to its schema. -/
def processOrder (c : Config) (order : Order) (adapter : AdapterAnswers) : Config :=
  let order := allocateNodes c.received order
  let c := { c with received := c.received + 1 }
  match c.agv.decideOrder adapter order with
  | .reject error => c.rejectOrder error
  | .discard => (c.updateState {} true).observe .orderDiscarded
  | .accept mode => c.acceptOrder adapter.trajectory order mode

/-- `_processOrder` on any other payload. -/
def processInvalidOrder (c : Config) (payload : Json) (message : String) : Config :=
  match createInvalidOrderError payload ("invalid order: " ++ message) with
  | .error _ => c.throwTypeError
  | .ok error => c.rejectOrder error

/-! ## Callbacks and timers -/

/-- `_updateEdgeTraversed` -/
def updateEdgeTraversed (c : Config) (context : TraverseEdgeContext) : Config :=
  if c.agv.hasCancelingOrder then c
  else
    match context.endNode with
    | none => c.throwTypeError
    | some endNode => c.processNode endNode (some context.edge)

/-- The callback `updateActionStatus` of an action context. For an instant
action `stopPause` it also resumes the processing of a paused node. -/
def updateActionStatusCallback (c : Config) (context : ActionContext)
    (change : ActionStatusChangeInfo) : Config :=
  if context.scope = .instant && context.action.actionType = "stopPause" &&
      change.actionStatus = .finished then
    (c.call [.resumePausedNode]).updateActionStatus context change
  else c.updateActionStatus context change

/-- What callback `updateActionStatus` of `stopPause` does on completion. -/
def resumePausedNode (c : Config) : Config :=
  match c.agv.currentPausedNode with
  | none => c
  | some pausedNode =>
      let c := { c with agv := { c.agv with currentPausedNode := none } }
      if c.agv.hasCancelingOrder then c else c.processNode pausedNode none

/-- The callback `stopped` of a `stopTraverse` context. -/
def stopped (c : Config) (context : StopTraverseContext) : Config :=
  let cancelOrderContext := c.agv.cancelOrderContext
  let c := c.observe (.stopped context cancelOrderContext)
  let c := { c with agv := { c.agv with cancelOrderContext := none } }
  let c := c.updateState { nodeStates := some [], edgeStates := some [] } false
  match cancelOrderContext with
  | none => c.throwTypeError
  | some cancelOrderContext =>
      c.updateActionStatus cancelOrderContext { actionStatus := .finished }

/-- The callback `drivingToNextNode` of a `stopTraverse` context. -/
def drivingToNextNode (c : Config) (nextNode : Node) : Config :=
  c.updateState
    { nodeStates := some (c.agv.currentState.nodeStates.filter fun state =>
        state.nodeId = nextNode.nodeId && state.sequenceId = nextNode.sequenceId)
      edgeStates := some [] } true

/-- `updatePartialState` and the more specific update methods. -/
def updatePartialState (c : Config) (newState : PartialState) (reportImmediately : Bool) :
    Config :=
  let (cloned, agv) := c.agv.cloneState newState
  { c with agv := agv }.updateState cloned reportImmediately

/-- `updateErrors` -/
def updateErrors (c : Config) (error : Error) (mode : UpdateMode) (reportImmediately : Bool) :
    Config :=
  match newErrors c.agv.currentState.errors error mode with
  | .error _ => c.throwTypeError
  | .ok none => c
  | .ok (some errors) => c.updatePartialState { errors := some errors } reportImmediately

/-- One more publication of a counted entry: `none` if it was the last one. -/
def countPublication (limit count : Nat) : Option Nat :=
  if limit ≤ count + 1 then none else some (count + 1)

/-- `_cleanupInstantActionStates` -/
def cleanupInstantActionStates (c : Config) : Config :=
  let agv := c.agv
  let limit := agv.finalInstantActionStateChangePublishCount
  let isReported (entry : Nat × Nat) : Bool :=
    agv.currentState.errors.any (·.ref = entry.1)
  let isEnded (entry : String × Nat) : Bool :=
    (agv.currentState.actionStates.find? (·.actionId = entry.1)).any (·.actionStatus.isEnded)
  let errorsToRemove := agv.instantActionsErroredPublishCount.filter fun entry =>
    isReported entry && (countPublication limit entry.2).isNone
  let actionsToRemove := agv.instantActionsEndedPublishCount.filter fun entry =>
    isEnded entry && (countPublication limit entry.2).isNone
  { c with
    agv :=
      { agv with
        instantActionsErroredPublishCount :=
          agv.instantActionsErroredPublishCount.filterMap fun entry =>
            if isReported entry then (countPublication limit entry.2).map (entry.1, ·)
            else some entry
        instantActionsEndedPublishCount :=
          agv.instantActionsEndedPublishCount.filterMap fun entry =>
            if isEnded entry then (countPublication limit entry.2).map (entry.1, ·)
            else some entry
        currentState :=
          { agv.currentState with
            errors := agv.currentState.errors.filter fun error =>
              !errorsToRemove.any (·.1 = error.ref)
            actionStates := agv.currentState.actionStates.filter fun state =>
              !actionsToRemove.any (·.1 = state.actionId) } } }

/-! ## Steps -/

/-- Continue with the topmost pending call. -/
def resume (c : Config) (frame : Frame) : Config :=
  match frame with
  | .adapter => c
  | .finishEdgeActions _ [] => c
  | .finishEdgeActions edge (action :: actions) => c.finishEdgeAction edge action actions
  | .nodeTraversed node traversedEdge => c.nodeTraversed node traversedEdge
  | .processNodeAction node action stopDriving =>
      c.executeOrderAction action (.node node) stopDriving
  | .processEdgeAction edge action stopDriving =>
      c.executeOrderAction action (.edge edge) stopDriving
  | .cancelOrderActions [] hasActionsToBeCanceled =>
      if hasActionsToBeCanceled then c else c.onOrderActionsCanceled
  | .cancelOrderActions (state :: states) hasActionsToBeCanceled =>
      c.cancelOrderAction state states hasActionsToBeCanceled
  | .processInstantActionChunk afterAction skipInitialHard =>
      c.processInstantActionChunk afterAction skipInitialHard
  | .processInstantActions i stopIndex stopDriving =>
      if i < stopIndex then
        (c.call [.processInstantActions (i + 1) stopIndex stopDriving]).processInstantAction
          c.agv.currentInstantActions[i]? stopDriving
      else c
  | .processInstantAction action stopDriving => c.processInstantAction action stopDriving
  | .resumePausedNode => c.resumePausedNode

end Config

/-- What happens next: the controller or the adapter proceeds, a message
arrives, the adapter calls back, or a timer or publication completes. -/
inductive Event where
  | proceed
  | order (order : Order) (adapter : AdapterAnswers)
  | invalidOrder (payload : Json) (message : String)
  | instantActions (message : InstantActions) (adapter : AdapterAnswers)
  | invalidInstantActions (payload : Json) (message : String)
  | updateActionStatus (context : ActionContext) (change : ActionStatusChangeInfo)
  | edgeTraversed (context : TraverseEdgeContext)
  | stopped (context : StopTraverseContext)
  | drivingToNextNode (nextNode : Node)
  | updatePartialState (newState : PartialState) (reportImmediately : Bool)
  | updateErrors (error : Error) (mode : UpdateMode) (reportImmediately : Bool)
  | publishTimer
  | published (succeeded : Bool)
  | connection (online : Bool)

namespace Config

/-- The adapter may call back while one of its handlers runs, or at any time
when the controller is idle. -/
def adapterMayCall (c : Config) : Bool :=
  !c.crashed &&
    match c.stack with
    | [] | .adapter :: _ => true
    | _ => false

/-- No call of the controller is on the stack. -/
def isIdle (c : Config) : Bool := !c.crashed && c.stack.isEmpty

/-- The adapter reports the status of an action it executes. -/
def adapterReports (c : Config) (context : ActionContext) (change : ActionStatusChangeInfo) :
    Config :=
  let executing :=
    if change.actionStatus.isEnded then c.executing.erase context else c.executing
  ({ c with executing := executing }).updateActionStatusCallback context change

/-- Whether an event can occur. -/
def enabled (c : Config) : Event → Bool
  | .proceed => !c.stack.isEmpty
  | .order .. | .invalidOrder .. | .instantActions .. | .invalidInstantActions .. |
    .publishTimer | .connection _ => c.isIdle
  | .published _ => c.isIdle && 0 < c.inFlight
  | .updateActionStatus .. | .edgeTraversed _ | .stopped _ | .drivingToNextNode _ |
    .updatePartialState .. | .updateErrors .. => c.adapterMayCall

/-- Make the topmost pending call. -/
def proceed (c : Config) : Config :=
  match c.stack with
  | [] => c
  | frame :: stack => { c with stack := stack }.resume frame

def perform (c : Config) : Event → Config
  | .proceed => c.proceed
  | .order order adapter => c.processOrder order adapter
  | .invalidOrder payload message => c.processInvalidOrder payload message
  | .instantActions message adapter => c.processInstantActions message adapter
  | .invalidInstantActions payload message => c.processInvalidInstantActions payload message
  | .updateActionStatus context change => c.adapterReports context change
  | .edgeTraversed context =>
      ({ c with traversing := c.traversing.erase context }.observe
        (.edgeTraversed context)).updateEdgeTraversed context
  | .stopped context => { c with stopping := c.stopping.erase context }.stopped context
  | .drivingToNextNode nextNode => c.drivingToNextNode nextNode
  | .updatePartialState newState reportImmediately =>
      c.updatePartialState newState reportImmediately
  | .updateErrors error mode reportImmediately => c.updateErrors error mode reportImmediately
  | .publishTimer => c.publishCurrentState
  | .published succeeded =>
      let c := { c with inFlight := c.inFlight - 1 }
      if succeeded then c.cleanupInstantActionStates else c
  | .connection online =>
      if online && !c.online then { c with online := true }.publishCurrentState
      else { c with online := online }

/-- One step of the machine, `none` if the event cannot occur. -/
def step (c : Config) (event : Event) : Option Config :=
  if c.enabled event then some (c.perform event) else none

theorem step_eq_some {c next : Config} {event : Event} :
    c.step event = some next ↔ c.enabled event ∧ c.perform event = next := by
  simp [step]

end Config

/-- The controller before its adapter has been attached. -/
def AgvController.initial (finalInstantActionStateChangePublishCount : Nat) : AgvController where
  currentState :=
    { actionStates := []
      batteryState := { batteryCharge := 4 / 5, charging := false }
      driving := false
      edgeStates := []
      errors := []
      lastNodeId := ""
      lastNodeSequenceId := 0
      nodeStates := []
      operatingMode := .automatic
      orderId := ""
      orderUpdateId := 0
      safetyState := { eStop := .none, fieldViolation := false } }
  finalInstantActionStateChangePublishCount := max 1 finalInstantActionStateChangePublishCount

def Config.initial (finalInstantActionStateChangePublishCount : Nat) : Config where
  agv := AgvController.initial finalInstantActionStateChangePublishCount

end Vda5050
