import Vda5050.AgvController.Errors

/-!
# Order validation and acceptance

The checks `_processOrder` makes on a received order, in their order, and the
changes an accepted order makes to the current order and state.
-/

set_option autoImplicit false

namespace Vda5050

namespace AgvController

/-! ## Validation -/

/-- The loop of `_validateOrderConstraints` over the nodes from index `i` on.
Returns the index of the first horizon node, `none` for `-1`. -/
def validateNodes (i : Nat) (previous : Option Node) (isBase : Bool)
    (firstHorizonIndex : Option Nat) : List Node → Except String (Option Nat)
  | [] => .ok firstHorizonIndex
  | node :: nodes =>
      let invalidSequenceId : Bool :=
        match previous with
        | none => node.sequenceId % 2 ≠ 0
        | some previous => node.sequenceId ≠ previous.sequenceId + 2
      if invalidSequenceId then .error "Order contains node with invalid sequenceId"
      else if isBase then
        if node.released then validateNodes (i + 1) (some node) true firstHorizonIndex nodes
        else validateNodes (i + 1) (some node) false (some i) nodes
      else if node.released then .error "Incorrect sequence of base-horizon nodes"
      else validateNodes (i + 1) (some node) false firstHorizonIndex nodes

/-- The loop of `_validateOrderConstraints` over the edges from index `i` on,
next to the nodes from the same index on. -/
def validateEdges (firstHorizonIndex : Option Nat) (i : Nat) (isBase : Bool) :
    List Edge → List Node → Except String Unit
  | edge :: edges, startNode :: endNode :: nodes =>
      if edge.sequenceId ≠ startNode.sequenceId + 1 then
        .error "Order contains edge with invalid sequenceId"
      else if isBase && !edge.released && firstHorizonIndex ≠ some (i + 1) then
        .error "Incorrect sequence of base-horizon edges"
      else if !isBase && edge.released then
        .error "Incorrect sequence of base-horizon edges"
      else if edge.startNodeId ≠ startNode.nodeId || edge.endNodeId ≠ endNode.nodeId then
        .error "An edge doesn't have proper start and/or end nodes"
      else validateEdges firstHorizonIndex (i + 1) (isBase && edge.released) edges
        (endNode :: nodes)
  | _, _ => .ok ()

def validateOrderConstraints (order : Order) : Except String Unit :=
  if order.nodes.head?.all (!·.released) then
    .error "Order must contain at least one base node"
  else do
    let firstHorizonIndex ← validateNodes 0 none true none order.nodes
    if order.edges.length + 1 ≠ order.nodes.length then
      throw "Incompatible sequence of nodes and edges"
    validateEdges firstHorizonIndex 0 true order.edges order.nodes

/-! ## Checks by the adapter -/

/-- What the query handlers of the adapter answer while one message is
processed. They are synchronous checks, which neither call back nor throw. -/
structure AdapterAnswers where
  isActionExecutable : ActionContext → List ErrorReference := fun _ => []
  isNodeWithinDeviationRange : Node → List ErrorReference := fun _ => []
  isRouteTraversable : List Node → List Edge → List ErrorReference := fun _ _ => []
  trajectory : TrajectoryHandler := none

/-- `_checkRouteTraversable`: the rejection error, if any. -/
def checkRouteTraversable (adapter : AdapterAnswers) (order : Order) : Option Error :=
  let errorRefs := adapter.isRouteTraversable order.nodes order.edges
  if errorRefs.isEmpty then none
  else some (createOrderError order ErrorType.orderNoRoute "order route is not traversable" errorRefs)

/-- The contexts of all node and edge actions, in the order they are checked. -/
def orderActionContexts (order : Order) : List ActionContext :=
  (order.nodes.flatMap fun node => node.actions.map fun action =>
      { action := action, scope := .node node, activeOrderId := some order.orderId }) ++
    order.edges.flatMap fun edge => edge.actions.map fun action =>
      { action := action, scope := .edge edge, activeOrderId := some order.orderId }

/-- `_checkOrderActionsExecutable`: the error on the first action that is not
executable, if any. -/
def checkOrderActionsExecutable (adapter : AdapterAnswers) (order : Order) : Option Error :=
  (orderActionContexts order).findSome? fun context =>
    let errorRefs := adapter.isActionExecutable context
    if errorRefs.isEmpty then none
    else some <| createOrderError order ErrorType.order "order action is not executable"
      (textReference "actionId" context.action.actionId ::
        textReference "actionType" context.action.actionType :: errorRefs)

/-- `_checkNodeWithinDeviationRange`: the rejection error, if any. -/
def checkNodeWithinDeviationRange (adapter : AdapterAnswers) (order : Order) : Option Error :=
  order.nodes.head?.bind fun firstNode =>
    let errorRefs := adapter.isNodeWithinDeviationRange firstNode
    if errorRefs.isEmpty then none
    else some <| createOrderError order ErrorType.orderNoRoute
      "first node of new order not within deviation range"
      (textReference "nodeId" firstNode.nodeId :: errorRefs)

/-- The vehicle states that prohibit order execution. -/
def checkVehicleState (state : State) (order : Order) : Option Error :=
  if state.batteryState.charging then
    some <| createOrderError order ErrorType.order "order is not executable while charging"
      [textReference "batteryState.charging" "true"]
  else if state.safetyState.eStop ≠ .none then
    some <| createOrderError order ErrorType.order
      "order is not executable as emergency stop is active"
      [textReference "safetyState.eStop" state.safetyState.eStop.text]
  else if state.safetyState.fieldViolation then
    some <| createOrderError order ErrorType.order
      "order is not executable due to protective field violation"
      [textReference "safetyState.fieldViolation" "true"]
  else if state.operatingMode ≠ .automatic && state.operatingMode ≠ .semiautomatic then
    some <| createOrderError order ErrorType.order
      "order is not executable due to operating mode"
      [textReference "operatingMode" state.operatingMode.text]
  else none

/-! ## The decision on an order -/

/-- `_isOrderBaseStitching` -/
def isOrderBaseStitching (agv : AgvController) (order : Order) : Bool :=
  match agv.currentOrder.bind currentBaseEnd, order.nodes.head? with
  | some baseEnd, some newBaseStart =>
      baseEnd.nodeId = newBaseStart.nodeId && baseEnd.sequenceId = newBaseStart.sequenceId
  | _, _ => false

/-- `_isOrderUpdateBaseStitching` -/
def isOrderUpdateBaseStitching (agv : AgvController) (order : Order) : Bool :=
  order.nodes.head?.any fun newBaseStart =>
    newBaseStart.nodeId = agv.currentState.lastNodeId &&
      newBaseStart.sequenceId = agv.currentState.lastNodeSequenceId

inductive AcceptMode where
  | new
  | stitch
  | update
  deriving DecidableEq, Repr

inductive OrderDecision where
  | reject (error : Error)
  | discard
  | accept (mode : AcceptMode)
  deriving DecidableEq, Repr

def decideStitching (agv : AgvController) (order : Order) : OrderDecision :=
  if agv.isOrderBaseStitching order then .accept .stitch
  else .reject <| createOrderError order ErrorType.orderUpdate
    "stitching order base not extending active order base" []

/-- The last part of `_processOrder`, on an order the vehicle could execute. -/
def decideMode (agv : AgvController) (adapter : AdapterAnswers) (order : Order) :
    OrderDecision :=
  match agv.currentOrder.filter (·.orderId = order.orderId) with
  | some currentOrder =>
      if order.orderUpdateId < currentOrder.orderUpdateId then
        .reject <| createOrderError order ErrorType.orderUpdate "invalid orderUpdateId" []
      else if order.orderUpdateId = currentOrder.orderUpdateId then .discard
      else if agv.hasActiveOrder then agv.decideStitching order
      else if agv.isOrderUpdateBaseStitching order then .accept .update
      else .reject <| createOrderError order ErrorType.orderUpdate
        "order update base not extending current order base" []
  | none =>
      if agv.hasActiveOrder then agv.decideStitching order
      else
        match checkNodeWithinDeviationRange adapter order with
        | some error => .reject error
        | none => .accept .new

/-- What `_processOrder` does with an order that conforms to its schema. -/
def decideOrder (agv : AgvController) (adapter : AdapterAnswers) (order : Order) :
    OrderDecision :=
  match validateOrderConstraints order with
  | .error message => .reject <| createOrderError order ErrorType.orderValidation
      ("invalid order: Error: " ++ message) []
  | .ok () =>
      if agv.hasCancelingOrder then
        .reject <| createOrderError order ErrorType.order "active order is being canceled" []
      else
        match checkRouteTraversable adapter order <|>
            checkOrderActionsExecutable adapter order <|>
            checkVehicleState agv.currentState order with
        | some error => .reject error
        | none => agv.decideMode adapter order

/-! ## Accepting an order -/

/-- The base end node with the actions of the first node of the stitching
order appended. -/
def stitchedBaseEnd (baseEnd : Node) (order : Order) : Node :=
  { baseEnd with
    actions := baseEnd.actions ++ (order.nodes.head?.map (·.actions)).getD [] }

/-- Replace an updated node object wherever it is referenced. -/
def replaceNode (updated node : Node) : Node :=
  if node.ref = updated.ref then updated else node

/-- The current order after stitching the given order to its base. -/
def stitchedOrder (currentOrder : Order) (baseEnd : Node) (order : Order) : Order :=
  { currentOrder with
    orderId := order.orderId
    orderUpdateId := order.orderUpdateId
    zoneSetId := order.zoneSetId
    nodes := (beforeHorizon (·.released) currentOrder.nodes).map
        (replaceNode (stitchedBaseEnd baseEnd order)) ++ order.nodes.tail
    edges := beforeHorizon (·.released) currentOrder.edges ++ order.edges }

/-- The partial state reported on acceptance of an order, where `agv` is the
controller before acceptance. The update mode reports no `orderId`. -/
def acceptedState (agv : AgvController) (trajectory : TrajectoryHandler) (order : Order) :
    AcceptMode → PartialState
  | .new =>
      { orderId := some order.orderId
        orderUpdateId := some order.orderUpdateId
        errors := some (agv.getNonOrderRejectionErrors false)
        nodeStates := some (getNodeStates order.nodes)
        edgeStates := some (getEdgeStates trajectory order)
        actionStates := some (agv.getInstantActionStates ++ getActionStates order) }
  | .update =>
      { orderUpdateId := some order.orderUpdateId
        errors := some (agv.getNonOrderRejectionErrors false)
        nodeStates := some (getNodeStates order.nodes)
        edgeStates := some (getEdgeStates trajectory order)
        actionStates := some (agv.getInstantActionStates ++ getActionStates order) }
  | .stitch =>
      { orderId := some order.orderId
        orderUpdateId := some order.orderUpdateId
        errors := some (agv.getNonOrderRejectionErrors true)
        nodeStates := some (agv.currentState.nodeStates.filter (·.released) ++
          getNodeStates order.nodes.tail)
        edgeStates := some (agv.currentState.edgeStates.filter (·.released) ++
          getEdgeStates trajectory order)
        actionStates := some (agv.currentState.actionStates ++ getActionStates order) }

/-- Whether stitching has to trigger the first stitched edge: the last base
node has been processed and all its actions, those stitched included, have
ended. -/
def isLastBaseNodeDone (agv : AgvController) (baseEnd : Node) (order : Order) : Bool :=
  !agv.currentState.nodeStates.any (fun state =>
      state.nodeId = baseEnd.nodeId && state.sequenceId = baseEnd.sequenceId) &&
    (stitchedBaseEnd baseEnd order).actions.all agv.isActionEnded

end AgvController

def ActionContext.replaceNode (updated : Node) (context : ActionContext) : ActionContext :=
  match context.scope with
  | .node node => { context with scope := .node (AgvController.replaceNode updated node) }
  | .instant | .edge _ => context

def TraverseEdgeContext.replaceNode (updated : Node) (context : TraverseEdgeContext) :
    TraverseEdgeContext :=
  { context with
    startNode := context.startNode.map (AgvController.replaceNode updated)
    endNode := context.endNode.map (AgvController.replaceNode updated) }

end Vda5050
