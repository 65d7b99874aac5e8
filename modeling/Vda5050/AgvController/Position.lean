import Vda5050.AgvController.Stitching

/-!
# The position of the vehicle in its order

The part of the controller that says which order is active, what is left of
it, and whether a node is parked, as a machine of its own: what every event
does to it, whatever else the controller does.
-/

set_option autoImplicit false

namespace Vda5050

open AgvController

structure Position where
  currentOrder : Option Order
  orderId : String
  orderUpdateId : Nat
  nodeStates : List NodeState
  edgeStates : List EdgeState
  currentPausedNode : Option Node
  paused : Option Bool
  deriving DecidableEq, Repr

def AgvController.position (agv : AgvController) : Position where
  currentOrder := agv.currentOrder
  orderId := agv.currentState.orderId
  orderUpdateId := agv.currentState.orderUpdateId
  nodeStates := agv.currentState.nodeStates
  edgeStates := agv.currentState.edgeStates
  currentPausedNode := agv.currentPausedNode
  paused := agv.currentState.paused

namespace Position

/-- A partial state is merged into the current one. -/
def supply (position : Position) (state : PartialState) : Position :=
  { position with
    orderId := state.orderId.getD position.orderId
    orderUpdateId := state.orderUpdateId.getD position.orderUpdateId
    nodeStates := state.nodeStates.getD position.nodeStates
    edgeStates := state.edgeStates.getD position.edgeStates
    paused := state.paused <|> position.paused }

/-- The states of a traversed node and of the edge leading to it are removed. -/
def traverse (position : Position) (node : Node) (traversedEdge : Option Edge) : Position :=
  { position with
    nodeStates := position.nodeStates.filter fun s =>
      !(s.nodeId = node.nodeId && s.sequenceId = node.sequenceId)
    edgeStates :=
      match traversedEdge with
      | none => position.edgeStates
      | some edge => position.edgeStates.filter fun s =>
          !(s.edgeId = edge.edgeId && s.sequenceId = edge.sequenceId) }

/-- The vehicle arrives at a node. The node is traversed at once if there are
no edge actions to be terminated before. -/
def arrive (position : Position) (node : Node) (traversedEdge : Option Edge) : Position :=
  if !node.released then position
  else if position.paused = some true then { position with currentPausedNode := some node }
  else
    match traversedEdge with
    | none => position.traverse node none
    | some _ => position

/-- The parked node is resumed, unless its order is being canceled. -/
def resume (position : Position) (canceling : Bool) : Position :=
  match position.currentPausedNode with
  | none => position
  | some pausedNode =>
      let position := { position with currentPausedNode := none }
      if canceling then position else position.arrive pausedNode none

/-- Another order takes the place of the current one. -/
def beginOrder (position : Position) (trajectory : TrajectoryHandler) (order : Order)
    (orderId : String) : Position :=
  { position with
    currentOrder := some order
    orderId := orderId
    orderUpdateId := order.orderUpdateId
    nodeStates := getNodeStates order.nodes
    edgeStates := getEdgeStates trajectory order }

/-- An order is stitched to the base end of the current one. -/
def stitch (position : Position) (trajectory : TrajectoryHandler) (currentOrder : Order)
    (baseEnd : Node) (order : Order) : Position :=
  { position with
    currentOrder := some (stitchedOrder currentOrder baseEnd order)
    orderId := order.orderId
    orderUpdateId := order.orderUpdateId
    nodeStates := position.nodeStates.filter (·.released) ++ getNodeStates order.nodes.tail
    edgeStates := position.edgeStates.filter (·.released) ++ getEdgeStates trajectory order
    currentPausedNode :=
      position.currentPausedNode.map (replaceNode (stitchedBaseEnd baseEnd order)) }

/-- An order is accepted. -/
def accept (position : Position) (trajectory : TrajectoryHandler) (order : Order) :
    AcceptMode → Position
  | .new =>
      let position := position.beginOrder trajectory order order.orderId
      match order.nodes.head? with
      | none => position
      | some firstNode => position.arrive firstNode none
  | .update =>
      let position := position.beginOrder trajectory order position.orderId
      match order.nodes.head? with
      | none => position
      | some firstNode => position.arrive firstNode none
  | .stitch =>
      match position.currentOrder with
      | none => position
      | some currentOrder =>
          match currentBaseEnd currentOrder with
          | none => position
          | some baseEnd => position.stitch trajectory currentOrder baseEnd order

end Position

private theorem AgvController.position_merge (agv : AgvController) (state : PartialState) :
    { agv with currentState := agv.currentState.merge state }.position =
      agv.position.supply state := rfl

namespace Position

private theorem supply_none (position : Position) {state : PartialState}
    (orderId : state.orderId = none)
    (orderUpdateId : state.orderUpdateId = none) (nodeStates : state.nodeStates = none)
    (edgeStates : state.edgeStates = none) (paused : state.paused = none) :
    position.supply state = position := by
  simp [supply, orderId, orderUpdateId, nodeStates, edgeStates, paused]

/-- What is supplied besides errors and action states decides. -/
private theorem supply_congr (position : Position) {state other : PartialState}
    (orderId : state.orderId = other.orderId)
    (orderUpdateId : state.orderUpdateId = other.orderUpdateId)
    (nodeStates : state.nodeStates = other.nodeStates)
    (edgeStates : state.edgeStates = other.edgeStates)
    (paused : state.paused = other.paused) : position.supply state = position.supply other := by
  simp [supply, orderId, orderUpdateId, nodeStates, edgeStates, paused]

end Position

namespace Config

variable (c : Config)

def position (c : Config) : Position := c.agv.position

/-- The position after the topmost pending call. -/
def proceedPosition (c : Config) : Position :=
  match c.stack with
  | .nodeTraversed node traversedEdge :: _ => c.position.traverse node traversedEdge
  | .resumePausedNode :: _ => c.position.resume c.agv.hasCancelingOrder
  | _ => c.position

/-- The position after an order has been decided on. -/
def orderPosition (c : Config) (order : Order) (adapter : AdapterAnswers) : Position :=
  let order := allocateNodes c.received order
  match c.agv.decideOrder adapter order with
  | .reject _ | .discard => c.position
  | .accept mode => c.position.accept adapter.trajectory order mode

/-- The position after an event. -/
def nextPosition (c : Config) : Event → Position
  | .proceed => c.proceedPosition
  | .order order adapter => c.orderPosition order adapter
  | .updateActionStatus _ change => c.position.supply change.linkedState
  | .edgeTraversed context =>
      if c.agv.hasCancelingOrder then c.position
      else
        match context.endNode with
        | none => c.position
        | some endNode => c.position.arrive endNode (some context.edge)
  | .stopped _ => { c.position with nodeStates := [], edgeStates := [] }
  | .drivingToNextNode nextNode =>
      { c.position with
        nodeStates := c.position.nodeStates.filter fun state =>
          state.nodeId = nextNode.nodeId && state.sequenceId = nextNode.sequenceId
        edgeStates := [] }
  | .updatePartialState newState _ => c.position.supply newState
  | _ => c.position

/-! ## Steps that do not concern the position -/

private theorem updateState_position (state : PartialState) (publishImmediately : Bool) :
    (c.updateState state publishImmediately).position = c.position.supply state := by
  unfold position
  rw [updateState_agv, AgvController.position_merge]

private theorem publishCurrentState_position : c.publishCurrentState.position = c.position := by
  unfold position
  rw [publishCurrentState_agv]

private theorem addError_position (error : Error) : (c.addError error).position = c.position :=
  (updateState_position _ _ _).trans (Position.supply_none _ rfl rfl rfl rfl rfl)

private theorem rejectOrder_position (error : Error) :
    (c.rejectOrder error).position = c.position :=
  addError_position c error

private theorem addInstantActionError_position (error : Error) :
    (c.addInstantActionError error).position = c.position :=
  addError_position _ error

theorem reportActionStatus_position (context : ActionContext) (change : ActionStatusChangeInfo) :
    (c.reportActionStatus context change).position = c.position.supply change.linkedState := by
  simp only [reportActionStatus, observe, position, updateState_agv]
  rw [cloneState_fst, cloneState_snd, AgvController.position_merge]
  apply Position.supply_congr <;> simp [PartialState.assign]

private theorem processEdgeActions_agv (edge : Edge) (afterAction : Option Action) :
    (c.processEdgeActions edge afterAction).agv = c.agv := by
  unfold processEdgeActions
  cases scheduleAfter edge.actions afterAction with
  | processed => exact traverseEdge_agv c edge
  | hard action => rfl
  | parallel actions stopDriving => rfl

private theorem processNodeActions_agv (node : Node) (afterAction : Option Action) :
    (c.processNodeActions node afterAction).agv = c.agv := by
  unfold processNodeActions
  cases scheduleAfter node.actions afterAction with
  | processed => exact processEdge_agv c node
  | hard action => rfl
  | parallel actions stopDriving => rfl

private theorem orderActionCanceled_agv : c.orderActionCanceled.agv = c.agv := by
  unfold orderActionCanceled
  cases c.agv.currentOrder with
  | none => rfl
  | some order =>
      dsimp only
      split <;> rfl

private theorem nodeActionEnded_agv (node : Node) (action : Action) :
    (c.nodeActionEnded node action).agv = c.agv := by
  unfold nodeActionEnded
  cases c.agv.continuation node.actions action with
  | processActions => exact processNodeActions_agv c node _
  | executeHard nextHardAction => rfl
  | drive => exact processEdge_agv c node
  | wait => rfl

private theorem edgeActionEnded_agv (edge : Edge) (action : Action) :
    (c.edgeActionEnded edge action).agv = c.agv := by
  unfold edgeActionEnded
  cases c.agv.continuation edge.actions action with
  | processActions => exact processEdgeActions_agv c edge _
  | executeHard nextHardAction => rfl
  | drive => exact traverseEdge_agv c edge
  | wait => rfl

private theorem instantActionEnded_position (action : Action) :
    (c.instantActionEnded action).position = c.position := by
  obtain ⟨frames, same, -⟩ := instantActionEnded_eq c action
  rw [same]
  rfl

private theorem updateActionStatus_position (context : ActionContext)
    (change : ActionStatusChangeInfo) :
    (c.updateActionStatus context change).position = c.position.supply change.linkedState := by
  rw [← reportActionStatus_position c context change]
  unfold updateActionStatus
  dsimp only
  split
  · rfl
  · cases context.scope with
    | instant => exact instantActionEnded_position _ _
    | node node =>
        dsimp only
        split
        · exact congrArg AgvController.position (orderActionCanceled_agv _)
        · exact congrArg AgvController.position (nodeActionEnded_agv _ _ _)
    | edge edge =>
        dsimp only
        split
        · exact congrArg AgvController.position (orderActionCanceled_agv _)
        · exact congrArg AgvController.position (edgeActionEnded_agv _ _ _)

private theorem cancelOrder_position (context : ActionContext) :
    (c.cancelOrder context).position = c.position :=
  (updateActionStatus_position _ _ _).trans (Position.supply_none _ rfl rfl rfl rfl rfl)

private theorem processInstantAction_position (action : Option Action) (stopDriving : Bool) :
    (c.processInstantAction action stopDriving).position = c.position := by
  unfold processInstantAction
  cases action with
  | none => rfl
  | some action =>
      dsimp only
      split
      · rfl
      split
      · exact (updateActionStatus_position _ _ _).trans (Position.supply_none _ rfl rfl rfl rfl rfl)
      · split
        · exact cancelOrder_position _ _
        · rfl

private theorem processInstantActionChunk_position (afterAction : Option Action)
    (skipInitialHard : Bool) :
    (c.processInstantActionChunk afterAction skipInitialHard).position = c.position := by
  unfold processInstantActionChunk
  dsimp only
  split
  · split <;> rfl
  · rfl

private theorem cancelOrderAction_position (state : ActionState) (states : List ActionState)
    (hasActionsToBeCanceled : Bool) :
    (c.cancelOrderAction state states hasActionsToBeCanceled).position = c.position := by
  unfold cancelOrderAction
  split
  · cases c.agv.currentOrder <;> rfl
  · rfl

private theorem executeOrderAction_position (action : Action) (scope : ActionScope)
    (stopDriving : Bool) :
    (c.executeOrderAction action scope stopDriving).position = c.position := by
  unfold executeOrderAction
  cases c.agv.currentOrder <;> rfl

private theorem finishEdgeAction_position (edge : Edge) (action : Action) (actions : List Action) :
    (c.finishEdgeAction edge action actions).position = c.position := by
  unfold finishEdgeAction
  split
  · rfl
  · cases c.agv.currentOrder <;> rfl

private theorem acceptInstantActions_position (adapter : AdapterAnswers) (actions : List Action) :
    (c.acceptInstantActions adapter actions).position = c.position := by
  obtain ⟨_, _, _, _, _, same, ⟨_, _, _, rfl⟩, -, -, -⟩ := acceptInstantActions_eq c adapter actions
  rw [same]
  rfl

theorem updatePartialState_position (newState : PartialState) (reportImmediately : Bool) :
    (c.updatePartialState newState reportImmediately).position = c.position.supply newState := by
  simp only [updatePartialState, position, updateState_agv]
  rw [cloneState_fst, cloneState_snd, AgvController.position_merge]
  rfl

/-! ## Arrivals -/

private theorem nodeTraversed_position (node : Node) (traversedEdge : Option Edge) :
    (c.nodeTraversed node traversedEdge).position = c.position.traverse node traversedEdge := by
  unfold nodeTraversed position
  dsimp only
  rw [processNodeActions_agv]
  simp only [observe, updateState_agv]
  cases traversedEdge <;> rfl

private theorem processNode_position (node : Node) (traversedEdge : Option Edge) :
    (c.processNode node traversedEdge).position = c.position.arrive node traversedEdge := by
  unfold processNode Position.arrive
  split
  · rfl
  · by_cases paused : c.position.paused = some true
    · have parked : c.agv.isPaused := decide_eq_true paused
      rw [if_pos parked, if_pos paused]
      rfl
    · have moving : ¬ c.agv.isPaused = true := fun parked => paused (of_decide_eq_true parked)
      rw [if_neg moving, if_neg paused]
      cases traversedEdge with
      | none => exact nodeTraversed_position c node none
      | some edge => rfl

private theorem resumePausedNode_position :
    c.resumePausedNode.position = c.position.resume c.agv.hasCancelingOrder := by
  unfold resumePausedNode Position.resume
  have same : c.position.currentPausedNode = c.agv.currentPausedNode := rfl
  rw [same]
  cases c.agv.currentPausedNode with
  | none => rfl
  | some pausedNode =>
      dsimp only
      have sameCanceling :
          ({ c.agv with currentPausedNode := none } : AgvController).hasCancelingOrder =
            c.agv.hasCancelingOrder := rfl
      rw [sameCanceling]
      split
      · rfl
      · exact processNode_position _ pausedNode none

/-! ## Acceptance of an order -/

private theorem beginOrder_position (trajectory : TrajectoryHandler) (order : Order) :
    (c.beginOrder trajectory order .new).position =
        c.position.beginOrder trajectory order order.orderId ∧
      (c.beginOrder trajectory order .update).position =
        c.position.beginOrder trajectory order c.position.orderId := by
  constructor
  all_goals
    unfold beginOrder
    dsimp only
    rw [updateState_position]
    simp [Position.supply, Position.beginOrder, acceptedState, observe, position,
      AgvController.position]

private theorem acceptOrder_position (trajectory : TrajectoryHandler) (order : Order)
    (mode : AcceptMode) :
    (c.acceptOrder trajectory order mode).position = c.position.accept trajectory order mode := by
  obtain ⟨new, update⟩ := beginOrder_position c trajectory order
  cases mode with
  | new =>
      simp only [acceptOrder, Position.accept]
      rw [← new]
      cases order.nodes.head? with
      | none => rfl
      | some firstNode => exact processNode_position _ firstNode none
  | update =>
      simp only [acceptOrder, Position.accept]
      rw [← update]
      cases order.nodes.head? with
      | none => rfl
      | some firstNode => exact processNode_position _ firstNode none
  | stitch =>
      have sameOrder : c.position.currentOrder = c.agv.currentOrder := rfl
      simp only [Position.accept, sameOrder]
      cases current : c.agv.currentOrder with
      | none =>
          simp only [acceptOrder, current]
          rfl
      | some currentOrder =>
          dsimp only
          cases found : currentBaseEnd currentOrder with
          | none =>
              simp only [acceptOrder, current, found]
              rfl
          | some baseEnd =>
              unfold position
              rw [acceptOrder_stitch_agv current found]
              simp [AgvController.position, Position.stitch, State.merge, acceptedState]

private theorem processOrder_position (order : Order) (adapter : AdapterAnswers) :
    (c.processOrder order adapter).position = c.orderPosition order adapter := by
  unfold processOrder orderPosition
  dsimp only
  cases c.agv.decideOrder adapter (allocateNodes c.received order) with
  | reject error => exact rejectOrder_position _ error
  | discard => exact (updateState_position _ _ _).trans (Position.supply_none _ rfl rfl rfl rfl rfl)
  | accept mode => exact acceptOrder_position _ _ _ _

/-! ## Every step -/

private theorem proceed_position : c.proceed.position = c.proceedPosition := by
  unfold proceed proceedPosition
  cases c.stack with
  | nil => rfl
  | cons frame stack =>
      cases frame with
      | adapter => rfl
      | finishEdgeActions edge actions =>
          cases actions with
          | nil => rfl
          | cons action actions => exact finishEdgeAction_position _ edge action actions
      | nodeTraversed node traversedEdge => exact nodeTraversed_position _ node traversedEdge
      | processNodeAction node action stopDriving =>
          exact executeOrderAction_position _ action _ stopDriving
      | processEdgeAction edge action stopDriving =>
          exact executeOrderAction_position _ action _ stopDriving
      | cancelOrderActions states hasActionsToBeCanceled =>
          cases states with
          | nil => cases hasActionsToBeCanceled <;> rfl
          | cons state states => exact cancelOrderAction_position _ state states _
      | processInstantActionChunk afterAction skipInitialHard =>
          exact processInstantActionChunk_position _ afterAction skipInitialHard
      | processInstantActions i stopIndex stopDriving =>
          simp only [resume]
          split
          · exact processInstantAction_position _ _ stopDriving
          · rfl
      | processInstantAction action stopDriving =>
          exact processInstantAction_position _ action stopDriving
      | resumePausedNode => exact resumePausedNode_position _

theorem perform_position (event : Event) : (c.perform event).position = c.nextPosition event := by
  cases event with
  | proceed => exact proceed_position c
  | order order adapter => exact processOrder_position c order adapter
  | invalidOrder payload message =>
      simp only [perform, processInvalidOrder]
      split
      · rfl
      · exact rejectOrder_position c _
  | instantActions message adapter =>
      simp only [perform, processInstantActions]
      split
      · rfl
      · refine Eq.trans ?_ (acceptInstantActions_position c adapter message.actions)
        split <;> rfl
  | invalidInstantActions payload message =>
      simp only [perform, processInvalidInstantActions]
      split
      · rfl
      · exact addInstantActionError_position c _
  | updateActionStatus context change =>
      simp only [perform, adapterReports, updateActionStatusCallback]
      split
      · exact updateActionStatus_position _ context change
      · exact updateActionStatus_position _ context change
  | edgeTraversed context =>
      simp only [perform, updateEdgeTraversed, nextPosition]
      have same : ({ c with traversing := c.traversing.erase context }.observe
          (.edgeTraversed context)).agv = c.agv := rfl
      rw [same]
      split
      · rfl
      · cases context.endNode with
        | none => rfl
        | some endNode => exact processNode_position _ endNode _
  | stopped context =>
      simp only [perform, stopped, nextPosition]
      have canceled : ({ c with stopping := c.stopping.erase context }.canceled context).position =
          { c.position with nodeStates := [], edgeStates := [] } := by
        unfold position
        rw [canceled_agv]
        rfl
      rw [← canceled]
      cases c.agv.cancelOrderContext with
      | none => rfl
      | some cancelOrderContext =>
          exact (updateActionStatus_position _ _ _).trans
            (Position.supply_none _ rfl rfl rfl rfl rfl)
  | drivingToNextNode nextNode => exact updateState_position c _ true
  | updatePartialState newState reportImmediately =>
      exact updatePartialState_position c newState reportImmediately
  | updateErrors error mode reportImmediately =>
      simp only [perform, updateErrors]
      split
      · rfl
      · rfl
      · exact (updatePartialState_position c _ _).trans (Position.supply_none _ rfl rfl rfl rfl rfl)
  | publishTimer => exact publishCurrentState_position c
  | published succeeded => cases succeeded <;> rfl
  | connection online =>
      simp only [perform]
      split
      · exact publishCurrentState_position _
      · rfl

end Config

end Vda5050
