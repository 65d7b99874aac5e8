import Vda5050.MasterController.Basic

/-!
# Dispatch of order states

What the master controller does with a State of an assigned order: it stitches
the order onto the one assigned before, if this is still active, and reports
changes of action states, traversals and the end of the order.
-/

set_option autoImplicit false

namespace Vda5050

namespace MasterController

open AgvController (getEdgeStartNode getEdgeEndNode replaceNode)

/-! ## Stitching -/

/-- `array.slice(0, index === -1 ? undefined : index)` -/
def sliceBefore {Element : Type} (index : Option Nat) (elements : List Element) :
    List Element :=
  match index with
  | none => elements
  | some index => elements.take index

/-- The end node of the current base, with the actions of the first new node
appended to its own. -/
def stitchBaseEnd (lastBaseEnd firstNode : Node) : Node :=
  { lastBaseEnd with actions := lastBaseEnd.actions ++ firstNode.actions }

/-- The node at the end of the base of an order, `none` for `undefined`. -/
def lastBaseEnd (lastOrder : Order) : Option Node :=
  match lastOrder.nodes.findIdx? (!·.released) with
  | none => lastOrder.nodes.getLast?
  | some 0 => none
  | some (index + 1) => lastOrder.nodes[index]?

/-- The combined order of a stitched order. -/
def stitchCombinedOrder (lastOrder order : Order) (firstNode baseEnd : Node) : Order :=
  { order with
    nodes :=
      (sliceBefore (lastOrder.nodes.findIdx? (!·.released)) lastOrder.nodes).map
          (replaceNode (stitchBaseEnd baseEnd firstNode)) ++ order.nodes.drop 1
    edges :=
      sliceBefore (lastOrder.edges.findIdx? (!·.released)) lastOrder.edges ++ order.edges }

def ActionTarget.replaceNode (updated : Node) : ActionTarget → ActionTarget
  | .node target => .node (AgvController.replaceNode updated target)
  | .edge target => .edge target

def getNode (order : Order) (nodeId : String) (sequenceId : Nat) : Option Node :=
  order.nodes.find? fun node => node.nodeId = nodeId && node.sequenceId = sequenceId

/-- Take over the state of the cache of the order stitched onto. -/
def OrderStateCache.stitch (cache lastCache : OrderStateCache) (firstNode baseEnd : Node) :
    OrderStateCache :=
  let combinedOrder :=
    stitchCombinedOrder lastCache.combinedOrder cache.combinedOrder firstNode baseEnd
  let updated := stitchBaseEnd baseEnd firstNode
  { cache with
    combinedOrder := combinedOrder
    lastNodeTraversed := lastCache.lastNodeTraversed.bind fun node =>
      getNode combinedOrder node.nodeId node.sequenceId
    lastEdgeStateChanges := lastCache.lastEdgeStateChanges
    edgeStateChangeInvocations := lastCache.edgeStateChangeInvocations
    lastEdgeProcessed := lastCache.lastEdgeProcessed
    mappedActions :=
      cache.mappedActions.foldl (fun entries entry => setEntry entry.1 entry.2 entries)
        (lastCache.mappedActions.map fun entry =>
          (entry.1, entry.2.1, entry.2.2.replaceNode updated))
    lastActionStates := lastCache.lastActionStates }

/-- The first part of `_dispatchOrderState`: stitch an order onto the order
assigned before, if this is still active. `none` stands for a `TypeError`. -/
def stitchOntoActiveOrder (m : MasterController) (ref : Nat) (cache : OrderStateCache) :
    Option (MasterController × OrderStateCache) :=
  match m.getLastActiveOrderStateCache cache with
  | none => some (m, cache)
  | some lastRef =>
      match m.orderStateCaches[lastRef]? with
      | none => some (m, cache)
      | some lastCache =>
          match cache.combinedOrder.nodes.head?, lastBaseEnd lastCache.combinedOrder with
          | some firstNode, some baseEnd =>
              let cache := cache.stitch lastCache firstNode baseEnd
              some ((m.updateCache ref cache).removeOrderStateCache lastRef true, cache)
          | _, _ => none

/-! ## Events on nodes, edges and actions -/

/-- A cache being updated, with the events reported meanwhile. -/
structure Dispatch where
  cache : OrderStateCache
  notifications : List Notification := []

def Dispatch.notify (d : Dispatch) (notification : Notification) : Dispatch :=
  { d with notifications := d.notifications ++ [notification] }

/-- `_getActionError` -/
def getActionError (errors : List Error) (actionId : String) (asInstantAction : Bool) :
    Option Error :=
  let topic := if asInstantAction then Topic.instantActions else Topic.order
  errors.find? fun error =>
    let refs := error.errorReferences.getD []
    refs.any (fun r => r.referenceKey = "actionId" && r.referenceValue = .str actionId) &&
      refs.any fun r => r.referenceKey = "topic" && r.referenceValue = .str topic

def errorsOf (state : State) : List Error := state.errors.map (·.error)

/-- One step of the loop over the action states of a State. -/
def updateActionState (ref : Nat) (state : State) (d : Dispatch) (actionState : ActionState) :
    Dispatch :=
  match d.cache.mappedActions.lookup actionState.actionId with
  | none => d
  | some (action, target) =>
      let lastStatus :=
        (d.cache.lastActionStates.lookup actionState.actionId).map (·.actionStatus)
      if lastStatus = some actionState.actionStatus then d
      else
        let error :=
          if actionState.actionStatus = .failed then
            getActionError (errorsOf state) actionState.actionId false
          else none
        ({ d with
          cache :=
            { d.cache with
              lastActionStates :=
                setEntry actionState.actionId actionState d.cache.lastActionStates } }).notify
          (.actionStateChanged ref actionState error action target)

def isActionEnded (state : State) (action : Action) : Bool :=
  (state.actionStates.find? (·.actionId = action.actionId)).any (·.actionStatus.isEnded)

/-- `_areAllBlockingActionsEnded` -/
def areAllBlockingActionsEnded (node : Node) (state : State) : Bool :=
  node.actions.all fun action => action.blockingType = .none || isActionEnded state action

def edgeStateValues (state : State) : EdgeStateValues where
  distanceSinceLastNode := state.distanceSinceLastNode
  driving := state.driving
  newBaseRequest := state.newBaseRequest
  operatingMode := state.operatingMode
  paused := state.paused
  safetyState := state.safetyState

def changed {Value : Type} [DecidableEq Value] (last current : Value) : Option Value :=
  if last = current then none else some current

def edgeStateDeltas (last current : EdgeStateValues) : EdgeStateChanges where
  distanceSinceLastNode := changed last.distanceSinceLastNode current.distanceSinceLastNode
  driving := changed last.driving current.driving
  newBaseRequest := changed last.newBaseRequest current.newBaseRequest
  operatingMode := changed last.operatingMode current.operatingMode
  paused := changed last.paused current.paused
  safetyState := changed last.safetyState current.safetyState

def allChanges (current : EdgeStateValues) : EdgeStateChanges where
  distanceSinceLastNode := some current.distanceSinceLastNode
  driving := some current.driving
  newBaseRequest := some current.newBaseRequest
  operatingMode := some current.operatingMode
  paused := some current.paused
  safetyState := some current.safetyState

/-- `_updateEdgeStateChanges` -/
def updateEdgeStateChanges (ref : Nat) (edge : Edge) (startNode endNode : Option Node)
    (state : State) (d : Dispatch) : Dispatch :=
  let current := edgeStateValues state
  let report (changes : EdgeStateChanges) : Dispatch :=
    let invocations := d.cache.edgeStateChangeInvocations + 1
    ({ d with
      cache :=
        { d.cache with
          lastEdgeStateChanges := some current
          edgeStateChangeInvocations := invocations } }).notify
      (.edgeTraversing ref edge startNode endNode changes invocations)
  match d.cache.lastEdgeStateChanges with
  | none => report (allChanges current)
  | some last => if last = current then d else report (edgeStateDeltas last current)

def getNextEdge (order : Order) (node : Node) : Option Edge :=
  order.edges.find? fun edge =>
    edge.startNodeId = node.nodeId && edge.sequenceId = node.sequenceId + 1

def getNextReleasedEdge (order : Order) (node : Node) : Option Edge :=
  order.edges.find? fun edge =>
    edge.released && edge.startNodeId = node.nodeId && edge.sequenceId = node.sequenceId + 1

/-- `processEdgeEvents` of `_dispatchOrderState`, for a traversed node. -/
def processEdgeEvents (isCanceling : Bool) (ref : Nat) (state : State) (lastNode : Node)
    (d : Dispatch) : Dispatch :=
  if isCanceling then d
  else
    match getNextReleasedEdge d.cache.combinedOrder lastNode with
    | none => d
    | some nextEdge =>
        let startNode := getEdgeStartNode d.cache.combinedOrder nextEdge
        let endNode := getEdgeEndNode d.cache.combinedOrder nextEdge
        if state.edgeStates.any fun s =>
            s.edgeId = nextEdge.edgeId && s.sequenceId = nextEdge.sequenceId then
          if d.cache.lastEdgeStateChanges.isSome || areAllBlockingActionsEnded lastNode state then
            updateEdgeStateChanges ref nextEdge startNode endNode state d
          else d
        else if d.cache.lastEdgeProcessed = some nextEdge then d
        else
          let d := updateEdgeStateChanges ref nextEdge startNode endNode state d
          ({ d with
            cache :=
              { d.cache with
                lastEdgeStateChanges := none
                edgeStateChangeInvocations := 0
                lastEdgeProcessed := some nextEdge } }).notify
            (.edgeTraversed ref nextEdge startNode endNode)

/-- The node traversed next. `none` stands for a `TypeError`. -/
def nextNodeTraversed (cache : OrderStateCache) (state : State) : Option (Option Node) :=
  match cache.lastNodeTraversed with
  | none =>
      match cache.combinedOrder.nodes.head? with
      | none => none
      | some firstNode =>
          if state.nodeStates.any fun s =>
              s.nodeId = firstNode.nodeId && s.sequenceId = firstNode.sequenceId then some none
          else some (some firstNode)
  | some lastNode =>
      if lastNode.nodeId ≠ state.lastNodeId || lastNode.sequenceId ≠ state.lastNodeSequenceId then
        some (getNode cache.combinedOrder state.lastNodeId state.lastNodeSequenceId)
      else some none

def nodeTraversed (isCanceling : Bool) (ref : Nat) (state : State) (nextNode : Node)
    (d : Dispatch) : Dispatch :=
  let d := { d with cache := { d.cache with lastNodeTraversed := some nextNode } }
  let nextEdge := getNextEdge d.cache.combinedOrder nextNode
  let edgeEndNode := nextEdge.bind (getEdgeEndNode d.cache.combinedOrder)
  processEdgeEvents isCanceling ref state nextNode
    (d.notify (.nodeTraversed ref nextNode nextEdge edgeEndNode))

/-- Edge events before the next node is checked. -/
def updateTraversal (isCanceling : Bool) (ref : Nat) (state : State) (d : Dispatch) : Dispatch :=
  match d.cache.lastNodeTraversed with
  | none => d
  | some lastNode => processEdgeEvents isCanceling ref state lastNode d

/-! ## The end of an order -/

/-- `_isOrderProcessed`, where `none` stands for `undefined`. -/
def isOrderProcessed (cache : OrderStateCache) (state : State) : Option Bool :=
  let isProcessed : Option Bool :=
    if state.nodeStates.isEmpty && state.edgeStates.isEmpty then some true
    else if state.nodeStates.all (!·.released) && state.edgeStates.all (!·.released) then none
    else some false
  if isProcessed = some false then some false
  else if cache.mappedActions.all fun entry =>
      (cache.lastActionStates.lookup entry.2.1.actionId).any (·.actionStatus.isEnded) then
    isProcessed
  else some false

/-- `_isOrderCanceling`. The first cached `cancelOrder` action decides. -/
def isOrderCanceling (m : MasterController) (agvId : AgvId) (state : State)
    (cancelStatus : List ActionStatus) : Bool :=
  let caches := ((m.currentInstantActions.lookup agvId).bind (m.actionStateCaches[·]?)).getD []
  match caches.find? (·.2.action.actionType = "cancelOrder") with
  | none => false
  | some (actionId, _) =>
      (state.actionStates.find? (·.actionId = actionId)).any (cancelStatus.contains ·.actionStatus)

/-- The last part of `_dispatchOrderState`. -/
def reportOrderProcessed (m : MasterController) (ref : Nat) (cache : OrderStateCache)
    (state : State) : MasterController :=
  let result := isOrderProcessed cache state
  if result ≠ some false && !cache.isOrderProcessedHandlerInvoked then
    let isActive := result = none
    let byCancelation := m.isOrderCanceling cache.agvId state [.finished]
    let m := m.updateCache ref { cache with isOrderProcessedHandlerInvoked := true }
    let m := if isActive then m else m.removeOrderStateCache ref true
    m.notify (.orderProcessed ref none byCancelation isActive)
  else m

/-- `_dispatchOrderState` -/
def dispatchOrderState (m : MasterController) (state : State) (ref : Nat) : MasterController :=
  match m.orderStateCaches[ref]? with
  | none => m
  | some cache =>
      match m.stitchOntoActiveOrder ref cache with
      | none => m.throwTypeError
      | some (m, cache) =>
          let isCanceling := m.isOrderCanceling cache.agvId state [.running, .finished]
          let d := state.actionStates.foldl (updateActionState ref state) { cache := cache }
          let d := updateTraversal isCanceling ref state d
          match nextNodeTraversed d.cache state with
          | none =>
              { m.updateCache ref d.cache with
                notifications := m.notifications ++ d.notifications }.throwTypeError
          | some nextNode =>
              let d := nextNode.elim d (nodeTraversed isCanceling ref state · d)
              { m.updateCache ref d.cache with
                notifications := m.notifications ++ d.notifications }.reportOrderProcessed ref
                  d.cache state

end MasterController

end Vda5050
