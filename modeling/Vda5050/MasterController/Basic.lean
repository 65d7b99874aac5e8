import Vda5050.MasterController.Attribution
import Vda5050.AgvController.Orders

/-!
# Data of the master controller

The caches of assigned orders and of instant actions, and the events reported
on the registered handlers. Caches are objects that refer to each other, so
they are kept in lists and referred to by their positions.
-/

set_option autoImplicit false

namespace Vda5050

namespace MasterController

/-! ## Orders -/

/-- The node or edge an order action belongs to. -/
inductive ActionTarget where
  | node (node : Node)
  | edge (edge : Edge)
  deriving DecidableEq, Repr

/-- The state properties reported while an edge is being traversed. -/
structure EdgeStateValues where
  distanceSinceLastNode : Option Rat
  driving : Bool
  newBaseRequest : Option Bool
  operatingMode : OperatingMode
  paused : Option Bool
  safetyState : SafetyStatus
  deriving DecidableEq, Repr

/-- The properties that have changed, with their new values. -/
structure EdgeStateChanges where
  distanceSinceLastNode : Option (Option Rat) := none
  driving : Option Bool := none
  newBaseRequest : Option (Option Bool) := none
  operatingMode : Option OperatingMode := none
  paused : Option (Option Bool) := none
  safetyState : Option SafetyStatus := none
  deriving DecidableEq, Repr

structure OrderStateCache where
  agvId : AgvId
  eventHandler : Nat
  order : Order
  isOrderProcessedHandlerInvoked : Bool := false
  lastCache : Option Nat
  combinedOrder : Order
  lastNodeTraversed : Option Node := none
  lastEdgeStateChanges : Option EdgeStateValues := none
  edgeStateChangeInvocations : Nat := 0
  lastEdgeProcessed : Option Edge := none
  lastActionStates : List (String × ActionState) := []
  mappedActions : List (String × Action × ActionTarget)
  deriving DecidableEq, Repr

/-- The cached orders of one AGV. `lastCache` is the cache assigned last. -/
structure AgvOrders where
  lastCache : Nat
  caches : List ((String × Nat) × Nat) := []
  deriving DecidableEq, Repr

/-! ## Instant actions -/

structure InstantActionStateCache where
  agvId : AgvId
  action : Action
  eventHandler : Nat
  instantActionsRef : Nat
  lastActionState : Option ActionState := none
  deriving DecidableEq, Repr

/-! ## Messages -/

/-- A State being dispatched, with its errors that have not been looked at. -/
structure Dispatching where
  agvId : AgvId
  state : State
  errors : List Error
  deriving DecidableEq, Repr

/-- A call of `initiateInstantActions` that waits for its publication. -/
structure PendingInstantActions where
  agvId : AgvId
  actionStateCaches : Nat
  actions : List Action
  instantActionsRef : Nat
  deriving DecidableEq, Repr

/-! ## Events reported on handlers -/

inductive Notification where
  | orderProcessed (cache : Nat) (withError : Option Error) (byCancelation active : Bool)
  | nodeTraversed (cache : Nat) (node : Node) (nextEdge : Option Edge) (nextNode : Option Node)
  | edgeTraversing (cache : Nat) (edge : Edge) (startNode endNode : Option Node)
      (stateChanges : EdgeStateChanges) (invocationCount : Nat)
  | edgeTraversed (cache : Nat) (edge : Edge) (startNode endNode : Option Node)
  | actionStateChanged (cache : Nat) (actionState : ActionState) (withError : Option Error)
      (action : Action) (target : ActionTarget)
  | instantActionStateChanged (cache : InstantActionStateCache) (actionState : ActionState)
      (withError : Option Error)
  | instantActionError (cache : InstantActionStateCache) (error : Error)
  deriving DecidableEq, Repr

end MasterController

/-- `_currentOrders` and `_currentInstantActions` map the AGVs to positions in
`orderStateCaches` and `actionStateCaches`, where all objects ever created are. -/
structure MasterController where
  orderStateCaches : List MasterController.OrderStateCache := []
  currentOrders : List (AgvId × MasterController.AgvOrders) := []
  actionStateCaches : List (List (String × MasterController.InstantActionStateCache)) := []
  currentInstantActions : List (AgvId × Nat) := []
  currentInstantActionsRef : Option Nat := none
  currentInstantActionsValidationErrors : List (Int × Error) := []
  pendingOrders : List Nat := []
  pendingInstantActions : List MasterController.PendingInstantActions := []
  dispatching : Option MasterController.Dispatching := none
  notifications : List MasterController.Notification := []
  crashed : Bool := false
  deriving DecidableEq, Repr

namespace MasterController

/-- `Map.delete` -/
def deleteEntry {Key Value : Type} [DecidableEq Key] (key : Key)
    (entries : List (Key × Value)) : List (Key × Value) :=
  entries.filter (·.1 ≠ key)

def notify (m : MasterController) (notification : Notification) : MasterController :=
  { m with notifications := m.notifications ++ [notification] }

/-- An error thrown while a State is dispatched ends the process. -/
def throwTypeError (m : MasterController) : MasterController :=
  { m with crashed := true }

/-! ## Maps of order caches -/

/-- `_getOrderStateCache` -/
def getOrderStateCache (m : MasterController) (agvId : AgvId) (orderId : String)
    (orderUpdateId : Nat) : Option Nat :=
  (m.currentOrders.lookup agvId).bind (·.caches.lookup (orderId, orderUpdateId))

/-- `_getLastAssignedOrderStateCache` -/
def getLastAssignedOrderStateCache (m : MasterController) (agvId : AgvId) : Option Nat :=
  (m.currentOrders.lookup agvId).map (·.lastCache)

/-- The entry of an AGV is deleted together with its last cache. -/
def deleteOrderStateCache (m : MasterController) (agvId : AgvId) (orderId : String)
    (orderUpdateId : Nat) : MasterController :=
  match m.currentOrders.lookup agvId with
  | none => m
  | some orders =>
      match orders.caches.lookup (orderId, orderUpdateId) with
      | none => m
      | some _ =>
          let caches := deleteEntry (orderId, orderUpdateId) orders.caches
          { m with
            currentOrders :=
              if caches.isEmpty then deleteEntry agvId m.currentOrders
              else setEntry agvId { orders with caches := caches } m.currentOrders }

def updateCache (m : MasterController) (ref : Nat) (cache : OrderStateCache) :
    MasterController :=
  { m with orderStateCaches := m.orderStateCaches.set ref cache }

/-- `_removeOrderStateCache` -/
def removeOrderStateCache (m : MasterController) (ref : Nat) (deleteLastCache : Bool) :
    MasterController :=
  match m.orderStateCaches[ref]? with
  | none => m
  | some cache =>
      let m := if deleteLastCache then m.updateCache ref { cache with lastCache := none } else m
      m.deleteOrderStateCache cache.agvId cache.order.orderId cache.order.orderUpdateId

/-- `_initCachedActions` -/
def initCachedActions (order : Order) : List (String × Action × ActionTarget) :=
  let nodeActions := (order.nodes.takeWhile (·.released)).flatMap fun node =>
    node.actions.map fun action => (action.actionId, action, ActionTarget.node node)
  let edgeActions := (order.edges.takeWhile (·.released)).flatMap fun edge =>
    edge.actions.map fun action => (action.actionId, action, ActionTarget.edge edge)
  (nodeActions ++ edgeActions).foldl (fun entries entry => setEntry entry.1 entry.2 entries) []

/-- `_addOrderStateCache`. The new cache is found at the end of the list. -/
def addOrderStateCache (m : MasterController) (agvId : AgvId) (order : Order)
    (eventHandler : Nat) : MasterController :=
  let ref := m.orderStateCaches.length
  let cache : OrderStateCache :=
    { agvId := agvId
      eventHandler := eventHandler
      order := order
      lastCache := m.getLastAssignedOrderStateCache agvId
      combinedOrder := order
      mappedActions := initCachedActions order }
  let caches := ((m.currentOrders.lookup agvId).map (·.caches)).getD []
  { m with
    orderStateCaches := m.orderStateCaches ++ [cache]
    currentOrders := setEntry agvId
      { lastCache := ref
        caches := setEntry (order.orderId, order.orderUpdateId) ref caches } m.currentOrders }

/-- The loop of `_getLastActiveOrderStateCache`, which follows the chain of
`lastCache` references. -/
def findActiveCache (m : MasterController) (agvId : AgvId) : Nat → Option Nat → Option Nat
  | 0, _ | _, none => none
  | fuel + 1, some ref =>
      match m.orderStateCaches[ref]? with
      | none => none
      | some cache =>
          if m.getOrderStateCache agvId cache.order.orderId cache.order.orderUpdateId = some ref then
            some ref
          else m.findActiveCache agvId fuel cache.lastCache

/-- `_getLastActiveOrderStateCache`. A chain is not longer than the number of caches. -/
def getLastActiveOrderStateCache (m : MasterController) (cache : OrderStateCache) : Option Nat :=
  m.findActiveCache cache.agvId m.orderStateCaches.length cache.lastCache

end MasterController

end Vda5050
