import Vda5050.Json

/-!
# VDA 5050 objects

The topic objects exchanged between master control and AGV, restricted to the
properties that the modelled control logic reads, copies or reports. Header
properties are left out, except for the `headerId` quoted by error reports.
-/

set_option autoImplicit false

namespace Vda5050

/-! ## Vehicles -/

structure AgvId where
  manufacturer : String
  serialNumber : String
  deriving DecidableEq, Repr

/-! ## Actions -/

inductive BlockingType where
  | hard
  | none
  | soft
  deriving DecidableEq, Repr

inductive ActionStatus where
  | failed
  | finished
  | initializing
  | paused
  | running
  | waiting
  deriving DecidableEq, Repr

/-- An action has ended as soon as it is `FINISHED` or `FAILED`. -/
def ActionStatus.isEnded : ActionStatus → Bool
  | .failed | .finished => true
  | .initializing | .paused | .running | .waiting => false

structure ActionParameter where
  key : String
  value : Json
  deriving DecidableEq, Repr

structure Action where
  actionId : String
  actionType : String
  blockingType : BlockingType
  actionDescription : Option String := none
  actionParameters : List ActionParameter := []
  deriving DecidableEq, Repr

structure ActionState where
  actionId : String
  actionStatus : ActionStatus
  actionType : String
  actionDescription : Option String := none
  resultDescription : Option String := none
  deriving DecidableEq, Repr

structure InstantActions where
  actions : List Action
  deriving DecidableEq, Repr

/-! ## Orders -/

structure NodePosition where
  x : Rat
  y : Rat
  mapId : String
  theta : Option Rat := none
  allowedDeviationXY : Option Rat := none
  allowedDeviationTheta : Option Rat := none
  deriving DecidableEq, Repr

structure ControlPoint where
  x : Rat
  y : Rat
  weight : Option Rat := none
  deriving DecidableEq, Repr

structure Trajectory where
  degree : Int
  knotVector : List Rat
  controlPoints : List ControlPoint
  deriving DecidableEq, Repr

/-- A node object of a received order. `ref` is the identity of the object:
the stitching base node of an order is updated in place and seen so by every
holder of a reference to it. -/
structure Node where
  ref : Nat × Nat := (0, 0)
  nodeId : String
  sequenceId : Nat
  released : Bool
  actions : List Action
  nodeDescription : Option String := none
  nodePosition : Option NodePosition := none
  deriving DecidableEq, Repr

structure Edge where
  edgeId : String
  sequenceId : Nat
  released : Bool
  startNodeId : String
  endNodeId : String
  actions : List Action
  edgeDescription : Option String := none
  trajectory : Option Trajectory := none
  maxSpeed : Option Rat := none
  orientation : Option Rat := none
  deriving DecidableEq, Repr

structure Order where
  headerId : Int := 0
  orderId : String
  orderUpdateId : Nat
  nodes : List Node
  edges : List Edge
  zoneSetId : Option String := none
  deriving DecidableEq, Repr

/-- The actions of the released nodes, followed by those of the released
edges, in the given order of nodes and edges. -/
def Order.releasedActions (order : Order) : List Action :=
  (order.nodes.filter (·.released)).flatMap (·.actions) ++
    (order.edges.filter (·.released)).flatMap (·.actions)

/-! ## Errors -/

inductive ErrorLevel where
  | fatal
  | warning
  deriving DecidableEq, Repr

/-- The reference value is a string by the State schema. The AGV controller
copies some values from payloads that failed validation. -/
structure ErrorReference where
  referenceKey : String
  referenceValue : Json
  deriving DecidableEq, Repr

structure Error where
  errorType : String
  errorLevel : ErrorLevel
  errorDescription : Option String := none
  errorReferences : Option (List ErrorReference) := none
  deriving DecidableEq, Repr

/-- Reference values are strings, as required by the State schema. -/
def ErrorReference.conforms (reference : ErrorReference) : Bool :=
  match reference.referenceValue with
  | .str _ => true
  | _ => false

def Error.conforms (error : Error) : Bool :=
  (error.errorReferences.getD []).all (·.conforms)

namespace ErrorType

def order : String := "orderError"
def orderUpdate : String := "orderUpdateError"
def orderNoRoute : String := "noRouteError"
def orderValidation : String := "validationError"
def orderAction : String := "orderActionError"
def instantAction : String := "instantActionError"
def instantActionValidation : String := "validationError"
def instantActionNoOrderToCancel : String := "noOrderToCancel"

end ErrorType

namespace Topic

def order : String := "order"
def instantActions : String := "instantActions"

end Topic

/-! ## State -/

structure NodeState where
  nodeId : String
  sequenceId : Nat
  released : Bool
  nodeDescription : Option String := none
  nodePosition : Option NodePosition := none
  deriving DecidableEq, Repr

structure EdgeState where
  edgeId : String
  sequenceId : Nat
  released : Bool
  edgeDescription : Option String := none
  trajectory : Option Trajectory := none
  deriving DecidableEq, Repr

structure BatteryState where
  batteryCharge : Rat
  charging : Bool
  reach : Option Rat := none
  deriving DecidableEq, Repr

inductive EStop where
  | autoack
  | manual
  | none
  | remote
  deriving DecidableEq, Repr

def EStop.text : EStop → String
  | .autoack => "AUTOACK"
  | .manual => "MANUAL"
  | .none => "NONE"
  | .remote => "REMOTE"

inductive OperatingMode where
  | automatic
  | manual
  | semiautomatic
  | service
  | teachin
  deriving DecidableEq, Repr

def OperatingMode.text : OperatingMode → String
  | .automatic => "AUTOMATIC"
  | .manual => "MANUAL"
  | .semiautomatic => "SEMIAUTOMATIC"
  | .service => "SERVICE"
  | .teachin => "TEACHIN"

structure SafetyStatus where
  eStop : EStop
  fieldViolation : Bool
  deriving DecidableEq, Repr

/-- An error object in the state of an AGV controller. `ref` is the identity
of the object, which the controller uses as a map key. -/
structure StateError where
  ref : Nat
  error : Error
  deriving DecidableEq, Repr

structure State where
  actionStates : List ActionState
  batteryState : BatteryState
  driving : Bool
  edgeStates : List EdgeState
  errors : List StateError
  lastNodeId : String
  lastNodeSequenceId : Nat
  nodeStates : List NodeState
  operatingMode : OperatingMode
  orderId : String
  orderUpdateId : Nat
  safetyState : SafetyStatus
  distanceSinceLastNode : Option Rat := none
  newBaseRequest : Option Bool := none
  paused : Option Bool := none
  deriving DecidableEq, Repr

end Vda5050
