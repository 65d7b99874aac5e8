import Vda5050.Common.Timestamps
import Vda5050.Json
import Vda5050.Library.Schema

/-!
# Validators

The validation functions for the VDA 5050 core objects, each given by the rules
it checks, in their order.
-/

set_option autoImplicit false

namespace Vda5050

open Library (Rule ValueReader Violation)

namespace Json

def isObject : Json → Bool
  | .obj _ => true
  | _ => false

def isArray : Json → Bool
  | .arr _ => true
  | _ => false

def isString : Json → Bool
  | .str _ => true
  | _ => false

def isBoolean : Json → Bool
  | .bool _ => true
  | _ => false

def isNumber : Json → Bool
  | .num _ _ => true
  | _ => false

/-- `Number.isInteger` -/
def isInteger : Json → Bool
  | .num value _ => value.isInt
  | _ => false

/-- `bound <= value`, where only numbers are compared. -/
def isAtLeast (bound : Rat) : Json → Bool
  | .num value _ => bound ≤ value
  | _ => false

def isAtMost (bound : Rat) : Json → Bool
  | .num value _ => value ≤ bound
  | _ => false

def isOneOf (texts : List String) : Json → Bool
  | .str text => text ∈ texts
  | _ => false

def isTimestamp : Json → Bool
  | .str text => isDateTime text
  | _ => false

def items : Json → List Json
  | .arr items => items
  | _ => []

end Json

def jsonReader : ValueReader Json where
  property? := Json.property?
  items := Json.items

namespace Schema

/-! ## Rules for the values of properties -/

def string : List (Rule Json) := [.check "type" Json.isString]

def boolean : List (Rule Json) := [.check "type" Json.isBoolean]

def number : List (Rule Json) := [.check "type" Json.isNumber]

def integer : List (Rule Json) := [.check "type" Json.isInteger]

def minimum (bound : Rat) : Rule Json := .check "minimum" (Json.isAtLeast bound)

def maximum (bound : Rat) : Rule Json := .check "maximum" (Json.isAtMost bound)

def enum (texts : List String) : List (Rule Json) :=
  string ++ [.check "enum" (Json.isOneOf texts)]

def uint32 (bound : Rat) : List (Rule Json) := integer ++ [minimum 0, maximum bound]

def array (rules : List (Rule Json)) : List (Rule Json) :=
  [.check "type" Json.isArray, .items rules]

def object (required : List String) (properties : List (Rule Json)) : List (Rule Json) :=
  .check "type" Json.isObject :: (required.map .required ++ properties)

/-- An angle in radians. -/
def angle (bound : Rat) : List (Rule Json) := number ++ [minimum (-bound), maximum bound]

/-! ## Objects referred to -/

def header : List (Rule Json) :=
  object ["headerId", "timestamp", "version", "manufacturer", "serialNumber"]
    [.property "headerId" integer,
      .property "timestamp" (string ++ [.check "format" Json.isTimestamp]),
      .property "version" string,
      .property "manufacturer" string,
      .property "serialNumber" string]

def actionParameter : List (Rule Json) :=
  object ["key", "value"]
    [.property "key" string,
      .property "value" [.check "type" fun value =>
        value.isArray || value.isBoolean || value.isNumber || value.isString]]

def action : List (Rule Json) :=
  object ["actionId", "actionType", "blockingType"]
    [.property "actionType" string,
      .property "actionId" string,
      .property "actionDescription" string,
      .property "blockingType" (enum ["NONE", "SOFT", "HARD"]),
      .property "actionParameters" (array actionParameter)]

def nodePosition : List (Rule Json) :=
  object ["x", "y", "mapId"]
    [.property "x" number,
      .property "y" number,
      .property "theta" (angle 3.14159265359),
      .property "allowedDeviationXY" (number ++ [minimum 0]),
      .property "allowedDeviationTheta" (number ++ [minimum 0, maximum 3.141592654]),
      .property "mapId" string,
      .property "mapDescription" string]

def controlPoint : List (Rule Json) :=
  object ["x", "y"]
    [.property "weight" number,
      .property "x" number,
      .property "y" number]

def trajectory : List (Rule Json) :=
  object ["degree", "knotVector", "controlPoints"]
    [.property "degree" integer,
      .property "knotVector" (array (number ++ [minimum 0, maximum 1])),
      .property "controlPoints" (array controlPoint)]

def agvPosition : List (Rule Json) :=
  object ["x", "y", "theta", "mapId", "positionInitialized"]
    [.property "x" number,
      .property "y" number,
      .property "theta" number,
      .property "mapId" string,
      .property "mapDescription" string,
      .property "positionInitialized" boolean,
      .property "localizationScore" (number ++ [minimum 0, maximum 1]),
      .property "deviationRange" number]

def velocity : List (Rule Json) :=
  object []
    [.property "vx" number,
      .property "vy" number,
      .property "omega" number]

/-! ## Topic objects -/

/-- An object with a header and further properties. -/
def topicObject (required : List String) (properties : List (Rule Json)) : List (Rule Json) :=
  [.check "type" Json.isObject,
    .allOf 0 [.ref header],
    .allOf 1 (required.map .required ++ properties)]

def connection : List (Rule Json) :=
  topicObject ["connectionState"]
    [.property "connectionState" (enum ["ONLINE", "OFFLINE", "CONNECTIONBROKEN"])]

def instantActions : List (Rule Json) :=
  topicObject ["actions"] [.property "actions" (array [.ref action])]

def node : List (Rule Json) :=
  object ["nodeId", "sequenceId", "released", "actions"]
    [.property "nodeId" string,
      .property "sequenceId" (uint32 4294967296),
      .property "nodeDescription" string,
      .property "released" boolean,
      .property "nodePosition" [.ref nodePosition],
      .property "actions" (array [.ref action])]

def edge : List (Rule Json) :=
  object ["edgeId", "sequenceId", "released", "startNodeId", "endNodeId", "actions"]
    [.property "edgeId" string,
      .property "sequenceId" (uint32 4294967296),
      .property "edgeDescription" string,
      .property "released" boolean,
      .property "startNodeId" string,
      .property "endNodeId" string,
      .property "maxSpeed" number,
      .property "maxHeight" number,
      .property "minHeight" number,
      .property "orientation" (angle 3.14159265359),
      .property "orientationType" (enum ["GLOBAL", "TANGENTIAL"]),
      .property "direction" string,
      .property "rotationAllowed" boolean,
      .property "maxRotationSpeed" number,
      .property "length" number,
      .property "trajectory" [.ref trajectory],
      .property "actions" (array [.ref action])]

def order : List (Rule Json) :=
  topicObject ["orderId", "orderUpdateId", "nodes", "edges"]
    [.property "orderId" string,
      .property "orderUpdateId" (uint32 4294967296),
      .property "zoneSetId" string,
      .property "nodes"
        [.check "type" Json.isArray, .check "minItems" (!·.items.isEmpty), .items node],
      .property "edges" (array edge)]

def nodeState : List (Rule Json) :=
  object ["nodeId", "released", "sequenceId"]
    [.property "nodeId" string,
      .property "sequenceId" integer,
      .property "nodeDescription" string,
      .property "nodePosition" [.ref nodePosition],
      .property "released" boolean]

def edgeState : List (Rule Json) :=
  object ["edgeId", "sequenceId", "released"]
    [.property "edgeId" string,
      .property "sequenceId" integer,
      .property "edgeDescription" string,
      .property "released" boolean,
      .property "trajectory" [.ref trajectory]]

def load : List (Rule Json) :=
  object []
    [.property "loadId" string,
      .property "loadType" string,
      .property "loadPosition" string,
      .property "boundingBoxReference"
        (object ["x", "y", "z"]
          [.property "x" number,
            .property "y" number,
            .property "z" number,
            .property "theta" number]),
      .property "loadDimensions"
        (object ["length", "width"]
          [.property "length" number,
            .property "width" number,
            .property "height" number]),
      .property "weight" number]

def actionState : List (Rule Json) :=
  object ["actionId", "actionStatus"]
    [.property "actionId" string,
      .property "actionType" string,
      .property "actionDescription" string,
      .property "actionStatus"
        (enum ["WAITING", "INITIALIZING", "PAUSED", "RUNNING", "FINISHED", "FAILED"]),
      .property "resultDescription" string]

def batteryState : List (Rule Json) :=
  object ["batteryCharge", "charging"]
    [.property "batteryCharge" number,
      .property "batteryVoltage" number,
      .property "batteryHealth" (uint32 100),
      .property "charging" boolean,
      .property "reach" (uint32 4294967295)]

def reference : List (Rule Json) :=
  object ["referenceKey", "referenceValue"]
    [.property "referenceKey" string,
      .property "referenceValue" string]

def error : List (Rule Json) :=
  object ["errorType", "errorLevel"]
    [.property "errorType" string,
      .property "errorReferences" (array reference),
      .property "errorDescription" string,
      .property "errorLevel" (enum ["WARNING", "FATAL"])]

def information : List (Rule Json) :=
  object ["infoType", "infoLevel"]
    [.property "infoType" string,
      .property "infoReferences" (array reference),
      .property "infoDescription" string,
      .property "infoLevel" (enum ["INFO", "DEBUG"])]

def safetyState : List (Rule Json) :=
  object ["eStop", "fieldViolation"]
    [.property "eStop" (enum ["AUTOACK", "MANUAL", "REMOTE", "NONE"]),
      .property "fieldViolation" boolean]

def state : List (Rule Json) :=
  topicObject
    ["orderId", "orderUpdateId", "lastNodeId", "lastNodeSequenceId", "nodeStates", "edgeStates",
      "driving", "actionStates", "batteryState", "operatingMode", "errors", "safetyState"]
    [.property "orderId" string,
      .property "orderUpdateId" (uint32 4294967296),
      .property "zoneSetId" string,
      .property "lastNodeId" string,
      .property "lastNodeSequenceId" (uint32 4294967296),
      .property "driving" boolean,
      .property "paused" boolean,
      .property "newBaseRequest" boolean,
      .property "distanceSinceLastNode" number,
      .property "operatingMode"
        (enum ["AUTOMATIC", "SEMIAUTOMATIC", "MANUAL", "SERVICE", "TEACHIN"]),
      .property "nodeStates" (array nodeState),
      .property "edgeStates" (array edgeState),
      .property "agvPosition" [.ref agvPosition],
      .property "velocity" [.ref velocity],
      .property "loads" (array load),
      .property "actionStates" (array actionState),
      .property "batteryState" batteryState,
      .property "errors" (array error),
      .property "information" (array information),
      .property "safetyState" safetyState]

def visualization : List (Rule Json) :=
  topicObject []
    [.property "agvPosition" [.ref agvPosition],
      .property "velocity" [.ref velocity]]

end Schema

/-! ## Validation functions -/

def validateConnection (data : Json) : Option Violation :=
  Rule.validate jsonReader data Schema.connection

def validateInstantActions (data : Json) : Option Violation :=
  Rule.validate jsonReader data Schema.instantActions

def validateOrder (data : Json) : Option Violation :=
  Rule.validate jsonReader data Schema.order

def validateState (data : Json) : Option Violation :=
  Rule.validate jsonReader data Schema.state

def validateVisualization (data : Json) : Option Violation :=
  Rule.validate jsonReader data Schema.visualization

end Vda5050
