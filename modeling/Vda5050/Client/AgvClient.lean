import Vda5050.Common.TopicObjects

/-!
# The AGV client

What the class of an AGV client adds to the client: the directions of its topics,
and the retained messages on its connection that are published when it starts, when
it stops and when its connection breaks.
-/

set_option autoImplicit false

namespace Vda5050

open Library

/-! ## Directions -/

/-- The topics published by vehicles. -/
def vehicleTopics : List String := ["connection", "state", "visualization"]

/-- The topics published by master control. -/
def masterControlTopics : List String := ["instantActions", "order"]

/-- A client of a class may only publish on some topics and only subscribe to others. -/
def validateDirection (className : String) (outbound inbound : List String) (topic : String)
    (asInbound : Bool) : Except String Unit :=
  if asInbound && topic ∈ outbound then
    .error s!"Inbound {topic} message not compatible with {className}"
  else if !asInbound && topic ∈ inbound then
    .error s!"Outbound {topic} message not compatible with {className}"
  else .ok ()

/-! ## Connection objects -/

inductive ConnectionState where
  | connectionbroken
  | offline
  | online
  deriving DecidableEq, Repr

def ConnectionState.text : ConnectionState → String
  | .connectionbroken => "CONNECTIONBROKEN"
  | .offline => "OFFLINE"
  | .online => "ONLINE"

/-- `{ connectionState }` -/
def connectionProperties (state : ConnectionState) : Properties :=
  [("connectionState", .str state.text)]

namespace AgvClient

/-- `validateTopicDirection` -/
def validateTopicDirection : String → Bool → Except String Unit :=
  validateDirection "AgvClient" vehicleTopics masterControlTopics

/-- `getLastWillTopic` -/
def getLastWillTopic (agvId : AgvId) : LastWill Properties where
  topic := "connection"
  subject := agvId.toPartial
  object := { payload := connectionProperties .connectionbroken }
  retainMessage := true

/-- A client that validates what it publishes. `JSON.stringify` gives a text for every object. -/
def settings (agvId : AgvId) (text : Vda5050Object Properties → String) :
    ClientSettings Properties :=
  Client.validatingSettings validateTopicDirection (fun object => .ok (text object))
    (some (getLastWillTopic agvId))

/-- `publish` of a connection state, retained by the broker. -/
def connectionPublication (agvId : AgvId) (state : ConnectionState) (now : String) :
    Publication Properties where
  topic := "connection"
  subject := agvId.toPartial
  object := { payload := connectionProperties state }
  retainMessage := true
  now := now

/-- What `onStarted` and `onStopping` publish after an event that takes the client to `next`. -/
def hookPublication {Handler : Type} (agvId : AgvId) (now : String)
    (next : ClientHistory Properties Handler) :
    ClientEvent Properties Handler → Option (Publication Properties)
  | .connectSettled true => some (connectionPublication agvId .online now)
  | .stop =>
      if next.awaiting = some .onStopping then some (connectionPublication agvId .offline now)
      else none
  | _ => none

/-- An event of the client with the hook it runs, and the message the hook hands over. -/
def step {Handler : Type} (agvId : AgvId) (text : Vda5050Object Properties → String)
    (now : String) (h : ClientHistory Properties Handler) (event : ClientEvent Properties Handler) :
    Option (ClientHistory Properties Handler × Option (MqttMessage Properties)) :=
  (h.step (settings agvId text) event).map fun next =>
    match hookPublication agvId now next event with
    | none => (next, none)
    | some publication =>
        let result := next.client.publishTopic (settings agvId text) publication
        (next.publishedBy result, result.2.toOption.join)

/-- `_createLastWill` -/
def createLastWill {Handler : Type} (agvId : AgvId) (text : Vda5050Object Properties → String)
    (now : String) (client : Client Properties Handler) : MqttMessage Properties :=
  let lastWill := getLastWillTopic agvId
  let object := (client.withObjectHeader (settings agvId text) lastWill.topic lastWill.subject now
    lastWill.object).1
  { topic := lastWill.topic
    mqttTopic := client.subscriptionManager.getMqttTopic (some lastWill.topic) lastWill.subject
    mqttPayload := text object
    retain := lastWill.retainMessage
    object := object }

/-! ## Publishing connection states -/

variable {Handler : Type} {agvId : AgvId} {text : Vda5050Object Properties → String}
  {now : String} {state : ConnectionState}

/-- The constructor has accepted the identity, and the topic is not too long. -/
structure Admissible (format : TopicFormat) (agvId : AgvId) : Prop where
  valid : validateAgvId agvId.toPartial false = .ok ()
  length : Utf16String.assertMqttTopicLength (Utf16String.encode
    (format.constructMqttTopic agvId.manufacturer agvId.serialNumber "connection")) = .ok ()

instance (format : TopicFormat) (agvId : AgvId) : Decidable (Admissible format agvId) :=
  decidable_of_iff
    (validateAgvId agvId.toPartial false = .ok () ∧
      Utf16String.assertMqttTopicLength (Utf16String.encode (format.constructMqttTopic
        agvId.manufacturer agvId.serialNumber "connection")) = .ok ())
    ⟨fun ⟨valid, length⟩ => ⟨valid, length⟩, fun ⟨valid, length⟩ => ⟨valid, length⟩⟩

/-- A connection object with a timestamp conforms to its schema. -/
private theorem validateCoreObject_connection {object : Vda5050Object Properties}
    (timestamp : isDateTime object.timestamp = true) {manufacturer serialNumber : String}
    (manufacturer' : object.manufacturer = some manufacturer)
    (serialNumber' : object.serialNumber = some serialNumber)
    (payload : object.payload = connectionProperties state) :
    validateCoreObject "connection" object.toJson = .ok () := by
  have header : object.toJson = .obj
      [("headerId", .num object.headerId.val (toString object.headerId.val)),
        ("timestamp", .str object.timestamp), ("version", .str object.version),
        ("manufacturer", .str manufacturer), ("serialNumber", .str serialNumber),
        ("connectionState", .str state.text)] := by
    simp [Vda5050Object.toJson, manufacturer', serialNumber', payload, connectionProperties]
  rw [validateCoreObject_ok_iff (show topicSchema "connection" = _ from rfl), header]
  cases state <;>
    simp [Schema.connection, Schema.topicObject, Schema.header, Schema.object, Schema.integer,
      Schema.string, Schema.enum, Rule.Conforms, Rule.Holds, jsonReader, Json.property?,
      Json.isObject, Json.isInteger, Json.isString, Json.isOneOf, Json.isTimestamp,
      ConnectionState.text, List.lookup_cons, timestamp, Rat.isInt]

/-- The message with a connection state. -/
def connectionMessage (agvId : AgvId) (text : Vda5050Object Properties → String) (now : String)
    (client : Client Properties Handler) (state : ConnectionState) : MqttMessage Properties :=
  let object := (client.withObjectHeader (settings agvId text) "connection" agvId.toPartial now
    { payload := connectionProperties state }).1
  { topic := "connection"
    mqttTopic := client.subscriptionManager.getMqttTopic (some "connection") agvId.toPartial
    mqttPayload := text object
    retain := true
    object := object }

private theorem validateTopic_connection (client : Client Properties Handler) :
    client.validateTopic (settings agvId text) (some "connection") false = .ok () := by
  have level : isValidTopicLevel "connection" = true := by decide
  have core : isExtensionTopic "connection" = false := rfl
  unfold Client.validateTopic
  simp only [level, core]
  rfl

/-- The connection state of a client that is started is handed over. -/
theorem publishTopic_connection {client : Client Properties Handler}
    (admissible : Admissible client.subscriptionManager.format agvId)
    (started : client.isStarted = true) (connection : client.mqtt.isSome = true)
    (timestamp : isDateTime now = true) :
    client.publishTopic (settings agvId text) (connectionPublication agvId state now) =
      ((client.nextHeaderId "connection").2,
        .ok (some (connectionMessage agvId text now client state))) := by
  obtain ⟨mqtt, found⟩ := Option.isSome_iff_exists.mp connection
  have checked : client.checkPublication (settings agvId text)
      (connectionPublication agvId state now) = .ok () := by
    rw [Client.checkPublication, if_pos started]
    exact bind_eq_ok.mpr ⟨(), validateTopic_connection client, admissible.valid⟩
  have valid : validateCoreObject "connection"
      (connectionMessage agvId text now client state).object.toJson = .ok () :=
    validateCoreObject_connection timestamp rfl rfl rfl
  have verified : (client.nextHeaderId "connection").2.mqttPayload (settings agvId text)
      (connectionPublication agvId state now)
        (connectionMessage agvId text now client state).object =
      .ok (connectionMessage agvId text now client state).mqttPayload :=
    bind_eq_ok.mpr ⟨(), valid, bind_eq_ok.mpr ⟨(), admissible.length, rfl⟩⟩
  have handed : (client.nextHeaderId "connection").2.handOver
      (connectionPublication agvId state now)
        (connectionMessage agvId text now client state).object
        (connectionMessage agvId text now client state).mqttPayload =
      .ok (some (connectionMessage agvId text now client state)) := by
    have kept : (client.nextHeaderId "connection").2.mqtt = some mqtt := found
    unfold Client.handOver
    rw [kept]
    dsimp only
    rw [if_neg (by simp [connectionPublication])]
    rfl
  unfold Client.publishTopic
  rw [checked]
  exact Prod.ext rfl (bind_eq_ok.mpr ⟨_, verified, handed⟩)

end AgvClient

end Vda5050
