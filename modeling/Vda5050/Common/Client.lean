import Vda5050.Common.MqttUtils
import Vda5050.Common.Subscriptions

/-!
# The client

Publishing, subscribing and unsubscribing over an MQTT connection, and the life
cycle of the connection. What the hooks of subclasses do, how they end and what
the broker answers is left to the environment.
-/

set_option autoImplicit false

namespace Vda5050

open Library

/-! ## Topics and subjects -/

/-- The values of `Topic`. -/
def coreTopics : List String :=
  ["order", "instantActions", "state", "visualization", "connection"]

def isExtensionTopic (topic : String) : Bool := topic ∉ coreTopics

/-- No match of `ILLEGAL_TOPIC_LEVEL_CHARS_REGEX`. -/
def isValidTopicLevel (name : String) : Bool :=
  name.toList.all fun char => char ∉ [Char.ofNat 0, '+', '#', '/']

def isSerialNumberChar (char : Char) : Bool :=
  char.isAlphanum || char ∈ ['_', '.', ':', '-']

def validateManufacturer (manufacturer : Option String) (forSubscription : Bool) :
    Except String Unit :=
  match manufacturer with
  | none =>
      if forSubscription then .ok ()
      else .error "AgvId.manufacturer not specified for publication"
  | some manufacturer =>
      if manufacturer = "" then .error "Empty string passed in AgvId.manufacturer."
      else if isValidTopicLevel manufacturer then .ok ()
      else .error "AgvId.manufacturer is not a valid MQTT topic level"

def validateSerialNumber (serialNumber : Option String) (forSubscription : Bool) :
    Except String Unit :=
  match serialNumber with
  | none =>
      if forSubscription then .ok ()
      else .error "AgvId.serialNumber not specified for publication"
  | some serialNumber =>
      if serialNumber = "" then .error "Empty string passed in AgvId.serialNumber."
      else if isValidTopicLevel serialNumber && serialNumber.toList.all isSerialNumberChar then
        .ok ()
      else .error "AgvId.serialNumber is not a valid MQTT topic level or not restricted to A-Z a-z 0-9 _ . : -"

def validateAgvId (agvId : PartialAgvId) (forSubscription : Bool) : Except String Unit := do
  validateManufacturer agvId.manufacturer forSubscription
  validateSerialNumber agvId.serialNumber forSubscription

/-! ## Objects -/

/-- A uint32. -/
abbrev HeaderId := Fin 4294967296

/-- The id after a given one, with uint32 wraparound. -/
def HeaderId.increment (id : HeaderId) : HeaderId :=
  if bound : id.val < 0xFFFFFFFF then ⟨id.val + 1, by omega⟩ else 0

/-- A topic object without header. The caller may give a timestamp. -/
structure HeaderlessObject (Payload : Type) where
  timestamp : Option String := none
  payload : Payload

structure Vda5050Object (Payload : Type) where
  headerId : HeaderId
  timestamp : String
  manufacturer : Option String
  serialNumber : Option String
  version : String
  payload : Payload

structure ExtensionTopic (Payload : Type) where
  asInbound : Bool
  asOutbound : Bool
  validator : String → Vda5050Object Payload → Except String Unit

/-- The object of `getLastWillTopic`. -/
structure LastWill (Payload : Type) where
  topic : String
  subject : PartialAgvId
  object : HeaderlessObject Payload
  retainMessage : Bool

/-- The options of a client and what its class defines. `stringify` fails on
objects that are no valid JSON. -/
structure ClientSettings (Payload : Type) where
  protocolVersion : String := "1.1.0"
  validatesOutbound : Bool := true
  validateTopicDirection : String → Bool → Except String Unit
  validateCoreObject : String → Vda5050Object Payload → Except String Unit
  stringify : Vda5050Object Payload → Except String String
  lastWill : Option (LastWill Payload) := none

/-- The arguments of `publishTopic`, and the time of the call. -/
structure Publication (Payload : Type) where
  topic : String
  subject : PartialAgvId
  object : HeaderlessObject Payload
  dropIfOffline : Bool := false
  retainMessage : Bool := false
  now : String := ""

/-- A message handed to MQTT, with the topic it is published on. -/
structure MqttMessage (Payload : Type) where
  topic : String
  mqttTopic : String
  mqttPayload : String
  retain : Bool
  object : Vda5050Object Payload

/-! ## The client -/

/-- An MQTT subscribe for a subscription, `none` for a resubscription. -/
structure SubscribeRequest where
  id : Option String
  mqttTopic : Option String
  deriving DecidableEq, Repr

/-- `_mqtt`, with the MQTT subscribes requested from the broker that have
neither failed nor been unsubscribed. -/
structure MqttClient where
  connected : Bool := false
  requests : List SubscribeRequest := []
  deriving DecidableEq, Repr

namespace MqttClient

variable (mqtt : MqttClient)

def subscribe (request : SubscribeRequest) : MqttClient :=
  { mqtt with requests := mqtt.requests ++ [request] }

def unsubscribe (mqttTopic : Option String) : MqttClient :=
  { mqtt with requests := mqtt.requests.filter (·.mqttTopic ≠ mqttTopic) }

/-- The MQTT subscribe of a subscription has failed. -/
def subscribeFailed (id : String) : MqttClient :=
  { mqtt with requests := mqtt.requests.filter (·.id ≠ some id) }

/-- A connection with a clean session, after the resubscriptions. -/
def resubscribed (resubscribes : List String) : MqttClient where
  connected := true
  requests := resubscribes.map fun mqttTopic => { id := none, mqttTopic := some mqttTopic }

end MqttClient

structure Client (Payload Handler : Type) where
  isStarted : Bool := false
  isStopping : Bool := false
  mqtt : Option MqttClient := none
  headerIds : List (String × HeaderId) := []
  subscriptionManager : SubscriptionManager Handler
  extensionTopics : List (String × ExtensionTopic Payload) := []

/-- How the promise of `subscribeTopic` is settled, by the broker if an MQTT
subscribe is requested. -/
inductive SubscribeOutcome where
  | resolved
  | requested
  | rejected (error : String)
  deriving DecidableEq, Repr

/-- How the promise of `unsubscribe` is settled. -/
inductive UnsubscribeOutcome where
  | resolved
  | requested (mqttTopic : Option String)
  | rejected (error : String)
  deriving DecidableEq, Repr

namespace Client

variable {Payload Handler : Type} (settings : ClientSettings Payload)
  (client : Client Payload Handler)

def isConnected : Bool := client.mqtt.any (·.connected)

def withManager (manager : SubscriptionManager Handler) : Client Payload Handler :=
  { client with subscriptionManager := manager }

@[simp] theorem withManager_subscriptionManager (manager : SubscriptionManager Handler) :
    (client.withManager manager).subscriptionManager = manager := rfl

/-- The error of reading a property of `_mqtt` where this is undefined. -/
def undefinedMqtt : String := "Cannot read property 'connected' of undefined"

/-! ## Validation -/

def validateExtensionTopic (topic : String) (forSubscription : Bool) : Except String Unit :=
  match client.extensionTopics.lookup topic with
  | none => .error s!"Extension topic {topic} is not registered"
  | some extension =>
      if forSubscription && !extension.asInbound then
        .error s!"Extension topic {topic} is not registered for inbound communication"
      else if !forSubscription && !extension.asOutbound then
        .error s!"Extension topic {topic} is not registered for outbound communication"
      else .ok ()

/-- `_validateTopic` -/
def validateTopic (topic : Option String) (forSubscription : Bool) : Except String Unit :=
  match topic with
  | none => .error "Topic undefined or empty"
  | some topic =>
      if topic = "" then .error "Topic undefined or empty"
      else if !isValidTopicLevel topic then
        .error s!"Topic {topic} is not a valid MQTT topic level"
      else if isExtensionTopic topic then client.validateExtensionTopic topic forSubscription
      else settings.validateTopicDirection topic forSubscription

/-- `validateTopicObject`. An extension topic is registered when this is called. -/
def validateTopicObject (topic : String) (object : Vda5050Object Payload) : Except String Unit :=
  if isExtensionTopic topic then
    match client.extensionTopics.lookup topic with
    | none => .error "undefined is not iterable"
    | some extension => extension.validator topic object
  else settings.validateCoreObject topic object

def registerExtensionTopic (extensionTopic : String) (extension : ExtensionTopic Payload) :
    Client Payload Handler :=
  { client with extensionTopics := put extensionTopic extension client.extensionTopics }

/-! ## Publishing -/

/-- `_nextHeaderId` -/
def nextHeaderId (topic : String) : HeaderId × Client Payload Handler :=
  let id := (client.headerIds.lookup topic).getD 0
  (id, { client with headerIds := put topic id.increment client.headerIds })

/-- `_withObjectHeader` -/
def withObjectHeader (topic : String) (subject : PartialAgvId) (now : String)
    (object : HeaderlessObject Payload) : Vda5050Object Payload × Client Payload Handler :=
  let (id, client) := client.nextHeaderId topic
  ({ headerId := id
     timestamp := object.timestamp.getD now
     manufacturer := subject.manufacturer
     serialNumber := subject.serialNumber
     version := settings.protocolVersion
     payload := object.payload }, client)

/-- The checks of `publishTopic` before the object gets its header. -/
def checkPublication (publication : Publication Payload) : Except String Unit :=
  if client.isStarted then do
    client.validateTopic settings (some publication.topic) false
    validateAgvId publication.subject false
  else .error "Client is not started"

/-- The checks of `publishTopic` on the object with its header, and its JSON text. -/
def mqttPayload (publication : Publication Payload) (object : Vda5050Object Payload) :
    Except String String := do
  if settings.validatesOutbound then
    client.validateTopicObject settings publication.topic object
  Utf16String.assertMqttTopicLength (Utf16String.encode
    (client.subscriptionManager.getMqttTopic (some publication.topic) publication.subject))
  settings.stringify object

/-- The message handed to MQTT, `none` if it is dropped while offline. -/
def handOver (publication : Publication Payload) (object : Vda5050Object Payload)
    (mqttPayload : String) : Except String (Option (MqttMessage Payload)) :=
  match client.mqtt with
  | none => .error undefinedMqtt
  | some mqtt =>
      if !mqtt.connected && publication.dropIfOffline then .ok none
      else
        .ok (some
          { topic := publication.topic
            mqttTopic :=
              client.subscriptionManager.getMqttTopic (some publication.topic) publication.subject
            mqttPayload := mqttPayload
            retain := publication.retainMessage
            object := object })

/-- `publishTopic`, up to the answer of the broker. -/
def publishTopic (publication : Publication Payload) :
    Client Payload Handler × Except String (Option (MqttMessage Payload)) :=
  match client.checkPublication settings publication with
  | .error error => (client, .error error)
  | .ok () =>
      let (object, client) := client.withObjectHeader settings publication.topic
        publication.subject publication.now publication.object
      (client, (client.mqttPayload settings publication object).bind
        (client.handOver publication object))

/-! ## Subscribing -/

/-- The checks of `subscribeTopic` before the handler is added. -/
def checkSubscription (subscription : Subscription Handler) : Except String Unit :=
  if client.isStarted then do
    client.validateTopic settings subscription.topic true
    validateAgvId subscription.subject true
  else .error "Client is not started"

/-- What is done for a handler that has been added. -/
def requestSubscribe (added : AddedSubscription) : Client Payload Handler × SubscribeOutcome :=
  if added.requiresSubscribe then
    match client.mqtt with
    | none => (client, .rejected undefinedMqtt)
    | some mqtt =>
        if mqtt.connected then
          ({ client with
              mqtt := some (mqtt.subscribe { id := some added.id, mqttTopic := added.mqttTopic }) },
            .requested)
        else (client, .resolved)
  else (client, .resolved)

/-- `subscribeTopic`, which throws or issues the id of the subscription. -/
def subscribeTopic (subscription : Subscription Handler) :
    Except String (Client Payload Handler × SubscribeOutcome) := do
  client.checkSubscription settings subscription
  let (manager, added) ← client.subscriptionManager.add subscription.id subscription.topic
    subscription.subject subscription.handler
  return (client.withManager manager).requestSubscribe added

/-! ## Unsubscribing -/

/-- What is done for a handler that has been removed. -/
def requestUnsubscribe (removed : RemovedSubscription) :
    Client Payload Handler × UnsubscribeOutcome :=
  if removed.requiresUnsubscribe then
    match client.mqtt with
    | none => (client, .rejected undefinedMqtt)
    | some mqtt =>
        if mqtt.connected then
          ({ client with mqtt := some (mqtt.unsubscribe removed.mqttTopic) },
            .requested removed.mqttTopic)
        else (client, .resolved)
  else (client, .resolved)

/-- `unsubscribe`. The result of `remove` is destructured in any case. -/
def unsubscribe (id : String) : Except String (Client Payload Handler × UnsubscribeOutcome) :=
  if client.isStarted then
    match client.subscriptionManager.remove id with
    | (_, none) => .ok (client, .rejected "Cannot destructure property 'mqttTopic' of undefined")
    | (manager, some removed) =>
        .ok ((client.withManager manager).requestUnsubscribe removed)
  else .error "Client is not started"

/-! ## Connecting -/

/-- `_connect`, up to the answer of the broker. A last will takes a header id. -/
def connect : Client Payload Handler :=
  let client := { client with mqtt := some {} }
  match settings.lastWill with
  | none => client
  | some lastWill => (client.nextHeaderId lastWill.topic).2

/-- The connection is established or restored. -/
def connected : Client Payload Handler :=
  { client with mqtt := client.mqtt.map fun _ => .resubscribed client.subscriptionManager.getAll }

/-- `reset` -/
def reset : Client Payload Handler :=
  client.withManager client.subscriptionManager.clear

end Client

/-! ## Histories -/

/-- What the call of `start` or `stop` that is underway awaits. -/
inductive Awaiting where
  | connection
  | onStarted
  | onStopping
  | disconnection
  deriving DecidableEq, Repr

/-- A client in use: the call underway, the subscription ids issued, the
subscriptions added and neither removed nor cleared since, the subscriptions by
how their promises are settled, and the messages handed to MQTT. -/
structure ClientHistory (Payload Handler : Type) where
  client : Client Payload Handler
  awaiting : Option Awaiting := none
  issued : List String := []
  live : List (Subscription Handler) := []
  pending : List String := []
  resolved : List String := []
  rejected : List String := []
  published : List (MqttMessage Payload) := []

inductive ClientEvent (Payload Handler : Type) where
  | start
  | stop
  | connectSettled (succeeded : Bool)
  | hookSettled (succeeded : Bool)
  | disconnected
  | online
  | offline
  | registerExtensionTopic (extensionTopic : String) (extension : ExtensionTopic Payload)
  | publishTopic (publication : Publication Payload)
  | subscribeTopic (subscription : Subscription Handler)
  | subscribeSettled (id : String) (succeeded : Bool)
  | unsubscribe (id : String)

namespace ClientHistory

variable {Payload Handler : Type} (settings : ClientSettings Payload)
  (h : ClientHistory Payload Handler)

def initial (format : TopicFormat) : ClientHistory Payload Handler :=
  { client := { subscriptionManager := { format := format } } }

/-- A call of `start`. -/
def start : ClientHistory Payload Handler :=
  if h.client.isStarted then h
  else { h with client := h.client.connect settings, awaiting := some .connection }

/-- A call of `stop`. -/
def stop : ClientHistory Payload Handler :=
  if !h.client.isStarted || h.client.isStopping then h
  else { h with client := { h.client with isStopping := true }, awaiting := some .onStopping }

/-- `start` after `_connect`. -/
def connectSettled (succeeded : Bool) : ClientHistory Payload Handler :=
  if succeeded then
    { h with
      client := { h.client.connected with isStarted := true }
      awaiting := some .onStarted }
  else { h with client := { h.client with mqtt := none }, awaiting := none }

/-- `stop` after `onStopping`, up to the end of the connection. -/
def stopped : ClientHistory Payload Handler :=
  { h with
    client := { h.client with isStarted := false, isStopping := false, mqtt := none }
    awaiting := if h.client.mqtt.isSome then some .disconnection else none }

def subscribed (subscription : Subscription Handler) :
    Except String (Client Payload Handler × SubscribeOutcome) → ClientHistory Payload Handler
  | .error _ => h
  | .ok (client, outcome) =>
      { h with
        client := client
        issued := h.issued ++ [subscription.id]
        live := h.live ++ [subscription]
        pending :=
          match outcome with
          | .requested => h.pending ++ [subscription.id]
          | .resolved | .rejected _ => h.pending
        resolved :=
          match outcome with
          | .resolved => h.resolved ++ [subscription.id]
          | .requested | .rejected _ => h.resolved
        rejected :=
          match outcome with
          | .rejected _ => h.rejected ++ [subscription.id]
          | .requested | .resolved => h.rejected }

/-- The broker answers the MQTT subscribe of a subscription. -/
def subscribeSettled (id : String) (succeeded : Bool) : ClientHistory Payload Handler :=
  if succeeded then
    { h with pending := h.pending.filter (· ≠ id), resolved := h.resolved ++ [id] }
  else
    { h with
      client := { h.client with mqtt := h.client.mqtt.map (·.subscribeFailed id) }
      pending := h.pending.filter (· ≠ id)
      rejected := h.rejected ++ [id] }

def unsubscribed (id : String) :
    Except String (Client Payload Handler × UnsubscribeOutcome) → ClientHistory Payload Handler
  | .error _ => h
  | .ok (client, _) => { h with client := client, live := h.live.filter (·.id ≠ id) }

def publishedBy :
    Client Payload Handler × Except String (Option (MqttMessage Payload)) →
      ClientHistory Payload Handler
  | (client, .ok (some message)) =>
      { h with client := client, published := h.published ++ [message] }
  | (client, _) => { h with client := client }

/-- Calls of `start` and `stop` are awaited before the next one. -/
def step : ClientEvent Payload Handler → Option (ClientHistory Payload Handler)
  | .start => if h.awaiting = none then some (h.start settings) else none
  | .stop => if h.awaiting = none then some h.stop else none
  | .connectSettled succeeded =>
      if h.awaiting = some .connection then some (h.connectSettled succeeded) else none
  | .hookSettled succeeded =>
      match h.awaiting with
      | some .onStarted => some { h with awaiting := none }
      | some .onStopping =>
          if succeeded then some h.stopped else some { h with awaiting := none }
      | some .connection | some .disconnection | none => none
  | .disconnected =>
      if h.awaiting = some .disconnection then
        some { h with client := h.client.reset, awaiting := none, live := [] }
      else none
  | .online =>
      if h.client.isStarted && !h.client.isConnected then
        some { h with client := h.client.connected }
      else none
  | .offline =>
      if h.client.isStarted && h.client.isConnected then
        some { h with
          client := { h.client with
            mqtt := h.client.mqtt.map fun mqtt => { mqtt with connected := false } } }
      else none
  | .registerExtensionTopic extensionTopic extension =>
      some { h with client := h.client.registerExtensionTopic extensionTopic extension }
  | .publishTopic publication =>
      some (h.publishedBy (h.client.publishTopic settings publication))
  | .subscribeTopic subscription =>
      some (h.subscribed subscription (h.client.subscribeTopic settings subscription))
  | .subscribeSettled id succeeded =>
      if id ∈ h.pending then some (h.subscribeSettled id succeeded) else none
  | .unsubscribe id => some (h.unsubscribed id (h.client.unsubscribe id))

/-- Every subscription gets a new id. -/
def FreshIds : ClientEvent Payload Handler → Prop
  | .subscribeTopic subscription => subscription.id ∉ h.issued
  | _ => True

end ClientHistory

end Vda5050
