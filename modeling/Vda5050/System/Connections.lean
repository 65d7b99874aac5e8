import Mathlib.Logic.Function.Basic
import Vda5050.Client.MasterControlClient
import Vda5050.Common.LifeCycle

/-!
# Connections of vehicles

The AGV clients of all vehicles and a master control client, as far as the connections of
the vehicles are concerned. MQTT.js and the broker are given by what their documentation
says: a broker publishes the last will of a client whose connection breaks, keeps the last
connection message of each vehicle, and sends it to the master control client as soon as
this subscribes. What a client has sent is lost if its connection breaks before it has been
received.
-/

set_option autoImplicit false

namespace Vda5050

/-- The identity of a vehicle, as the constructor of its client accepts it. -/
abbrev VehicleId := { agvId : AgvId // validateAgvId agvId.toPartial false = .ok () }

/-- The topic of the connection of a vehicle. -/
def connectionTopic (format : TopicFormat) (vehicle : VehicleId) : String :=
  format.constructMqttTopic vehicle.val.manufacturer vehicle.val.serialNumber "connection"

/-- The subject of a message, by its header. -/
def subjectOf (message : MqttMessage Properties) : Option VehicleId :=
  match message.object.manufacturer, message.object.serialNumber with
  | some manufacturer, some serialNumber =>
      if valid : validateAgvId (AgvId.toPartial ⟨manufacturer, serialNumber⟩) false = .ok () then
        some ⟨⟨manufacturer, serialNumber⟩, valid⟩
      else none
  | _, _ => none

/-! ## The network -/

inductive Packet where
  | publish (message : MqttMessage Properties)
  | disconnect

/-- A session at the broker, with the packets that it has not received. -/
structure Session where
  will : MqttMessage Properties
  packets : List Packet := []

/-- The MQTT client of a vehicle, which keeps what is published offline. -/
structure Link where
  will : Option (MqttMessage Properties) := none
  queued : List (MqttMessage Properties) := []
  session : Option Session := none

/-- What clients call, and what happens between them and the broker. -/
inductive NetworkEvent where
  /-- `connect`, with the last will among its options. -/
  | connect (vehicle : VehicleId) (will : MqttMessage Properties)
  /-- The broker accepts a connection, the first one or a later one. -/
  | connected (vehicle : VehicleId)
  | publish (vehicle : VehicleId) (online : Bool) (message : MqttMessage Properties)
  /-- `end` -/
  | disconnect (vehicle : VehicleId) (online : Bool)
  /-- The broker receives the next packet of a vehicle. -/
  | receive (vehicle : VehicleId)
  /-- The broker finds the connection of a vehicle broken. -/
  | broken (vehicle : VehicleId)
  /-- The master control client subscribes to the topics of connections. -/
  | subscribe
  /-- It receives one of the messages sent to it. -/
  | deliver (position : Nat)
  /-- It has lost its connection, or has ended it. -/
  | unsubscribe

namespace NetworkEvent

def vehicle? : NetworkEvent → Option VehicleId
  | .connect vehicle _ | .connected vehicle | .publish vehicle _ _ | .disconnect vehicle _
  | .receive vehicle | .broken vehicle => some vehicle
  | .subscribe | .deliver _ | .unsubscribe => none

/-- A call of MQTT.js by a vehicle, of which the broker does not know yet. -/
def IsCall : NetworkEvent → Prop
  | .connect .. | .publish .. | .disconnect .. => True
  | _ => False

end NetworkEvent

/-- MQTT.js and the broker, with what can be told from their state about connections. -/
structure MqttNetwork (State : Type) where
  initial : State
  step : State → NetworkEvent → Option State
  link : State → VehicleId → Link
  /-- The message that the broker keeps of a topic. -/
  retained : State → String → Option (MqttMessage Properties)
  /-- The messages sent to the master control client, `none` if this is not subscribed. -/
  inbound : State → Option (List (MqttMessage Properties))

namespace MqttNetwork

variable {State : Type} (network : MqttNetwork State)

/-- The broker publishes a message: it keeps it if it is to be retained, and sends it on. -/
structure Publishes (before after : State) (message : MqttMessage Properties) : Prop where
  retained : ∀ topic, network.retained after topic =
    if message.retain = true ∧ topic = message.mqttTopic then some message
    else network.retained before topic
  inbound : network.inbound after = (network.inbound before).map (· ++ [message])

/-- The broker publishes nothing. -/
structure Quiet (before after : State) : Prop where
  retained : network.retained after = network.retained before
  inbound : network.inbound after = network.inbound before

/-- The broker publishes a last will, if there is one. -/
def PublishesWill (before after : State) : Option (MqttMessage Properties) → Prop
  | none => network.Quiet before after
  | some will => network.Publishes before after will

/-- What the documentation of MQTT.js and the MQTT standard say. -/
structure Documented : Prop where
  /-- No client has called `connect`, and the broker has kept nothing. -/
  initial_link : ∀ vehicle, network.link network.initial vehicle = {}
  initial_retained : ∀ topic, network.retained network.initial topic = none
  initial_inbound : network.inbound network.initial = none
  /-- Clients do not share a connection. -/
  isolated : ∀ {before after event vehicle}, network.step before event = some after →
    event.vehicle? ≠ some vehicle → network.link after vehicle = network.link before vehicle
  /-- The broker publishes what it has received, and not what has been called. -/
  call : ∀ {before after event}, network.step before event = some after → event.IsCall →
    network.Quiet before after
  /-- The options given to `connect` hold for every connection and reconnection. -/
  connect : ∀ {before after vehicle will},
    network.step before (.connect vehicle will) = some after →
    network.link after vehicle = { network.link before vehicle with will := some will }
  /-- With a clean session, nothing is left of an earlier connection, and what has been
  published offline is sent first. -/
  connected : ∀ {before after vehicle}, network.step before (.connected vehicle) = some after →
    network.link after vehicle =
      { network.link before vehicle with
        queued := []
        session := (network.link before vehicle).will.map fun will =>
          { will := will, packets := (network.link before vehicle).queued.map .publish } }
  /-- A client identifier has one session: the broker closes an earlier one without having
  been told of its end. -/
  takenOver : ∀ {before after vehicle}, network.step before (.connected vehicle) = some after →
    network.PublishesWill before after ((network.link before vehicle).session.map (·.will))
  /-- Packets are sent in the order of the calls. -/
  publish_online : ∀ {before after vehicle message},
    network.step before (.publish vehicle true message) = some after →
    network.link after vehicle =
      { network.link before vehicle with
        session := (network.link before vehicle).session.map fun session =>
          { session with packets := session.packets ++ [.publish message] } }
  /-- With `queueQoSZero`, messages are kept while the client is offline. -/
  publish_offline : ∀ {before after vehicle message},
    network.step before (.publish vehicle false message) = some after →
    network.link after vehicle =
      { network.link before vehicle with
        queued := (network.link before vehicle).queued ++ [message] }
  /-- `end` sends DISCONNECT behind what has been published. -/
  disconnect_online : ∀ {before after vehicle},
    network.step before (.disconnect vehicle true) = some after →
    network.link after vehicle =
      { network.link before vehicle with
        queued := []
        session := (network.link before vehicle).session.map fun session =>
          { session with packets := session.packets ++ [.disconnect] } }
  /-- Offline, `end` drops what has been kept. -/
  disconnect_offline : ∀ {before after vehicle},
    network.step before (.disconnect vehicle false) = some after →
    network.link after vehicle = { network.link before vehicle with queued := [] }
  /-- The packets of a session arrive in their order. A session ends with DISCONNECT, and its
  last will is dropped. -/
  receive : ∀ {before after vehicle}, network.step before (.receive vehicle) = some after →
    ∃ session, (network.link before vehicle).session = some session ∧
      ((∃ message packets, session.packets = .publish message :: packets ∧
          network.Publishes before after message ∧
          network.link after vehicle =
            { network.link before vehicle with
              session := some { session with packets := packets } }) ∨
        ((∃ packets, session.packets = .disconnect :: packets) ∧ network.Quiet before after ∧
          network.link after vehicle =
            { network.link before vehicle with session := none }))
  /-- The broker publishes the last will of a session that has not been ended. -/
  broken : ∀ {before after vehicle}, network.step before (.broken vehicle) = some after →
    ∃ session, (network.link before vehicle).session = some session ∧
      network.Publishes before after session.will ∧
      network.link after vehicle = { network.link before vehicle with session := none }
  /-- A new subscription is sent the messages that have been kept, in some order. -/
  subscribe : ∀ {before after}, network.step before .subscribe = some after →
    network.retained after = network.retained before ∧
      ∃ messages, network.inbound after = some messages ∧
        ∀ message, message ∈ messages ↔ ∃ topic, network.retained before topic = some message
  /-- Messages of one topic arrive in their order. -/
  deliver : ∀ {before after position},
    network.step before (.deliver position) = some after →
    network.retained after = network.retained before ∧
      ∃ messages message, network.inbound before = some messages ∧
        messages[position]? = some message ∧
        (∀ earlier ∈ messages.take position, earlier.mqttTopic ≠ message.mqttTopic) ∧
        network.inbound after = some (messages.eraseIdx position)
  /-- Messages to a client that is not connected are lost. -/
  unsubscribe : ∀ {before after}, network.step before .unsubscribe = some after →
    network.retained after = network.retained before ∧ network.inbound after = none

end MqttNetwork

/-! ## The system -/

/-- `reconnected` tells whether a client has reconnected since it was started. -/
structure ConnectionSystem (State : Type) where
  network : State
  histories : VehicleId → ClientHistory Properties Unit
  reconnected : VehicleId → Bool := fun _ => false
  client : MasterControlClient := {}

inductive ConnectionEvent where
  | vehicle (vehicle : VehicleId) (now : String) (event : ClientEvent Properties Unit)
  | receive (vehicle : VehicleId)
  | broken (vehicle : VehicleId)
  | subscribe
  | deliver (position : Nat)
  | offline
  | trackAgvs (handler : Nat)
  | reset

namespace AgvClient

/-- What an event of a client means for its connection, by `_connect` and `_disconnect`. -/
def networkEvents (vehicle : VehicleId) (text : Vda5050Object Properties → String) (now : String)
    (h next : ClientHistory Properties Unit) : ClientEvent Properties Unit → List NetworkEvent
  | .start =>
      if next.awaiting = some .connection then
        [.connect vehicle (createLastWill vehicle.val text now h.client)]
      else []
  | .connectSettled true | .online => [.connected vehicle]
  | .hookSettled true =>
      if h.awaiting = some .onStopping then [.disconnect vehicle h.client.isConnected] else []
  | _ => []

/-- The message handed over by a hook. -/
def publishEvents (vehicle : VehicleId) (next : ClientHistory Properties Unit)
    (message : Option (MqttMessage Properties)) : List NetworkEvent :=
  (message.map (.publish vehicle next.client.isConnected)).toList

end AgvClient

namespace ConnectionSystem

variable {State : Type} (network : MqttNetwork State)

def initial (format : TopicFormat) : ConnectionSystem State where
  network := network.initial
  histories := fun _ => .initial format

/-- Whether a client has reconnected after an event. -/
def nextReconnected (reconnected : Bool) : ClientEvent Properties Unit → Bool
  | .connectSettled true => false
  | .online => true
  | _ => reconnected

/-- The system once a vehicle has taken a step. -/
def move (sys : ConnectionSystem State) (vehicle : VehicleId) (state : State)
    (next : ClientHistory Properties Unit) (reconnected : Bool) : ConnectionSystem State :=
  { sys with
    network := state
    histories := Function.update sys.histories vehicle next
    reconnected := Function.update sys.reconnected vehicle reconnected }

def step (text : Vda5050Object Properties → String) (sys : ConnectionSystem State) :
    ConnectionEvent → Option (ConnectionSystem State)
  | .vehicle vehicle now event =>
      (AgvClient.step vehicle.val text now (sys.histories vehicle) event).bind
        fun (next, message) =>
          ((AgvClient.networkEvents vehicle text now (sys.histories vehicle) next event ++
              AgvClient.publishEvents vehicle next message).foldlM network.step sys.network).map
            fun state =>
              sys.move vehicle state next (nextReconnected (sys.reconnected vehicle) event)
  | .receive vehicle =>
      (network.step sys.network (.receive vehicle)).map fun state => { sys with network := state }
  | .broken vehicle =>
      (network.step sys.network (.broken vehicle)).map fun state => { sys with network := state }
  | .subscribe =>
      (network.step sys.network .subscribe).map fun state => { sys with network := state }
  | .deliver position =>
      (network.step sys.network (.deliver position)).bind fun state =>
        ((network.inbound sys.network).bind (·[position]?)).map fun message =>
          { sys with
            network := state
            client := (subjectOf message).elim sys.client fun vehicle =>
              sys.client.onConnection vehicle.val message.object }
  | .offline =>
      (network.step sys.network .unsubscribe).map fun state => { sys with network := state }
  | .trackAgvs handler => some { sys with client := sys.client.trackAgvs handler }
  | .reset =>
      (network.step sys.network .unsubscribe).map fun state =>
        { sys with network := state, client := sys.client.reset }

/-- Only the client itself publishes on the topic of its connection. -/
def SparesConnection : ClientEvent Properties Unit → Prop
  | .publishTopic publication => publication.topic ≠ "connection"
  | _ => True

instance (event : ClientEvent Properties Unit) : Decidable (SparesConnection event) :=
  match event with
  | .publishTopic publication => inferInstanceAs (Decidable (publication.topic ≠ "connection"))
  | .start | .stop | .connectSettled _ | .hookSettled _ | .disconnected | .online | .offline
  | .registerExtensionTopic _ _ | .subscribeTopic _ | .subscribeSettled _ _ | .unsubscribe _ =>
      isTrue trivial

/-- The topic of each vehicle is short enough, clocks show a date and time, and nothing else
is published on the topics of connections. -/
def Allowed (format : TopicFormat) : ConnectionSystem State → ConnectionEvent → Prop
  | _, .vehicle vehicle now event =>
      AgvClient.Admissible format vehicle.val ∧ isDateTime now = true ∧ SparesConnection event
  | _, _ => True

instance (format : TopicFormat) (sys : ConnectionSystem State) (event : ConnectionEvent) :
    Decidable (Allowed format sys event) :=
  match event with
  | .vehicle vehicle now event =>
      inferInstanceAs (Decidable (AgvClient.Admissible format vehicle.val ∧
        isDateTime now = true ∧ SparesConnection event))
  | .receive _ | .broken _ | .subscribe | .deliver _ | .offline | .trackAgvs _ | .reset =>
      isTrue trivial

end ConnectionSystem

end Vda5050
