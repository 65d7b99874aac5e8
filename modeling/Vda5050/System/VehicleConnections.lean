import Vda5050.Common.Delivery
import Vda5050.System.Connections

/-!
# The connection of a vehicle

A client and the broker, as they see the connection of a vehicle. What the client publishes
and the last will tell the state of its connection, until the client stops or the connection
breaks. A client does not publish its state again when it reconnects.
-/

set_option autoImplicit false

namespace Vda5050

open Library

/-! ## Topics of connections -/

namespace TopicFormat

/-- The topics of different vehicles differ. -/
structure TellsApart (format : TopicFormat) : Prop where
  interfaceName : '/' ∉ format.interfaceName.toList
  majorVersion : '/' ∉ format.majorVersion.toList
  manufacturer : manufacturerPlaceholder ∈ format.levels
  serialNumber : serialNumberPlaceholder ∈ format.levels

instance (format : TopicFormat) : Decidable format.TellsApart :=
  decidable_of_iff
    ('/' ∉ format.interfaceName.toList ∧ '/' ∉ format.majorVersion.toList ∧
      manufacturerPlaceholder ∈ format.levels ∧ serialNumberPlaceholder ∈ format.levels)
    ⟨fun ⟨name, version, first, second⟩ => ⟨name, version, first, second⟩,
      fun ⟨name, version, first, second⟩ => ⟨name, version, first, second⟩⟩

end TopicFormat

private theorem indexOfLevel_of_mem {levels : List String} {placeholder : String}
    (member : placeholder ∈ levels) : ∃ index, indexOfLevel levels placeholder = some index := by
  refine Option.isSome_iff_exists.mp (List.findIdx?_isSome.trans ?_)
  exact List.any_eq_true.mpr ⟨placeholder, member, by simp⟩

/-- The identity of a vehicle is read from the topic of its connection. -/
private theorem deconstructMqttTopic_connectionTopic {format : TopicFormat}
    (apart : format.TellsApart) (vehicle : VehicleId) :
    format.deconstructMqttTopic (connectionTopic format vehicle) =
      { manufacturer := some vehicle.val.manufacturer
        serialNumber := some vehicle.val.serialNumber
        topic := some "connection" } := by
  obtain ⟨subject, same, manufacturer, serialNumber⟩ := validateAgvId_spec vehicle.property
  simp only [AgvId.toPartial, PartialAgvId.mk.injEq, Option.some.injEq] at same
  obtain ⟨firstIndex, first⟩ := indexOfLevel_of_mem apart.manufacturer
  obtain ⟨secondIndex, second⟩ := indexOfLevel_of_mem apart.serialNumber
  unfold connectionTopic
  rw [format.deconstructMqttTopic_constructMqttTopic apart.interfaceName apart.majorVersion
    (same.1 ▸ (isValidTopicLevel_excludes manufacturer).2)
    (same.2 ▸ (isValidTopicLevel_excludes serialNumber).2) (by decide), first, second]
  rfl

theorem connectionTopic_injective {format : TopicFormat} (apart : format.TellsApart) :
    Function.Injective (connectionTopic format) := by
  intro one other same
  have parts := deconstructMqttTopic_connectionTopic apart one
  rw [same, deconstructMqttTopic_connectionTopic apart other] at parts
  simp only [TopicFormat.DeconstructedTopic.mk.injEq, Option.some.injEq] at parts
  obtain ⟨⟨manufacturer, serialNumber⟩, valid⟩ := one
  obtain ⟨⟨manufacturer', serialNumber'⟩, valid'⟩ := other
  obtain ⟨rfl, rfl, -⟩ := parts
  rfl

/-! ## Messages of a vehicle -/

/-- A message of a vehicle on the state of its connection. -/
structure Announces (format : TopicFormat) (vehicle : VehicleId) (state : ConnectionState)
    (message : MqttMessage Properties) : Prop where
  mqttTopic : message.mqttTopic = connectionTopic format vehicle
  subject : subjectOf message = some vehicle
  retain : message.retain = true
  payload : message.object.payload = connectionProperties state

theorem connectionProperties_injective : Function.Injective connectionProperties := by
  intro one other same
  cases one <;> cases other <;> simp_all [connectionProperties, ConnectionState.text]

private theorem connectionProperties_ne {state other : ConnectionState}
    (different : state ≠ other) :
    some (connectionProperties state) ≠ some (connectionProperties other) :=
  fun same => different (connectionProperties_injective (Option.some.inj same))

private theorem announces_connectionMessage {format : TopicFormat} {client : Client Properties Unit}
    (sameFormat : client.subscriptionManager.format = format) (vehicle : VehicleId)
    (text : Vda5050Object Properties → String) (now : String) (state : ConnectionState) :
    Announces format vehicle state
      (AgvClient.connectionMessage vehicle.val text now client state) where
  mqttTopic := by
    subst sameFormat
    rfl
  subject := dif_pos vehicle.property
  retain := rfl
  payload := rfl

namespace Packet

def message? : Packet → Option (MqttMessage Properties)
  | .publish message => some message
  | .disconnect => none

/-- What the broker keeps of a vehicle once it has received all packets. -/
def reported (packets : List Packet) (retained : Option (MqttMessage Properties)) :
    Option Properties :=
  ((packets.filterMap message?).getLast?.or retained).map (·.object.payload)

variable {packets : List Packet} {retained : Option (MqttMessage Properties)}
  {message : MqttMessage Properties}

@[simp] theorem reported_nil : reported [] retained = retained.map (·.object.payload) := rfl

@[simp] theorem reported_append_publish :
    reported (packets ++ [.publish message]) retained = some message.object.payload := by
  simp [reported, message?]

@[simp] theorem reported_append_disconnect :
    reported (packets ++ [.disconnect]) retained = reported packets retained := by
  simp [reported, message?]

private theorem reported_cons_publish :
    reported (.publish message :: packets) retained = reported packets (some message) := by
  simp [reported, message?, List.getLast?_cons]

/-- Of packets with messages only, the last one is kept. -/
private theorem reported_publish (messages : List (MqttMessage Properties)) :
    reported (messages.map .publish) retained =
      (messages.getLast?.or retained).map (·.object.payload) := by
  have same : (messages.map Packet.publish).filterMap message? = messages := by
    rw [List.filterMap_map]
    exact List.filterMap_some
  rw [reported, same]

end Packet

/-! ## A vehicle and the broker -/

/-- The client of a vehicle with its connection. -/
structure Vehicle extends Link where
  history : ClientHistory Properties Unit
  reconnected : Bool := false

namespace Vehicle

variable (vehicle : Vehicle)

def isConnected : Bool := vehicle.history.client.isConnected

/-- A message published by the client. It is lost if the broker has closed the session. -/
def send (message : Option (MqttMessage Properties)) : Vehicle :=
  match message with
  | none => vehicle
  | some message =>
      if vehicle.isConnected then
        { vehicle with
          session := vehicle.session.map fun session =>
            { session with packets := session.packets ++ [.publish message] } }
      else { vehicle with queued := vehicle.queued ++ [message] }

/-- The MQTT client is connected, and sends what it has kept. -/
def openSession : Vehicle :=
  { vehicle with
    queued := []
    session := vehicle.will.map fun will =>
      { will := will, packets := vehicle.queued.map .publish } }

/-- The MQTT client is ended. What it has kept is dropped. -/
def endSession : Vehicle :=
  { vehicle with
    queued := []
    session :=
      if vehicle.isConnected then
        vehicle.session.map fun session =>
          { session with packets := session.packets ++ [.disconnect] }
      else vehicle.session }

/-- The will of an open session that is taken over by a new one. -/
def takenOver : ClientEvent Properties Unit → Option (MqttMessage Properties)
  | .connectSettled true | .online => vehicle.session.map (·.will)
  | _ => none

/-- What an event of the client does to its connection. -/
def connect (agvId : AgvId) (text : Vda5050Object Properties → String) (now : String)
    (next : ClientHistory Properties Unit) (event : ClientEvent Properties Unit) : Vehicle :=
  match event with
  | .start =>
      if next.awaiting = some .connection then
        { vehicle with
          history := next
          will := some (AgvClient.createLastWill agvId text now vehicle.history.client) }
      else { vehicle with history := next }
  | .connectSettled true => { vehicle.openSession with history := next, reconnected := false }
  | .online => { vehicle.openSession with history := next, reconnected := true }
  | .hookSettled true =>
      if vehicle.history.awaiting = some .onStopping then
        { vehicle.endSession with history := next }
      else { vehicle with history := next }
  | _ => { vehicle with history := next }

def step (agvId : AgvId) (text : Vda5050Object Properties → String) (now : String)
    (event : ClientEvent Properties Unit) : Option Vehicle :=
  (AgvClient.step agvId text now vehicle.history event).map fun (next, message) =>
    (vehicle.connect agvId text now next event).send message

end Vehicle

namespace Vehicle

theorem eq_of_parts {one other : Vehicle} (link : one.toLink = other.toLink)
    (history : one.history = other.history) (reconnected : one.reconnected = other.reconnected) :
    one = other := by
  obtain ⟨oneLink, oneHistory, oneReconnected⟩ := one
  obtain ⟨otherLink, otherHistory, otherReconnected⟩ := other
  dsimp only at link history reconnected
  rw [link, history, reconnected]

variable (vehicle : Vehicle) (agvId : AgvId) (text : Vda5050Object Properties → String)
  (now : String) (next : ClientHistory Properties Unit) (event : ClientEvent Properties Unit)
  (message : Option (MqttMessage Properties))

@[simp] theorem connect_history : (vehicle.connect agvId text now next event).history = next := by
  unfold connect
  split
  · split <;> rfl
  · rfl
  · rfl
  · split <;> rfl
  · rfl

@[simp] theorem connect_reconnected :
    (vehicle.connect agvId text now next event).reconnected =
      ConnectionSystem.nextReconnected vehicle.reconnected event := by
  unfold connect
  split
  · split <;> rfl
  · rfl
  · rfl
  · split <;> rfl
  · next first connected reconnected stopped =>
    unfold ConnectionSystem.nextReconnected
    split
    · exact absurd rfl connected
    · exact absurd rfl reconnected
    · rfl

@[simp] theorem send_history : (vehicle.send message).history = vehicle.history := by
  cases message with
  | none => rfl
  | some message =>
      unfold send
      dsimp only
      split <;> rfl

@[simp] theorem send_reconnected : (vehicle.send message).reconnected = vehicle.reconnected := by
  cases message with
  | none => rfl
  | some message =>
      unfold send
      dsimp only
      split <;> rfl

end Vehicle

/-- The state that the broker keeps of a vehicle that is running. -/
def runningState (reconnected : Bool) : ConnectionState :=
  if reconnected then .connectionbroken else .online

/-- A session at the broker, beside the client of the vehicle. -/
structure Session.Sound (format : TopicFormat) (vehicle : VehicleId)
    (client : Client Properties Unit) (reconnected : Bool)
    (retained : Option (MqttMessage Properties)) (session : Session) : Prop where
  will : Announces format vehicle .connectionbroken session.will
  messages : ∀ message, .publish message ∈ session.packets →
    ∃ state, Announces format vehicle state message
  running : client.isConnected = true → client.isStopping = false →
    Packet.reported session.packets retained =
      some (connectionProperties (runningState reconnected))
  stopping : client.isConnected = true → client.isStopping = true →
    Packet.reported session.packets retained ≠ some (connectionProperties .online)
  leaving : .disconnect ∈ session.packets →
    client.isStarted = false ∧
      Packet.reported session.packets retained ≠ some (connectionProperties .online) ∧
      ∃ earlier, session.packets = earlier ++ [.disconnect] ∧ .disconnect ∉ earlier

/-- What the broker keeps of a vehicle without a session. -/
structure Closed (client : Client Properties Unit)
    (retained : Option (MqttMessage Properties)) : Prop where
  offline : retained.map (·.object.payload) ≠ some (connectionProperties .online)
  broken : client.isStarted = true → client.isStopping = false →
    retained.map (·.object.payload) = some (connectionProperties .connectionbroken)

namespace Vehicle

/-- A vehicle, beside the message that the broker keeps of it. -/
structure Sound (format : TopicFormat) (id : VehicleId)
    (text : Vda5050Object Properties → String) (retained : Option (MqttMessage Properties))
    (vehicle : Vehicle) : Prop where
  run : ∃ events, Run (ClientHistory.step (AgvClient.settings id.val text)) (fun _ _ => True)
    (.initial format) events vehicle.history
  kept : ∀ message ∈ retained, ∃ state, Announces format id state message
  started : vehicle.isConnected = true → vehicle.history.client.isStarted = true
  hasWill : vehicle.history.awaiting = some .connection ∨
    vehicle.history.client.isStarted = true → vehicle.will.isSome = true
  will : ∀ will ∈ vehicle.will, Announces format id .connectionbroken will
  queued : ∀ message ∈ vehicle.queued, Announces format id .offline message ∧
    vehicle.history.client.isStopping = true
  session : ∀ session ∈ vehicle.session,
    session.Sound format id vehicle.history.client vehicle.reconnected retained
  closed : vehicle.session = none → Closed vehicle.history.client retained

/-- The flags of a client are those of another one. -/
structure SameFlags (client next : Client Properties Unit) : Prop where
  isStarted : next.isStarted = client.isStarted
  isStopping : next.isStopping = client.isStopping
  isConnected : next.isConnected = client.isConnected

end Vehicle

private theorem Session.Sound.of_sameFlags {format : TopicFormat} {vehicle : VehicleId}
    {client next : Client Properties Unit} {reconnected : Bool}
    {retained : Option (MqttMessage Properties)} {session : Session}
    (sound : session.Sound format vehicle client reconnected retained)
    (same : Vehicle.SameFlags client next) :
    session.Sound format vehicle next reconnected retained where
  will := sound.will
  messages := sound.messages
  running := by
    rw [same.isConnected, same.isStopping]
    exact sound.running
  stopping := by
    rw [same.isConnected, same.isStopping]
    exact sound.stopping
  leaving := by
    rw [same.isStarted]
    exact sound.leaving

/-- Nothing is asked of the session of a client that is not connected, as long as the client
is as started as before. -/
private theorem Session.Sound.of_disconnected {format : TopicFormat} {vehicle : VehicleId}
    {client next : Client Properties Unit} {reconnected : Bool}
    {retained : Option (MqttMessage Properties)} {session : Session}
    (sound : session.Sound format vehicle client reconnected retained)
    (disconnected : next.isConnected = false)
    (started : client.isStarted = false → next.isStarted = false) :
    session.Sound format vehicle next reconnected retained where
  will := sound.will
  messages := sound.messages
  running connected := by simp [disconnected] at connected
  stopping connected := by simp [disconnected] at connected
  leaving member :=
    have ⟨before, rest⟩ := sound.leaving member
    ⟨started before, rest⟩

private theorem Closed.of_flags {client next : Client Properties Unit}
    {retained : Option (MqttMessage Properties)} (closed : Closed client retained)
    (flags : next.isStarted = true → next.isStopping = false →
      client.isStarted = true ∧ client.isStopping = false) : Closed next retained where
  offline := closed.offline
  broken started running :=
    have ⟨before, before'⟩ := flags started running
    closed.broken before before'

namespace Vehicle

variable {format : TopicFormat} {id : VehicleId} {text : Vda5050Object Properties → String}
  {retained : Option (MqttMessage Properties)} {vehicle : Vehicle} {now : String}

theorem Sound.initial (format : TopicFormat) (id : VehicleId)
    (text : Vda5050Object Properties → String) :
    Sound format id text none { history := .initial format } where
  run := ⟨[], .start⟩
  kept := by simp
  started connected := by simp [isConnected, ClientHistory.initial, Client.isConnected] at connected
  hasWill known := by simp [ClientHistory.initial] at known
  will := by simp
  queued := by simp
  session := by simp
  closed _ := ⟨by simp, by simp [ClientHistory.initial]⟩

/-- The client goes on without a change of its flags. -/
private theorem Sound.of_sameFlags (sound : Sound format id text retained vehicle)
    {next : ClientHistory Properties Unit}
    (run : ∃ events, Run (ClientHistory.step (AgvClient.settings id.val text)) (fun _ _ => True)
      (.initial format) events next)
    (same : SameFlags vehicle.history.client next.client)
    (awaiting : next.awaiting = some .connection → vehicle.history.awaiting = some .connection) :
    Sound format id text retained { vehicle with history := next } where
  run := run
  kept := sound.kept
  started := by
    change next.client.isConnected = true → next.client.isStarted = true
    rw [same.isConnected, same.isStarted]
    exact sound.started
  hasWill known := by
    refine sound.hasWill (known.imp awaiting fun started => ?_)
    rw [← same.isStarted]
    exact started
  will := sound.will
  queued message member := by
    refine ⟨(sound.queued message member).1, ?_⟩
    rw [same.isStopping]
    exact (sound.queued message member).2
  session session member := (sound.session session member).of_sameFlags same
  closed none := (sound.closed none).of_flags fun started running =>
    ⟨same.isStarted ▸ started, same.isStopping ▸ running⟩

/-- The broker receives a message. -/
theorem Sound.receive (sound : Sound format id text retained vehicle) {session : Session}
    (opened : vehicle.session = some session) {message : MqttMessage Properties}
    {packets : List Packet} (next : session.packets = .publish message :: packets) :
    Sound format id text (some message)
      { vehicle with session := some { session with packets := packets } } where
  run := sound.run
  kept := by
    rintro _ ⟨⟩
    exact (sound.session session opened).messages message (by simp [next])
  started := sound.started
  hasWill := sound.hasWill
  will := sound.will
  queued := sound.queued
  session := by
    have before := sound.session session opened
    have same : Packet.reported packets (some message) =
        Packet.reported session.packets retained := by
      rw [next, Packet.reported_cons_publish]
    rintro _ ⟨⟩
    exact {
      will := before.will
      messages := fun message member =>
        before.messages message (next ▸ List.mem_cons_of_mem _ member)
      running := same ▸ before.running
      stopping := same ▸ before.stopping
      leaving := fun member => by
        obtain ⟨stopped, reported, earlier, split, first⟩ :=
          before.leaving (next ▸ List.mem_cons_of_mem _ member)
        refine ⟨stopped, same ▸ reported, ?_⟩
        rw [next] at split
        cases earlier with
        | nil => cases split
        | cons packet earlier =>
            obtain ⟨rfl, rest⟩ := List.cons.inj split
            exact ⟨earlier, rest, fun member => first (List.mem_cons_of_mem _ member)⟩ }
  closed := by simp

/-- The broker is told that the client disconnects. -/
theorem Sound.receiveDisconnect (sound : Sound format id text retained vehicle)
    {session : Session} (opened : vehicle.session = some session) {packets : List Packet}
    (next : session.packets = .disconnect :: packets) :
    Sound format id text retained { vehicle with session := none } where
  run := sound.run
  kept := sound.kept
  started := sound.started
  hasWill := sound.hasWill
  will := sound.will
  queued := sound.queued
  session := by simp
  closed _ := by
    obtain ⟨stopped, reported, earlier, split, first⟩ :=
      (sound.session session opened).leaving (by simp [next])
    -- nothing follows the packet
    have last : session.packets = [.disconnect] := by
      cases earlier with
      | nil => exact split
      | cons packet earlier =>
          rw [next] at split
          obtain ⟨rfl, -⟩ := List.cons.inj split
          simp at first
    rw [last, show [Packet.disconnect] = [] ++ [.disconnect] from rfl,
      Packet.reported_append_disconnect, Packet.reported_nil] at reported
    exact ⟨reported, fun started => by simp [stopped] at started⟩

private theorem Closed.of_broken {client : Client Properties Unit} {will : MqttMessage Properties}
    (announces : Announces format id .connectionbroken will) : Closed client (some will) where
  offline := by
    rw [Option.map_some, announces.payload]
    exact connectionProperties_ne (by decide)
  broken _ _ := congrArg some announces.payload

/-- The broker finds the connection broken, and publishes the will. -/
theorem Sound.broken (sound : Sound format id text retained vehicle) {session : Session}
    (opened : vehicle.session = some session) :
    Sound format id text (some session.will) { vehicle with session := none } where
  run := sound.run
  kept := by
    rintro _ ⟨⟩
    exact ⟨.connectionbroken, (sound.session session opened).will⟩
  started := sound.started
  hasWill := sound.hasWill
  will := sound.will
  queued := sound.queued
  session := by simp
  closed _ := Closed.of_broken (sound.session session opened).will

/-! ## Steps of a client -/

private theorem SameFlags.of_sameLifeCycle {h next : ClientHistory Properties Unit}
    (same : ClientHistory.SameLifeCycle h next) : SameFlags h.client next.client :=
  ⟨same.connection.isStarted, same.connection.isStopping, same.connection.isConnected⟩

/-- An event whose hook publishes nothing. -/
private theorem step_quiet {event : ClientEvent Properties Unit} {next : Vehicle}
    (quiet : ∀ mid : ClientHistory Properties Unit,
      AgvClient.hookPublication id.val now mid event = none)
    (stepped : vehicle.step id.val text now event = some next) :
    ∃ mid, vehicle.history.step (AgvClient.settings id.val text) event = some mid ∧
      next = vehicle.connect id.val text now mid event := by
  obtain ⟨⟨history, message⟩, both, rfl⟩ := Option.map_eq_some_iff.mp stepped
  obtain ⟨mid, called, same⟩ := Option.map_eq_some_iff.mp both
  simp only [quiet, Prod.mk.injEq] at same
  obtain ⟨rfl, rfl⟩ := same
  exact ⟨mid, called, rfl⟩

/-- An event whose hook publishes the state of the connection. -/
private theorem step_announcing {event : ClientEvent Properties Unit} {next : Vehicle}
    {mid : ClientHistory Properties Unit} {state : ConnectionState}
    (admissible : AgvClient.Admissible format id.val) (timestamp : isDateTime now = true)
    (run : ∃ events, Run (ClientHistory.step (AgvClient.settings id.val text)) (fun _ _ => True)
      (.initial format) events mid)
    (started : mid.client.isStarted = true)
    (called : vehicle.history.step (AgvClient.settings id.val text) event = some mid)
    (hook : AgvClient.hookPublication id.val now mid event =
      some (AgvClient.connectionPublication id.val state now))
    (stepped : vehicle.step id.val text now event = some next) :
    ∃ message history,
      next = (vehicle.connect id.val text now history event).send (some message) ∧
      Announces format id state message ∧ ClientHistory.SameLifeCycle mid history ∧
      ∃ events, Run (ClientHistory.step (AgvClient.settings id.val text)) (fun _ _ => True)
        (.initial format) events history := by
  obtain ⟨events, run⟩ := run
  have sameFormat : mid.client.subscriptionManager.format = format :=
    ClientHistory.format_of_run run
  obtain ⟨⟨history, message⟩, both, rfl⟩ := Option.map_eq_some_iff.mp stepped
  simp only [AgvClient.step, called, Option.map_some, Option.some.injEq, hook,
    AgvClient.publishTopic_connection (sameFormat ▸ admissible) started
      (ClientHistory.isSome_of_isStarted run started) timestamp, Prod.mk.injEq] at both
  obtain ⟨rfl, rfl⟩ := both
  have published : mid.step (AgvClient.settings id.val text)
      (.publishTopic (AgvClient.connectionPublication id.val state now)) = some _ := rfl
  rw [AgvClient.publishTopic_connection (sameFormat ▸ admissible) started
    (ClientHistory.isSome_of_isStarted run started) timestamp] at published
  exact ⟨_, _, rfl, announces_connectionMessage sameFormat id text now state,
    ClientHistory.step_sameLifeCycle (by exact fun other => other) published, _,
    run.advance trivial published⟩

/-- The flags of a client that awaits its connection. -/
theorem Sound.connecting (sound : Sound format id text retained vehicle)
    (awaiting : vehicle.history.awaiting = some .connection) :
    vehicle.history.client.isStarted = false ∧ vehicle.history.client.isStopping = false ∧
      vehicle.history.client.mqtt.isSome = true := by
  obtain ⟨events, run⟩ := sound.run
  rcases ClientHistory.inStep_or_stuck run with succeeding | stuck
  · have inStep := ClientHistory.inStep_of_run succeeding
    simpa only [ClientHistory.InStep, awaiting] using inStep
  · exact absurd (stuck.awaiting.symm.trans awaiting) (by decide)

/-- The flags of a client that awaits the hook before it disconnects. -/
theorem Sound.stopping (sound : Sound format id text retained vehicle)
    (awaiting : vehicle.history.awaiting = some .onStopping) :
    vehicle.history.client.isStarted = true ∧ vehicle.history.client.isStopping = true := by
  obtain ⟨events, run⟩ := sound.run
  rcases ClientHistory.inStep_or_stuck run with succeeding | stuck
  · have inStep := ClientHistory.inStep_of_run succeeding
    simp only [ClientHistory.InStep, awaiting] at inStep
    exact ⟨inStep.1, inStep.2.1⟩
  · exact absurd (stuck.awaiting.symm.trans awaiting) (by decide)

private theorem Sound.run_step (sound : Sound format id text retained vehicle)
    {event : ClientEvent Properties Unit} {next : ClientHistory Properties Unit}
    (called : vehicle.history.step (AgvClient.settings id.val text) event = some next) :
    ∃ events, Run (ClientHistory.step (AgvClient.settings id.val text)) (fun _ _ => True)
      (.initial format) events next :=
  have ⟨_, run⟩ := sound.run
  ⟨_, run.advance trivial called⟩

/-- The client calls `start`. -/
theorem Sound.start (sound : Sound format id text retained vehicle) {next : Vehicle}
    (stepped : vehicle.step id.val text now .start = some next) :
    Sound format id text retained next := by
  obtain ⟨mid, called, rfl⟩ := step_quiet (fun _ => rfl) stepped
  have run := sound.run_step called
  simp only [ClientHistory.step, Option.ite_none_right_eq_some, Option.some.injEq] at called
  obtain ⟨idle, rfl⟩ := called
  by_cases started : vehicle.history.client.isStarted = true
  · have same : vehicle.history.start (AgvClient.settings id.val text) = vehicle.history :=
      if_pos started
    rw [connect, same, idle, if_neg (by decide)]
    exact sound.of_sameFlags sound.run ⟨rfl, rfl, rfl⟩ (fun same => same)
  · have changed : vehicle.history.start (AgvClient.settings id.val text) =
        { vehicle.history with
          client := vehicle.history.client.connect (AgvClient.settings id.val text)
          awaiting := some .connection } := if_neg started
    obtain ⟨sameStarted, sameStopping, connection, -⟩ :=
      ClientHistory.connect_frame (AgvClient.settings id.val text) vehicle.history.client
    rw [changed] at run ⊢
    have offline : (vehicle.history.client.connect
        (AgvClient.settings id.val text)).isConnected = false := by
      rw [Client.isConnected, connection]
      rfl
    rw [connect, if_pos rfl]
    obtain ⟨_, earlier⟩ := sound.run
    exact {
      run := run
      kept := sound.kept
      started := fun connected => absurd (offline.symm.trans connected) (by decide)
      hasWill := fun _ => rfl
      will := by
        rintro _ ⟨⟩
        exact announces_connectionMessage (ClientHistory.format_of_run earlier) id text now
          .connectionbroken
      queued := fun message member => by
        refine ⟨(sound.queued message member).1, ?_⟩
        rw [sameStopping]
        exact (sound.queued message member).2
      session := fun session member => (sound.session session member).of_disconnected offline
        fun stopped => sameStarted.trans stopped
      closed := fun none => (sound.closed none).of_flags fun isStarted _ =>
        absurd (sameStarted ▸ isStarted) started }

/-- Whatever is sent on a session, the last message is the one kept. -/
theorem Sound.leave (sound : Sound format id text retained vehicle)
    {next : ClientHistory Properties Unit}
    (run : ∃ events, Run (ClientHistory.step (AgvClient.settings id.val text)) (fun _ _ => True)
      (.initial format) events next)
    (running : vehicle.history.client.isStarted = true)
    (started : next.client.isStarted = true) (stopping : next.client.isStopping = true)
    {message : MqttMessage Properties} (announces : Announces format id .offline message) :
    Sound format id text retained ({ vehicle with history := next }.send (some message)) := by
  have unfinished : ∀ session ∈ vehicle.session, .disconnect ∉ session.packets :=
    fun session member disconnect =>
      absurd (running.symm.trans ((sound.session session member).leaving disconnect).1) (by decide)
  have closed : vehicle.session = none → Closed next.client retained := fun none =>
    (sound.closed none).of_flags fun _ running => absurd (stopping.symm.trans running) (by decide)
  have hasWill : vehicle.will.isSome = true := sound.hasWill (.inr running)
  unfold send
  dsimp only
  split
  · exact {
      run := run
      kept := sound.kept
      started := fun _ => started
      hasWill := fun _ => hasWill
      will := sound.will
      queued := fun message member => ⟨(sound.queued message member).1, stopping⟩
      session := by
        intro session member
        obtain ⟨before, opened, rfl⟩ := Option.map_eq_some_iff.mp member
        have earlier := sound.session before opened
        exact {
          will := earlier.will
          messages := fun other member => by
            rcases List.mem_append.mp member with known | new
            · exact earlier.messages other known
            · obtain rfl : other = message := by simpa using new
              exact ⟨.offline, announces⟩
          running := fun _ running => absurd (stopping.symm.trans running) (by decide)
          stopping := fun _ _ => by
            rw [Packet.reported_append_publish, announces.payload]
            exact connectionProperties_ne (by decide)
          leaving := fun member => by
            refine absurd ?_ (unfinished before opened)
            simpa using member }
      closed := fun none => closed (Option.map_eq_none_iff.mp none) }
  · next offline =>
    have disconnected : next.client.isConnected = false := by
      simpa [isConnected] using offline
    exact {
      run := run
      kept := sound.kept
      started := fun _ => started
      hasWill := fun _ => hasWill
      will := sound.will
      queued := fun other member => by
        rcases List.mem_append.mp member with known | new
        · exact ⟨(sound.queued other known).1, stopping⟩
        · obtain rfl := List.mem_singleton.mp new
          exact ⟨announces, stopping⟩
      session := fun session member => (sound.session session member).of_disconnected
        disconnected fun stopped => absurd (running.symm.trans stopped) (by decide)
      closed := closed }

/-- The client calls `stop`. -/
theorem Sound.stop (sound : Sound format id text retained vehicle)
    (admissible : AgvClient.Admissible format id.val) (timestamp : isDateTime now = true)
    {next : Vehicle} (stepped : vehicle.step id.val text now .stop = some next) :
    Sound format id text retained next := by
  obtain ⟨⟨_, _⟩, both, -⟩ := Option.map_eq_some_iff.mp stepped
  obtain ⟨mid, called, -⟩ := Option.map_eq_some_iff.mp both
  have run := sound.run_step called
  have enabled := called
  simp only [ClientHistory.step, Option.ite_none_right_eq_some, Option.some.injEq] at enabled
  obtain ⟨idle, changed⟩ := enabled
  by_cases already : !vehicle.history.client.isStarted || vehicle.history.client.isStopping
  · obtain rfl : vehicle.history = mid := by
      rw [← changed, ClientHistory.stop, if_pos already]
    have quiet : AgvClient.hookPublication id.val now vehicle.history .stop = none :=
      if_neg (by rw [idle]; decide)
    simp only [AgvClient.step, called, Option.map_some, quiet, Option.some.injEq,
      Prod.mk.injEq] at both
    obtain ⟨rfl, rfl⟩ := both
    simp only [step, AgvClient.step, called, Option.map_some, quiet, Option.some.injEq] at stepped
    subst stepped
    exact sound.of_sameFlags run ⟨rfl, rfl, rfl⟩ fun same => same
  · have stops : vehicle.history.stop = { vehicle.history with
        client := { vehicle.history.client with isStopping := true }
        awaiting := some .onStopping } := if_neg already
    rw [stops] at changed
    have started : vehicle.history.client.isStarted = true := by
      simp only [Bool.or_eq_true, Bool.not_eq_true', not_or, Bool.not_eq_false] at already
      exact already.1
    subst changed
    have hook : AgvClient.hookPublication id.val now { vehicle.history with
        client := { vehicle.history.client with isStopping := true }
        awaiting := some .onStopping } .stop =
      some (AgvClient.connectionPublication id.val .offline now) := by
        simp [AgvClient.hookPublication]
    obtain ⟨message, history, rfl, announces, same, run⟩ := step_announcing admissible timestamp
      run started called hook stepped
    exact sound.leave run started (same.connection.isStarted.trans started)
      same.connection.isStopping announces

/-- What is published for a session that is taken over is its will. -/
theorem Sound.takenOver_announces (sound : Sound format id text retained vehicle)
    {event : ClientEvent Properties Unit} {message : MqttMessage Properties}
    (published : vehicle.takenOver event = some message) :
    Announces format id .connectionbroken message := by
  unfold takenOver at published
  split at published
  · obtain ⟨session, opened, rfl⟩ := Option.map_eq_some_iff.mp published
    exact (sound.session session opened).will
  · obtain ⟨session, opened, rfl⟩ := Option.map_eq_some_iff.mp published
    exact (sound.session session opened).will
  · cases published

private theorem Sound.kept_takenOver (sound : Sound format id text retained vehicle)
    (event : ClientEvent Properties Unit) :
    ∀ message ∈ (vehicle.takenOver event).or retained,
      ∃ state, Announces format id state message := by
  intro message member
  cases taken : vehicle.takenOver event with
  | none =>
      rw [taken, Option.none_or] at member
      exact sound.kept message member
  | some published =>
      rw [taken, Option.some_or] at member
      obtain rfl := Option.some.inj member
      exact ⟨.connectionbroken, sound.takenOver_announces taken⟩

/-- The client is connected by `start`. -/
theorem Sound.connectSettled (sound : Sound format id text retained vehicle)
    (admissible : AgvClient.Admissible format id.val) (timestamp : isDateTime now = true)
    {next : Vehicle} (stepped : vehicle.step id.val text now (.connectSettled true) = some next) :
    Sound format id text ((vehicle.takenOver (.connectSettled true)).or retained) next := by
  obtain ⟨⟨_, _⟩, both, -⟩ := Option.map_eq_some_iff.mp stepped
  obtain ⟨mid, called, -⟩ := Option.map_eq_some_iff.mp both
  have run := sound.run_step called
  have enabled := called
  simp only [ClientHistory.step, Option.ite_none_right_eq_some, Option.some.injEq] at enabled
  obtain ⟨awaiting, changed⟩ := enabled
  obtain ⟨-, notStopping, connection⟩ := sound.connecting awaiting
  obtain ⟨will, found⟩ := Option.isSome_iff_exists.mp (sound.hasWill (.inl awaiting))
  have connects : vehicle.history.connectSettled true = { vehicle.history with
      client := { vehicle.history.client.connected with isStarted := true }
      awaiting := some .onStarted } := rfl
  rw [connects] at changed
  subst changed
  obtain ⟨message, history, rfl, announces, same, run⟩ := step_announcing admissible timestamp
    run rfl called rfl stepped
  have connected : history.client.isConnected = true := by
    rw [same.connection.isConnected]
    obtain ⟨mqtt, known⟩ := Option.isSome_iff_exists.mp connection
    simp [Client.isConnected, Client.connected, known, MqttClient.resubscribed]
  have running : history.client.isStopping = false :=
    same.connection.isStopping.trans notStopping
  have nothing : vehicle.queued = [] := List.eq_nil_iff_forall_not_mem.mpr fun message member =>
    absurd (notStopping.symm.trans (sound.queued message member).2) (by decide)
  have opened : ((vehicle.connect id.val text now history (.connectSettled true)).send
      (some message)) = { vehicle with
        history := history
        queued := []
        session := some { will := will, packets := [.publish message] }
        reconnected := false } := by
    simp only [connect, openSession, send, isConnected, connected, if_true, found, nothing,
      Option.map_some, List.map_nil, List.nil_append]
  rw [opened]
  exact {
    run := run
    kept := sound.kept_takenOver _
    started := fun _ => same.connection.isStarted
    hasWill := fun _ => by simp [found]
    will := sound.will
    queued := by simp
    session := by
      rintro _ ⟨⟩
      exact {
        will := sound.will will found
        messages := fun other member => by
          obtain rfl : other = message := by simpa using member
          exact ⟨.online, announces⟩
        running := fun _ _ => by
          rw [show [Packet.publish message] = [] ++ [.publish message] from rfl,
            Packet.reported_append_publish, announces.payload]
          rfl
        stopping := fun _ stopping => absurd (running.symm.trans stopping) (by decide)
        leaving := fun member => by simp at member }
    closed := by simp }

/-- A hook of the client ends. -/
theorem Sound.hookSettled (sound : Sound format id text retained vehicle) {succeeded : Bool}
    {next : Vehicle} (stepped : vehicle.step id.val text now (.hookSettled succeeded) = some next) :
    Sound format id text retained next := by
  obtain ⟨mid, called, rfl⟩ := step_quiet (fun _ => rfl) stepped
  have run := sound.run_step called
  by_cases ends : succeeded = true ∧ vehicle.history.awaiting = some .onStopping
  · obtain ⟨rfl, awaiting⟩ := ends
    obtain ⟨started, stopping⟩ := sound.stopping awaiting
    simp only [ClientHistory.step, awaiting, if_true, Option.some.injEq] at called
    subst called
    rw [connect, if_pos awaiting]
    exact {
      run := run
      kept := sound.kept
      started := fun connected => by cases connected
      hasWill := fun known => by
        rcases known with awaits | started
        · simp only [ClientHistory.stopped] at awaits
          split at awaits <;> cases awaits
        · cases started
      will := sound.will
      queued := fun _ member => by cases member
      session := by
        have unfinished : ∀ session ∈ vehicle.session, .disconnect ∉ session.packets :=
          fun session member disconnect =>
            absurd (started.symm.trans ((sound.session session member).leaving disconnect).1)
              (by decide)
        intro session member
        unfold endSession at member
        dsimp only at member
        split at member
        · next connected =>
          obtain ⟨before, opened, rfl⟩ := Option.map_eq_some_iff.mp member
          have earlier := sound.session before opened
          exact {
            will := earlier.will
            messages := fun message member =>
              earlier.messages message (by simpa using member)
            running := fun connected => by cases connected
            stopping := fun connected => by cases connected
            leaving := fun _ => ⟨rfl, by
              rw [Packet.reported_append_disconnect]
              exact earlier.stopping connected stopping, _, rfl, unfinished before opened⟩ }
        · exact (sound.session session member).of_disconnected rfl fun _ => rfl
      closed := fun none => by
        refine (sound.closed ?_).of_flags fun running => by cases running
        unfold endSession at none
        dsimp only at none
        split at none
        · exact Option.map_eq_none_iff.mp none
        · exact none }
  · have kept : mid = { vehicle.history with awaiting := none } := by
      simp only [ClientHistory.step] at called
      split at called
      · exact (Option.some.inj called).symm
      · next stopping =>
        rw [if_neg fun succeeded => ends ⟨succeeded, stopping⟩] at called
        exact (Option.some.inj called).symm
      all_goals cases called
    subst kept
    have unchanged : vehicle.connect id.val text now { vehicle.history with awaiting := none }
        (.hookSettled succeeded) =
          { vehicle with history := { vehicle.history with awaiting := none } } := by
      cases succeeded with
      | false => rfl
      | true => exact if_neg fun awaiting => ends ⟨rfl, awaiting⟩
    rw [unchanged]
    exact sound.of_sameFlags run ⟨rfl, rfl, rfl⟩ (by simp)

/-- The MQTT client reconnects, and publishes what it has kept. -/
theorem Sound.online (sound : Sound format id text retained vehicle) {next : Vehicle}
    (stepped : vehicle.step id.val text now .online = some next) :
    Sound format id text ((vehicle.takenOver .online).or retained) next := by
  obtain ⟨mid, called, rfl⟩ := step_quiet (fun _ => rfl) stepped
  have run := sound.run_step called
  simp only [ClientHistory.step, Option.ite_none_right_eq_some, Bool.and_eq_true, Bool.not_eq_true',
    Option.some.injEq] at called
  obtain ⟨⟨started, disconnected⟩, rfl⟩ := called
  obtain ⟨will, found⟩ := Option.isSome_iff_exists.mp (sound.hasWill (.inr started))
  -- the broker has published the will, or does so now
  have closed : Closed vehicle.history.client ((vehicle.takenOver .online).or retained) := by
    unfold takenOver
    cases opened : vehicle.session with
    | none => exact sound.closed opened
    | some session => exact Closed.of_broken (sound.session session opened).will
  have opened : vehicle.connect id.val text now
      { vehicle.history with client := vehicle.history.client.connected } .online =
        { vehicle with
          history := { vehicle.history with client := vehicle.history.client.connected }
          queued := []
          session := some { will := will, packets := vehicle.queued.map .publish }
          reconnected := true } := by
    simp [connect, openSession, found]
  rw [opened]
  exact {
    run := run
    kept := sound.kept_takenOver _
    started := fun _ => started
    hasWill := fun _ => by simp [found]
    will := sound.will
    queued := by simp
    session := by
      rintro _ ⟨⟩
      exact {
        will := sound.will will found
        messages := fun message member => by
          obtain ⟨_, queued, ⟨⟩⟩ := List.mem_map.mp member
          exact ⟨.offline, (sound.queued _ queued).1⟩
        running := fun _ running => by
          have nothing : vehicle.queued = [] :=
            List.eq_nil_iff_forall_not_mem.mpr fun message member =>
              absurd (running.symm.trans (sound.queued message member).2) (by decide)
          rw [nothing]
          exact closed.broken started running
        stopping := fun _ _ => by
          rw [Packet.reported_publish]
          cases last : vehicle.queued.getLast? with
          | none => exact closed.offline
          | some message =>
              rw [Option.some_or, Option.map_some,
                (sound.queued message (List.mem_of_getLast? last)).1.payload]
              exact connectionProperties_ne (by decide)
        leaving := fun member => by simp at member }
    closed := by simp }

/-- Whatever the client does, and whatever happens to its connection. -/
theorem Sound.step (sound : Sound format id text retained vehicle)
    (admissible : AgvClient.Admissible format id.val) (timestamp : isDateTime now = true)
    {event : ClientEvent Properties Unit} {next : Vehicle}
    (stepped : vehicle.step id.val text now event = some next) :
    Sound format id text ((vehicle.takenOver event).or retained) next := by
  cases event with
  | start => exact sound.start stepped
  | stop => exact sound.stop admissible timestamp stepped
  | connectSettled succeeded =>
      cases succeeded with
      | true => exact sound.connectSettled admissible timestamp stepped
      | false =>
          obtain ⟨mid, called, rfl⟩ := step_quiet (fun _ => rfl) stepped
          have run := sound.run_step called
          simp only [ClientHistory.step, Option.ite_none_right_eq_some,
            Option.some.injEq] at called
          obtain ⟨awaiting, rfl⟩ := called
          obtain ⟨stopped, -, -⟩ := sound.connecting awaiting
          refine sound.of_sameFlags run ⟨rfl, rfl, ?_⟩ fun awaits => by cases awaits
          cases connected : vehicle.history.client.isConnected with
          | false => rfl
          | true => exact absurd (stopped.symm.trans (sound.started connected)) (by decide)
  | hookSettled succeeded => exact sound.hookSettled stepped
  | disconnected =>
      obtain ⟨mid, called, rfl⟩ := step_quiet (fun _ => rfl) stepped
      have run := sound.run_step called
      simp only [ClientHistory.step, Option.ite_none_right_eq_some, Option.some.injEq] at called
      obtain ⟨-, rfl⟩ := called
      exact sound.of_sameFlags run ⟨rfl, rfl, rfl⟩ (by simp)
  | online => exact sound.online stepped
  | offline =>
      obtain ⟨mid, called, rfl⟩ := step_quiet (fun _ => rfl) stepped
      have run := sound.run_step called
      simp only [ClientHistory.step, Option.ite_none_right_eq_some, Option.some.injEq] at called
      obtain ⟨-, rfl⟩ := called
      have disconnected : Client.isConnected { vehicle.history.client with
          mqtt := vehicle.history.client.mqtt.map fun mqtt => { mqtt with connected := false } } =
          false := by
        cases connection : vehicle.history.client.mqtt <;> simp [Client.isConnected]
      exact {
        run := run
        kept := sound.kept
        started := fun connected => absurd (disconnected.symm.trans connected) (by decide)
        hasWill := sound.hasWill
        will := sound.will
        queued := sound.queued
        session := fun session member => (sound.session session member).of_disconnected
          disconnected fun stopped => stopped
        closed := fun none => (sound.closed none).of_flags fun started running =>
          ⟨started, running⟩ }
  | registerExtensionTopic | publishTopic | subscribeTopic | subscribeSettled | unsubscribe =>
      obtain ⟨mid, called, rfl⟩ := step_quiet (fun _ => rfl) stepped
      have same := ClientHistory.step_sameLifeCycle (by simp [ClientHistory.IsLifeCycle]) called
      exact sound.of_sameFlags (sound.run_step called) (.of_sameLifeCycle same)
        fun awaiting => same.awaiting.symm.trans awaiting

end Vehicle

end Vda5050
