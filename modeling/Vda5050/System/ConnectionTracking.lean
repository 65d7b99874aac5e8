import Vda5050.System.FifoBroker
import Vda5050.System.VehicleConnections

/-!
# Tracking of connections

As soon as everything on the way has arrived, the master control client tracks a vehicle
as online if and only if its client is connected, is not stopping, and has not reconnected.
A vehicle whose client has reconnected remains tracked with a broken connection.
-/

set_option autoImplicit false

namespace Vda5050

open Library

/-! ## The network -/

namespace MqttNetwork

variable {State : Type} {network : MqttNetwork State} {before middle after : State}

theorem Quiet.refl (state : State) : network.Quiet state state := ⟨rfl, rfl⟩

theorem Quiet.trans (first : network.Quiet before middle) (second : network.Quiet middle after) :
    network.Quiet before after :=
  ⟨second.retained.trans first.retained, second.inbound.trans first.inbound⟩

private theorem Publishes.trans_quiet {message : MqttMessage Properties}
    (first : network.Publishes before middle message) (second : network.Quiet middle after) :
    network.Publishes before after message where
  retained topic := by
    rw [second.retained]
    exact first.retained topic
  inbound := second.inbound.trans first.inbound

private theorem PublishesWill.trans_quiet {will : Option (MqttMessage Properties)}
    (first : network.PublishesWill before middle will) (second : network.Quiet middle after) :
    network.PublishesWill before after will := by
  cases will with
  | none => exact Quiet.trans first second
  | some will => exact Publishes.trans_quiet first second

/-- The connection of a vehicle has changed, and no other one. -/
structure Relinks (network : MqttNetwork State) (id : VehicleId) (link : Link)
    (before after : State) : Prop where
  link : network.link after id = link
  others : ∀ other, other ≠ id → network.link after other = network.link before other

theorem Relinks.refl (id : VehicleId) (state : State) :
    network.Relinks id (network.link state id) state state :=
  ⟨rfl, fun _ _ => rfl⟩

theorem Relinks.trans {id : VehicleId} {link next : Link}
    (first : network.Relinks id link before middle)
    (second : network.Relinks id next middle after) : network.Relinks id next before after :=
  ⟨second.link, fun other different =>
    (second.others other different).trans (first.others other different)⟩

private theorem Documented.relinks (documented : network.Documented) {event : NetworkEvent}
    {id : VehicleId} {link : Link} (stepped : network.step before event = some after)
    (about : event.vehicle? = some id) (linked : network.link after id = link) :
    network.Relinks id link before after :=
  ⟨linked, fun _ different => documented.isolated stepped fun same =>
    different (Option.some.inj (same.symm.trans about))⟩

/-- What an event of a client means for its connection. -/
theorem Documented.networkEvents (documented : network.Documented) {id : VehicleId}
    {text : Vda5050Object Properties → String} {now : String} (vehicle : Vehicle)
    {next : ClientHistory Properties Unit} {event : ClientEvent Properties Unit}
    (linked : network.link before id = vehicle.toLink)
    (stepped : (AgvClient.networkEvents id text now vehicle.history next event).foldlM
      network.step before = some after) :
    network.Relinks id (vehicle.connect id.val text now next event).toLink before after ∧
      network.PublishesWill before after (vehicle.takenOver event) := by
  have unchanged {link : Link} (same : link = vehicle.toLink)
      (nothing : (some before : Option State) = some after) :
      network.Relinks id link before after ∧ network.PublishesWill before after none := by
    obtain rfl := Option.some.inj nothing
    rw [same, ← linked]
    exact ⟨.refl id before, Quiet.refl before⟩
  have single {event : NetworkEvent} (performed : [event].foldlM network.step before = some after) :
      network.step before event = some after := by
    simpa using performed
  cases event with
  | start =>
      unfold AgvClient.networkEvents at stepped
      unfold Vehicle.connect
      dsimp only at stepped ⊢
      split at stepped
      · next connecting =>
        have connected := single stepped
        rw [if_pos connecting]
        refine ⟨documented.relinks connected rfl ?_, documented.call connected trivial⟩
        rw [documented.connect connected, linked]
      · next idle =>
        rw [if_neg idle]
        exact unchanged rfl stepped
  | connectSettled succeeded =>
      cases succeeded with
      | false => exact unchanged rfl stepped
      | true =>
          have connected := single stepped
          refine ⟨documented.relinks connected rfl ?_, ?_⟩
          · rw [documented.connected connected, linked]
            rfl
          · have published := documented.takenOver connected
            rw [linked] at published
            exact published
  | online =>
      have connected := single stepped
      refine ⟨documented.relinks connected rfl ?_, ?_⟩
      · rw [documented.connected connected, linked]
        rfl
      · have published := documented.takenOver connected
        rw [linked] at published
        exact published
  | hookSettled succeeded =>
      cases succeeded with
      | false => exact unchanged rfl stepped
      | true =>
          unfold AgvClient.networkEvents at stepped
          unfold Vehicle.connect
          dsimp only at stepped ⊢
          split at stepped
          · next stopping =>
            have ended := single stepped
            rw [if_pos stopping]
            refine ⟨documented.relinks ended rfl ?_, documented.call ended trivial⟩
            unfold Vehicle.endSession Vehicle.isConnected
            cases online : vehicle.history.client.isConnected with
            | true =>
                rw [online] at ended
                rw [documented.disconnect_online ended, linked]
                rfl
            | false =>
                rw [online] at ended
                rw [documented.disconnect_offline ended, linked]
                rfl
          · next running =>
            rw [if_neg running]
            exact unchanged rfl stepped
  | stop | disconnected | offline | registerExtensionTopic | publishTopic | subscribeTopic
  | subscribeSettled | unsubscribe => exact unchanged rfl stepped

/-- A message handed over is sent. -/
theorem Documented.publishEvents (documented : network.Documented) {id : VehicleId}
    (vehicle : Vehicle) {message : Option (MqttMessage Properties)}
    (linked : network.link before id = vehicle.toLink)
    (stepped : (AgvClient.publishEvents id vehicle.history message).foldlM
      network.step before = some after) :
    network.Relinks id (vehicle.send message).toLink before after ∧
      network.Quiet before after := by
  cases message with
  | none =>
      obtain rfl := Option.some.inj stepped
      exact ⟨⟨linked, fun _ _ => rfl⟩, .refl before⟩
  | some message =>
      have published : network.step before
          (.publish id vehicle.history.client.isConnected message) = some after := by
        simpa [AgvClient.publishEvents] using stepped
      refine ⟨documented.relinks published rfl ?_, documented.call published trivial⟩
      unfold Vehicle.send Vehicle.isConnected
      cases online : vehicle.history.client.isConnected with
      | true =>
          rw [online] at published
          rw [documented.publish_online published, linked]
          rfl
      | false =>
          rw [online] at published
          rw [documented.publish_offline published, linked]
          rfl

end MqttNetwork

/-! ## The system -/

namespace ConnectionSystem

variable {State : Type} {network : MqttNetwork State} {format : TopicFormat}
  {text : Vda5050Object Properties → String} {sys next : ConnectionSystem State} {id : VehicleId}

/-- The client of a vehicle with its connection. -/
def vehicle (network : MqttNetwork State) (sys : ConnectionSystem State) (id : VehicleId) :
    Vehicle where
  toLink := network.link sys.network id
  history := sys.histories id
  reconnected := sys.reconnected id

/-- The vehicles, with what the broker has kept of them and what the client has seen. -/
structure Tracks (network : MqttNetwork State) (format : TopicFormat)
    (text : Vda5050Object Properties → String) (sys : ConnectionSystem State) : Prop where
  sound : ∀ id, (sys.vehicle network id).Sound format id text
    (network.retained sys.network (connectionTopic format id))
  arriving : ∀ messages, network.inbound sys.network = some messages →
    ∀ message ∈ messages, ∃ id state, Announces format id state message
  converges : Converges (connectionTopic format) subjectOf (·.object)
    (network.retained sys.network) (network.inbound sys.network)
    fun id => sys.client.connectionStates.get id.val

theorem Tracks.initial (documented : network.Documented) (format : TopicFormat)
    (text : Vda5050Object Properties → String) :
    Tracks network format text (initial network format) where
  sound id := by
    have view : (ConnectionSystem.initial network format).vehicle network id =
        { history := .initial format } :=
      congrArg (fun link : Link => { toLink := link, history := .initial format : Vehicle })
        (documented.initial_link id)
    rw [view, show network.retained (ConnectionSystem.initial network format).network _ = none
      from documented.initial_retained _]
    exact .initial format id text
  arriving messages subscribed := by
    cases documented.initial_inbound.symm.trans subscribed
  converges := by
    have retained : network.retained network.initial = fun _ => none :=
      funext documented.initial_retained
    change Converges _ _ _ (network.retained network.initial) (network.inbound network.initial) _
    rw [retained, documented.initial_inbound]
    exact .initial

/-- What the broker has kept announces the states of vehicles. -/
private theorem Tracks.retained_announces (tracks : Tracks network format text sys) {topic : String}
    {message : MqttMessage Properties} (kept : network.retained sys.network topic = some message) :
    ∃ id state, Announces format id state message := by
  obtain ⟨id, -, rfl⟩ := tracks.converges.filed topic message kept
  exact ⟨id, (tracks.sound id).kept message kept⟩

/-- A vehicle goes on, while the broker publishes nothing. -/
theorem Tracks.of_quiet (tracks : Tracks network format text sys)
    (quiet : network.Quiet sys.network next.network) (client : next.client = sys.client)
    (others : ∀ other, other ≠ id → next.vehicle network other = sys.vehicle network other)
    (sound : (next.vehicle network id).Sound format id text
      (network.retained sys.network (connectionTopic format id))) :
    Tracks network format text next where
  sound other := by
    rw [quiet.retained]
    by_cases same : other = id
    · exact same ▸ sound
    · rw [others other same]
      exact tracks.sound other
  arriving := by
    rw [quiet.inbound]
    exact tracks.arriving
  converges := by
    rw [quiet.retained, quiet.inbound, client]
    exact tracks.converges

/-- The broker publishes a message of a vehicle. -/
private theorem Tracks.of_publishes (apart : format.TellsApart)
    (tracks : Tracks network format text sys)
    {message : MqttMessage Properties} {state : ConnectionState}
    (announces : Announces format id state message)
    (publishes : network.Publishes sys.network next.network message)
    (client : next.client = sys.client)
    (others : ∀ other, other ≠ id → next.vehicle network other = sys.vehicle network other)
    (sound : (next.vehicle network id).Sound format id text (some message)) :
    Tracks network format text next := by
  have kept (topic : String) : network.retained next.network topic =
      if topic = connectionTopic format id then some message
      else network.retained sys.network topic := by
    rw [publishes.retained, announces.mqttTopic]
    simp [announces.retain]
  refine ⟨fun other => ?_, ?_, ?_⟩
  · rw [kept]
    by_cases same : other = id
    · rw [same, if_pos rfl]
      exact sound
    · rw [others other same, if_neg fun topic => same (connectionTopic_injective apart topic)]
      exact tracks.sound other
  · intro messages subscribed other member
    rw [publishes.inbound] at subscribed
    obtain ⟨earlier, arriving, rfl⟩ := Option.map_eq_some_iff.mp subscribed
    rcases List.mem_append.mp member with known | new
    · exact tracks.arriving earlier arriving other known
    · obtain rfl := List.mem_singleton.mp new
      exact ⟨id, state, announces⟩
  · rw [publishes.inbound, client]
    exact tracks.converges.publish (connectionTopic_injective apart) announces.subject kept

section Moved

variable {link : Link} {state : State} {history : ClientHistory Properties Unit}
  {reconnected : Bool}

private theorem vehicle_moved {vehicle : Vehicle}
    (relinks : network.Relinks id vehicle.toLink sys.network state) :
    (sys.move id state vehicle.history vehicle.reconnected).vehicle network id = vehicle :=
  Vehicle.eq_of_parts relinks.link (Function.update_self ..) (Function.update_self ..)

private theorem vehicle_others (relinks : network.Relinks id link sys.network state)
    (other : VehicleId) (different : other ≠ id) :
    (sys.move id state history reconnected).vehicle network other = sys.vehicle network other :=
  Vehicle.eq_of_parts (relinks.others other different) (Function.update_of_ne different ..)
    (Function.update_of_ne different ..)

end Moved

/-- A client takes a step. -/
private theorem Tracks.step_vehicle (documented : network.Documented) (apart : format.TellsApart)
    (tracks : Tracks network format text sys) {now : String}
    {event : ClientEvent Properties Unit} (admissible : AgvClient.Admissible format id.val)
    (timestamp : isDateTime now = true)
    (stepped : sys.step network text (.vehicle id now event) = some next) :
    Tracks network format text next := by
  obtain ⟨⟨history, message⟩, called, linked⟩ := Option.bind_eq_some_iff.mp stepped
  obtain ⟨state, performed, rfl⟩ := Option.map_eq_some_iff.mp linked
  rw [List.foldlM_append] at performed
  obtain ⟨middle, first, second⟩ := Option.bind_eq_some_iff.mp performed
  obtain ⟨relinks, publishes⟩ := documented.networkEvents (sys.vehicle network id) rfl first
  have sameHistory :=
    Vehicle.connect_history (sys.vehicle network id) id.val text now history event
  nth_rewrite 1 [← sameHistory] at second
  obtain ⟨relinks', quiet⟩ := documented.publishEvents _ relinks.link second
  have relinked := relinks.trans relinks'
  have published := publishes.trans_quiet quiet
  -- the vehicle of the system has taken the step as well
  have current : (sys.vehicle network id).step id.val text now event = some
      (((sys.vehicle network id).connect id.val text now history event).send message) :=
    Option.map_eq_some_iff.mpr ⟨_, called, rfl⟩
  have sound := (tracks.sound id).step admissible timestamp current
  rw [← vehicle_moved relinked, Vehicle.send_history, Vehicle.connect_history,
    Vehicle.send_reconnected, Vehicle.connect_reconnected] at sound
  cases taken : (sys.vehicle network id).takenOver event with
  | none =>
      rw [taken] at published sound
      exact tracks.of_quiet published rfl (vehicle_others relinked) sound
  | some will =>
      rw [taken] at published sound
      exact tracks.of_publishes apart ((tracks.sound id).takenOver_announces taken) published rfl
        (vehicle_others relinked) sound

/-- The messages to the master control client are none of a vehicle's business. -/
private theorem Tracks.sound_of_retained (documented : network.Documented)
    (tracks : Tracks network format text sys) {event : NetworkEvent} {state : State}
    (stepped : network.step sys.network event = some state) (about : event.vehicle? = none)
    (retained : network.retained state = network.retained sys.network)
    (client : MasterControlClient) (id : VehicleId) :
    (vehicle network { sys with network := state, client := client } id).Sound format id text
      (network.retained state (connectionTopic format id)) := by
  have same : network.link state id = network.link sys.network id :=
    documented.isolated stepped (by simp [about])
  have sound := tracks.sound id
  unfold vehicle at sound ⊢
  rw [retained, same]
  exact sound

/-- The broker receives a packet. -/
theorem Tracks.receive (documented : network.Documented) (apart : format.TellsApart)
    (tracks : Tracks network format text sys) {state : State}
    (stepped : network.step sys.network (.receive id) = some state) :
    Tracks network format text { sys with network := state } := by
  have others : ∀ other, other ≠ id →
      vehicle network { sys with network := state } other = sys.vehicle network other :=
    fun other different => Vehicle.eq_of_parts (documented.isolated stepped fun same =>
      different (Option.some.inj same).symm) rfl rfl
  obtain ⟨session, opened, received⟩ := documented.receive stepped
  have sound := tracks.sound id
  rcases received with ⟨message, packets, first, publishes, linked⟩ | ⟨⟨packets, first⟩, quiet, linked⟩
  · obtain ⟨announced, announces⟩ :=
      (sound.session session opened).messages message (by simp [first])
    refine tracks.of_publishes apart announces publishes rfl others ?_
    have current : vehicle network { sys with network := state } id =
        { sys.vehicle network id with session := some { session with packets := packets } } :=
      Vehicle.eq_of_parts linked rfl rfl
    rw [current]
    exact sound.receive opened first
  · refine tracks.of_quiet quiet rfl others ?_
    have current : vehicle network { sys with network := state } id =
        { sys.vehicle network id with session := none } :=
      Vehicle.eq_of_parts linked rfl rfl
    rw [current]
    exact sound.receiveDisconnect opened first

/-- The broker finds a connection broken. -/
theorem Tracks.broken (documented : network.Documented) (apart : format.TellsApart)
    (tracks : Tracks network format text sys) {state : State}
    (stepped : network.step sys.network (.broken id) = some state) :
    Tracks network format text { sys with network := state } := by
  obtain ⟨session, opened, publishes, linked⟩ := documented.broken stepped
  have sound := tracks.sound id
  refine tracks.of_publishes apart (sound.session session opened).will publishes rfl ?_ ?_
  · exact fun other different => Vehicle.eq_of_parts (documented.isolated stepped fun same =>
      different (Option.some.inj same).symm) rfl rfl
  · have current : vehicle network { sys with network := state } id =
        { sys.vehicle network id with session := none } :=
      Vehicle.eq_of_parts linked rfl rfl
    rw [current]
    exact sound.broken opened

/-- The master control client subscribes. -/
theorem Tracks.subscribe (documented : network.Documented) (apart : format.TellsApart)
    (tracks : Tracks network format text sys) {state : State}
    (stepped : network.step sys.network .subscribe = some state) :
    Tracks network format text { sys with network := state } := by
  obtain ⟨retained, messages, inbound, listed⟩ := documented.subscribe stepped
  refine ⟨tracks.sound_of_retained documented stepped rfl retained sys.client, ?_, ?_⟩
  · intro arriving subscribed message member
    obtain rfl := Option.some.inj (inbound.symm.trans subscribed)
    obtain ⟨topic, kept⟩ := (listed message).mp member
    exact tracks.retained_announces kept
  · change Converges _ _ _ (network.retained state) (network.inbound state) _
    rw [retained, inbound]
    exact tracks.converges.subscribe (connectionTopic_injective apart) listed

/-- The master control client receives a message. -/
theorem Tracks.deliver (documented : network.Documented)
    (tracks : Tracks network format text sys) {position : Nat} {state : State}
    (stepped : network.step sys.network (.deliver position) = some state)
    {message : MqttMessage Properties}
    (received : (network.inbound sys.network).bind (·[position]?) = some message) :
    Tracks network format text
      { sys with
        network := state
        client := (subjectOf message).elim sys.client fun vehicle =>
          sys.client.onConnection vehicle.val message.object } := by
  obtain ⟨retained, messages, next, arriving, found, ahead, inbound⟩ := documented.deliver stepped
  obtain rfl : next = message := by
    rw [arriving, Option.bind_some, found] at received
    exact Option.some.inj received
  obtain ⟨within, same⟩ := List.getElem?_eq_some_iff.mp found
  have split : messages = messages.take position ++ next :: messages.drop (position + 1) := by
    rw [← same, List.getElem_cons_drop, List.take_append_drop]
  have announced := tracks.arriving messages arriving
  refine ⟨tracks.sound_of_retained documented stepped rfl retained _, ?_, ?_⟩
  · intro rest remaining message member
    obtain rfl := Option.some.inj (inbound.symm.trans remaining)
    exact announced message (List.mem_of_mem_eraseIdx member)
  · obtain ⟨id, announcedState, announces⟩ := announced next (List.mem_of_getElem? found)
    have converges := tracks.converges
    rw [arriving, split] at converges
    change Converges _ _ _ (network.retained state) (network.inbound state) _
    rw [retained, inbound, List.eraseIdx_eq_take_drop_succ]
    refine converges.deliver announces.subject ?_ fun other => ?_
    · -- a message of the same subject would have the same topic
      intro other member about
      obtain ⟨id', _, announces'⟩ := announced other (List.mem_of_mem_take member)
      obtain rfl := Option.some.inj (announces'.subject.symm.trans about)
      exact ahead other member (announces'.mqttTopic.trans announces.mqttTopic.symm)
    · simp only [announces.subject, Option.elim_some, MasterControlClient.onConnection,
        AgvIdMap.get_set, Subtype.ext_iff]

/-- The master control client is not subscribed any more. -/
theorem Tracks.unsubscribe (documented : network.Documented)
    (tracks : Tracks network format text sys) {state : State}
    (stepped : network.step sys.network .unsubscribe = some state) :
    Tracks network format text { sys with network := state } := by
  obtain ⟨retained, inbound⟩ := documented.unsubscribe stepped
  refine ⟨tracks.sound_of_retained documented stepped rfl retained sys.client, ?_, ?_⟩
  · intro messages subscribed
    cases inbound.symm.trans subscribed
  · change Converges _ _ _ (network.retained state) (network.inbound state) _
    rw [retained, inbound]
    exact tracks.converges.lose

theorem Tracks.step (documented : network.Documented) (apart : format.TellsApart)
    (tracks : Tracks network format text sys) {event : ConnectionEvent}
    (allowed : Allowed format sys event) (stepped : sys.step network text event = some next) :
    Tracks network format text next := by
  cases event with
  | vehicle id now event =>
      exact tracks.step_vehicle documented apart allowed.1 allowed.2.1 stepped
  | receive id =>
      obtain ⟨state, received, rfl⟩ := Option.map_eq_some_iff.mp stepped
      exact tracks.receive documented apart received
  | broken id =>
      obtain ⟨state, found, rfl⟩ := Option.map_eq_some_iff.mp stepped
      exact tracks.broken documented apart found
  | subscribe =>
      obtain ⟨state, subscribed, rfl⟩ := Option.map_eq_some_iff.mp stepped
      exact tracks.subscribe documented apart subscribed
  | deliver position =>
      obtain ⟨state, delivered, received⟩ := Option.bind_eq_some_iff.mp stepped
      obtain ⟨message, arrived, rfl⟩ := Option.map_eq_some_iff.mp received
      exact tracks.deliver documented delivered arrived
  | offline =>
      obtain ⟨state, lost, rfl⟩ := Option.map_eq_some_iff.mp stepped
      exact tracks.unsubscribe documented lost
  | trackAgvs handler =>
      obtain rfl := Option.some.inj stepped
      exact ⟨tracks.sound, tracks.arriving, tracks.converges⟩
  | reset =>
      obtain ⟨state, ended, rfl⟩ := Option.map_eq_some_iff.mp stepped
      obtain ⟨sound, arriving, converges⟩ := tracks.unsubscribe documented ended
      obtain ⟨retained, inbound⟩ := documented.unsubscribe ended
      refine ⟨sound, arriving, ?_⟩
      change Converges _ _ _ (network.retained state) (network.inbound state) _ at converges
      change Converges _ _ _ (network.retained state) (network.inbound state) _
      rw [inbound] at converges ⊢
      exact converges.forget

/-! ## Tracked states -/

/-- Everything on the way has arrived, and broker and client agree on the connection. -/
structure Settled (network : MqttNetwork State) (sys : ConnectionSystem State) (id : VehicleId) :
    Prop where
  inbound : network.inbound sys.network = some []
  packets : ∀ session ∈ (network.link sys.network id).session, session.packets = []
  agreed : (network.link sys.network id).session.isSome = (sys.histories id).client.isConnected

/-- The state tracked for a vehicle. -/
def IsTracked (sys : ConnectionSystem State) (id : VehicleId) (state : ConnectionState) : Prop :=
  ∃ tracked, sys.client.getTrackedState id.val = some tracked ∧
    tracked.state = some (.str state.text)

private theorem property?_connectionState {object : Vda5050Object Properties}
    {state : ConnectionState} (payload : object.payload = connectionProperties state) :
    object.toJson.property? "connectionState" = some (.str state.text) := by
  unfold Vda5050Object.toJson
  rw [payload]
  cases object.manufacturer <;> cases object.serialNumber <;>
    simp [connectionProperties, Json.property?, List.lookup_cons]

private theorem ConnectionState.text_injective : Function.Injective ConnectionState.text := by
  intro one other same
  cases one <;> cases other <;> simp_all [ConnectionState.text]

/-- The state tracked is the one that the broker has kept. -/
private theorem Tracks.isTracked_iff (tracks : Tracks network format text sys)
    (arrived : network.inbound sys.network = some []) (state : ConnectionState) :
    sys.IsTracked id state ↔
      (network.retained sys.network (connectionTopic format id)).map (·.object.payload) =
        some (connectionProperties state) := by
  have converges := tracks.converges
  rw [arrived] at converges
  have seen := converges.caughtUp id
  unfold IsTracked MasterControlClient.getTrackedState
  rw [seen]
  cases kept : network.retained sys.network (connectionTopic format id) with
  | none => simp
  | some message =>
      obtain ⟨announced, announces⟩ := (tracks.sound id).kept message kept
      have known : (MasterControlClient.trackedState id.val message.object).state =
          some (.str announced.text) := property?_connectionState announces.payload
      simp only [Option.map_some, Option.some.injEq, exists_eq_left', known, Json.str.injEq,
        announces.payload, connectionProperties_injective.eq_iff,
        ConnectionState.text_injective.eq_iff]

theorem tracks_of_run (documented : network.Documented) (apart : format.TellsApart)
    {events : List ConnectionEvent}
    (run : Run (step network text) (Allowed format) (initial network format) events sys) :
    Tracks network format text sys :=
  run.invariant (Tracks network format text) (.initial documented format text)
    fun _ tracks allowed stepped => tracks.step documented apart allowed stepped

/-- On every network that is as documented, in every state of every run, a vehicle whose messages
have all arrived is tracked as online if and only if its client is connected, is not stopping, and
has not reconnected. If it has, the connection is tracked as broken. -/
theorem tracked_online_iff (documented : network.Documented) (apart : format.TellsApart)
    {events : List ConnectionEvent}
    (run : Run (step network text) (Allowed format) (initial network format) events sys)
    (settled : sys.Settled network id) :
    (sys.IsTracked id .online ↔
      (sys.histories id).client.isConnected = true ∧
        (sys.histories id).client.isStopping = false ∧ sys.reconnected id = false) ∧
    ((sys.histories id).client.isConnected = true →
      (sys.histories id).client.isStopping = false → sys.reconnected id = true →
        sys.IsTracked id .connectionbroken) := by
  have tracks := tracks_of_run documented apart run
  have sound := tracks.sound id
  simp only [tracks.isTracked_iff settled.inbound]
  cases opened : (network.link sys.network id).session with
  | none =>
      have disconnected : (sys.histories id).client.isConnected = false := by
        rw [← settled.agreed, opened]
        rfl
      refine ⟨⟨fun tracked => absurd tracked (sound.closed opened).offline, ?_⟩, ?_⟩
      · rintro ⟨connected, -⟩
        exact absurd (disconnected.symm.trans connected) (by decide)
      · rintro connected
        exact absurd (disconnected.symm.trans connected) (by decide)
  | some session =>
      have connected : (sys.histories id).client.isConnected = true := by
        rw [← settled.agreed, opened]
        rfl
      have before := sound.session session opened
      have reported : Packet.reported session.packets
          (network.retained sys.network (connectionTopic format id)) =
          (network.retained sys.network (connectionTopic format id)).map (·.object.payload) := by
        rw [settled.packets session opened, Packet.reported_nil]
      rw [← reported]
      cases stopping : (sys.histories id).client.isStopping with
      | true =>
          refine ⟨⟨fun tracked => absurd tracked (before.stopping connected stopping), ?_⟩, by simp⟩
          rintro ⟨-, running, -⟩
          cases running
      | false =>
          have running := before.running connected stopping
          change _ = some (connectionProperties (runningState (sys.reconnected id))) at running
          rw [running]
          cases reconnected : sys.reconnected id with
          | true => simp [runningState, connectionProperties_injective.eq_iff]
          | false => simp [runningState, connected]

/-- Two vehicles, as clients. -/
def firstClient : VehicleId := ⟨SubscriptionHistory.firstVehicle, by decide⟩

def secondClient : VehicleId := ⟨{ manufacturer := "B", serialNumber := "2" }, by decide⟩

/-- Both vehicles are started and tracked. The first one loses its connection and reconnects. -/
def reconnection : List ConnectionEvent :=
  let now := "2021-06-01T12:00:00.000Z"
  [.vehicle firstClient now .start, .vehicle firstClient now (.connectSettled true),
    .vehicle firstClient now (.hookSettled true), .receive firstClient, .subscribe, .deliver 0,
    .vehicle secondClient now .start, .vehicle secondClient now (.connectSettled true),
    .vehicle firstClient now .offline, .receive secondClient,
    .vehicle firstClient now .online, .deliver 0, .deliver 0]

/-- Tracked as broken, although it is connected. -/
theorem tracked_online_reconnection :
    ∃ sys, Run (step FifoBroker.network fun _ => "") (Allowed SubscriptionHistory.vehicleFormat)
        (initial FifoBroker.network SubscriptionHistory.vehicleFormat) reconnection sys ∧
      (sys.histories firstClient).client.isConnected = true ∧
      ¬ sys.IsTracked firstClient .online ∧ sys.IsTracked firstClient .connectionbroken ∧
      sys.IsTracked secondClient .online := by
  obtain ⟨sys, run, passed⟩ := exists_run_of_execute
    (show ((execute (step FifoBroker.network fun _ => "") (Allowed SubscriptionHistory.vehicleFormat)
      (initial FifoBroker.network SubscriptionHistory.vehicleFormat) reconnection).any fun sys =>
        sys.network.inbound.any (·.isEmpty) &&
          [firstClient, secondClient].all fun id =>
            (sys.histories id).client.isConnected && !(sys.histories id).client.isStopping &&
              sys.reconnected id == (id.val == firstClient.val) &&
              (sys.network.links id).session.any (·.packets.isEmpty)) = true by decide +kernel)
  simp only [Bool.and_eq_true, Option.any_eq_true, List.isEmpty_iff, exists_eq_right,
    List.all_eq_true, Bool.not_eq_true', beq_iff_eq] at passed
  obtain ⟨arrived, vehicles⟩ := passed
  have settled (id : VehicleId) (member : id ∈ [firstClient, secondClient]) :
      sys.Settled FifoBroker.network id := by
    obtain ⟨⟨⟨connected, -⟩, -⟩, session, opened, empty⟩ := vehicles id member
    refine ⟨arrived, fun other member => ?_, ?_⟩
    · obtain rfl := Option.some.inj (opened.symm.trans member)
      exact empty
    · rw [connected]
      exact Option.isSome_iff_exists.mpr ⟨session, opened⟩
  obtain ⟨⟨⟨connected, running⟩, reconnected⟩, -⟩ := vehicles firstClient (by simp)
  obtain ⟨⟨⟨connected', running'⟩, reconnected'⟩, -⟩ := vehicles secondClient (by simp)
  have first := tracked_online_iff FifoBroker.documented (by decide) run
    (settled firstClient (by simp))
  have second := tracked_online_iff FifoBroker.documented (by decide) run
    (settled secondClient (by simp))
  exact ⟨sys, run, connected,
    fun online => absurd ((first.1.mp online).2.2.symm.trans reconnected) (by decide),
    first.2 connected running reconnected, second.1.mpr ⟨connected', running', reconnected'⟩⟩

end ConnectionSystem

end Vda5050
