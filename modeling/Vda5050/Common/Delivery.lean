import Vda5050.Common.Dispatching
import Vda5050.Common.FailedSubscriptions
import Vda5050.Common.TopicObjects
import Vda5050.Library.TopicFilters

/-!
# From publication to handlers

A message published by one client is forwarded by the broker to another client with
subscriptions that cover its topic and subject. The loop that dispatches it there invokes
the handlers of exactly these.
-/

set_option autoImplicit false

namespace Vda5050

open Library

/-! ## Filters of subscriptions -/

namespace TopicFormat

variable {format : TopicFormat}

theorem forall₂_setLevel {placeholder level topicLevel : String} {filter topic : List String}
    (levels : List.Forall₂ LevelMatches filter topic) (replaced : LevelMatches level topicLevel) :
    List.Forall₂ LevelMatches (format.setLevel placeholder level filter)
      (format.setLevel placeholder topicLevel topic) := by
  unfold setLevel
  cases indexOfLevel format.levels placeholder with
  | none => exact levels
  | some index => exact forall₂_set levels index replaced

/-- A filter with wildcards, or with the same values, matches level by level. -/
theorem forall₂_constructLevels {manufacturer serialNumber topic : String}
    {manufacturer' serialNumber' topic' : String}
    (sameManufacturer : LevelMatches manufacturer manufacturer')
    (sameSerialNumber : LevelMatches serialNumber serialNumber')
    (sameTopic : LevelMatches topic topic') :
    List.Forall₂ LevelMatches (format.constructLevels manufacturer serialNumber topic)
      (format.constructLevels manufacturer' serialNumber' topic') := by
  unfold constructLevels
  exact forall₂_setLevel (forall₂_setLevel (forall₂_setLevel (forall₂_levelMatches_refl _)
    sameManufacturer) sameSerialNumber) sameTopic

private theorem mem_constructLevels {manufacturer serialNumber topic level : String}
    (member : level ∈ format.constructLevels manufacturer serialNumber topic) :
    level ∈ [topic, serialNumber, manufacturer, format.majorVersion, format.interfaceName] ∨
      level ∈ format.levels := by
  unfold constructLevels at member
  rcases format.mem_setLevel member with rfl | member
  · simp
  rcases format.mem_setLevel member with rfl | member
  · simp
  rcases format.mem_setLevel member with rfl | member
  · simp
  rcases format.mem_setLevel member with rfl | member
  · simp
  rcases format.mem_setLevel member with rfl | member
  · simp
  · exact .inr member

/-- No level of its own is the wildcard for several levels. -/
def IsLevelwise (format : TopicFormat) : Prop :=
  multiLevelWildcard ∉ format.interfaceName :: format.majorVersion :: format.levels

instance (format : TopicFormat) : Decidable format.IsLevelwise :=
  inferInstanceAs (Decidable (_ ∉ _))

private theorem constructLevels_ne_nil (format : TopicFormat)
    (manufacturer serialNumber topic : String) :
    format.constructLevels manufacturer serialNumber topic ≠ [] := by
  intro none
  have length := format.length_constructLevels manufacturer serialNumber topic
  rw [none, List.length_nil] at length
  exact List.ne_nil_of_mem format.hasTopic (List.length_eq_zero_iff.mp length.symm)

end TopicFormat

theorem isValidTopicLevel_excludes {level : String} (valid : isValidTopicLevel level = true) :
    level ≠ multiLevelWildcard ∧ '/' ∉ level.toList := by
  unfold isValidTopicLevel at valid
  rw [List.all_eq_true] at valid
  constructor
  · rintro rfl
    exact absurd (valid '#' (by decide)) (by decide)
  · intro member
    exact absurd (valid '/' member) (by decide)

/-- The filter of a subscription matches the topics it covers, level by level. -/
private theorem levels_of_covers {Handler : Type} {manager : SubscriptionManager Handler}
    {subscription : Subscription Handler} {topic : String} {subject : AgvId}
    (covers : subscription.Covers topic subject) (levelwise : manager.format.IsLevelwise)
    (interfaceName : '/' ∉ manager.format.interfaceName.toList)
    (majorVersion : '/' ∉ manager.format.majorVersion.toList)
    (topicLevel : isValidTopicLevel topic = true)
    (manufacturerLevel : isValidTopicLevel subject.manufacturer = true)
    (serialNumberLevel : isValidTopicLevel subject.serialNumber = true) :
    let filter := splitLevels (manager.getMqttTopic subscription.topic subscription.subject)
    multiLevelWildcard ∉ filter ∧ List.Forall₂ LevelMatches filter
      (splitLevels (manager.getMqttTopic (some topic) subject.toPartial)) := by
  obtain ⟨coversTopic, coversSerialNumber, coversManufacturer⟩ := covers
  have given : ∀ {part : Option String} {value : String}, part = some value ∨ part = none →
      part.getD "+" = value ∨ part.getD "+" = singleLevelWildcard := by
    rintro part value (rfl | rfl)
    · exact .inl rfl
    · exact .inr rfl
  have plain : ∀ {part : Option String} {value : String}, isValidTopicLevel value = true →
      part = some value ∨ part = none →
        part.getD "+" ≠ multiLevelWildcard ∧ '/' ∉ (part.getD "+").toList := by
    rintro part value valid (rfl | rfl)
    · exact isValidTopicLevel_excludes valid
    · decide
  have levels := manager.format.forall₂_constructLevels
    ((given coversManufacturer).symm) ((given coversSerialNumber).symm) ((given coversTopic).symm)
  have filterLevels := splitLevels_joinLevels
    (manager.format.constructLevels_ne_nil (subscription.subject.manufacturer.getD "+")
      (subscription.subject.serialNumber.getD "+") (subscription.topic.getD "+"))
    (manager.format.separated_constructLevels interfaceName majorVersion
      (plain manufacturerLevel coversManufacturer).2 (plain serialNumberLevel coversSerialNumber).2
      (plain topicLevel coversTopic).2)
  have topicLevels := splitLevels_joinLevels
    (manager.format.constructLevels_ne_nil subject.manufacturer subject.serialNumber topic)
    (manager.format.separated_constructLevels interfaceName majorVersion
      (isValidTopicLevel_excludes manufacturerLevel).2
      (isValidTopicLevel_excludes serialNumberLevel).2 (isValidTopicLevel_excludes topicLevel).2)
  unfold SubscriptionManager.getMqttTopic TopicFormat.constructMqttTopic
  simp only [AgvId.toPartial, Option.getD_some]
  rw [topicLevels, filterLevels]
  refine ⟨fun member => ?_, levels⟩
  rcases TopicFormat.mem_constructLevels member with value | own
  · simp only [List.mem_cons, List.not_mem_nil, or_false] at value
    rcases value with same | same | same | same | same
    · exact (plain topicLevel coversTopic).1 same.symm
    · exact (plain serialNumberLevel coversSerialNumber).1 same.symm
    · exact (plain manufacturerLevel coversManufacturer).1 same.symm
    · exact levelwise (by simp [same])
    · exact levelwise (by simp [same])
  · exact levelwise (by simp [own])

/-! ## The broker -/

/-- A broker forwards the messages on an MQTT topic to a session with the given topic filters.
Of it we rely on the levels being matched one by one where a filter has no wildcard for several
of them, except for the topics of the broker itself. -/
structure ForwardsMatching (forwards : List String → String → Prop) : Prop where
  levelwise : ∀ {filters filter mqttTopic}, filter ∈ filters →
    multiLevelWildcard ∉ splitLevels filter → isReserved (splitLevels mqttTopic) = false →
      List.Forall₂ LevelMatches (splitLevels filter) (splitLevels mqttTopic) →
        forwards filters mqttTopic

/-- One of the filters matches the MQTT topic. -/
def MatchesAny (filters : List String) (mqttTopic : String) : Prop :=
  ∃ filter ∈ filters, matchesFilter (splitLevels filter) (splitLevels mqttTopic) = true

private theorem forwardsMatching_matchesAny : ForwardsMatching MatchesAny where
  levelwise member levelwise notReserved levels :=
    ⟨_, member, matchesFilter_of_levels levelwise notReserved levels⟩

/-! ## Reception -/

/-- `validateTopicObject` of a message that has been received. -/
def validateInbound (validateExtension : String → Json → Except String Unit)
    (topic : Option String) (object : Json) : Except String Unit :=
  match topic with
  | none => .error "undefined is not iterable"
  | some topic =>
      if isExtensionTopic topic then validateExtension topic object
      else validateCoreObject topic object

/-- The topic filters that a client has requested of the broker. -/
def Client.filters {Payload Handler : Type} (client : Client Payload Handler) : List String :=
  client.requests.filterMap (·.mqttTopic)

namespace ClientHistory

open SubscriptionHistory (Represents)
open Client (IsWellFormed)

variable {Payload Handler : Type} {settings : ClientSettings Payload}
  {h : ClientHistory Payload Handler}

/-- The ids of the live subscriptions that cover a topic and a subject. -/
def coveringIds (h : ClientHistory Payload Handler) (topic : String) (subject : AgvId) :
    List String :=
  matchingIds h.subscriptions (subscriptionPath (some topic) subject.toPartial)

private theorem mem_coveringIds {topic : String} {subject : AgvId} {id : String} :
    id ∈ coveringIds h topic subject ↔
      ∃ subscription ∈ h.live, subscription.Covers topic subject ∧ subscription.id = id :=
  mem_matchingIds

private theorem dispatchMessage_of_valid {parse : String → Except String (InboundObject Json)}
    {validateTopicObject : Option String → Json → Except String Unit}
    {subscriptions : SubscriptionHistory Handler} {mqttTopic mqttPayload topic : String}
    {inbound : InboundObject Json} {path : SubscriptionPath}
    (parsed : parse mqttPayload = .ok inbound)
    (found : findPath subscriptions.manager mqttTopic inbound.subject = path)
    (ends : path.1 = some topic)
    (valid : validateTopicObject (some topic) inbound.object = .ok ()) :
    dispatchMessage parse validateTopicObject subscriptions mqttTopic mqttPayload =
      .ok (.start subscriptions path) := by
  unfold dispatchMessage
  simp only [parsed, bind, Except.bind, found, ends, valid]
  rfl

/-- The subscriptions are requested in every run in which no MQTT topic is lost. -/
private theorem forwards_of_live {topicFormat interfaceName protocolVersion : String}
    {format : TopicFormat}
    (accepted : compileMqttTopic topicFormat interfaceName protocolVersion = .ok format)
    (interfaceName' : '/' ∉ interfaceName.toList) (protocolVersion' : '/' ∉ protocolVersion.toList)
    (levelwise : format.IsLevelwise) {forwards : List String → String → Prop}
    (broker : ForwardsMatching forwards) (backed : Backed h)
    (sameFormat : h.client.subscriptionManager.format = format)
    (connected : h.client.isConnected = true) {subscription : Subscription Handler}
    (live : subscription ∈ h.live) {topic : String} {subject : AgvId}
    (covers : subscription.Covers topic subject) (topicLevel : isValidTopicLevel topic = true)
    (manufacturerLevel : isValidTopicLevel subject.manufacturer = true)
    (serialNumberLevel : isValidTopicLevel subject.serialNumber = true)
    (notReserved : isReserved (splitLevels
      (h.client.subscriptionManager.getMqttTopic (some topic) subject.toPartial)) = false) :
    forwards h.client.filters
      (h.client.subscriptionManager.getMqttTopic (some topic) subject.toPartial) := by
  obtain ⟨sameName, sameVersion⟩ := SubscriptionHistory.compileMqttTopic_spec accepted
  obtain ⟨request, requested, filter⟩ := backed.requested connected subscription live
  have separated : '/' ∉ format.interfaceName.toList ∧ '/' ∉ format.majorVersion.toList := by
    rw [sameName, sameVersion]
    exact ⟨interfaceName', SubscriptionHistory.separated_majorVersion protocolVersion'⟩
  obtain ⟨plain, levels⟩ := levels_of_covers covers (sameFormat ▸ levelwise)
    (sameFormat ▸ separated.1) (sameFormat ▸ separated.2) topicLevel manufacturerLevel
    serialNumberLevel
  exact broker.levelwise (List.mem_filterMap.mpr ⟨request, requested, filter⟩) plain notReserved
    levels

/-- A message published by a client that validates its objects names a vehicle. The broker
forwards it to each connected client of the same format with a subscription that covers topic
and vehicle. Its dispatch there invokes handlers of such subscriptions only, none of them twice,
and until it ends all that have not been removed before their turn. -/
theorem dispatched_to_covering {topicFormat interfaceName protocolVersion : String}
    {format : TopicFormat}
    (accepted : compileMqttTopic topicFormat interfaceName protocolVersion = .ok format)
    (interfaceName' : '/' ∉ interfaceName.toList) (protocolVersion' : '/' ∉ protocolVersion.toList)
    (levelwise : format.IsLevelwise)
    {forwards : List String → String → Prop} (broker : ForwardsMatching forwards)
    {validateTopicDirection : String → Bool → Except String Unit}
    {stringify : Vda5050Object Properties → Except String String}
    {lastWill : Option (LastWill Properties)} {sender : ClientHistory Properties Handler}
    {sent : List (ClientEvent Properties Handler)}
    (sends : Run (step (Client.validatingSettings validateTopicDirection stringify lastWill))
      (fun _ _ => True) (initial format) sent sender)
    {received : List (ClientEvent Payload Handler)}
    (receives : Run (step settings) (fun h event => FreshIds h event ∧ Undisturbed h event)
      (initial format) received h)
    (connected : h.client.isConnected = true)
    (parse : String → Except String (InboundObject Json))
    (validateExtension : String → Json → Except String Unit)
    {message : MqttMessage Properties} (published : message ∈ sender.published)
    (core : isExtensionTopic message.topic = false)
    (notReserved : isReserved (splitLevels message.mqttTopic) = false)
    (parsed : parse message.mqttPayload = .ok
      { object := message.object.toJson
        subject :=
          { manufacturer := message.object.manufacturer
            serialNumber := message.object.serialNumber } }) :
    ∃ (subject : AgvId) (first : Dispatch Handler),
      message.object.manufacturer = some subject.manufacturer ∧
      message.object.serialNumber = some subject.serialNumber ∧
      (∀ subscription ∈ h.live, subscription.Covers message.topic subject →
        forwards h.client.filters message.mqttTopic) ∧
      dispatchMessage parse (validateInbound validateExtension) h.subscriptions message.mqttTopic
        message.mqttPayload = .ok first ∧
      ∀ events dispatch, Run Dispatch.step (fun dispatch event => dispatch.FreshCalls event ∧
          dispatch.CallsWait (coveringIds h message.topic subject) event) first events dispatch →
        (∀ id ∈ dispatch.invoked, ∃ subscription ∈ h.live,
          subscription.Covers message.topic subject ∧ subscription.id = id) ∧
        dispatch.invoked.Nodup ∧
        (dispatch.step .invoke = none → ∀ subscription ∈ h.live,
          subscription.Covers message.topic subject → subscription.id ∉ dispatch.invoked →
            ∀ other ∈ dispatch.subscriptions.live, other.id ≠ subscription.id) := by
  obtain ⟨client, sameFormat, handed⟩ := handsOver_of_run sends message published
  have wellFormed := isWellFormed_of_handsOver handed
  rw [sameFormat] at wellFormed
  obtain ⟨subject, about⟩ := wellFormed.subject
  have backed : Backed h := receives.invariant Backed (.initial format)
    fun past backed permitted stepped =>
      backed.step (isSome_of_isStarted past) permitted.1 permitted.2 stepped
  have managerFormat : h.subscriptions.manager.format = format := format_of_run receives
  have topicEq : message.mqttTopic =
      h.subscriptions.manager.getMqttTopic (some message.topic) subject.toPartial := by
    rw [about.mqttTopic, SubscriptionManager.getMqttTopic, managerFormat]
    rfl
  have path : findPath h.subscriptions.manager message.mqttTopic subject.toPartial =
      subscriptionPath (some message.topic) subject.toPartial := by
    rw [topicEq]
    exact findPath_getMqttTopic (managerFormat ▸ accepted) interfaceName' protocolVersion'
      (isValidTopicLevel_excludes wellFormed.topic).2
      (isValidTopicLevel_excludes about.manufacturerLevel).2
      (isValidTopicLevel_excludes about.serialNumberLevel).2
  -- the message passes the validation of the receiver, too
  have valid : validateInbound validateExtension (some message.topic) message.object.toJson =
      .ok () := by
    obtain ⟨name, rules, schema⟩ := exists_schema core
    rw [validateInbound, core]
    exact (validateCoreObject_ok_iff schema message.object.toJson).mpr
      (wellFormed.schema name rules schema)
  rw [about.manufacturer, about.serialNumber] at parsed
  refine ⟨subject, _, about.manufacturer, about.serialNumber, fun subscription live covers => ?_,
    dispatchMessage_of_valid parsed path rfl valid, fun events dispatch run => ?_⟩
  · rw [topicEq] at notReserved ⊢
    exact forwards_of_live accepted interfaceName' protocolVersion' levelwise broker backed
      managerFormat connected live covers wellFormed.topic about.manufacturerLevel
      about.serialNumberLevel notReserved
  · obtain ⟨invoked, once⟩ := Dispatch.invokesEachOnce_of_run backed.books run
    have tracks := Dispatch.tracks_of_run backed.books (fun _ _ permitted => permitted.1) run
    refine ⟨fun id member => mem_coveringIds.mp (invoked id member), once,
      fun ended subscription live covers uninvoked => ?_⟩
    exact tracks.complete (Dispatch.remaining_of_step ended)
      (mem_coveringIds.mpr ⟨subscription, live, covers, rfl⟩) uninvoked

/-! ## A vehicle and a master control -/

def onlineObject : Json :=
  .obj
    [("headerId", .num 0 "0"), ("timestamp", .str "2021-06-01T12:00:00.000Z"),
      ("version", .str "1.1.0"), ("manufacturer", .str "first"), ("serialNumber", .str "001"),
      ("connectionState", .str "ONLINE")]

def parseOnline (text : String) : Except String (InboundObject Json) :=
  if text = onlineText then
    .ok
      { object := onlineObject
        subject := { manufacturer := some "first", serialNumber := some "001" } }
  else .error "Unexpected token in JSON"

/-- A subscription of the connections of all vehicles, one of that of the vehicle, and one of the
states of another vehicle. -/
def monitorSubscriptions : List (Subscription Unit) :=
  [{ id := "1"
     topic := some "connection"
     subject := { manufacturer := none, serialNumber := none }
     handler := () },
    { id := "2"
      topic := some "connection"
      subject := SubscriptionHistory.firstVehicle.toPartial
      handler := () },
    SubscriptionHistory.stateSubscription "3" "second"]

def monitorEvents : List (ClientEvent Properties Unit) :=
  .start :: .connectSettled true :: monitorSubscriptions.map .subscribeTopic

/-- The handler invoked first cancels its subscription. -/
def monitorCalls : List (DispatchEvent Unit) := [.invoke, .call (.remove "2"), .invoke]

theorem dispatched_to_covering_online :
    ∃ (sender h : ClientHistory Properties Unit) (message : MqttMessage Properties)
      (first dispatch : Dispatch Unit),
      message ∈ sender.published ∧ h.live = monitorSubscriptions ∧
      MatchesAny h.client.filters message.mqttTopic ∧
      dispatchMessage parseOnline (validateInbound fun _ _ => .ok ()) h.subscriptions
        message.mqttTopic message.mqttPayload = .ok first ∧
      Run Dispatch.step Dispatch.FreshCalls first monitorCalls dispatch ∧
      dispatch.invoked = ["2", "1"] ∧ dispatch.invoked.Nodup := by
  obtain ⟨sender, sends, passed⟩ := exists_run_of_execute
    (show ((execute (step (Client.validatingSettings (fun _ _ => .ok ()) stringifyOnline none))
      (fun _ _ => True) (initial SubscriptionHistory.vehicleFormat) onlineEvents).any
        fun h : ClientHistory Properties Unit => decide (∃ message ∈ h.published,
          message.topic = "connection" ∧ message.mqttTopic = "uagv/v2/first/001/connection" ∧
            message.mqttPayload = onlineText ∧ message.object.toJson = onlineObject ∧
            message.object.manufacturer = some "first" ∧
            message.object.serialNumber = some "001")) = true by decide +kernel)
  obtain ⟨h, receives, passed'⟩ := exists_run_of_execute
    (show ((execute (step (Client.validatingSettings (fun _ _ => .ok ()) stringifyOnline none))
      (fun h event => FreshIds h event ∧ Undisturbed h event)
      (initial SubscriptionHistory.vehicleFormat) monitorEvents).any
        fun h : ClientHistory Properties Unit => decide (h.client.isConnected = true ∧
          h.live = monitorSubscriptions) &&
          (execute Dispatch.step Dispatch.FreshCalls (Dispatch.start h.subscriptions
            (subscriptionPath (some "connection") SubscriptionHistory.firstVehicle.toPartial))
            monitorCalls).any (·.invoked = ["2", "1"])) = true by decide +kernel)
  obtain ⟨message, published, topic, mqttTopic, mqttPayload, object, manufacturer, serialNumber⟩ :=
    of_decide_eq_true passed
  simp only [Bool.and_eq_true, decide_eq_true_eq] at passed'
  obtain ⟨⟨connected, live⟩, continued⟩ := passed'
  obtain ⟨dispatch, calls, invoked⟩ := exists_run_of_execute continued
  obtain ⟨subject, first, sameManufacturer, sameSerialNumber, forwarded, begun, invokes⟩ :=
    dispatched_to_covering SubscriptionHistory.vehicleFormat_accepted (by decide) (by decide)
      (by decide) forwardsMatching_matchesAny sends receives connected parseOnline
      (fun _ _ => .ok ()) published (by rw [topic]; rfl)
      (by rw [mqttTopic, splitLevels_eq]; decide)
      (by rw [mqttPayload, object, manufacturer, serialNumber]; exact if_pos rfl)
  obtain rfl : SubscriptionHistory.firstVehicle = subject := by
    obtain ⟨first, second⟩ := subject
    simp_all [SubscriptionHistory.firstVehicle]
  have books : SubscriptionHistory.Represents h.subscriptions :=
    (receives.invariant Backed (.initial _) fun past backed permitted stepped =>
      backed.step (isSome_of_isStarted past) permitted.1 permitted.2 stepped).books
  have path : findPath h.subscriptions.manager message.mqttTopic
      SubscriptionHistory.firstVehicle.toPartial =
        subscriptionPath (some "connection") SubscriptionHistory.firstVehicle.toPartial := by
    have format : h.subscriptions.manager.format = SubscriptionHistory.vehicleFormat :=
      format_of_run receives
    have constructed : message.mqttTopic = h.subscriptions.manager.getMqttTopic
        (some "connection") SubscriptionHistory.firstVehicle.toPartial := by
      rw [mqttTopic, SubscriptionManager.getMqttTopic, format]
      decide
    rw [constructed]
    exact findPath_getMqttTopic (format ▸ SubscriptionHistory.vehicleFormat_accepted) (by decide)
      (by decide) (by decide) (by decide) (by decide)
  have parsed : parseOnline message.mqttPayload =
      .ok { object := onlineObject, subject := SubscriptionHistory.firstVehicle.toPartial } := by
    rw [mqttPayload]
    exact if_pos rfl
  obtain ⟨inbound, parsed', rfl⟩ := dispatchMessage_spec begun
  obtain rfl := Except.ok.inj (parsed.symm.trans parsed')
  rw [topic] at invokes forwarded
  rw [path] at invokes begun
  have covering : coveringIds h "connection" SubscriptionHistory.firstVehicle = ["1", "2"] := by
    change (h.live.filter _).map (·.id) = _
    rw [live]
    decide
  have waiting := Dispatch.callsWait_of_invokesEachOnce books calls
    (show Dispatch.InvokesEachOnce (coveringIds h "connection" SubscriptionHistory.firstVehicle)
      dispatch by
      rw [covering, Dispatch.InvokesEachOnce, of_decide_eq_true invoked]
      decide)
  refine ⟨sender, h, message, _, dispatch, published, live, ?_, begun, calls,
    of_decide_eq_true invoked, (invokes _ _ waiting).2.1⟩
  obtain ⟨subscription, member, covers, -⟩ := mem_coveringIds.mp
    (covering ▸ List.mem_cons_self : "1" ∈ coveringIds h "connection"
      SubscriptionHistory.firstVehicle)
  exact forwarded subscription member covers

end ClientHistory

end Vda5050
