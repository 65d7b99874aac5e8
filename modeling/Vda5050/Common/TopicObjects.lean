import Vda5050.Common.ClientSubscriptions
import Vda5050.Common.Validators

/-!
# Validated topic objects

What a client makes of the violations found by the validation functions, and
the objects a client that validates hands over to MQTT.
-/

set_option autoImplicit false

namespace Vda5050

open Library
open Library.Rule (Conforms Violates validate_eq_none_iff violates_of_validate)

/-! ## Validation -/

/-- The error thrown for a core object. -/
def invalidObject (name : String) : Option Violation → Except String Unit
  | none => .ok ()
  | some violation =>
      .error s!"Invalid VDA 5050 {name} at {violation.keywordLocation}, {violation.instanceLocation}"

/-- The text of a value that is not an object in a template. -/
def primitiveText : Json → String
  | .null => "null"
  | .bool value => if value then "true" else "false"
  | .num _ text => text
  | .str value => value
  | .arr _ | .obj _ => ""

/-- `validateTopicObject`, as far as it concerns the topics of VDA 5050. -/
def validateCoreObject (topic : String) (object : Json) : Except String Unit :=
  if object.isObject || object.isArray then
    match topic with
    | "connection" => invalidObject "Connection" (validateConnection object)
    | "instantActions" => invalidObject "InstantActions" (validateInstantActions object)
    | "order" => invalidObject "Order" (validateOrder object)
    | "state" => invalidObject "State" (validateState object)
    | "visualization" => invalidObject "Visualization" (validateVisualization object)
    | _ => .ok ()
  else .error s!"Invalid VDA 5050 object {primitiveText object}"

/-- The name and the schema of the objects of a topic. -/
def topicSchema : String → Option (String × List (Rule Json))
  | "connection" => some ("Connection", Schema.connection)
  | "instantActions" => some ("InstantActions", Schema.instantActions)
  | "order" => some ("Order", Schema.order)
  | "state" => some ("State", Schema.state)
  | "visualization" => some ("Visualization", Schema.visualization)
  | _ => none

/-- The object conforms to the schema of a topic of VDA 5050. -/
def ConformsToTopic (topic : String) (object : Json) : Prop :=
  ∀ name rules, topicSchema topic = some (name, rules) → Conforms jsonReader object rules

/-- The error tells where the object violates the schema of the topic. -/
def LocatesViolation (topic : String) (object : Json) (error : String) : Prop :=
  ∃ name rules violation, topicSchema topic = some (name, rules) ∧
    Violates jsonReader object rules violation ∧
    error =
      s!"Invalid VDA 5050 {name} at {violation.keywordLocation}, {violation.instanceLocation}"

private theorem isObject_of_conforms {required : List String} {properties : List (Rule Json)}
    {object : Json}
    (conforms : Conforms jsonReader object (Schema.topicObject required properties)) :
    object.isObject = true := by
  unfold Schema.topicObject Conforms at conforms
  exact conforms.1

private theorem topicSchema_cases {topic name : String} {rules : List (Rule Json)}
    (found : topicSchema topic = some (name, rules)) :
    (topic = "connection" ∧ name = "Connection" ∧ rules = Schema.connection) ∨
      (topic = "instantActions" ∧ name = "InstantActions" ∧ rules = Schema.instantActions) ∨
      (topic = "order" ∧ name = "Order" ∧ rules = Schema.order) ∨
      (topic = "state" ∧ name = "State" ∧ rules = Schema.state) ∨
      (topic = "visualization" ∧ name = "Visualization" ∧ rules = Schema.visualization) := by
  unfold topicSchema at found
  split at found
  case h_6 => cases found
  all_goals
    obtain ⟨rfl, rfl⟩ := Prod.mk.inj (Option.some.inj found)
    simp

private theorem topicSchema_topicObject {topic name : String} {rules : List (Rule Json)}
    (found : topicSchema topic = some (name, rules)) :
    ∃ required properties, rules = Schema.topicObject required properties := by
  rcases topicSchema_cases found with ⟨-, -, rfl⟩ | ⟨-, -, rfl⟩ | ⟨-, -, rfl⟩ | ⟨-, -, rfl⟩ |
    ⟨-, -, rfl⟩
  all_goals exact ⟨_, _, rfl⟩

/-- On an object the validation runs the rules of the schema. -/
private theorem validateCoreObject_eq {topic name : String} {rules : List (Rule Json)}
    (found : topicSchema topic = some (name, rules)) {object : Json}
    (isObject : (object.isObject || object.isArray) = true) :
    validateCoreObject topic object =
      invalidObject name (Rule.validate jsonReader object rules) := by
  unfold validateCoreObject
  rw [if_pos isObject]
  rcases topicSchema_cases found with ⟨rfl, rfl, rfl⟩ | ⟨rfl, rfl, rfl⟩ | ⟨rfl, rfl, rfl⟩ |
    ⟨rfl, rfl, rfl⟩ | ⟨rfl, rfl, rfl⟩
  all_goals rfl

theorem validateCoreObject_ok_iff {topic name : String} {rules : List (Rule Json)}
    (found : topicSchema topic = some (name, rules)) (object : Json) :
    validateCoreObject topic object = .ok () ↔ Conforms jsonReader object rules := by
  by_cases isObject : (object.isObject || object.isArray) = true
  · rw [validateCoreObject_eq found isObject, ← validate_eq_none_iff]
    cases Rule.validate jsonReader object rules <;> simp [invalidObject]
  · obtain ⟨required, properties, rfl⟩ := topicSchema_topicObject found
    unfold validateCoreObject
    rw [if_neg isObject]
    exact iff_of_false nofun fun conforms => isObject (by rw [isObject_of_conforms conforms]; rfl)

/-- An object passes if and only if it conforms to the schema of the topic. An object that
does not pass violates the schema at the place reported, and any other value is named itself. -/
theorem validateCoreObject_spec {topic name : String} {rules : List (Rule Json)}
    (found : topicSchema topic = some (name, rules)) (object : Json) :
    (validateCoreObject topic object = .ok () ↔ Conforms jsonReader object rules) ∧
      ∀ error, validateCoreObject topic object = .error error →
        if object.isObject || object.isArray then LocatesViolation topic object error
        else error = s!"Invalid VDA 5050 object {primitiveText object}" := by
  refine ⟨validateCoreObject_ok_iff found object, fun error failed => ?_⟩
  split
  · next isObject =>
    rw [validateCoreObject_eq found isObject] at failed
    cases validated : Rule.validate jsonReader object rules with
    | none => simp [validated, invalidObject] at failed
    | some violation =>
        rw [validated] at failed
        exact ⟨name, rules, violation, found, violates_of_validate object rules validated,
          (Except.error.inj failed).symm⟩
  · next other =>
    unfold validateCoreObject at failed
    rw [if_neg other] at failed
    exact (Except.error.inj failed).symm

/-- An order with an action of the first node that lacks its type. -/
def orderWithUntypedAction : Json :=
  .obj
    [("headerId", .num 0 "0"), ("timestamp", .str "2021-06-01T12:00:00.000Z"),
      ("version", .str "1.1.0"), ("manufacturer", .str "first"), ("serialNumber", .str "001"),
      ("orderId", .str "order"), ("orderUpdateId", .num 0 "0"), ("edges", .arr []),
      ("nodes", .arr [.obj
        [("nodeId", .str "node"), ("sequenceId", .num 0 "0"), ("released", .bool true),
          ("actions", .arr [.obj [("actionId", .str "action")]])]])]

/-- The slash behind the index of the node is missing in the error. -/
theorem validateCoreObject_spec_order :
    topicSchema "order" = some ("Order", Schema.order) ∧
      LocatesViolation "order" orderWithUntypedAction
        "Invalid VDA 5050 Order at #/allOf/1/properties/nodes/items/properties/actions/items/$ref/required, #/nodes/0actions/0/actionType" := by
  have failed : validateCoreObject "order" orderWithUntypedAction = .error
      "Invalid VDA 5050 Order at #/allOf/1/properties/nodes/items/properties/actions/items/$ref/required, #/nodes/0actions/0/actionType" := by
    decide +kernel
  have located := (validateCoreObject_spec rfl orderWithUntypedAction).2 _ failed
  rw [if_pos (by rfl)] at located
  exact ⟨rfl, located⟩

/-! ## Published objects -/

theorem bind_eq_ok {Error Value Result : Type} {source : Except Error Value}
    {continuation : Value → Except Error Result} {result : Result} :
    (source >>= continuation) = .ok result ↔
      ∃ value, source = .ok value ∧ continuation value = .ok result := by
  cases source with
  | error error => simp [bind, Except.bind]
  | ok value => simp [bind, Except.bind]

/-- The properties of an object without its header. -/
abbrev Properties := List (String × Json)

/-- The header is assigned last and replaces properties of the same names. -/
def Vda5050Object.toJson (object : Vda5050Object Properties) : Json :=
  .obj
    ([("headerId", .num object.headerId.val (toString object.headerId.val)),
        ("timestamp", .str object.timestamp),
        ("version", .str object.version)] ++
      (object.manufacturer.toList.map fun manufacturer => ("manufacturer", .str manufacturer)) ++
      (object.serialNumber.toList.map fun serialNumber => ("serialNumber", .str serialNumber)) ++
      object.payload)

private theorem validateManufacturer_spec {manufacturer : Option String}
    (valid : validateManufacturer manufacturer false = .ok ()) :
    ∃ name, manufacturer = some name ∧ isValidTopicLevel name = true ∧ name ≠ "" := by
  unfold validateManufacturer at valid
  cases manufacturer with
  | none => simp at valid
  | some name =>
      dsimp only at valid
      split at valid
      · cases valid
      next nonempty =>
      split at valid
      · next level => exact ⟨name, rfl, level, nonempty⟩
      · cases valid

private theorem validateSerialNumber_spec {serialNumber : Option String}
    (valid : validateSerialNumber serialNumber false = .ok ()) :
    ∃ name, serialNumber = some name ∧ isValidTopicLevel name = true ∧ name ≠ "" := by
  unfold validateSerialNumber at valid
  cases serialNumber with
  | none => simp at valid
  | some name =>
      dsimp only at valid
      split at valid
      · cases valid
      next nonempty =>
      split at valid
      · next level => exact ⟨name, rfl, (Bool.and_eq_true _ _ ▸ level).1, nonempty⟩
      · cases valid

/-- The subject of a publication is given in full. -/
theorem validateAgvId_spec {agvId : PartialAgvId} (valid : validateAgvId agvId false = .ok ()) :
    ∃ subject : AgvId, agvId = subject.toPartial ∧
      isValidTopicLevel subject.manufacturer = true ∧
      isValidTopicLevel subject.serialNumber = true := by
  obtain ⟨_, first, second⟩ := bind_eq_ok.mp valid
  obtain ⟨manufacturer, given, level, -⟩ := validateManufacturer_spec first
  obtain ⟨serialNumber, given', level', -⟩ := validateSerialNumber_spec second
  refine ⟨⟨manufacturer, serialNumber⟩, ?_, level, level'⟩
  cases agvId
  simp_all [AgvId.toPartial]

namespace Client

variable {Payload Handler : Type} {settings : ClientSettings Payload}
  {client : Client Payload Handler}

private theorem validateTopic_spec {topic : String} {forSubscription : Bool}
    (valid : client.validateTopic settings (some topic) forSubscription = .ok ()) :
    isValidTopicLevel topic = true ∧
      if isExtensionTopic topic then
        client.validateExtensionTopic topic forSubscription = .ok ()
      else settings.validateTopicDirection topic forSubscription = .ok () := by
  unfold validateTopic at valid
  dsimp only at valid
  split at valid
  · cases valid
  split at valid
  · cases valid
  next level =>
  refine ⟨by simpa using level, ?_⟩
  split
  · next extension => rwa [if_pos extension] at valid
  · next core => rwa [if_neg core] at valid

/-- What a client has checked of a message before it hands it over. -/
structure HandsOver (settings : ClientSettings Payload) (client : Client Payload Handler)
    (message : MqttMessage Payload) : Prop where
  topic : client.validateTopic settings (some message.topic) false = .ok ()
  subject : ∃ subject : PartialAgvId, validateAgvId subject false = .ok () ∧
    message.object.manufacturer = subject.manufacturer ∧
    message.object.serialNumber = subject.serialNumber ∧
    message.mqttTopic = client.subscriptionManager.getMqttTopic (some message.topic) subject
  version : message.object.version = settings.protocolVersion
  valid : settings.validatesOutbound = true →
    client.validateTopicObject settings message.topic message.object = .ok ()
  text : settings.stringify message.object = .ok message.mqttPayload
  length : Utf16String.assertMqttTopicLength (Utf16String.encode message.mqttTopic) = .ok ()

private theorem mqttPayload_spec {publication : Publication Payload}
    {object : Vda5050Object Payload}
    {text : String} (verified : client.mqttPayload settings publication object = .ok text) :
    (settings.validatesOutbound = true →
        client.validateTopicObject settings publication.topic object = .ok ()) ∧
      Utf16String.assertMqttTopicLength (Utf16String.encode
        (client.subscriptionManager.getMqttTopic (some publication.topic) publication.subject)) =
          .ok () ∧
      settings.stringify object = .ok text := by
  unfold mqttPayload at verified
  dsimp only at verified
  split at verified
  · obtain ⟨_, valid, verified⟩ := bind_eq_ok.mp verified
    obtain ⟨_, length, verified⟩ := bind_eq_ok.mp verified
    exact ⟨fun _ => valid, length, verified⟩
  · next unchecked =>
    obtain ⟨_, length, verified⟩ := bind_eq_ok.mp verified
    exact ⟨fun validates => absurd validates unchecked, length, verified⟩

private theorem handsOver_of_publishTopic {publication : Publication Payload}
    {message : MqttMessage Payload}
    (published : (client.publishTopic settings publication).2 = .ok (some message)) :
    client.HandsOver settings message := by
  unfold publishTopic at published
  cases checked : client.checkPublication settings publication with
  | error error => simp [checked] at published
  | ok _ =>
      rw [checked] at published
      obtain ⟨mqttPayload, verified, handed⟩ := bind_eq_ok.mp published
      obtain ⟨topic, subject⟩ : client.validateTopic settings (some publication.topic) false = .ok () ∧
          validateAgvId publication.subject false = .ok () := by
        unfold checkPublication at checked
        split at checked
        · obtain ⟨_, topic, subject⟩ := bind_eq_ok.mp checked
          exact ⟨topic, subject⟩
        · cases checked
      obtain ⟨valid, length, text⟩ := mqttPayload_spec verified
      unfold handOver at handed
      split at handed
      · cases handed
      split at handed
      · cases handed
      obtain rfl := Option.some.inj (Except.ok.inj handed)
      exact {
        topic := topic
        subject := ⟨publication.subject, subject, rfl, rfl, rfl⟩
        version := rfl
        valid := valid
        text := text
        length := length }

/-- A client that validates the objects it publishes. -/
def validatingSettings (validateTopicDirection : String → Bool → Except String Unit)
    (stringify : Vda5050Object Properties → Except String String)
    (lastWill : Option (LastWill Properties)) : ClientSettings Properties where
  validateTopicDirection := validateTopicDirection
  validateCoreObject topic object := validateCoreObject topic object.toJson
  stringify := stringify
  lastWill := lastWill

/-- The object has the properties of a header, and those of its subject among them. -/
structure HasHeader (settings : ClientSettings Properties) (subject : AgvId)
    (object : Vda5050Object Properties) : Prop where
  headerId : object.toJson.property? "headerId" =
    some (.num object.headerId.val (toString object.headerId.val))
  timestamp : object.toJson.property? "timestamp" = some (.str object.timestamp)
  version : object.toJson.property? "version" = some (.str settings.protocolVersion)
  manufacturer : object.toJson.property? "manufacturer" = some (.str subject.manufacturer)
  serialNumber : object.toJson.property? "serialNumber" = some (.str subject.serialNumber)

/-- The subject of a message: its identity can be a part of a topic, it is in the header, and
the message goes to its topic, which is short enough to be published and to be subscribed. -/
structure IsSubject (settings : ClientSettings Properties) (format : TopicFormat)
    (message : MqttMessage Properties) (subject : AgvId) : Prop where
  manufacturerLevel : isValidTopicLevel subject.manufacturer = true
  serialNumberLevel : isValidTopicLevel subject.serialNumber = true
  manufacturer : message.object.manufacturer = some subject.manufacturer
  serialNumber : message.object.serialNumber = some subject.serialNumber
  header : HasHeader settings subject message.object
  mqttTopic : message.mqttTopic =
    format.constructMqttTopic subject.manufacturer subject.serialNumber message.topic
  length : message.mqttTopic.utf8ByteSize ≤ maxMqttTopicUtf8Count
  subscribable : format.getMqttTopicUtf8Length subject.manufacturer subject.serialNumber
    message.topic ≤ maxMqttTopicUtf8Count

/-- A message with a topic and a subject, whose object conforms to the schema of the topic and
whose text is that of the object. -/
structure IsWellFormed (settings : ClientSettings Properties) (format : TopicFormat)
    (message : MqttMessage Properties) : Prop where
  topic : isValidTopicLevel message.topic = true
  direction : isExtensionTopic message.topic = false →
    settings.validateTopicDirection message.topic false = .ok ()
  subject : ∃ subject, IsSubject settings format message subject
  schema : ConformsToTopic message.topic message.object.toJson
  text : settings.stringify message.object = .ok message.mqttPayload

/-- Properties of the object that have the name of one of the header are replaced. -/
private theorem hasHeader_of_subject {settings : ClientSettings Properties} {subject : AgvId}
    {object : Vda5050Object Properties} (version : object.version = settings.protocolVersion)
    (manufacturer : object.manufacturer = some subject.manufacturer)
    (serialNumber : object.serialNumber = some subject.serialNumber) :
    HasHeader settings subject object := by
  have fields : object.toJson =
      .obj (("headerId", .num object.headerId.val (toString object.headerId.val)) ::
        ("timestamp", .str object.timestamp) :: ("version", .str settings.protocolVersion) ::
        ("manufacturer", .str subject.manufacturer) ::
        ("serialNumber", .str subject.serialNumber) :: object.payload) := by
    simp [Vda5050Object.toJson, version, manufacturer, serialNumber]
  constructor <;> rw [fields] <;> rfl

end Client

namespace ClientHistory

open SubscriptionHistory (vehicleFormat)
open Client (HandsOver handsOver_of_publishTopic IsWellFormed)

variable {Payload Handler : Type} {settings : ClientSettings Payload}
  {h next : ClientHistory Payload Handler} {event : ClientEvent Payload Handler}

/-- Messages are only handed over by `publishTopic`. -/
private theorem step_published (stepped : h.step settings event = some next) :
    ∀ message ∈ next.published, message ∈ h.published ∨ h.client.HandsOver settings message := by
  cases event with
  | publishTopic publication =>
      obtain rfl := Option.some.inj stepped
      intro message member
      cases result : h.client.publishTopic settings publication with
      | mk client outcome =>
          rw [result] at member
          match outcome, result, member with
          | .error error, _, member => exact .inl member
          | .ok none, _, member => exact .inl member
          | .ok (some handed), result, member =>
              rcases List.mem_append.mp member with earlier | new
              · exact .inl earlier
              · obtain rfl := List.mem_singleton.mp new
                exact .inr (handsOver_of_publishTopic (by rw [result]))
  | start =>
      simp only [step, Option.ite_none_right_eq_some, Option.some.injEq] at stepped
      obtain ⟨-, rfl⟩ := stepped
      unfold start
      split <;> exact fun _ member => .inl member
  | stop =>
      simp only [step, Option.ite_none_right_eq_some, Option.some.injEq] at stepped
      obtain ⟨-, rfl⟩ := stepped
      unfold stop
      split <;> exact fun _ member => .inl member
  | connectSettled succeeded =>
      simp only [step, Option.ite_none_right_eq_some, Option.some.injEq] at stepped
      obtain ⟨-, rfl⟩ := stepped
      cases succeeded <;> exact fun _ member => .inl member
  | hookSettled succeeded =>
      simp only [step] at stepped
      split at stepped
      · obtain rfl := Option.some.inj stepped
        exact fun _ member => .inl member
      · split at stepped <;> obtain rfl := Option.some.inj stepped <;>
          exact fun _ member => .inl member
      all_goals cases stepped
  | disconnected | online | offline =>
      simp only [step, Option.ite_none_right_eq_some, Option.some.injEq] at stepped
      obtain ⟨-, rfl⟩ := stepped
      exact fun _ member => .inl member
  | registerExtensionTopic extensionTopic extension =>
      obtain rfl := Option.some.inj stepped
      exact fun _ member => .inl member
  | subscribeTopic subscription =>
      obtain rfl := Option.some.inj stepped
      cases h.client.subscribeTopic settings subscription <;> exact fun _ member => .inl member
  | subscribeSettled id succeeded =>
      simp only [step, Option.ite_none_right_eq_some, Option.some.injEq] at stepped
      obtain ⟨-, rfl⟩ := stepped
      cases succeeded <;> exact fun _ member => .inl member
  | unsubscribe id =>
      obtain rfl := Option.some.inj stepped
      cases h.client.unsubscribe id <;> exact fun _ member => .inl member

theorem handsOver_of_run {allowed : ClientHistory Payload Handler →
      ClientEvent Payload Handler → Prop} {format : TopicFormat}
    {events : List (ClientEvent Payload Handler)}
    (run : Run (step settings) allowed (initial format) events h) :
    ∀ message ∈ h.published, ∃ client : Client Payload Handler,
      client.subscriptionManager.format = format ∧ client.HandsOver settings message := by
  induction run with
  | start => exact nofun
  | @advance events state next event run _ stepped ih =>
      intro message member
      rcases step_published stepped message member with earlier | handed
      · exact ih message earlier
      · exact ⟨state.client, format_of_run run, handed⟩

private theorem isExtensionTopic_of_schema {topic name : String} {rules : List (Rule Json)}
    (found : topicSchema topic = some (name, rules)) : isExtensionTopic topic = false := by
  rcases topicSchema_cases found with ⟨rfl, -⟩ | ⟨rfl, -⟩ | ⟨rfl, -⟩ | ⟨rfl, -⟩ | ⟨rfl, -⟩ <;> rfl

theorem exists_schema {topic : String} (core : isExtensionTopic topic = false) :
    ∃ name rules, topicSchema topic = some (name, rules) := by
  unfold isExtensionTopic coreTopics at core
  simp only [List.mem_cons, List.not_mem_nil, or_false, decide_eq_false_iff_not, not_not] at core
  rcases core with rfl | rfl | rfl | rfl | rfl <;> exact ⟨_, _, rfl⟩

theorem isWellFormed_of_handsOver
    {validateTopicDirection : String → Bool → Except String Unit}
    {stringify : Vda5050Object Properties → Except String String}
    {lastWill : Option (LastWill Properties)} {client : Client Properties Handler}
    {message : MqttMessage Properties}
    (handed : client.HandsOver (Client.validatingSettings validateTopicDirection stringify lastWill)
      message) :
    IsWellFormed (Client.validatingSettings validateTopicDirection stringify lastWill)
      client.subscriptionManager.format message := by
  obtain ⟨topic, direction⟩ := Client.validateTopic_spec handed.topic
  obtain ⟨partialSubject, valid, manufacturer, serialNumber, mqttTopic⟩ := handed.subject
  obtain ⟨subject, rfl, level, level'⟩ := validateAgvId_spec valid
  have length := handed.length
  rw [Utf16String.assertMqttTopicLength_eq, Utf16String.assertMqttTopicUtf8Count_ok_iff,
    Utf16String.getUtf8BytesCount_encode] at length
  exact {
    topic := topic
    direction := fun core => by simpa [core] using direction
    subject := ⟨subject, {
      manufacturerLevel := level
      serialNumberLevel := level'
      manufacturer := manufacturer
      serialNumber := serialNumber
      header := Client.hasHeader_of_subject handed.version manufacturer serialNumber
      mqttTopic := mqttTopic
      length := length
      subscribable := by
        rw [mqttTopic] at length
        rwa [Utf16TopicFormat.getMqttTopicUtf8Length_eq] }⟩
    text := handed.text
    schema := fun name rules found => by
      have passed := handed.valid rfl
      unfold Client.validateTopicObject at passed
      rw [isExtensionTopic_of_schema found] at passed
      exact (validateCoreObject_ok_iff found message.object.toJson).mp passed }

/-- Whatever is called in whatever order, every message handed over to MQTT is well-formed. -/
theorem published_isWellFormed {validateTopicDirection : String → Bool → Except String Unit}
    {stringify : Vda5050Object Properties → Except String String}
    {lastWill : Option (LastWill Properties)} {h : ClientHistory Properties Handler}
    {format : TopicFormat} {events : List (ClientEvent Properties Handler)}
    (run : Run (step (Client.validatingSettings validateTopicDirection stringify lastWill))
      (fun _ _ => True) (initial format) events h) :
    ∀ message ∈ h.published,
      IsWellFormed (Client.validatingSettings validateTopicDirection stringify lastWill) format
        message := by
  intro message member
  obtain ⟨client, sameFormat, handed⟩ := handsOver_of_run run message member
  exact sameFormat ▸ isWellFormed_of_handsOver handed

/-- A vehicle goes online. -/
def onlineEvents : List (ClientEvent Properties Unit) :=
  [.start, .connectSettled true,
    .publishTopic
      { topic := "connection"
        subject := { manufacturer := some "first", serialNumber := some "001" }
        object := { payload := [("connectionState", .str "ONLINE")] }
        retainMessage := true
        now := "2021-06-01T12:00:00.000Z" }]
/-- The text of the object published. -/
def onlineText : String :=
  "\x7b\"connectionState\":\"ONLINE\",\"timestamp\":\"2021-06-01T12:00:00.000Z\",\"headerId\":0,\"manufacturer\":\"first\",\"serialNumber\":\"001\",\"version\":\"1.1.0\"\x7d"

def stringifyOnline (_ : Vda5050Object Properties) : Except String String := .ok onlineText

theorem published_isWellFormed_online :
    ∃ h : ClientHistory Properties Unit,
      Run (step (Client.validatingSettings (fun _ _ => .ok ()) stringifyOnline none)) (fun _ _ => True)
        (initial vehicleFormat) onlineEvents h ∧
      h.published.length = 1 ∧
      ∀ message ∈ h.published,
        IsWellFormed (Client.validatingSettings (fun _ _ => .ok ()) stringifyOnline none) vehicleFormat
          message := by
  obtain ⟨h, run, passed⟩ := exists_run_of_execute
    (show ((execute (step (Client.validatingSettings (fun _ _ => .ok ()) stringifyOnline none))
      (fun _ _ => True) (initial vehicleFormat) onlineEvents).any
        fun h => decide (h.published.length = 1)) = true by decide)
  exact ⟨h, run, of_decide_eq_true passed, published_isWellFormed run⟩
end ClientHistory

end Vda5050
