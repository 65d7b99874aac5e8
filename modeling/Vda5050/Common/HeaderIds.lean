import Vda5050.Common.LifeCycle
import Vda5050.Library.Numbering

/-!
# Header ids

A publication takes a header id before the checks that may still fail it and
before it may be dropped. The header ids sent on a topic are therefore gapless
only as far as no publication on the topic is lost on the way.
-/

set_option autoImplicit false

namespace Vda5050

open Library
open SubscriptionHistory (vehicleFormat)

private theorem HeaderId.increment_eq (id : HeaderId) : id.increment = id + 1 := by
  unfold HeaderId.increment
  apply Fin.ext
  rw [Fin.val_add]
  have bound := id.isLt
  split
  · next small =>
    have single : ((1 : HeaderId) : Nat) = 1 := rfl
    simp only [single]
    omega
  · next large =>
    have single : ((1 : HeaderId) : Nat) = 1 := rfl
    have zero : ((0 : HeaderId) : Nat) = 0 := rfl
    simp only [single, zero]
    omega

private theorem HeaderId.val_iterate (count : Nat) (id : HeaderId) :
    ((· + 1)^[count] id).val = (id.val + count) % 4294967296 := by
  induction count with
  | zero => exact (Nat.mod_eq_of_lt id.isLt).symm
  | succ count ih =>
      have single : ((1 : HeaderId) : Nat) = 1 := rfl
      rw [Function.iterate_succ_apply', Fin.val_add, ih, single]
      omega

private theorem HeaderId.iterate_eq_iff (count : Nat) (id : HeaderId) :
    (· + 1)^[count] id = id ↔ 4294967296 ∣ count := by
  have bound := id.isLt
  rw [← Fin.val_inj, HeaderId.val_iterate]
  omega

variable {Payload Handler : Type} {settings : ClientSettings Payload}

namespace Client

variable (settings) (client : Client Payload Handler) (publication : Publication Payload)

/-- The publication passes the checks before it takes a header id. -/
def takesHeaderId : Bool :=
  match client.checkPublication settings publication with
  | .ok _ => true
  | .error _ => false

/-- A publication is not dropped while offline. -/
def reachesMqtt : Bool :=
  client.mqtt.any fun mqtt => mqtt.connected || !publication.dropIfOffline

/-- A publication with a header id is neither failed by a later check nor dropped. -/
def handsOver : Bool :=
  match client.mqttPayload settings publication
      (client.withObjectHeader settings publication.topic publication.subject publication.now
        publication.object).1 with
  | .ok _ => client.reachesMqtt publication
  | .error _ => false

/-- The next header id on a topic. -/
def headerIdOn (topic : String) : HeaderId := (client.nextHeaderId topic).1

variable {settings client}

private theorem headerIdOn_nextHeaderId (client : Client Payload Handler) (topic other : String) :
    (client.nextHeaderId topic).2.headerIdOn other =
      if other = topic then client.headerIdOn other + 1 else client.headerIdOn other := by
  unfold headerIdOn nextHeaderId
  simp only [lookup_put]
  split
  · next same => rw [same, Option.getD_some, HeaderId.increment_eq]
  · rfl

private theorem handOver_cases (client : Client Payload Handler) (publication : Publication Payload)
    (object : Vda5050Object Payload) (mqttPayload : String) :
    (client.reachesMqtt publication = true ∧ ∃ message,
        client.handOver publication object mqttPayload = .ok (some message) ∧
          message.topic = publication.topic ∧ message.object = object) ∨
      (client.reachesMqtt publication = false ∧ ∀ message,
        client.handOver publication object mqttPayload ≠ .ok (some message)) := by
  unfold reachesMqtt handOver
  cases client.mqtt with
  | none => exact .inr ⟨rfl, by simp⟩
  | some mqtt =>
      have opposite : (mqtt.connected || !publication.dropIfOffline) =
          !(!mqtt.connected && publication.dropIfOffline) := by simp
      simp only [Option.any_some, opposite]
      split
      · next dropped => exact .inr ⟨by rw [dropped]; rfl, by simp⟩
      · next kept => exact .inl ⟨by rw [Bool.eq_false_iff.mpr kept]; rfl, _, rfl, rfl, rfl⟩

/-- The message handed over by a publication, if it is. -/
private theorem publishTopic_spec (settings : ClientSettings Payload)
    (client : Client Payload Handler) (publication : Publication Payload) :
    (client.takesHeaderId settings publication = false ∧
      ∃ error, client.publishTopic settings publication = (client, .error error)) ∨
    (client.takesHeaderId settings publication = true ∧
      (client.publishTopic settings publication).1 = (client.nextHeaderId publication.topic).2 ∧
      ((client.handsOver settings publication = true ∧ ∃ message,
          (client.publishTopic settings publication).2 = .ok (some message) ∧
            message.topic = publication.topic ∧
            message.object.headerId = client.headerIdOn publication.topic) ∨
        (client.handsOver settings publication = false ∧ ∀ message,
          (client.publishTopic settings publication).2 ≠ .ok (some message)))) := by
  unfold takesHeaderId publishTopic
  cases checked : client.checkPublication settings publication with
  | error error => exact .inl ⟨rfl, error, rfl⟩
  | ok _ =>
      refine .inr ⟨rfl, rfl, ?_⟩
      -- the header ids do not matter to the checks
      have same : ∀ object, (client.withObjectHeader settings publication.topic
          publication.subject publication.now publication.object).2.mqttPayload settings
            publication object = client.mqttPayload settings publication object := fun _ => rfl
      unfold handsOver
      simp only [same]
      cases client.mqttPayload settings publication (client.withObjectHeader settings
          publication.topic publication.subject publication.now publication.object).1 with
      | error error => exact .inr ⟨rfl, by simp [Except.bind]⟩
      | ok mqttPayload =>
          rcases client.handOver_cases publication (client.withObjectHeader settings
            publication.topic publication.subject publication.now publication.object).1
              mqttPayload with ⟨reaches, message, handed, topic, object⟩ | ⟨fails, result⟩
          · exact .inl ⟨reaches, message, handed, topic, by rw [object]; rfl⟩
          · exact .inr ⟨fails, result⟩

end Client

namespace ClientHistory

variable {h next : ClientHistory Payload Handler} {event : ClientEvent Payload Handler}

/-- The header ids of messages on a topic. -/
def headerIdsOn (topic : String) (messages : List (MqttMessage Payload)) : List HeaderId :=
  (messages.filter (·.topic = topic)).map (·.object.headerId)

/-- Whether a call takes a header id on a topic, and then whether it hands over. -/
def attemptOf (settings : ClientSettings Payload) (topic : String)
    (h : ClientHistory Payload Handler) : ClientEvent Payload Handler → List Bool
  | .publishTopic publication =>
      if publication.topic = topic ∧ h.client.takesHeaderId settings publication = true then
        [h.client.handsOver settings publication]
      else []
  | _ => []

/-- The attempts to send a message on a topic, in the order of the calls. -/
def attempts (settings : ClientSettings Payload) (topic : String) :
    ClientHistory Payload Handler → List (ClientEvent Payload Handler) → List Bool
  | _, [] => []
  | h, event :: events =>
      attemptOf settings topic h event ++
        (h.step settings event).elim [] fun next => attempts settings topic next events

private theorem publishedBy_of_message (h : ClientHistory Payload Handler)
    {result : Client Payload Handler × Except String (Option (MqttMessage Payload))}
    {message : MqttMessage Payload} (handed : result.2 = .ok (some message)) :
    (h.publishedBy result).published = h.published ++ [message] := by
  obtain ⟨client, outcome⟩ := result
  obtain rfl : outcome = .ok (some message) := handed
  rfl

private theorem publishedBy_of_none (h : ClientHistory Payload Handler)
    {result : Client Payload Handler × Except String (Option (MqttMessage Payload))}
    (lost : ∀ message, result.2 ≠ .ok (some message)) :
    (h.publishedBy result).published = h.published := by
  obtain ⟨client, error | message⟩ := result
  · rfl
  · cases message with
    | none => rfl
    | some message => exact absurd rfl (lost message)

/-- Calls other than publications do not send anything. -/
private theorem step_silent (started : h.client.isStarted = true)
    (silent : ∀ publication, event ≠ .publishTopic publication)
    (stepped : h.step settings event = some next) :
    next.published = h.published ∧ next.client.headerIds = h.client.headerIds := by
  cases event with
  | publishTopic publication => exact absurd rfl (silent publication)
  | start =>
      simp only [step, start, started, if_true, Option.ite_none_right_eq_some,
        Option.some.injEq] at stepped
      obtain ⟨-, rfl⟩ := stepped
      exact ⟨rfl, rfl⟩
  | stop =>
      simp only [step, stop, Option.ite_none_right_eq_some, Option.some.injEq] at stepped
      obtain ⟨-, rfl⟩ := stepped
      split <;> exact ⟨rfl, rfl⟩
  | connectSettled succeeded =>
      simp only [step, Option.ite_none_right_eq_some, Option.some.injEq] at stepped
      obtain ⟨-, rfl⟩ := stepped
      cases succeeded <;> exact ⟨rfl, rfl⟩
  | hookSettled succeeded =>
      simp only [step] at stepped
      split at stepped
      · obtain rfl := Option.some.inj stepped
        exact ⟨rfl, rfl⟩
      · split at stepped <;> obtain rfl := Option.some.inj stepped <;> exact ⟨rfl, rfl⟩
      all_goals cases stepped
  | disconnected | online | offline =>
      simp only [step, Option.ite_none_right_eq_some, Option.some.injEq] at stepped
      obtain ⟨-, rfl⟩ := stepped
      exact ⟨rfl, rfl⟩
  | registerExtensionTopic extensionTopic extension =>
      obtain rfl := Option.some.inj stepped
      exact ⟨rfl, rfl⟩
  | subscribeTopic subscription =>
      obtain rfl := Option.some.inj stepped
      cases called : h.client.subscribeTopic settings subscription with
      | error error => exact ⟨rfl, rfl⟩
      | ok result =>
          obtain ⟨-, manager, added, -, requested⟩ := Client.subscribeTopic_spec called
          have same := (Client.requestSubscribe_frame (h.client.withManager manager) added).2.2
          rw [requested] at same
          exact ⟨rfl, same⟩
  | subscribeSettled id succeeded =>
      simp only [step, Option.ite_none_right_eq_some, Option.some.injEq] at stepped
      obtain ⟨-, rfl⟩ := stepped
      cases succeeded <;> exact ⟨rfl, rfl⟩
  | unsubscribe id =>
      obtain rfl := Option.some.inj stepped
      cases called : h.client.unsubscribe id with
      | error error => exact ⟨rfl, rfl⟩
      | ok result =>
          obtain ⟨-, ⟨-, same, -⟩ | ⟨removed, -, requested⟩⟩ := Client.unsubscribe_spec called
          · exact ⟨rfl, by simp only [unsubscribed, same]⟩
          · have same := (Client.requestUnsubscribe_frame
              (h.client.withManager (h.client.subscriptionManager.remove id).1) removed).2.2
            rw [requested] at same
            exact ⟨rfl, same⟩

/-- What a call sends on a topic, and the next header id after it. -/
private theorem step_numbered (started : h.client.isStarted = true)
    (stepped : h.step settings event = some next) (topic : String) :
    ∃ sent, next.published = h.published ++ sent ∧
      headerIdsOn topic sent =
        numbered (· + 1) (h.client.headerIdOn topic) (attemptOf settings topic h event) ∧
      next.client.headerIdOn topic =
        (· + 1)^[(attemptOf settings topic h event).length] (h.client.headerIdOn topic) := by
  by_cases publishes : ∃ publication, event = .publishTopic publication
  swap
  · have silent : ∀ publication, event ≠ .publishTopic publication :=
      fun publication same => publishes ⟨publication, same⟩
    obtain ⟨published, headerIds⟩ := step_silent started silent stepped
    have none : attemptOf settings topic h event = [] := by
      cases event with
      | publishTopic publication => exact absurd rfl (silent publication)
      | _ => rfl
    refine ⟨[], by rw [published, List.append_nil], ?_, ?_⟩
    · rw [none]
      rfl
    · rw [none, Client.headerIdOn, Client.nextHeaderId, headerIds]
      rfl
  obtain ⟨publication, rfl⟩ := publishes
  obtain rfl := Option.some.inj stepped
  have client := (publishedBy_frame h (h.client.publishTopic settings publication)).1
  rcases Client.publishTopic_spec settings h.client publication with
    ⟨refused, error, result⟩ | ⟨takes, changed, outcome⟩
  · refine ⟨[], ?_, ?_, ?_⟩
    · rw [result]
      simp [publishedBy]
    · simp [attemptOf, refused, numbered, headerIdsOn]
    · rw [client, result]
      simp [attemptOf, refused]
  · have counter : (h.publishedBy (h.client.publishTopic settings publication)).client.headerIdOn
        topic = if topic = publication.topic then h.client.headerIdOn topic + 1
          else h.client.headerIdOn topic := by
      rw [client, changed, Client.headerIdOn_nextHeaderId]
    rw [counter]
    rcases outcome with ⟨hands, message, result, same, headerId⟩ | ⟨loses, result⟩
    · refine ⟨[message], ?_, ?_, ?_⟩
      · exact publishedBy_of_message h result
      · by_cases here : publication.topic = topic
        · subst here
          simp [attemptOf, takes, hands, headerIdsOn, numbered, same, headerId]
        · simp [attemptOf, here, headerIdsOn, numbered, same]
      · by_cases here : publication.topic = topic
        · simp [attemptOf, takes, here]
        · simp [attemptOf, here, Ne.symm here]
    · refine ⟨[], ?_, ?_, ?_⟩
      · rw [publishedBy_of_none h result, List.append_nil]
      · by_cases here : publication.topic = topic <;>
          simp [attemptOf, takes, loses, here, headerIdsOn, numbered]
      · by_cases here : publication.topic = topic
        · simp [attemptOf, takes, here]
        · simp [attemptOf, here, Ne.symm here]

/-- The header ids sent on a topic by a started client are those of the attempts
that succeed. -/
private theorem numbered_of_execute {events : List (ClientEvent Payload Handler)}
    (executed : execute (step settings) (fun h _ => h.client.isStarted = true) h events =
      some next) (topic : String) :
    ∃ sent, next.published = h.published ++ sent ∧
      headerIdsOn topic sent =
        numbered (· + 1) (h.client.headerIdOn topic) (attempts settings topic h events) := by
  induction events generalizing h with
  | nil =>
      obtain rfl := Option.some.inj executed
      exact ⟨[], (List.append_nil _).symm, rfl⟩
  | cons event events ih =>
      simp only [execute] at executed
      split at executed
      · next started =>
        obtain ⟨middle, stepped, rest⟩ := Option.bind_eq_some_iff.mp executed
        obtain ⟨first, published, ids, counter⟩ := step_numbered started stepped topic
        obtain ⟨later, published', ids'⟩ := ih rest
        refine ⟨first ++ later, by rw [published', published, List.append_assoc], ?_⟩
        rw [attempts, stepped, Option.elim_some, numbered_append, ← ids, ← counter, ← ids']
        unfold headerIdsOn
        rw [List.filter_append, List.map_append]
      · cases executed

/-- The header ids of the messages that a started client hands to MQTT on a topic are
gapless modulo 2^32 if and only if the publications that take a header id between two
of them and are not handed over make up a multiple of 2^32. -/
theorem headerIds_gapless_iff {events : List (ClientEvent Payload Handler)}
    (executed : execute (step settings) (fun h _ => h.client.isStarted = true) h events =
      some next) (topic : String) :
    ∃ sent, next.published = h.published ++ sent ∧
      (Gapless (· + 1) (headerIdsOn topic sent) ↔
        LosesMultiplesOf 4294967296 (attempts settings topic h events)) := by
  obtain ⟨sent, published, ids⟩ := numbered_of_execute executed topic
  refine ⟨sent, published, ?_⟩
  rw [ids]
  exact gapless_numbered HeaderId.iterate_eq_iff _ _

/-! ## Lost header ids -/

/-- The settings of a client that accepts objects with a given payload only. -/
def checkingSettings : ClientSettings Bool where
  validateTopicDirection := fun _ _ => .ok ()
  validateCoreObject := fun _ object =>
    if object.payload then .ok () else .error "Invalid VDA 5050 State"
  stringify := fun _ => .ok "{}"

/-- A publication of a State message, which may be valid and is dropped while offline. -/
def statePublication (valid : Bool) : Publication Bool where
  topic := "state"
  subject := { manufacturer := some "first", serialNumber := some "001" }
  object := { payload := valid }
  dropIfOffline := true

theorem headerIds_gapless_of_valid :
    ∃ next : ClientHistory Bool Unit,
      execute (step checkingSettings) (fun h _ => h.client.isStarted = true) started
          [.publishTopic (statePublication true), .publishTopic (statePublication true)] =
        some next ∧
      ∃ sent, next.published = sent ∧ Gapless (· + 1) (headerIdsOn "state" sent) := by
  obtain ⟨next, executed⟩ : ∃ next : ClientHistory Bool Unit,
      execute (step checkingSettings) (fun h _ => h.client.isStarted = true) started
          [.publishTopic (statePublication true), .publishTopic (statePublication true)] =
        some next := ⟨_, rfl⟩
  obtain ⟨sent, published, gapless⟩ := headerIds_gapless_iff executed "state"
  refine ⟨next, executed, sent, published, gapless.mpr ?_⟩
  have both : attempts checkingSettings "state" (started : ClientHistory Bool Unit)
      [.publishTopic (statePublication true), .publishTopic (statePublication true)] =
        [true, true] := by decide
  rw [both]
  intro before lost after split
  have length := congrArg List.length split
  simp only [List.length_append, List.length_cons, List.length_replicate, List.length_nil]
    at length
  obtain rfl : lost = 0 := by omega
  exact Nat.dvd_zero _

/-- The header id of an invalid object is not sent. -/
theorem not_headerIds_gapless_of_invalid :
    Run (step checkingSettings) (fun _ _ => True) (initial vehicleFormat)
        [.start, .connectSettled true, .hookSettled true]
        (started : ClientHistory Bool Unit) ∧
      ∃ next : ClientHistory Bool Unit,
        execute (step checkingSettings) (fun h _ => h.client.isStarted = true) started
            [.publishTopic (statePublication true), .publishTopic (statePublication false),
              .publishTopic (statePublication true)] = some next ∧
          headerIdsOn "state" next.published = [0, 2] ∧
          ¬ Gapless (· + 1) (headerIdsOn "state" next.published) := by
  refine ⟨run_started rfl fun _ _ _ => trivial, ?_⟩
  obtain ⟨next, executed, ids⟩ : ∃ next : ClientHistory Bool Unit,
      execute (step checkingSettings) (fun h _ => h.client.isStarted = true) started
          [.publishTopic (statePublication true), .publishTopic (statePublication false),
            .publishTopic (statePublication true)] = some next ∧
        headerIdsOn "state" next.published = [0, 2] := ⟨_, rfl, by decide⟩
  refine ⟨next, executed, ids, ?_⟩
  rw [ids]
  unfold Gapless
  decide

end ClientHistory

end Vda5050
