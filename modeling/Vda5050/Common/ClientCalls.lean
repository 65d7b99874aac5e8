import Vda5050.Common.BrokerFilters
import Vda5050.Common.Client

/-!
# The calls of a client

What publishing, subscribing and unsubscribing change of a client. They leave
its life cycle alone, and its subscription manager holds the live subscriptions
after every run.
-/

set_option autoImplicit false

namespace Vda5050

open Library

variable {Payload Handler : Type} {settings : ClientSettings Payload}

namespace Client

variable {client next : Client Payload Handler}

/-- The flags and the state of the connection are the same. -/
structure SameConnection (client next : Client Payload Handler) : Prop where
  isStarted : next.isStarted = client.isStarted
  isStopping : next.isStopping = client.isStopping
  connected : next.mqtt.map (·.connected) = client.mqtt.map (·.connected)

theorem SameConnection.refl (client : Client Payload Handler) : SameConnection client client :=
  ⟨rfl, rfl, rfl⟩

theorem SameConnection.isSome (same : SameConnection client next) :
    next.mqtt.isSome = client.mqtt.isSome := by
  rw [← Option.isSome_map, same.connected, Option.isSome_map]

theorem SameConnection.isConnected (same : SameConnection client next) :
    next.isConnected = client.isConnected := by
  have connected := same.connected
  unfold Client.isConnected
  cases before : client.mqtt <;> cases after : next.mqtt <;> simp_all

/-! ## Publishing -/

/-- The header id is taken by all calls that pass the first checks. -/
private theorem publishTopic_fst (client : Client Payload Handler)
    (publication : Publication Payload) :
    (client.publishTopic settings publication).1 =
      if client.checkPublication settings publication = .ok () then
        (client.nextHeaderId publication.topic).2
      else client := by
  unfold publishTopic
  cases client.checkPublication settings publication with
  | error error => rw [if_neg (by simp)]
  | ok checked => rfl

theorem publishTopic_sameConnection (settings : ClientSettings Payload)
    (client : Client Payload Handler) (publication : Publication Payload) :
    SameConnection client (client.publishTopic settings publication).1 ∧
      (client.publishTopic settings publication).1.subscriptionManager =
        client.subscriptionManager ∧
      (client.publishTopic settings publication).1.mqtt = client.mqtt := by
  rw [publishTopic_fst]
  split <;> exact ⟨⟨rfl, rfl, rfl⟩, rfl, rfl⟩

/-! ## Subscribing -/

theorem requestSubscribe_cases (client : Client Payload Handler) (added : AddedSubscription) :
    (added.requiresSubscribe = true ∧ ∃ mqtt, client.mqtt = some mqtt ∧ mqtt.connected = true ∧
        client.requestSubscribe added =
          ({ client with
              mqtt := some (mqtt.subscribe { id := some added.id, mqttTopic := added.mqttTopic }) },
            .requested)) ∨
      ((added.requiresSubscribe = true → client.isConnected = false) ∧
        (client.requestSubscribe added).1 = client ∧
        (client.requestSubscribe added).2 ≠ .requested ∧
        (client.mqtt.isSome → (client.requestSubscribe added).2 = .resolved)) := by
  unfold requestSubscribe isConnected
  split
  · next required =>
    cases found : client.mqtt with
    | none => exact .inr ⟨fun _ => rfl, rfl, nofun, nofun⟩
    | some mqtt =>
        cases connected : mqtt.connected with
        | false =>
            refine .inr ⟨fun _ => ?_, ?_, ?_, fun _ => ?_⟩ <;> simp [connected]
        | true => exact .inl ⟨required, mqtt, rfl, connected, by simp [connected]⟩
  · next further => exact .inr ⟨fun required => absurd required further, rfl, nofun, fun _ => rfl⟩

/-- A subscription that does not throw is added first. -/
theorem subscribeTopic_spec {subscription : Subscription Handler} {outcome : SubscribeOutcome}
    (called : client.subscribeTopic settings subscription = .ok (next, outcome)) :
    client.isStarted = true ∧ ∃ manager added,
      client.subscriptionManager.add subscription.id subscription.topic subscription.subject
        subscription.handler = .ok (manager, added) ∧
      (client.withManager manager).requestSubscribe added = (next, outcome) := by
  unfold subscribeTopic at called
  cases checked : client.checkSubscription settings subscription with
  | error error => simp [checked, bind, Except.bind] at called
  | ok _ =>
      cases succeeded : client.subscriptionManager.add subscription.id subscription.topic
          subscription.subject subscription.handler with
      | error error => simp [checked, succeeded, bind, Except.bind] at called
      | ok result =>
          refine ⟨?_, result.1, result.2, rfl, ?_⟩
          · unfold checkSubscription at checked
            split at checked
            · assumption
            · cases checked
          · simpa [checked, succeeded, bind, Except.bind, pure, Except.pure] using called

theorem requestSubscribe_frame (client : Client Payload Handler) (added : AddedSubscription) :
    SameConnection client (client.requestSubscribe added).1 ∧
      (client.requestSubscribe added).1.subscriptionManager = client.subscriptionManager ∧
      (client.requestSubscribe added).1.headerIds = client.headerIds := by
  rcases client.requestSubscribe_cases added with ⟨-, mqtt, found, connected, requested⟩ |
    ⟨-, same, -, -⟩
  · rw [requested]
    exact ⟨⟨rfl, rfl, by simp [found, MqttClient.subscribe]⟩, rfl, rfl⟩
  · rw [same]
    exact ⟨.refl client, rfl, rfl⟩

/-! ## Unsubscribing -/

theorem requestUnsubscribe_cases (client : Client Payload Handler)
    (removed : RemovedSubscription) :
    (removed.requiresUnsubscribe = true ∧ ∃ mqtt, client.mqtt = some mqtt ∧
        mqtt.connected = true ∧
        client.requestUnsubscribe removed =
          ({ client with mqtt := some (mqtt.unsubscribe removed.mqttTopic) },
            .requested removed.mqttTopic)) ∨
      ((removed.requiresUnsubscribe = true → client.isConnected = false) ∧
        (client.requestUnsubscribe removed).1 = client ∧
        (client.mqtt.isSome → (client.requestUnsubscribe removed).2 = .resolved)) := by
  unfold requestUnsubscribe isConnected
  split
  · next required =>
    cases found : client.mqtt with
    | none => exact .inr ⟨fun _ => rfl, rfl, nofun⟩
    | some mqtt =>
        cases connected : mqtt.connected with
        | false =>
            refine .inr ⟨fun _ => ?_, ?_, fun _ => ?_⟩ <;> simp [connected]
        | true => exact .inl ⟨required, mqtt, rfl, connected, by simp [connected]⟩
  · next further => exact .inr ⟨fun required => absurd required further, rfl, fun _ => rfl⟩

theorem requestUnsubscribe_frame (client : Client Payload Handler)
    (removed : RemovedSubscription) :
    SameConnection client (client.requestUnsubscribe removed).1 ∧
      (client.requestUnsubscribe removed).1.subscriptionManager = client.subscriptionManager ∧
      (client.requestUnsubscribe removed).1.headerIds = client.headerIds := by
  rcases client.requestUnsubscribe_cases removed with ⟨-, mqtt, found, connected, requested⟩ |
    ⟨-, same, -⟩
  · rw [requested]
    exact ⟨⟨rfl, rfl, by simp [found, MqttClient.unsubscribe]⟩, rfl, rfl⟩
  · rw [same]
    exact ⟨.refl client, rfl, rfl⟩

/-- The handler is removed first, and nothing else is done if there is none. -/
theorem unsubscribe_spec {id : String} {outcome : UnsubscribeOutcome}
    (called : client.unsubscribe id = .ok (next, outcome)) :
    client.isStarted = true ∧
      (((client.subscriptionManager.remove id).2 = none ∧ next = client ∧
          ∃ error, outcome = .rejected error) ∨
        ∃ removed, (client.subscriptionManager.remove id).2 = some removed ∧
          (client.withManager (client.subscriptionManager.remove id).1).requestUnsubscribe removed =
            (next, outcome)) := by
  unfold unsubscribe at called
  split at called
  · next started =>
    refine ⟨started, ?_⟩
    split at called
    · next manager result =>
      obtain ⟨rfl, rfl⟩ := Prod.mk.inj (Except.ok.inj called)
      exact .inl ⟨by rw [result], rfl, _, rfl⟩
    · next manager removed result =>
      exact .inr ⟨removed, by rw [result], by rw [result]; exact Except.ok.inj called⟩
  · cases called

end Client

namespace ClientHistory

variable {h next : ClientHistory Payload Handler}

theorem publishedBy_frame (h : ClientHistory Payload Handler)
    (result : Client Payload Handler × Except String (Option (MqttMessage Payload))) :
    (h.publishedBy result).client = result.1 ∧ (h.publishedBy result).awaiting = h.awaiting ∧
      (h.publishedBy result).issued = h.issued ∧ (h.publishedBy result).live = h.live ∧
      (h.publishedBy result).pending = h.pending ∧
      (h.publishedBy result).rejected = h.rejected := by
  obtain ⟨client, message | message⟩ := result
  · exact ⟨rfl, rfl, rfl, rfl, rfl, rfl⟩
  · cases message <;> exact ⟨rfl, rfl, rfl, rfl, rfl, rfl⟩

/-- The life cycle is at the same point. -/
structure SameLifeCycle (h next : ClientHistory Payload Handler) : Prop where
  connection : h.client.SameConnection next.client
  awaiting : next.awaiting = h.awaiting

/-- The calls that belong to the life cycle, and what they await. -/
def IsLifeCycle : ClientEvent Payload Handler → Prop
  | .start | .stop | .connectSettled _ | .hookSettled _ | .disconnected | .online | .offline => True
  | .registerExtensionTopic .. | .publishTopic _ | .subscribeTopic _ | .subscribeSettled ..
  | .unsubscribe _ => False

/-- All other calls leave the life cycle where it is. -/
theorem step_sameLifeCycle {event : ClientEvent Payload Handler} (other : ¬ IsLifeCycle event)
    (stepped : h.step settings event = some next) : SameLifeCycle h next := by
  cases event with
  | start | stop | connectSettled | hookSettled | disconnected | online | offline =>
      exact absurd trivial other
  | registerExtensionTopic extensionTopic extension =>
      obtain rfl := Option.some.inj stepped
      exact ⟨⟨rfl, rfl, rfl⟩, rfl⟩
  | publishTopic publication =>
      obtain rfl := Option.some.inj stepped
      refine ⟨?_, (publishedBy_frame h _).2.1⟩
      rw [(publishedBy_frame h _).1]
      exact (Client.publishTopic_sameConnection settings h.client publication).1
  | subscribeTopic subscription =>
      obtain rfl := Option.some.inj stepped
      cases called : h.client.subscribeTopic settings subscription with
      | error error => exact ⟨.refl _, rfl⟩
      | ok result =>
          obtain ⟨-, manager, added, -, requested⟩ := Client.subscribeTopic_spec called
          have same := (Client.requestSubscribe_frame (h.client.withManager manager) added).1
          rw [requested] at same
          exact ⟨⟨same.isStarted, same.isStopping, same.connected⟩, rfl⟩
  | subscribeSettled id succeeded =>
      simp only [step] at stepped
      split at stepped
      · obtain rfl := Option.some.inj stepped
        unfold subscribeSettled
        split
        · exact ⟨.refl _, rfl⟩
        · refine ⟨⟨rfl, rfl, ?_⟩, rfl⟩
          cases h.client.mqtt <;> rfl
      · cases stepped
  | unsubscribe id =>
      obtain rfl := Option.some.inj stepped
      cases called : h.client.unsubscribe id with
      | error error => exact ⟨.refl _, rfl⟩
      | ok result =>
          obtain ⟨-, ⟨-, same, -⟩ | ⟨removed, -, requested⟩⟩ := Client.unsubscribe_spec called
          · exact ⟨by simp only [unsubscribed, same]; exact .refl _, rfl⟩
          · have same := (Client.requestUnsubscribe_frame
                (h.client.withManager (h.client.subscriptionManager.remove id).1) removed).1
            rw [requested] at same
            exact ⟨⟨same.isStarted, same.isStopping, same.connected⟩, rfl⟩

end ClientHistory

end Vda5050
