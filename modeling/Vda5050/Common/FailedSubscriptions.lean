import Vda5050.Common.ClientSubscriptions

/-!
# Failed subscriptions

A subscription whose MQTT subscribe fails leaves no trace, and all subscriptions
in use are requested from the broker while the client is connected, as long as
an MQTT subscribe only fails when nobody relies on it.
-/

set_option autoImplicit false

namespace Vda5050

open Library
open SubscriptionHistory (Represents filterOf filterOf_format handlersAt mem_handlersAt vehicleFormat
  stateSubscription firstVehicle)

variable {Payload Handler : Type} {settings : ClientSettings Payload}

namespace ClientHistory

variable {h next : ClientHistory Payload Handler} {event : ClientEvent Payload Handler}

/-- Nobody relies on the MQTT subscribe of a subscription. -/
def Dispensable (h : ClientHistory Payload Handler) (id : String) : Prop :=
  (∀ subscription ∈ h.live, subscription.id ≠ id) ∧
    (h.client.isConnected = true → ∀ subscription ∈ h.live, ∃ request ∈ h.client.requests,
      request.mqttTopic = some (h.client.topicOf subscription) ∧ request.id ≠ some id)

/-- An MQTT subscribe only fails when nobody relies on it, and an MQTT topic is only
unsubscribed when no other subscription needs it. -/
def Undisturbed (h : ClientHistory Payload Handler) : ClientEvent Payload Handler → Prop
  | .subscribeSettled id false => Dispensable h id
  | .unsubscribe id => ∀ subscription ∈ h.live, subscription.id = id → LeavesTopics h subscription
  | _ => True

/-- Subscriptions whose promise is rejected are gone, and all others are requested. -/
structure Backed (h : ClientHistory Payload Handler) : Prop where
  books : Represents h.subscriptions
  pending : ∀ id ∈ h.pending, id ∈ h.issued
  rejected : ∀ id ∈ h.rejected, id ∈ h.issued ∧ ∀ subscription ∈ h.live, subscription.id ≠ id
  requested : h.client.isConnected = true → ∀ subscription ∈ h.live,
    h.client.IsRequested (h.client.topicOf subscription)

theorem Backed.initial (format : TopicFormat) :
    Backed (ClientHistory.initial format : ClientHistory Payload Handler) where
  books := .initial format
  pending := nofun
  rejected := nofun
  requested := nofun

/-- Steps that issue no id and settle no promise. -/
private theorem Backed.of_frame (backed : Backed h) (books : Represents next.subscriptions)
    (pending : ∀ id ∈ next.pending, id ∈ h.pending) (rejected : next.rejected = h.rejected)
    (issued : next.issued = h.issued) (live : ∀ subscription ∈ next.live, subscription ∈ h.live)
    (requested : next.client.isConnected = true → ∀ subscription ∈ next.live,
      next.client.IsRequested (next.client.topicOf subscription)) : Backed next where
  books := books
  pending id member := issued ▸ backed.pending id (pending id member)
  rejected id member := by
    rw [rejected] at member
    obtain ⟨known, gone⟩ := backed.rejected id member
    exact ⟨issued ▸ known, fun subscription member => gone subscription (live subscription member)⟩
  requested := requested

/-- Everything is requested again when the connection is (re)established. -/
private theorem isRequested_connected (books : Represents h.subscriptions)
    (connected : h.client.connected.isConnected = true) {subscription : Subscription Handler}
    (live : subscription ∈ h.live) :
    h.client.connected.IsRequested (h.client.topicOf subscription) := by
  have listed : h.client.topicOf subscription ∈ h.client.subscriptionManager.getAll :=
    (books.mem_getAll_iff _).mpr ⟨subscription, live, rfl⟩
  cases found : h.client.mqtt with
  | none => simp [Client.connected, Client.isConnected, found] at connected
  | some mqtt =>
      refine ⟨{ id := none, mqttTopic := some (h.client.topicOf subscription) }, ?_, rfl⟩
      simp only [Client.requests, Client.connected, found, Option.map_some, Option.elim_some,
        MqttClient.resubscribed]
      exact List.mem_map_of_mem listed

/-- A subscription with a new id is added. -/
theorem Backed.added (backed : Backed h) (books : Represents next.subscriptions)
    {subscription : Subscription Handler} (fresh : subscription.id ∉ h.issued)
    (pending : ∀ id ∈ next.pending, id ∈ h.pending ∨ id = subscription.id)
    (rejected : next.rejected = h.rejected) (issued : next.issued = h.issued ++ [subscription.id])
    (live : next.live = h.live ++ [subscription])
    (requested : next.client.isConnected = true → ∀ subscription ∈ next.live,
      next.client.IsRequested (next.client.topicOf subscription)) : Backed next where
  books := books
  pending id member := by
    rw [issued, List.mem_append, List.mem_singleton]
    exact (pending id member).imp_left (backed.pending id)
  rejected id member := by
    rw [rejected] at member
    obtain ⟨known, gone⟩ := backed.rejected id member
    rw [issued, live]
    refine ⟨List.mem_append_left _ known, fun other member => ?_⟩
    rcases List.mem_append.mp member with earlier | new
    · exact gone other earlier
    · obtain rfl := List.mem_singleton.mp new
      exact fun same => fresh (same ▸ known)
  requested := requested

/-- The MQTT topic of a new subscription is requested with it or has been before. -/
theorem Backed.subscribe (backed : Backed h) (connection : h.client.isStarted = true →
      h.client.mqtt.isSome = true) {subscription : Subscription Handler}
    (fresh : subscription.id ∉ h.issued)
    (stepped : h.step settings (.subscribeTopic subscription) = some next) : Backed next := by
  have books : Represents next.subscriptions :=
    represents_step backed.books (show FreshIds h (.subscribeTopic subscription) from fresh) stepped
  have connected := (step_sameLifeCycle
    (show ¬ IsLifeCycle (.subscribeTopic subscription) from id) stepped).connection.isConnected
  obtain rfl := Option.some.inj stepped
  cases called : h.client.subscribeTopic settings subscription with
  | error error => exact backed
  | ok result =>
      obtain ⟨client, outcome⟩ := result
      rw [called] at books connected
      obtain ⟨started, manager, added, succeeded, requests⟩ := Client.subscribeTopic_spec called
      obtain ⟨required, topic⟩ := backed.books.added_spec fresh succeeded
      have format : client.topicOf = h.client.topicOf := by
        have same : client.subscriptionManager = manager := by
          simpa only [requests, Client.withManager_subscriptionManager] using
            (Client.requestSubscribe_frame (h.client.withManager manager) added).2.1
        have format : filterOf manager = filterOf h.client.subscriptionManager :=
          filterOf_format (by rw [(SubscriptionHistory.add_spec succeeded).1])
        funext other
        unfold Client.topicOf
        rw [same, format]
      have earlier : h.client.isConnected = true → ∀ other ∈ h.live,
          ∃ request ∈ h.client.requests, request.mqttTopic = some (h.client.topicOf other) :=
        backed.requested
      rcases (h.client.withManager manager).requestSubscribe_cases added with
        ⟨first, mqtt, found, online, requested⟩ | ⟨further, same, -, resolves⟩
      · obtain ⟨rfl, rfl⟩ := Prod.mk.inj (requests.symm.trans requested)
        have known : h.client.mqtt = some mqtt := found
        have all : (mqtt.subscribe { id := some added.id, mqttTopic := added.mqttTopic }).requests =
            h.client.requests ++ [{ id := some added.id, mqttTopic := added.mqttTopic }] := by
          simp [Client.requests, known, MqttClient.subscribe]
        refine backed.added books fresh (fun id member => ?_) rfl rfl rfl
          fun connected' other member => ?_
        · simpa [subscribed] using member
        · unfold subscribed at connected connected' member ⊢
          dsimp only at connected connected' member ⊢
          rw [format]
          rcases List.mem_append.mp member with live | new
          · obtain ⟨request, member, same⟩ := earlier (connected.symm.trans connected') other live
            exact ⟨request, by
              simp only [Client.requests, Option.elim_some, all]
              exact List.mem_append_left _ member, same⟩
          · obtain rfl := List.mem_singleton.mp new
            exact ⟨_, by
              simp only [Client.requests, Option.elim_some, all]
              exact List.mem_append_right _ (List.mem_singleton_self _), topic first⟩
      · have resolved := resolves (connection started)
        rw [requests] at same resolved
        obtain rfl : client = h.client.withManager manager := same
        obtain rfl : outcome = .resolved := resolved
        refine backed.added books fresh (fun id member => .inl member) rfl rfl rfl
          fun connected' other member => ?_
        unfold subscribed at connected' member ⊢
        dsimp only at connected' member ⊢
        rw [format]
        rcases List.mem_append.mp member with live | new
        · exact earlier connected' other live
        · obtain rfl := List.mem_singleton.mp new
          -- a live subscription for the same topic and subject has requested it
          have several : added.requiresSubscribe ≠ true := fun first =>
            absurd (connected'.symm.trans (further first)) (by decide)
          rw [required, ne_eq, List.isEmpty_iff] at several
          obtain ⟨entry, member⟩ := List.exists_mem_of_ne_nil _ several
          obtain ⟨further, live, samePath, -⟩ := mem_handlersAt.mp member
          obtain ⟨request, member, same⟩ := earlier connected' further live
          exact ⟨request, member, by rw [same, Client.topicOf, samePath]; rfl⟩

/-- No other subscription loses its MQTT topic. -/
theorem Backed.unsubscribe (backed : Backed h) (connection : h.client.isStarted = true →
      h.client.mqtt.isSome = true) {id : String} (undisturbed : Undisturbed h (.unsubscribe id))
    (stepped : h.step settings (.unsubscribe id) = some next) : Backed next := by
  have books : Represents next.subscriptions :=
    represents_step backed.books (show FreshIds h (.unsubscribe id) from trivial) stepped
  have connected := (step_sameLifeCycle
    (show ¬ IsLifeCycle (.unsubscribe id) from fun other => other) stepped).connection.isConnected
  obtain rfl := Option.some.inj stepped
  cases called : h.client.unsubscribe id with
  | error error => exact backed
  | ok result =>
      obtain ⟨client, outcome⟩ := result
      rw [called] at books connected
      have left : ∀ other ∈ h.live.filter (·.id ≠ id), other ∈ h.live ∧ other.id ≠ id :=
        fun other member => by simpa using List.mem_filter.mp member
      refine backed.of_frame books (fun _ member => member) rfl rfl
        (fun other member => (left other member).1) fun connected' other member => ?_
      obtain ⟨live', different⟩ := left other member
      have before := backed.requested (connected.symm.trans connected')
      by_cases known : ∃ subscription ∈ h.live, subscription.id = id
      · obtain ⟨subscription, live, rfl⟩ := known
        obtain ⟨client', outcome', called', -, manager, requests⟩ := unsubscribe_live backed.books
          (Client.unsubscribe_spec called).1 (connection (Client.unsubscribe_spec called).1) live
        obtain ⟨rfl, rfl⟩ := Prod.mk.inj (Except.ok.inj (called.symm.trans called'))
        have topic : client.topicOf other = h.client.topicOf other := by
          unfold Client.topicOf
          rw [manager, filterOf_format (SubscriptionHistory.remove_format _ _)]
        unfold unsubscribed
        dsimp only
        rw [topic]
        split at requests
        · next unsubscribed =>
          exact isRequested_of_filter (undisturbed subscription live rfl unsubscribed.1
            unsubscribed.2 (before subscription live) other live' different)
            (before other live') requests
        · obtain ⟨request, member, same⟩ := before other live'
          exact ⟨request, requests ▸ member, same⟩
      · obtain ⟨rfl, -⟩ := unsubscribe_absent backed.books
          (fun subscription live same => known ⟨subscription, live, same⟩) called
        exact before other live'

/-- An MQTT subscribe fails on which nobody relies. -/
theorem Backed.fails (backed : Backed h) {id : String} (awaited : id ∈ h.pending)
    (dispensable : Dispensable h id)
    (books : Represents (h.subscribeSettled id false).subscriptions) :
    Backed (h.subscribeSettled id false) where
  books := books
  pending other member := backed.pending other (List.mem_filter.mp member).1
  rejected other member := by
    rcases List.mem_append.mp member with earlier | new
    · exact backed.rejected other earlier
    · obtain rfl := List.mem_singleton.mp new
      exact ⟨backed.pending _ awaited, dispensable.1⟩
  requested connected subscription live := by
    cases found : h.client.mqtt with
    | none => simp [subscribeSettled, Client.isConnected, found] at connected
    | some mqtt =>
        have before : h.client.isConnected = true := by
          simpa [subscribeSettled, Client.isConnected, found, MqttClient.subscribeFailed]
            using connected
        obtain ⟨request, member, same, other⟩ := dispensable.2 before subscription live
        refine ⟨request, ?_, same⟩
        simp only [subscribeSettled, Bool.false_eq_true, if_false, Client.requests, found,
          Option.map_some, Option.elim_some, MqttClient.subscribeFailed] at member ⊢
        exact List.mem_filter.mpr ⟨member, by simpa using other⟩

theorem Backed.step (backed : Backed h) (connection : h.client.isStarted = true →
      h.client.mqtt.isSome = true) (fresh : FreshIds h event) (undisturbed : Undisturbed h event)
    (stepped : h.step settings event = some next) : Backed next := by
  have books := represents_step backed.books fresh stepped
  cases event with
  | subscribeTopic subscription => exact backed.subscribe connection fresh stepped
  | start =>
      simp only [ClientHistory.step, Option.ite_none_right_eq_some, Option.some.injEq] at stepped
      obtain ⟨-, rfl⟩ := stepped
      unfold start at books ⊢
      split
      · exact backed
      · next stopped =>
        rw [if_neg stopped] at books
        refine backed.of_frame books (fun _ member => member) rfl rfl
          (fun _ member => member) fun connected => ?_
        simp [Client.isConnected, (connect_frame settings h.client).2.2.1] at connected
  | stop =>
      simp only [ClientHistory.step, Option.ite_none_right_eq_some, Option.some.injEq] at stepped
      obtain ⟨-, rfl⟩ := stepped
      unfold stop at books ⊢
      split
      · exact backed
      · next going =>
        rw [if_neg going] at books
        exact backed.of_frame books (fun _ member => member) rfl rfl
          (fun _ member => member) backed.requested
  | connectSettled succeeded =>
      simp only [ClientHistory.step, Option.ite_none_right_eq_some, Option.some.injEq] at stepped
      obtain ⟨-, rfl⟩ := stepped
      cases succeeded with
      | true =>
          exact backed.of_frame books (fun _ member => member) rfl rfl (fun _ member => member)
            fun connected _ live => isRequested_connected backed.books connected live
      | false =>
          exact backed.of_frame books (fun _ member => member) rfl rfl (fun _ member => member)
            fun connected => absurd connected Bool.false_ne_true
  | hookSettled succeeded =>
      simp only [ClientHistory.step] at stepped
      split at stepped
      · obtain rfl := Option.some.inj stepped
        exact backed.of_frame books (fun _ member => member) rfl rfl
          (fun _ member => member) backed.requested
      · split at stepped
        · obtain rfl := Option.some.inj stepped
          exact backed.of_frame books (fun _ member => member) rfl rfl (fun _ member => member)
            fun connected => absurd connected Bool.false_ne_true
        · obtain rfl := Option.some.inj stepped
          exact backed.of_frame books (fun _ member => member) rfl rfl
            (fun _ member => member) backed.requested
      all_goals cases stepped
  | disconnected =>
      simp only [ClientHistory.step, Option.ite_none_right_eq_some, Option.some.injEq] at stepped
      obtain ⟨-, rfl⟩ := stepped
      exact backed.of_frame books (fun _ member => member) rfl rfl
        (fun _ member => absurd member List.not_mem_nil)
        fun _ _ member => absurd member List.not_mem_nil
  | online =>
      simp only [ClientHistory.step, Option.ite_none_right_eq_some, Option.some.injEq] at stepped
      obtain ⟨-, rfl⟩ := stepped
      exact backed.of_frame books (fun _ member => member) rfl rfl (fun _ member => member)
        fun connected _ live => isRequested_connected backed.books connected live
  | offline =>
      simp only [ClientHistory.step, Option.ite_none_right_eq_some, Option.some.injEq] at stepped
      obtain ⟨-, rfl⟩ := stepped
      refine backed.of_frame books (fun _ member => member) rfl rfl
        (fun _ member => member) fun connected => ?_
      cases found : h.client.mqtt <;> simp [Client.isConnected, found] at connected
  | registerExtensionTopic extensionTopic extension =>
      obtain rfl := Option.some.inj stepped
      exact backed.of_frame books (fun _ member => member) rfl rfl
        (fun _ member => member) backed.requested
  | publishTopic publication =>
      obtain rfl := Option.some.inj stepped
      obtain ⟨client, -, issued, live, pending, rejected⟩ :=
        publishedBy_frame h (h.client.publishTopic settings publication)
      obtain ⟨-, manager, mqtt⟩ :=
        Client.publishTopic_sameConnection settings h.client publication
      refine backed.of_frame books (fun id member => pending ▸ member) rejected issued
        (fun other member => live ▸ member) ?_
      unfold Client.isConnected Client.IsRequested Client.requests Client.topicOf
      rw [client, live, manager, mqtt]
      exact backed.requested
  | subscribeSettled id succeeded =>
      simp only [ClientHistory.step, Option.ite_none_right_eq_some, Option.some.injEq] at stepped
      obtain ⟨awaited, rfl⟩ := stepped
      cases succeeded with
      | true =>
          exact backed.of_frame books (fun _ member => (List.mem_filter.mp member).1) rfl rfl
            (fun _ member => member) backed.requested
      | false => exact backed.fails awaited undisturbed books
  | unsubscribe id => exact backed.unsubscribe connection undisturbed stepped

/-- In every run in which MQTT subscribes only fail when nobody relies on them, and MQTT
topics are only unsubscribed when nobody else needs them: the handlers of rejected
subscriptions are not found, the MQTT topics of all subscriptions are requested while the
client is connected, and so is that of a subscription that does not issue an MQTT subscribe. -/
theorem backed_of_run {format : TopicFormat} {events : List (ClientEvent Payload Handler)}
    (run : Run (step settings) (fun h event => FreshIds h event ∧ Undisturbed h event)
      (initial format) events h) :
    (∀ id ∈ h.rejected, ∀ mqttTopic subject,
        ∀ entry ∈ (h.client.subscriptionManager.find mqttTopic subject).1, entry.1 ≠ id) ∧
      (h.client.isConnected = true → ∀ subscription ∈ h.live,
        h.client.IsRequested (h.client.topicOf subscription)) ∧
      ∀ subscription client outcome, subscription.id ∉ h.issued →
        h.client.isConnected = true →
        h.client.subscribeTopic settings subscription = .ok (client, outcome) →
          outcome = .requested ∨ (∃ other ∈ h.live, other.path = subscription.path) ∧
            h.client.IsRequested (h.client.topicOf subscription) := by
  have backed : Backed h := run.invariant Backed (.initial format)
    fun past backed permitted stepped =>
      backed.step (isSome_of_isStarted past) permitted.1 permitted.2 stepped
  refine ⟨fun id member mqttTopic subject entry found => ?_, backed.requested,
    fun subscription client outcome fresh connected called => ?_⟩
  · obtain ⟨subscription, live, rfl⟩ := backed.books.live_of_find found
    exact (backed.rejected id member).2 subscription live
  · obtain ⟨-, manager, added, succeeded, requests⟩ := Client.subscribeTopic_spec called
    obtain ⟨required, -⟩ := backed.books.added_spec fresh succeeded
    rcases (h.client.withManager manager).requestSubscribe_cases added with
      ⟨-, mqtt, -, -, requested⟩ | ⟨further, -, -, -⟩
    · rw [requests] at requested
      exact .inl (Prod.mk.inj requested).2
    · have several : added.requiresSubscribe ≠ true := fun first =>
        absurd (connected.symm.trans (further first)) (by decide)
      rw [required, ne_eq, List.isEmpty_iff] at several
      obtain ⟨entry, member⟩ := List.exists_mem_of_ne_nil _ several
      obtain ⟨other, live, samePath, -⟩ := mem_handlersAt.mp member
      have requested := backed.requested connected other live
      unfold Client.topicOf at requested ⊢
      rw [samePath] at requested
      exact .inr ⟨⟨other, live, samePath⟩, requested⟩

/-! ## Refused by the broker -/

instance (client : Client Payload Handler) (mqttTopic : String) :
    Decidable (client.IsRequested mqttTopic) :=
  inferInstanceAs (Decidable (∃ request ∈ client.requests, request.mqttTopic = some mqttTopic))

instance (h : ClientHistory Payload Handler) (event : ClientEvent Payload Handler) :
    Decidable (Undisturbed h event) :=
  match event with
  | .subscribeSettled id false =>
      inferInstanceAs (Decidable ((∀ subscription ∈ h.live, subscription.id ≠ id) ∧
        (h.client.isConnected = true → ∀ subscription ∈ h.live, ∃ request ∈ h.client.requests,
          request.mqttTopic = some (h.client.topicOf subscription) ∧ request.id ≠ some id)))
  | .unsubscribe id =>
      inferInstanceAs (Decidable (∀ subscription ∈ h.live, subscription.id = id →
        h.client.isConnected = true → IsLast h subscription →
        h.client.IsRequested (h.client.topicOf subscription) → ∀ other ∈ h.live,
          other.id ≠ subscription.id → h.client.topicOf other ≠ h.client.topicOf subscription))
  | .start | .stop | .connectSettled _ | .hookSettled _ | .disconnected | .online | .offline
  | .registerExtensionTopic _ _ | .publishTopic _ | .subscribeTopic _
  | .subscribeSettled _ true => isTrue trivial

/-- An MQTT subscribe fails after its subscription has been unsubscribed. -/
theorem backed_of_unsubscribed :
    ∃ h : ClientHistory Unit Unit,
      Run (step permissiveSettings) (fun h event => FreshIds h event ∧ Undisturbed h event)
        (initial vehicleFormat)
        [.start, .connectSettled true, .hookSettled true,
          .subscribeTopic (stateSubscription "1" "first"), .unsubscribe "1",
          .subscribeSettled "1" false] h ∧
      "1" ∈ h.rejected ∧
      ∀ mqttTopic subject,
        ∀ entry ∈ (h.client.subscriptionManager.find mqttTopic subject).1, entry.1 ≠ "1" := by
  obtain ⟨h, run, passed⟩ := exists_run_of_execute
    (show ((execute (step permissiveSettings) (fun h event => FreshIds h event ∧ Undisturbed h event)
      (initial vehicleFormat)
      [.start, .connectSettled true, .hookSettled true,
        .subscribeTopic (stateSubscription "1" "first"), .unsubscribe "1",
        .subscribeSettled "1" false]).any fun h : ClientHistory Unit Unit =>
          decide ("1" ∈ h.rejected)) = true by decide +kernel)
  have rejected := of_decide_eq_true passed
  exact ⟨h, run, rejected, (backed_of_run run).1 "1" rejected⟩

/-- The broker refuses a subscription. Its handler stays and is found for messages, and a
further subscription resolves although nothing is requested from the broker. -/
theorem not_backed_of_refused :
    ∃ h : ClientHistory Unit Unit,
      Run (step permissiveSettings) FreshIds (initial vehicleFormat)
        [.start, .connectSettled true, .hookSettled true,
          .subscribeTopic (stateSubscription "1" "first"), .subscribeSettled "1" false,
          .subscribeTopic (stateSubscription "2" "first")] h ∧
      "1" ∈ h.rejected ∧ "2" ∈ h.resolved ∧ h.client.isConnected = true ∧
      ("1", ()) ∈ (h.client.subscriptionManager.find
        (h.client.subscriptionManager.getMqttTopic (some "state") firstVehicle.toPartial)
          firstVehicle).1 ∧
      stateSubscription "2" "first" ∈ h.live ∧
      ¬ h.client.IsRequested (h.client.topicOf (stateSubscription "2" "first")) := by
  obtain ⟨h, run, passed⟩ := exists_run_of_execute
    (show ((execute (step permissiveSettings) FreshIds (initial vehicleFormat)
      [.start, .connectSettled true, .hookSettled true,
        .subscribeTopic (stateSubscription "1" "first"), .subscribeSettled "1" false,
        .subscribeTopic (stateSubscription "2" "first")]).any fun h : ClientHistory Unit Unit =>
          decide ("1" ∈ h.rejected ∧ "2" ∈ h.resolved ∧ h.client.isConnected = true ∧
            stateSubscription "1" "first" ∈ h.live ∧ stateSubscription "2" "first" ∈ h.live ∧
            ¬ h.client.IsRequested (h.client.topicOf (stateSubscription "2" "first")))) = true
      by decide +kernel)
  obtain ⟨rejected, resolved, connected, live, live', unrequested⟩ := of_decide_eq_true passed
  have books := represents_of_run (fun _ _ fresh => fresh) run
  have accepted := SubscriptionHistory.vehicleFormat_accepted
  rw [← format_of_run run] at accepted
  have found := (books.find_spec accepted (by decide) (by decide) (by decide : '/' ∉ "state".toList)
    (by decide : '/' ∉ firstVehicle.manufacturer.toList) (by decide)).2.2
  refine ⟨h, run, rejected, resolved, connected, (found _).mpr ?_, live', unrequested⟩
  refine ⟨stateSubscription "1" "first", live, ?_, rfl⟩
  simp [Subscription.Covers, stateSubscription, firstVehicle]

end ClientHistory

end Vda5050
