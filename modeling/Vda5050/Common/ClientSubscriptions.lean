import Vda5050.Common.LifeCycle

/-!
# Subscriptions of a client

The handlers of a client and the MQTT subscribes it has requested. A handler is
added before the broker answers and stays if the broker refuses, and an id is
only unsubscribed as long as its handler is there.
-/

set_option autoImplicit false

namespace Vda5050

open Library
open SubscriptionHistory (Represents filterOf handlersAt mem_handlersAt vehicleFormat
  stateSubscription)

variable {Payload Handler : Type} {settings : ClientSettings Payload}

namespace Client

variable (client : Client Payload Handler)

/-- The MQTT subscribes requested from the broker. -/
def requests : List SubscribeRequest := client.mqtt.elim [] (·.requests)

/-- An MQTT topic is subscribed at the broker, as far as the client knows. -/
def IsRequested (mqttTopic : String) : Prop :=
  ∃ request ∈ client.requests, request.mqttTopic = some mqttTopic

/-- The MQTT topic of a subscription. -/
def topicOf (subscription : Subscription Handler) : String :=
  filterOf client.subscriptionManager subscription.path

/-- The handlers for a topic and a subject. -/
def handlersFor (path : SubscriptionPath) : List (String × Handler) :=
  ((client.subscriptionManager.subscriptions.leafAt path).getD {}).handlers

private theorem remove_of_none {client : Client Payload Handler} {id : String}
    (absent : (client.subscriptionManager.remove id).2 = none) :
    (client.subscriptionManager.remove id).1 = client.subscriptionManager := by
  unfold SubscriptionManager.remove at absent ⊢
  split
  · rfl
  · next path known =>
    simp only [known] at absent
    split
    · rfl
    · next ids leaf =>
      simp only [leaf] at absent
      split
      · next present => simp [present] at absent
      · rfl

end Client

namespace ClientHistory

variable {h next : ClientHistory Payload Handler} {event : ClientEvent Payload Handler}

/-- The subscription manager with the subscriptions in use. -/
def subscriptions (h : ClientHistory Payload Handler) : SubscriptionHistory Handler where
  manager := h.client.subscriptionManager
  issued := h.issued
  live := h.live

/-- What a call does to the subscriptions. -/
private theorem step_subscriptions (stepped : h.step settings event = some next) :
    next.subscriptions = h.subscriptions ∨
      (∃ subscription manager added, event = .subscribeTopic subscription ∧
        h.client.subscriptionManager.add subscription.id subscription.topic subscription.subject
          subscription.handler = .ok (manager, added) ∧
        next.subscriptions =
          { manager := manager
            issued := h.issued ++ [subscription.id]
            live := h.live ++ [subscription] }) ∨
      (∃ id, event = .unsubscribe id ∧
        next.subscriptions =
          { manager := (h.client.subscriptionManager.remove id).1
            issued := h.issued
            live := h.live.filter (·.id ≠ id) }) ∨
      (event = .disconnected ∧
        next.subscriptions =
          { manager := h.client.subscriptionManager.clear, issued := h.issued, live := [] }) := by
  cases event with
  | subscribeTopic subscription =>
      obtain rfl := Option.some.inj stepped
      cases called : h.client.subscribeTopic settings subscription with
      | error error => exact .inl rfl
      | ok result =>
          obtain ⟨client, outcome⟩ := result
          obtain ⟨-, manager, added, succeeded, requested⟩ := Client.subscribeTopic_spec called
          have same : client.subscriptionManager = manager := by
            simpa only [requested, Client.withManager_subscriptionManager] using
              (Client.requestSubscribe_frame (h.client.withManager manager) added).2.1
          refine .inr (.inl ⟨subscription, manager, added, rfl, succeeded, ?_⟩)
          simp only [subscribed, subscriptions, same]
  | unsubscribe id =>
      obtain rfl := Option.some.inj stepped
      cases called : h.client.unsubscribe id with
      | error error => exact .inl rfl
      | ok result =>
          obtain ⟨client, outcome⟩ := result
          refine .inr (.inr (.inl ⟨id, rfl, ?_⟩))
          obtain ⟨-, ⟨absent, same, -⟩ | ⟨removed, -, requested⟩⟩ := Client.unsubscribe_spec called
          · simp only [unsubscribed, subscriptions, same, Client.remove_of_none absent]
          · have frame := Client.requestUnsubscribe_frame
              (h.client.withManager (h.client.subscriptionManager.remove id).1) removed
            have same : client.subscriptionManager =
                (h.client.subscriptionManager.remove id).1 := by
              simpa only [requested, Client.withManager_subscriptionManager] using frame.2.1
            simp only [unsubscribed, subscriptions, same]
  | disconnected =>
      simp only [step, Option.ite_none_right_eq_some, Option.some.injEq] at stepped
      obtain ⟨-, rfl⟩ := stepped
      exact .inr (.inr (.inr ⟨rfl, rfl⟩))
  | publishTopic publication =>
      obtain rfl := Option.some.inj stepped
      obtain ⟨client, -, issued, live, -, -⟩ :=
        publishedBy_frame h (h.client.publishTopic settings publication)
      have same := (Client.publishTopic_sameConnection settings h.client publication).2.1
      exact .inl (by simp only [subscriptions, client, issued, live, same])
  | start =>
      simp only [step, Option.ite_none_right_eq_some, Option.some.injEq] at stepped
      obtain ⟨-, rfl⟩ := stepped
      refine .inl ?_
      unfold start
      split
      · rfl
      · simp only [subscriptions, (connect_frame settings h.client).2.2.2]
  | stop =>
      simp only [step, Option.ite_none_right_eq_some, Option.some.injEq] at stepped
      obtain ⟨-, rfl⟩ := stepped
      unfold stop
      split <;> exact .inl rfl
  | connectSettled succeeded =>
      simp only [step, Option.ite_none_right_eq_some, Option.some.injEq] at stepped
      obtain ⟨-, rfl⟩ := stepped
      cases succeeded <;> exact .inl rfl
  | hookSettled succeeded =>
      simp only [step] at stepped
      split at stepped
      · obtain rfl := Option.some.inj stepped
        exact .inl rfl
      · split at stepped <;> obtain rfl := Option.some.inj stepped <;> exact .inl rfl
      all_goals cases stepped
  | online | offline =>
      simp only [step, Option.ite_none_right_eq_some, Option.some.injEq] at stepped
      obtain ⟨-, rfl⟩ := stepped
      exact .inl rfl
  | registerExtensionTopic extensionTopic extension =>
      obtain rfl := Option.some.inj stepped
      exact .inl rfl
  | subscribeSettled id succeeded =>
      simp only [step, Option.ite_none_right_eq_some, Option.some.injEq] at stepped
      obtain ⟨-, rfl⟩ := stepped
      cases succeeded <;> exact .inl rfl

/-- The maps hold the live subscriptions of a client after every step. -/
theorem represents_step (books : Represents h.subscriptions) (fresh : FreshIds h event)
    (stepped : h.step settings event = some next) : Represents next.subscriptions := by
  rcases step_subscriptions stepped with same | ⟨subscription, manager, added, rfl, succeeded, same⟩ |
    ⟨id, -, same⟩ | ⟨-, same⟩
  · rw [same]
    exact books
  · rw [same]
    exact books.add fresh succeeded ∅
  · rw [same]
    exact books.remove id ∅
  · rw [same]
    exact .clear h.subscriptions ∅

theorem represents_of_run {allowed : ClientHistory Payload Handler →
      ClientEvent Payload Handler → Prop} (fresh : ∀ h event, allowed h event → FreshIds h event)
    {format : TopicFormat} {events : List (ClientEvent Payload Handler)}
    (run : Run (step settings) allowed (initial format) events h) :
    Represents h.subscriptions :=
  run.invariant (fun h => Represents h.subscriptions) (.initial format)
    fun _ books permitted stepped => represents_step books (fresh _ _ permitted) stepped

theorem format_of_run {allowed : ClientHistory Payload Handler →
      ClientEvent Payload Handler → Prop} {format : TopicFormat}
    {events : List (ClientEvent Payload Handler)}
    (run : Run (step settings) allowed (initial format) events h) :
    h.subscriptions.manager.format = format := by
  refine run.invariant (fun h => h.subscriptions.manager.format = format) rfl
    fun {_ h event next} _ same _ stepped => ?_
  rcases step_subscriptions stepped with unchanged | ⟨subscription, manager, added, -, succeeded,
    changed⟩ | ⟨id, -, changed⟩ | ⟨-, changed⟩
  · rw [unchanged]
    exact same
  · rw [changed, (SubscriptionHistory.add_spec succeeded).1]
    exact same
  · rw [changed]
    exact (SubscriptionHistory.remove_format _ id).trans same
  · rw [changed]
    exact same

/-! ## Unsubscribing -/

/-- The call resolves if the broker accepts, removes the handler and nothing else, and
keeps what the other subscriptions have requested from the broker. -/
def Unsubscribes (h : ClientHistory Payload Handler) (id : String) : Prop :=
  ∃ client outcome, h.client.unsubscribe id = .ok (client, outcome) ∧
    (∀ error, outcome ≠ .rejected error) ∧
    (∀ path, client.handlersFor path = (h.client.handlersFor path).filter (·.1 ≠ id)) ∧
    ∀ other ∈ h.live, other.id ≠ id →
      h.client.IsRequested (h.client.topicOf other) → client.IsRequested (h.client.topicOf other)

/-- The handler is the last one for its topic and subject. -/
def IsLast (h : ClientHistory Payload Handler) (subscription : Subscription Handler) : Prop :=
  ∀ other ∈ h.live, other.path = subscription.path → other.id = subscription.id

instance (h : ClientHistory Payload Handler) (subscription : Subscription Handler) :
    Decidable (IsLast h subscription) :=
  inferInstanceAs (Decidable (∀ other ∈ h.live, other.path = subscription.path →
    other.id = subscription.id))

/-- The MQTT topic is not unsubscribed while another subscription needs it. -/
def LeavesTopics (h : ClientHistory Payload Handler) (subscription : Subscription Handler) : Prop :=
  h.client.isConnected = true → IsLast h subscription →
    h.client.IsRequested (h.client.topicOf subscription) →
      ∀ other ∈ h.live, other.id ≠ subscription.id →
        h.client.topicOf other ≠ h.client.topicOf subscription

private theorem isLast_iff (h : ClientHistory Payload Handler)
    (subscription : Subscription Handler) :
    (handlersAt (h.live.filter (·.id ≠ subscription.id)) subscription.path).isEmpty = true ↔
      IsLast h subscription := by
  rw [List.isEmpty_iff, List.eq_nil_iff_forall_not_mem]
  constructor
  · intro none other live samePath
    by_contra different
    refine none _ (mem_handlersAt.mpr ⟨other, List.mem_filter.mpr ⟨live, ?_⟩, samePath, rfl⟩)
    simpa using different
  · intro last entry member
    obtain ⟨other, kept, samePath, -⟩ := mem_handlersAt.mp member
    obtain ⟨live, different⟩ := List.mem_filter.mp kept
    simp only [decide_eq_true_eq] at different
    exact different (last other live samePath)

/-- What `unsubscribe` does for a live subscription. -/
theorem unsubscribe_live (books : Represents h.subscriptions)
    (started : h.client.isStarted = true) (connection : h.client.mqtt.isSome = true)
    {subscription : Subscription Handler} (live : subscription ∈ h.live) :
    ∃ client outcome, h.client.unsubscribe subscription.id = .ok (client, outcome) ∧
      (∀ error, outcome ≠ .rejected error) ∧
      client.subscriptionManager =
        (h.client.subscriptionManager.remove subscription.id).1 ∧
      client.requests =
        if h.client.isConnected = true ∧ IsLast h subscription then
          h.client.requests.filter (·.mqttTopic ≠ some (h.client.topicOf subscription))
        else h.client.requests := by
  have result := books.removed_spec live
  have required : (handlersAt (h.live.filter (·.id ≠ subscription.id)) subscription.path).isEmpty =
      decide (IsLast h subscription) := by
    rw [Bool.eq_iff_iff, isLast_iff, decide_eq_true_iff]
  obtain ⟨manager, managerEq⟩ : ∃ manager,
      manager = (h.client.subscriptionManager.remove subscription.id).1 := ⟨_, rfl⟩
  obtain ⟨removed, removedEq⟩ : ∃ removed : RemovedSubscription, removed =
      { mqttTopic := some (h.client.topicOf subscription)
        requiresUnsubscribe := decide (IsLast h subscription) } := ⟨_, rfl⟩
  have found : h.client.subscriptionManager.remove subscription.id = (manager, some removed) := by
    rw [managerEq, removedEq, ← required]
    exact Prod.ext rfl result
  have called : h.client.unsubscribe subscription.id =
      .ok ((h.client.withManager manager).requestUnsubscribe removed) := by
    unfold Client.unsubscribe
    rw [if_pos started, found]
  rw [← managerEq]
  refine ⟨((h.client.withManager manager).requestUnsubscribe removed).1,
    ((h.client.withManager manager).requestUnsubscribe removed).2, called, ?_⟩
  rcases (h.client.withManager manager).requestUnsubscribe_cases removed with
    ⟨last, mqtt, known, connected, requested⟩ | ⟨further, same, resolves⟩
  · rw [requested]
    refine ⟨fun error same => (by cases same), rfl, ?_⟩
    have mqttEq : h.client.mqtt = some mqtt := known
    have isConnected : h.client.isConnected = true := by
      simpa [Client.isConnected, mqttEq] using connected
    rw [removedEq] at last
    rw [if_pos ⟨isConnected, of_decide_eq_true last⟩, removedEq]
    simp [Client.requests, mqttEq, MqttClient.unsubscribe]
  · rw [resolves connection, same]
    refine ⟨fun error same => (by cases same), rfl, ?_⟩
    rw [if_neg]
    · rfl
    · rintro ⟨connected, last⟩
      have offline := further (by rw [removedEq]; exact decide_eq_true last)
      exact absurd (connected.symm.trans offline) (by decide)

theorem isRequested_of_filter {client : Client Payload Handler} {mqttTopic other : String}
    (different : other ≠ mqttTopic) (before : h.client.IsRequested other)
    (requests : client.requests = h.client.requests.filter (·.mqttTopic ≠ some mqttTopic)) :
    client.IsRequested other := by
  obtain ⟨request, member, same⟩ := before
  refine ⟨request, ?_, same⟩
  rw [requests]
  refine List.mem_filter.mpr ⟨member, ?_⟩
  rw [same]
  simpa using different

/-- What `unsubscribe` does for an id without a live subscription. -/
theorem unsubscribe_absent (books : Represents h.subscriptions) {id : String}
    (absent : ∀ subscription ∈ h.live, subscription.id ≠ id) {client : Client Payload Handler}
    {outcome : UnsubscribeOutcome} (called : h.client.unsubscribe id = .ok (client, outcome)) :
    client = h.client ∧ ∃ error, outcome = .rejected error := by
  obtain ⟨-, ⟨-, same, rejected⟩ | ⟨removed, found, -⟩⟩ := Client.unsubscribe_spec called
  · exact ⟨same, rejected⟩
  · rcases books.remove_spec id with ⟨-, result⟩ | ⟨subscription, live, -, same, -⟩
    · have none : (h.client.subscriptionManager.remove id).2 = none := by
        rw [show h.client.subscriptionManager.remove id = _ from result]
      rw [none] at found
      cases found
    · exact absurd same (absent subscription live)

private theorem not_unsubscribes_of_absent (books : Represents h.subscriptions) {id : String}
    (absent : ∀ subscription ∈ h.live, subscription.id ≠ id) : ¬ Unsubscribes h id := by
  rintro ⟨client, outcome, called, accepted, -⟩
  obtain ⟨-, error, rejected⟩ := unsubscribe_absent books absent called
  exact accepted error rejected

/-- A call of `unsubscribe` of a started client does what it should if and only if the
subscription is there and no other one needs an MQTT topic that is unsubscribed with it.
A second call for the same id never does. -/
theorem unsubscribes_iff_live {format : TopicFormat}
    {events : List (ClientEvent Payload Handler)}
    (run : Run (step settings) FreshIds (initial format) events h)
    (started : h.client.isStarted = true) (id : String) :
    (Unsubscribes h id ↔
      ∃ subscription ∈ h.live, subscription.id = id ∧ LeavesTopics h subscription) ∧
      ∀ next, h.step settings (.unsubscribe id) = some next → ¬ Unsubscribes next id := by
  have books := represents_of_run (fun _ _ fresh => fresh) run
  have connection := isSome_of_isStarted run started
  constructor
  · constructor
    · intro unsubscribes
      by_contra absent
      by_cases known : ∃ subscription ∈ h.live, subscription.id = id
      · obtain ⟨subscription, live, rfl⟩ := known
        obtain ⟨client, outcome, called, -, -, kept⟩ := unsubscribes
        obtain ⟨client', outcome', called', -, -, requests⟩ :=
          unsubscribe_live books started connection live
        obtain ⟨rfl, rfl⟩ := Prod.mk.inj (Except.ok.inj (called.symm.trans called'))
        refine absent ⟨subscription, live, rfl, fun connected last requested other live' different
          shared => ?_⟩
        obtain ⟨request, member, same⟩ := kept other live' different (shared ▸ requested)
        rw [requests, if_pos ⟨connected, last⟩, List.mem_filter, same, shared] at member
        simp at member
      · exact not_unsubscribes_of_absent books
          (fun subscription live same => known ⟨subscription, live, same⟩) unsubscribes
    · rintro ⟨subscription, live, rfl, leaves⟩
      obtain ⟨client, outcome, called, accepted, manager, requests⟩ :=
        unsubscribe_live books started connection live
      refine ⟨client, outcome, called, accepted, fun path => ?_, fun other live' different
        requested => ?_⟩
      · have after := (books.remove subscription.id ∅).handlers path
        have before := books.handlers path
        rw [SubscriptionHistory.handlersAt_filter] at after
        unfold Client.handlersFor
        rw [manager]
        exact after.trans (congrArg _ before.symm)
      · split at requests
        · next unsubscribed =>
          by_cases shared : h.client.topicOf other = h.client.topicOf subscription
          · exact absurd shared (leaves unsubscribed.1 unsubscribed.2 (shared ▸ requested) other
              live' different)
          · exact isRequested_of_filter shared requested requests
        · unfold Client.IsRequested
          rw [requests]
          exact requested
  · intro next stepped
    have after : Represents next.subscriptions :=
      represents_step books (show FreshIds h (.unsubscribe id) from trivial) stepped
    obtain rfl := Option.some.inj stepped
    refine not_unsubscribes_of_absent after fun subscription live same => ?_
    cases called : h.client.unsubscribe id with
    | error error =>
        unfold Client.unsubscribe at called
        rw [if_pos started] at called
        split at called <;> cases called
    | ok result =>
        simp only [called, unsubscribed, List.mem_filter] at live
        exact absurd same (by simpa using live.2)

/-! ## Unsubscribing twice -/

instance (h : ClientHistory Payload Handler) (event : ClientEvent Payload Handler) :
    Decidable (FreshIds h event) :=
  match event with
  | .subscribeTopic subscription => inferInstanceAs (Decidable (subscription.id ∉ h.issued))
  | .start | .stop | .connectSettled _ | .hookSettled _ | .disconnected | .online | .offline
  | .registerExtensionTopic _ _ | .publishTopic _ | .subscribeSettled _ _ | .unsubscribe _ =>
      isTrue trivial

/-- Two of three subscriptions have the same topic and subject. -/
def threeSubscriptions : List (Subscription Unit) :=
  [stateSubscription "1" "first", stateSubscription "2" "second", stateSubscription "3" "first"]

/-- The topic of the first subscription is still needed, that of the second one is not. -/
theorem unsubscribes_of_three :
    ∃ h : ClientHistory Unit Unit,
      Run (step permissiveSettings) FreshIds (initial vehicleFormat)
        ([.start, .connectSettled true, .hookSettled true] ++
          threeSubscriptions.map .subscribeTopic) h ∧
      h.live = threeSubscriptions ∧ Unsubscribes h "1" ∧ Unsubscribes h "2" := by
  obtain ⟨h, run, passed⟩ := exists_run_of_execute
    (show ((execute (step permissiveSettings) FreshIds (initial vehicleFormat)
      ([.start, .connectSettled true, .hookSettled true] ++
        threeSubscriptions.map .subscribeTopic)).any fun h : ClientHistory Unit Unit =>
          decide (h.client.isStarted = true ∧ h.live = threeSubscriptions ∧
            ∀ other ∈ threeSubscriptions, other.id ≠ "2" →
              h.client.topicOf other ≠ h.client.topicOf (stateSubscription "2" "second"))) = true
      by decide +kernel)
  obtain ⟨started, live, different⟩ := of_decide_eq_true passed
  have shared : ¬ IsLast h (stateSubscription "1" "first") := fun last => by
    have only := last (stateSubscription "3" "first") (by simp [live, threeSubscriptions]) rfl
    exact absurd only (by decide)
  refine ⟨h, run, live, (unsubscribes_iff_live run started "1").1.mpr ?_,
    (unsubscribes_iff_live run started "2").1.mpr ?_⟩
  · exact ⟨stateSubscription "1" "first", by simp [live, threeSubscriptions], rfl,
      fun _ last => absurd last shared⟩
  · refine ⟨stateSubscription "2" "second", by simp [live, threeSubscriptions], rfl, ?_⟩
    intro _ _ _ other member
    exact different other (live ▸ member)

/-- The second call for an id is not ignored but rejects. -/
theorem not_unsubscribes_of_twice :
    ∃ h : ClientHistory Unit Unit,
      Run (step permissiveSettings) FreshIds (initial vehicleFormat)
        [.start, .connectSettled true, .hookSettled true,
          .subscribeTopic (stateSubscription "1" "first"), .unsubscribe "1"] h ∧
      h.client.isStarted = true ∧ "1" ∈ h.issued ∧
      h.client.unsubscribe "1" =
        .ok (h.client, .rejected "Cannot destructure property 'mqttTopic' of undefined") ∧
      ¬ Unsubscribes h "1" := by
  obtain ⟨h, run, passed⟩ := exists_run_of_execute
    (show ((execute (step permissiveSettings) FreshIds (initial vehicleFormat)
      [.start, .connectSettled true, .hookSettled true,
        .subscribeTopic (stateSubscription "1" "first"),
        .unsubscribe "1"]).any fun h : ClientHistory Unit Unit =>
          decide (h.client.isStarted = true ∧ "1" ∈ h.issued ∧ h.live = [])) = true
      by decide +kernel)
  obtain ⟨started, issued, live⟩ := of_decide_eq_true passed
  have books := represents_of_run (fun _ _ fresh => fresh) run
  have absent : ∀ subscription ∈ h.live, subscription.id ≠ "1" := by simp [live]
  refine ⟨h, run, started, issued, ?_, not_unsubscribes_of_absent books absent⟩
  rcases books.remove_spec "1" with ⟨-, result⟩ | ⟨subscription, member, -, same, -⟩
  · unfold Client.unsubscribe
    rw [if_pos started, show h.client.subscriptionManager.remove "1" = _ from result]
  · exact absurd same (absent subscription member)

end ClientHistory

end Vda5050
