import Vda5050.Common.SubscriptionManager
import Vda5050.Library.KeyedList

/-!
# Live subscriptions

The nested maps hold the subscriptions added and neither removed nor cleared
since, each at the end of its own path. What is found for a topic, and which
filters the broker needs, follows from this.
-/

set_option autoImplicit false

namespace Vda5050

open Library

namespace SubscriptionHistory

variable {Handler : Type} {h next : SubscriptionHistory Handler}

/-- The handlers of the live subscriptions with a path. -/
def handlersAt (live : List (Subscription Handler)) (path : SubscriptionPath) :
    List (String × Handler) :=
  (live.filter (·.path = path)).map fun subscription => (subscription.id, subscription.handler)

/-- The MQTT topic of a path. -/
def filterOf (manager : SubscriptionManager Handler) (path : SubscriptionPath) : String :=
  manager.getMqttTopic path.1 { manufacturer := path.2.2.1, serialNumber := path.2.1 }

/-- The maps hold the live subscriptions. -/
structure Represents (h : SubscriptionHistory Handler) : Prop where
  keyed : h.manager.subscriptions.Keyed
  handlers : ∀ path, ((h.manager.subscriptions.leafAt path).getD {}).handlers =
    handlersAt h.live path
  mqttTopic : ∀ path ids, h.manager.subscriptions.leafAt path = some ids →
    ids.mqttTopic = some (filterOf h.manager path)
  unique : (h.live.map (·.id)).Nodup
  issued : ∀ subscription ∈ h.live, subscription.id ∈ h.issued
  known : ∀ subscription ∈ h.live,
    h.manager.subscriptionIds.lookup subscription.id = some subscription.path

theorem Represents.initial (format : TopicFormat) :
    Represents (SubscriptionHistory.initial format : SubscriptionHistory Handler) where
  keyed := NestedMap.keyed_empty {} 3
  handlers := fun _ => rfl
  mqttTopic := by simp [SubscriptionHistory.initial, NestedMap.leafAt]
  unique := List.nodup_nil
  issued := by simp [SubscriptionHistory.initial]
  known := by simp [SubscriptionHistory.initial]

private theorem handlersAt_append (live : List (Subscription Handler))
    (added : Subscription Handler) (path : SubscriptionPath) :
    handlersAt (live ++ [added]) path =
      handlersAt live path ++ if added.path = path then [(added.id, added.handler)] else [] := by
  unfold handlersAt
  rw [List.filter_append, List.map_append]
  by_cases same : added.path = path <;> simp [same]

theorem mem_handlersAt {live : List (Subscription Handler)} {path : SubscriptionPath}
    {entry : String × Handler} :
    entry ∈ handlersAt live path ↔
      ∃ subscription ∈ live, subscription.path = path ∧
        (subscription.id, subscription.handler) = entry := by
  simp [handlersAt, and_assoc]

/-- The result of a successful `add`. -/
theorem add_spec {manager next : SubscriptionManager Handler} {added : AddedSubscription}
    {id : String} {topic : Option String} {subject : PartialAgvId} {handler : Handler}
    (succeeded : manager.add id topic subject handler = .ok (next, added)) :
    next = { manager with
        subscriptions := manager.subscriptions.update {}
          (SubscriptionManager.addHandler (manager.getMqttTopic topic subject) id handler)
          (subscriptionPath topic subject)
        subscriptionIds := put id (subscriptionPath topic subject) manager.subscriptionIds } ∧
      added =
        let ids := SubscriptionManager.addHandler (manager.getMqttTopic topic subject) id handler
          ((manager.subscriptions.leafAt (subscriptionPath topic subject)).getD {})
        { id := id
          mqttTopic := ids.mqttTopic
          requiresSubscribe := ids.handlers.length = 1 } := by
  unfold SubscriptionManager.add at succeeded
  split at succeeded
  · cases succeeded
  · obtain ⟨rfl, rfl⟩ := Prod.mk.inj (Except.ok.inj succeeded)
    exact ⟨rfl, rfl⟩

theorem Represents.add (books : Represents h) {subscription : Subscription Handler}
    {manager : SubscriptionManager Handler} {added : AddedSubscription}
    (fresh : subscription.id ∉ h.issued)
    (succeeded : h.manager.add subscription.id subscription.topic subscription.subject
      subscription.handler = .ok (manager, added)) (filters : Finset String) :
    Represents
      { manager := manager
        issued := h.issued ++ [subscription.id]
        live := h.live ++ [subscription]
        filters := filters } := by
  obtain ⟨rfl, -⟩ := add_spec succeeded
  have fresh' : ∀ other ∈ h.live, other.id ≠ subscription.id := fun other member same =>
    fresh (same ▸ books.issued other member)
  have newHandlers : ∀ path, ∀ entry ∈ handlersAt h.live path, entry.1 ≠ subscription.id := by
    intro path entry member
    obtain ⟨other, live, -, rfl⟩ := mem_handlersAt.mp member
    exact fresh' other live
  refine ⟨?_, ?_, ?_, ?_, ?_, ?_⟩
  · have keyed := NestedMap.keyed_update {} (SubscriptionManager.addHandler
      (h.manager.getMqttTopic subscription.topic subscription.subject) subscription.id
      subscription.handler) books.keyed (subscriptionPath subscription.topic subscription.subject)
    dsimp only
    exact keyed
  · intro path
    rw [NestedMap.leafAt_update, handlersAt_append]
    unfold Subscription.path
    by_cases same : path = subscriptionPath subscription.topic subscription.subject
    · subst same
      rw [if_pos rfl, if_pos rfl, Option.getD_some, ← books.handlers]
      refine put_of_absent subscription.handler fun entry member => ?_
      rw [books.handlers] at member
      exact newHandlers _ entry member
    · rw [if_neg same, if_neg (Ne.symm same), List.append_nil]
      exact books.handlers path
  · intro path ids found
    rw [NestedMap.leafAt_update] at found
    split at found
    · next same =>
      subst same
      obtain rfl := Option.some.inj found
      unfold SubscriptionManager.addHandler
      simp only
      split
      · rfl
      · next several =>
        cases leaf : h.manager.subscriptions.leafAt
            (subscriptionPath subscription.topic subscription.subject) with
        | none => simp [leaf, put] at several
        | some ids => exact books.mqttTopic _ ids leaf
    · exact books.mqttTopic path ids found
  · rw [List.map_append, List.nodup_append]
    refine ⟨books.unique, by simp, fun id member other single same => ?_⟩
    obtain ⟨known, live, rfl⟩ := List.mem_map.mp member
    obtain rfl : other = subscription.id := by simpa using single
    exact fresh' known live same
  · intro other member
    rcases List.mem_append.mp member with live | new
    · exact List.mem_append_left _ (books.issued other live)
    · obtain rfl := List.mem_singleton.mp new
      exact List.mem_append_right _ (List.mem_singleton_self _)
  · intro other member
    simp only [lookup_put]
    rcases List.mem_append.mp member with live | new
    · rw [if_neg (fresh' other live)]
      exact books.known other live
    · obtain rfl := List.mem_singleton.mp new
      rw [if_pos rfl]
      rfl

/-- `remove` changes the maps only if a live subscription has the given id. -/
theorem Represents.remove_spec (books : Represents h) (id : String) :
    (∀ subscription ∈ h.live, subscription.id ≠ id) ∧ h.manager.remove id = (h.manager, none) ∨
      ∃ subscription ∈ h.live, ∃ ids, subscription.id = id ∧
        h.manager.subscriptions.leafAt subscription.path = some ids ∧
        h.manager.remove id =
          ({ h.manager with
              subscriptions := h.manager.subscriptions.update {}
                (SubscriptionManager.removeHandler id) subscription.path },
            some
              { mqttTopic := ids.mqttTopic
                requiresUnsubscribe :=
                  (SubscriptionManager.removeHandler id ids).handlers.isEmpty }) := by
  unfold SubscriptionManager.remove
  cases known : h.manager.subscriptionIds.lookup id with
  | none =>
      refine .inl ⟨fun subscription member same => ?_, rfl⟩
      have found := books.known subscription member
      rw [same, known] at found
      cases found
  | some path =>
      have pathOf : ∀ subscription ∈ h.live, subscription.id = id → subscription.path = path := by
        intro subscription member same
        have found := books.known subscription member
        rw [same, known] at found
        exact (Option.some.inj found).symm
      have handlers := books.handlers path
      simp only
      cases leaf : h.manager.subscriptions.leafAt path with
      | none =>
          refine .inl ⟨fun subscription member same => ?_, rfl⟩
          rw [leaf] at handlers
          have absent : (subscription.id, subscription.handler) ∈ handlersAt h.live path :=
            mem_handlersAt.mpr ⟨subscription, member, pathOf subscription member same, rfl⟩
          rw [← handlers] at absent
          cases absent
      | some ids =>
          rw [leaf, Option.getD_some] at handlers
          simp only
          split
          · next present =>
            obtain ⟨entry, member, same⟩ := List.any_eq_true.mp present
            rw [handlers] at member
            obtain ⟨subscription, live, here, rfl⟩ := mem_handlersAt.mp member
            subst here
            exact .inr ⟨subscription, live, ids, by simpa using same, leaf, rfl⟩
          · next absent =>
            refine .inl ⟨fun subscription member same => absent ?_, rfl⟩
            refine List.any_eq_true.mpr
              ⟨(subscription.id, subscription.handler), ?_, by simpa using same⟩
            rw [handlers]
            exact mem_handlersAt.mpr ⟨subscription, member, pathOf subscription member same, rfl⟩

/-- The handlers left at a path after a removal. -/
theorem handlersAt_filter (live : List (Subscription Handler)) (id : String)
    (path : SubscriptionPath) :
    handlersAt (live.filter (·.id ≠ id)) path = (handlersAt live path).filter (·.1 ≠ id) := by
  unfold handlersAt
  rw [List.filter_map, List.filter_filter, List.filter_filter]
  congr 1
  exact List.filter_congr fun subscription _ => Bool.and_comm _ _

private theorem Represents.filter_live (books : Represents h) (id : String) :
    ((h.live.filter (·.id ≠ id)).map (·.id)).Nodup ∧
      (∀ subscription ∈ h.live.filter (·.id ≠ id), subscription.id ∈ h.issued) ∧
      ∀ subscription ∈ h.live.filter (·.id ≠ id),
        h.manager.subscriptionIds.lookup subscription.id = some subscription.path :=
  ⟨books.unique.sublist (List.filter_sublist.map _),
    fun subscription member => books.issued subscription (List.mem_filter.mp member).1,
    fun subscription member => books.known subscription (List.mem_filter.mp member).1⟩

theorem Represents.remove (books : Represents h) (id : String) (filters : Finset String) :
    Represents
      { h with
        manager := (h.manager.remove id).1
        live := h.live.filter (·.id ≠ id)
        filters := filters } := by
  obtain ⟨unique, issued, known⟩ := books.filter_live id
  rcases books.remove_spec id with ⟨absent, removed⟩ | ⟨subscription, live, ids, rfl, leaf, removed⟩
  · rw [removed]
    refine ⟨books.keyed, fun path => ?_, books.mqttTopic, unique, issued, known⟩
    rw [List.filter_eq_self.mpr fun subscription member => by simpa using absent subscription member]
    exact books.handlers path
  · rw [removed]
    have keyed := NestedMap.keyed_update {} (SubscriptionManager.removeHandler subscription.id)
      books.keyed subscription.path
    refine ⟨keyed, fun path => ?_, fun path found => ?_, unique, issued, known⟩
    · rw [NestedMap.leafAt_update, handlersAt_filter, ← books.handlers path]
      by_cases same : path = subscription.path
      · subst same
        rw [if_pos rfl, Option.getD_some]
        rfl
      · rw [if_neg same, books.handlers path]
        refine (List.filter_eq_self.mpr fun entry member => ?_).symm
        obtain ⟨other, live', here, rfl⟩ := mem_handlersAt.mp member
        have different : other.id ≠ subscription.id := fun equal =>
          same (by rw [← here, eq_of_key (·.id) books.unique live' live equal])
        simpa using different
    · rw [NestedMap.leafAt_update]
      split
      · next same =>
        subst same
        rw [leaf]
        intro present
        obtain rfl := Option.some.inj present
        exact books.mqttTopic _ ids leaf
      · exact books.mqttTopic path found

theorem Represents.clear (h : SubscriptionHistory Handler) (filters : Finset String) :
    Represents { h with manager := h.manager.clear, live := [], filters := filters } where
  keyed := NestedMap.keyed_empty {} 3
  handlers := fun _ => rfl
  mqttTopic := by simp [SubscriptionManager.clear, NestedMap.leafAt]
  unique := List.nodup_nil
  issued := by simp
  known := by simp

theorem step_add {subscription : Subscription Handler}
    (stepped : h.step (.add subscription) = some next) :
    ∃ manager added,
      h.manager.add subscription.id subscription.topic subscription.subject
        subscription.handler = .ok (manager, added) ∧
      next =
        { manager := manager
          issued := h.issued ++ [subscription.id]
          live := h.live ++ [subscription]
          filters := subscribe h.filters added } := by
  simp only [step] at stepped
  split at stepped
  · cases stepped
  · next manager added succeeded =>
    exact ⟨manager, added, succeeded, (Option.some.inj stepped).symm⟩

theorem remove_format (manager : SubscriptionManager Handler) (id : String) :
    (manager.remove id).1.format = manager.format := by
  unfold SubscriptionManager.remove
  split
  · rfl
  · split
    · rfl
    · split <;> rfl

/-- The maps hold the live subscriptions after every run. -/
theorem Represents.of_run {condition : SubscriptionHistory Handler →
      SubscriptionEvent Handler → Prop}
    (fresh : ∀ h event, condition h event → FreshIds h event) {format : TopicFormat}
    {events : List (SubscriptionEvent Handler)}
    (run : Run step condition (SubscriptionHistory.initial format) events h) :
    Represents h ∧ h.manager.format = format := by
  refine run.invariant (fun h => Represents h ∧ h.manager.format = format)
    ⟨.initial format, rfl⟩ ?_
  rintro past h event next - ⟨books, same⟩ permitted stepped
  cases event with
  | add subscription =>
      obtain ⟨manager, added, succeeded, rfl⟩ := step_add stepped
      refine ⟨books.add (fresh h _ permitted) succeeded _, ?_⟩
      rw [(add_spec succeeded).1]
      exact same
  | remove id =>
      obtain rfl := Option.some.inj stepped
      exact ⟨books.remove id _, (remove_format h.manager id).trans same⟩
  | clear =>
      obtain rfl := Option.some.inj stepped
      exact ⟨.clear h ∅, same⟩

/-! ## Lookup -/

private theorem mem_patterns_subscriptionPath {topic : String} {subject : AgvId}
    {subscription : Subscription Handler} :
    subscription.path ∈ NestedMap.patterns none
        (subscriptionPath (some topic) subject.toPartial) ↔
      subscription.Covers topic subject := by
  unfold Subscription.Covers
  rw [NestedMap.mem_patterns_iff, NestedMap.mem_patterns_iff, NestedMap.mem_patterns_iff]
  simp [Subscription.path, subscriptionPath, AgvId.toPartial, NestedMap.patterns]

theorem nodup_patterns_subscriptionPath (topic : String) (subject : AgvId) :
    (NestedMap.patterns none (subscriptionPath (some topic) subject.toPartial)).Nodup := by
  simp [subscriptionPath, AgvId.toPartial, NestedMap.patterns]

/-- Along a list of paths the handlers of the live subscriptions are found. -/
theorem Represents.flatMap_handlers (books : Represents h) (paths : List SubscriptionPath) :
    (paths.filterMap h.manager.subscriptions.leafAt).flatMap (·.handlers) =
      paths.flatMap (handlersAt h.live) := by
  induction paths with
  | nil => rfl
  | cons path paths ih =>
      have handlers := books.handlers path
      rw [List.flatMap_cons, ← ih, ← handlers]
      cases leaf : h.manager.subscriptions.leafAt path with
      | none => simp [leaf]
      | some ids => simp [leaf]

private theorem Represents.nodup_flatMap_handlersAt (books : Represents h)
    {paths : List SubscriptionPath} (unique : paths.Nodup) :
    (paths.flatMap (handlersAt h.live)).Nodup := by
  have single : ∀ {left right : Subscription Handler}, left ∈ h.live → right ∈ h.live →
      left.id = right.id → left = right := fun first second same =>
    eq_of_key (·.id) books.unique first second same
  rw [List.nodup_flatMap]
  constructor
  · intro path _
    have ids : ((handlersAt h.live path).map (·.1)).Nodup := by
      unfold handlersAt
      rw [List.map_map]
      exact books.unique.sublist (List.filter_sublist.map _)
    exact ids.of_map _
  · refine unique.imp fun {left right} different => ?_
    apply List.disjoint_left.mpr
    intro entry first second
    obtain ⟨one, live, rfl, rfl⟩ := mem_handlersAt.mp first
    obtain ⟨other, live', rfl, same⟩ := mem_handlersAt.mp second
    exact different (by rw [single live' live (Prod.mk.inj same).1])

theorem compileMqttTopic_spec {topicFormat interfaceName protocolVersion : String}
    {format : TopicFormat}
    (accepted : compileMqttTopic topicFormat interfaceName protocolVersion = .ok format) :
    format.interfaceName = interfaceName ∧
      format.majorVersion = "v" ++ beforeFirstDot protocolVersion := by
  unfold compileMqttTopic at accepted
  simp only at accepted
  split at accepted
  · cases accepted
  · split at accepted
    · obtain rfl := Except.ok.inj accepted
      exact ⟨rfl, rfl⟩
    · cases accepted

theorem separated_majorVersion {protocolVersion : String} (plain : '/' ∉ protocolVersion.toList) :
    '/' ∉ ("v" ++ beforeFirstDot protocolVersion).toList := by
  have before : '/' ∉ (beforeFirstDot protocolVersion).toList := by
    unfold beforeFirstDot
    split
    · rw [String.toList_ofList]
      exact fun member => plain ((List.takeWhile_prefix _).subset member)
    · simp
  rw [String.toList_append, List.mem_append]
  rintro (inPrefix | inVersion)
  · simp at inPrefix
  · exact before inVersion

/-- What is found for the topic constructed for a subject. -/
theorem Represents.find_spec (books : Represents h)
    {topicFormat interfaceName protocolVersion : String}
    (accepted : compileMqttTopic topicFormat interfaceName protocolVersion = .ok h.manager.format)
    (interfaceName' : '/' ∉ interfaceName.toList) (protocolVersion' : '/' ∉ protocolVersion.toList)
    {topic : String} {subject : AgvId} (topic' : '/' ∉ topic.toList)
    (manufacturer' : '/' ∉ subject.manufacturer.toList)
    (serialNumber' : '/' ∉ subject.serialNumber.toList) :
    (h.manager.find (h.manager.getMqttTopic (some topic) subject.toPartial) subject).2 =
        some topic ∧
      (h.manager.find (h.manager.getMqttTopic (some topic) subject.toPartial) subject).1.Nodup ∧
      ∀ entry, entry ∈
          (h.manager.find (h.manager.getMqttTopic (some topic) subject.toPartial) subject).1 ↔
        ∃ subscription ∈ h.live, subscription.Covers topic subject ∧
          (subscription.id, subscription.handler) = entry := by
  obtain ⟨sameName, sameVersion⟩ := compileMqttTopic_spec accepted
  have deconstructed := h.manager.format.deconstructMqttTopic_constructMqttTopic
    (sameName ▸ interfaceName') (sameVersion ▸ separated_majorVersion protocolVersion')
    manufacturer' serialNumber' topic'
  -- missing levels of the topic are taken from the subject
  have found : h.manager.find (h.manager.getMqttTopic (some topic) subject.toPartial) subject =
      ((h.manager.subscriptions.matching none
        (subscriptionPath (some topic) subject.toPartial)).flatMap (·.handlers), some topic) := by
    unfold SubscriptionManager.find SubscriptionManager.getMqttTopic
    simp only [AgvId.toPartial, Option.getD_some, deconstructed, subscriptionPath]
    have filled : ∀ (placeholder value : String),
        (((indexOfLevel h.manager.format.levels placeholder).map fun _ => value).getD value) =
          value := by
      intro placeholder value
      cases indexOfLevel h.manager.format.levels placeholder <;> rfl
    rw [filled, filled]
  rw [found]
  simp only [NestedMap.matching_eq, books.flatMap_handlers]
  refine ⟨trivial, books.nodup_flatMap_handlersAt (nodup_patterns_subscriptionPath topic subject),
    fun entry => ?_⟩
  rw [List.mem_flatMap]
  constructor
  · rintro ⟨path, pattern, member⟩
    obtain ⟨subscription, live, rfl, rfl⟩ := mem_handlersAt.mp member
    exact ⟨subscription, live, mem_patterns_subscriptionPath.mp pattern, rfl⟩
  · rintro ⟨subscription, live, covers, rfl⟩
    exact ⟨subscription.path, mem_patterns_subscriptionPath.mpr covers,
      mem_handlersAt.mpr ⟨subscription, live, rfl, rfl⟩⟩

/-- For the topic constructed for a subject, exactly the live subscriptions
that cover the topic and the subject are found, each of them once. -/
theorem find_getMqttTopic {topicFormat interfaceName protocolVersion : String}
    {format : TopicFormat}
    (accepted : compileMqttTopic topicFormat interfaceName protocolVersion = .ok format)
    (interfaceName' : '/' ∉ interfaceName.toList) (protocolVersion' : '/' ∉ protocolVersion.toList)
    {events : List (SubscriptionEvent Handler)}
    (run : Run step FreshIds (SubscriptionHistory.initial format) events h)
    {topic : String} {subject : AgvId} (topic' : '/' ∉ topic.toList)
    (manufacturer' : '/' ∉ subject.manufacturer.toList)
    (serialNumber' : '/' ∉ subject.serialNumber.toList) :
    (h.manager.find (h.manager.getMqttTopic (some topic) subject.toPartial) subject).2 =
        some topic ∧
      (h.manager.find (h.manager.getMqttTopic (some topic) subject.toPartial) subject).1.Nodup ∧
      ∀ entry, entry ∈
          (h.manager.find (h.manager.getMqttTopic (some topic) subject.toPartial) subject).1 ↔
        ∃ subscription ∈ h.live, subscription.Covers topic subject ∧
          (subscription.id, subscription.handler) = entry := by
  obtain ⟨books, rfl⟩ := Represents.of_run (fun _ _ fresh => fresh) run
  exact books.find_spec accepted interfaceName' protocolVersion' topic' manufacturer' serialNumber'

/-- Only handlers of live subscriptions are found. -/
theorem Represents.live_of_find (books : Represents h) {mqttTopic : String} {subject : AgvId}
    {entry : String × Handler} (found : entry ∈ (h.manager.find mqttTopic subject).1) :
    ∃ subscription ∈ h.live, (subscription.id, subscription.handler) = entry := by
  unfold SubscriptionManager.find at found
  simp only [NestedMap.matching_eq, books.flatMap_handlers, List.mem_flatMap] at found
  obtain ⟨path, -, member⟩ := found
  obtain ⟨subscription, live, -, same⟩ := mem_handlersAt.mp member
  exact ⟨subscription, live, same⟩

/-! ## Two vehicles on one topic format -/

instance (h : SubscriptionHistory Handler) (event : SubscriptionEvent Handler) :
    Decidable (FreshIds h event) :=
  match event with
  | .add subscription => inferInstanceAs (Decidable (subscription.id ∉ h.issued))
  | .remove _ | .clear => isTrue trivial

/-- A format with all levels of the default format. -/
def vehicleFormat : TopicFormat where
  levels := ["%interfaceName%", "%majorVersion%", "%manufacturer%", "%serialNumber%", "%topic%"]
  interfaceName := "uagv"
  majorVersion := "v2"
  separated := by decide
  hasTopic := by decide

theorem vehicleFormat_accepted :
    compileMqttTopic "%interfaceName%/%majorVersion%/%manufacturer%/%serialNumber%/%topic%" "uagv"
      "2.0.0" = .ok vehicleFormat := by
  have levels : splitLevels "%interfaceName%/%majorVersion%/%manufacturer%/%serialNumber%/%topic%" =
      vehicleFormat.levels := by
    rw [splitLevels_eq]
    decide
  unfold compileMqttTopic
  simp only [levels]
  rfl

/-- A subscription of the State topic for all vehicles of a manufacturer. -/
def stateSubscription (id manufacturer : String) : Subscription Unit where
  id := id
  topic := some "state"
  subject := { manufacturer := some manufacturer, serialNumber := none }
  handler := ()

def firstVehicle : AgvId where
  manufacturer := "first"
  serialNumber := "001"

theorem find_getMqttTopic_of_two :
    ∃ h : SubscriptionHistory Unit,
      Run step FreshIds (SubscriptionHistory.initial vehicleFormat)
        [.add (stateSubscription "1" "first"), .add (stateSubscription "2" "second")] h ∧
      ("1", ()) ∈ (h.manager.find (h.manager.getMqttTopic (some "state") firstVehicle.toPartial)
        firstVehicle).1 ∧
      ("2", ()) ∉ (h.manager.find (h.manager.getMqttTopic (some "state") firstVehicle.toPartial)
        firstVehicle).1 := by
  obtain ⟨h, run, passed⟩ := exists_run_of_execute
    (show ((execute step FreshIds (SubscriptionHistory.initial vehicleFormat)
      [.add (stateSubscription "1" "first"), .add (stateSubscription "2" "second")]).any fun h =>
        decide (h.live = [stateSubscription "1" "first", stateSubscription "2" "second"])) = true
      by decide)
  have live := of_decide_eq_true passed
  have found := (find_getMqttTopic vehicleFormat_accepted (by decide) (by decide) run
    (by decide : '/' ∉ "state".toList) (by decide : '/' ∉ firstVehicle.manufacturer.toList)
    (by decide)).2.2
  refine ⟨h, run, (found _).mpr ?_, fun member => ?_⟩
  · refine ⟨stateSubscription "1" "first", by simp [live], ?_, rfl⟩
    simp [Subscription.Covers, stateSubscription, firstVehicle]
  · obtain ⟨subscription, known, covers, same⟩ := (found _).mp member
    rw [live] at known
    simp only [List.mem_cons, List.not_mem_nil, or_false] at known
    rcases known with rfl | rfl
    · simp [stateSubscription] at same
    · simp [Subscription.Covers, stateSubscription, firstVehicle] at covers

end SubscriptionHistory

end Vda5050
