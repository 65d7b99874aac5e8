import Vda5050.Common.Subscriptions

/-!
# Filters at the broker

The MQTT topics subscribed at the broker are those of the live subscriptions,
as long as subscriptions with different paths have different MQTT topics. With
a topic format that lacks the level of the manufacturer or the serial number
they may share one, which is unsubscribed with the last handler of one path.
-/

set_option autoImplicit false

namespace Vda5050

open Library

namespace SubscriptionHistory

variable {Handler : Type} {h next : SubscriptionHistory Handler}

/-- A new subscription shares its MQTT topic only with live subscriptions for
the same topic and subject. -/
def FiltersApart (h : SubscriptionHistory Handler) : SubscriptionEvent Handler → Prop
  | .add subscription => ∀ other ∈ h.live,
      filterOf h.manager other.path = filterOf h.manager subscription.path →
        other.path = subscription.path
  | .remove _ | .clear => True

instance (h : SubscriptionHistory Handler) (event : SubscriptionEvent Handler) :
    Decidable (FiltersApart h event) :=
  match event with
  | .add subscription =>
      inferInstanceAs (Decidable (∀ other ∈ h.live,
        filterOf h.manager other.path = filterOf h.manager subscription.path →
          other.path = subscription.path))
  | .remove _ | .clear => isTrue trivial

/-- The broker has the MQTT topics of the live subscriptions. -/
structure FilterBooks (h : SubscriptionHistory Handler) : Prop where
  apart : ∀ one ∈ h.live, ∀ other ∈ h.live,
    filterOf h.manager one.path = filterOf h.manager other.path → one.path = other.path
  filters : ∀ mqttTopic, mqttTopic ∈ h.filters ↔
    ∃ subscription ∈ h.live, filterOf h.manager subscription.path = mqttTopic

theorem filterOf_format {manager other : SubscriptionManager Handler}
    (same : other.format = manager.format) : filterOf other = filterOf manager := by
  funext path
  simp [filterOf, SubscriptionManager.getMqttTopic, same]

/-- The result of `add` on a represented history. -/
theorem Represents.added_spec (books : Represents h) {subscription : Subscription Handler}
    {manager : SubscriptionManager Handler} {added : AddedSubscription}
    (fresh : subscription.id ∉ h.issued)
    (succeeded : h.manager.add subscription.id subscription.topic subscription.subject
      subscription.handler = .ok (manager, added)) :
    added.requiresSubscribe = (handlersAt h.live subscription.path).isEmpty ∧
      (added.requiresSubscribe →
        added.mqttTopic = some (filterOf h.manager subscription.path)) := by
  obtain ⟨-, rfl⟩ := add_spec succeeded
  have fresh' : ∀ entry ∈ handlersAt h.live subscription.path, entry.1 ≠ subscription.id := by
    intro entry member same
    obtain ⟨other, live, -, rfl⟩ := mem_handlersAt.mp member
    exact fresh (same ▸ books.issued other live)
  have handlers : put subscription.id subscription.handler
      ((h.manager.subscriptions.leafAt subscription.path).getD {}).handlers =
        handlersAt h.live subscription.path ++ [(subscription.id, subscription.handler)] := by
    rw [books.handlers]
    exact put_of_absent subscription.handler fresh'
  unfold Subscription.path at handlers
  unfold SubscriptionManager.addHandler Subscription.path
  simp only [handlers, List.length_append, List.length_singleton, Nat.reduceEqDiff]
  refine ⟨?_, fun first => ?_⟩
  · cases handlersAt h.live (subscriptionPath subscription.topic subscription.subject) <;> simp
  · rw [if_pos (by simpa using first)]
    rfl

/-- The result of removing a live subscription. -/
theorem Represents.removed_spec (books : Represents h) {subscription : Subscription Handler}
    (live : subscription ∈ h.live) :
    (h.manager.remove subscription.id).2 =
      some
        { mqttTopic := some (filterOf h.manager subscription.path)
          requiresUnsubscribe :=
            (handlersAt (h.live.filter (·.id ≠ subscription.id)) subscription.path).isEmpty } := by
  rcases books.remove_spec subscription.id with ⟨absent, -⟩ | ⟨other, known, ids, same, leaf, removed⟩
  · exact absurd rfl (absent subscription live)
  · obtain rfl := eq_of_key (·.id) books.unique known live same
    rw [removed, books.mqttTopic _ ids leaf, handlersAt_filter, ← books.handlers, leaf]
    rfl

theorem FilterBooks.add (filtersBooks : FilterBooks h) (books : Represents h)
    {subscription : Subscription Handler} {manager : SubscriptionManager Handler}
    {added : AddedSubscription} (fresh : subscription.id ∉ h.issued)
    (apart : FiltersApart h (.add subscription))
    (succeeded : h.manager.add subscription.id subscription.topic subscription.subject
      subscription.handler = .ok (manager, added)) :
    FilterBooks
      { manager := manager
        issued := h.issued ++ [subscription.id]
        live := h.live ++ [subscription]
        filters := subscribe h.filters added } := by
  have same : filterOf manager = filterOf h.manager :=
    filterOf_format (by rw [(add_spec succeeded).1])
  constructor
  · intro one first other second shared
    rw [same] at shared
    rcases List.mem_append.mp first with known | new <;>
      rcases List.mem_append.mp second with known' | new'
    · exact filtersBooks.apart one known other known' shared
    · obtain rfl := List.mem_singleton.mp new'
      exact apart one known shared
    · obtain rfl := List.mem_singleton.mp new
      exact (apart other known' shared.symm).symm
    · rw [List.mem_singleton.mp new, List.mem_singleton.mp new']
  · intro mqttTopic
    obtain ⟨required, topic⟩ := books.added_spec fresh succeeded
    have live : (∃ other ∈ h.live ++ [subscription], filterOf manager other.path = mqttTopic) ↔
        mqttTopic ∈ h.filters ∨ filterOf h.manager subscription.path = mqttTopic := by
      rw [filtersBooks.filters, same]
      simp only [List.mem_append, List.mem_singleton, or_and_right, exists_or, exists_eq_left]
    rw [live]
    unfold subscribe
    split
    · next first =>
      rw [topic first, Option.elim_some, Finset.mem_insert, or_comm, eq_comm]
    · next further =>
      -- a live subscription has the same path and thus the same MQTT topic
      rw [required, List.isEmpty_iff] at further
      obtain ⟨entry, member⟩ := List.exists_mem_of_ne_nil _ further
      obtain ⟨other, known, samePath, -⟩ := mem_handlersAt.mp member
      refine ⟨.inl, ?_⟩
      rintro (present | rfl)
      · exact present
      · exact (filtersBooks.filters _).mpr ⟨other, known, by rw [samePath]⟩

theorem FilterBooks.remove (filtersBooks : FilterBooks h) (books : Represents h) (id : String) :
    FilterBooks
      { h with
        manager := (h.manager.remove id).1
        live := h.live.filter (·.id ≠ id)
        filters := unsubscribe h.filters (h.manager.remove id).2 } := by
  rcases books.remove_spec id with ⟨absent, removed⟩ | ⟨subscription, live, -, rfl, -, -⟩
  · rw [removed, List.filter_eq_self.mpr fun other member => by simpa using absent other member]
    exact ⟨filtersBooks.apart, filtersBooks.filters⟩
  · have removed := books.removed_spec live
    constructor
    · intro one first other second shared
      simp only [filterOf_format (remove_format h.manager subscription.id)] at shared
      exact filtersBooks.apart one (List.mem_filter.mp first).1 other (List.mem_filter.mp second).1
        shared
    · intro mqttTopic
      simp only [filterOf_format (remove_format h.manager subscription.id), unsubscribe, removed,
        Option.elim_some]
      split
      · next last =>
        rw [Finset.mem_erase, filtersBooks.filters]
        constructor
        · rintro ⟨kept, other, known, shared⟩
          have different : other.id ≠ subscription.id := fun same =>
            kept (by rw [← shared, eq_of_key (·.id) books.unique known live same])
          exact ⟨other, List.mem_filter.mpr ⟨known, by simpa using different⟩, shared⟩
        · rintro ⟨other, member, rfl⟩
          refine ⟨fun shared => ?_, other, (List.mem_filter.mp member).1, rfl⟩
          have samePath := filtersBooks.apart other (List.mem_filter.mp member).1 subscription live
            shared
          have here := mem_handlersAt.mpr ⟨other, member, samePath, rfl⟩
          rw [List.isEmpty_iff.mp last] at here
          cases here
      · next further =>
        rw [List.isEmpty_iff] at further
        obtain ⟨entry, member⟩ := List.exists_mem_of_ne_nil _ further
        obtain ⟨further, kept, samePath, -⟩ := mem_handlersAt.mp member
        rw [filtersBooks.filters]
        constructor
        · rintro ⟨other, known, shared⟩
          by_cases same : other.id = subscription.id
          · refine ⟨further, kept, ?_⟩
            rw [samePath, ← shared, eq_of_key (·.id) books.unique known live same]
          · exact ⟨other, List.mem_filter.mpr ⟨known, by simpa using same⟩, shared⟩
        · rintro ⟨other, member, shared⟩
          exact ⟨other, (List.mem_filter.mp member).1, shared⟩

/-- A leaf is listed by `getAll` if a live subscription has its path. -/
private theorem Represents.listed_iff (books : Represents h) {path : SubscriptionPath}
    {ids : SubscriptionIds Handler} (member : (path, ids) ∈ h.manager.subscriptions.leaves)
    (mqttTopic : String) :
    (if ids.handlers.isEmpty then none else ids.mqttTopic) = some mqttTopic ↔
      (∃ subscription ∈ h.live, subscription.path = path) ∧
        filterOf h.manager path = mqttTopic := by
  have leaf := (NestedMap.mem_leaves_iff books.keyed path ids).mp member
  have handlers := books.handlers path
  rw [leaf, Option.getD_some] at handlers
  rw [books.mqttTopic path ids leaf, handlers]
  split
  · next none =>
    simp only [reduceCtorEq, false_iff]
    rintro ⟨⟨subscription, live, rfl⟩, -⟩
    have here := mem_handlersAt.mpr ⟨subscription, live, rfl, rfl⟩
    rw [List.isEmpty_iff.mp none] at here
    cases here
  · next some =>
    rw [List.isEmpty_iff] at some
    obtain ⟨entry, found⟩ := List.exists_mem_of_ne_nil _ some
    obtain ⟨subscription, live, here, -⟩ := mem_handlersAt.mp found
    exact ⟨fun same => ⟨⟨subscription, live, here⟩, Option.some.inj same⟩,
      fun known => congrArg _ known.2⟩

/-- The MQTT topics listed are those of the live subscriptions. -/
theorem Represents.mem_getAll_iff (books : Represents h) (mqttTopic : String) :
    mqttTopic ∈ h.manager.getAll ↔
      ∃ subscription ∈ h.live, filterOf h.manager subscription.path = mqttTopic := by
  unfold SubscriptionManager.getAll
  rw [List.mem_filterMap]
  constructor
  · rintro ⟨⟨path, ids⟩, member, listed⟩
    obtain ⟨⟨subscription, live, rfl⟩, same⟩ := (books.listed_iff member mqttTopic).mp listed
    exact ⟨subscription, live, same⟩
  · rintro ⟨subscription, live, rfl⟩
    have here := mem_handlersAt.mpr ⟨subscription, live, rfl, rfl⟩
    rw [← books.handlers] at here
    cases leaf : h.manager.subscriptions.leafAt subscription.path with
    | none =>
        rw [leaf] at here
        cases here
    | some ids =>
        have member := (NestedMap.mem_leaves_iff books.keyed _ ids).mpr leaf
        exact ⟨_, member, (books.listed_iff member _).mpr ⟨⟨subscription, live, rfl⟩, rfl⟩⟩

/-- No MQTT topic is listed twice if live subscriptions share one only with
the same path. -/
private theorem Represents.nodup_getAll (books : Represents h) (filterBooks : FilterBooks h) :
    h.manager.getAll.Nodup := by
  unfold SubscriptionManager.getAll List.Nodup
  rw [List.pairwise_filterMap]
  have paths := List.pairwise_map.mp (NestedMap.nodup_leaves books.keyed)
  refine paths.imp_of_mem fun {one other} first second different => ?_
  rintro mqttTopic listed mqttTopic' listed' rfl
  obtain ⟨⟨left, live, here⟩, topic⟩ := (books.listed_iff first mqttTopic).mp listed
  obtain ⟨⟨right, live', here'⟩, topic'⟩ := (books.listed_iff second mqttTopic).mp listed'
  rw [← here] at topic different
  rw [← here'] at topic' different
  exact different (filterBooks.apart left live right live' (topic.trans topic'.symm))

/-- The broker has exactly the MQTT topics of the live subscriptions, in every
run in which only subscriptions for the same topic and subject share one. -/
theorem filters_of_filtersApart {format : TopicFormat}
    {events : List (SubscriptionEvent Handler)}
    (run : Run step (fun h event => FreshIds h event ∧ FiltersApart h event)
      (SubscriptionHistory.initial format) events h) :
    (∀ mqttTopic, mqttTopic ∈ h.filters ↔
        ∃ subscription ∈ h.live, filterOf h.manager subscription.path = mqttTopic) ∧
      h.manager.getAll.Nodup ∧
      ∀ mqttTopic, mqttTopic ∈ h.manager.getAll ↔ mqttTopic ∈ h.filters := by
  obtain ⟨books, filterBooks⟩ : Represents h ∧ FilterBooks h := by
    refine run.invariant (fun h => Represents h ∧ FilterBooks h)
      ⟨.initial format, by simp [SubscriptionHistory.initial], by simp [SubscriptionHistory.initial]⟩
      ?_
    rintro past h event next earlier ⟨books, filterBooks⟩ ⟨fresh, apart⟩ stepped
    have represented := (Represents.of_run (fun _ _ permitted => permitted.1)
      (earlier.advance ⟨fresh, apart⟩ stepped)).1
    refine ⟨represented, ?_⟩
    cases event with
    | add subscription =>
        obtain ⟨manager, added, succeeded, rfl⟩ := step_add stepped
        exact filterBooks.add books fresh apart succeeded
    | remove id =>
        obtain rfl := Option.some.inj stepped
        exact filterBooks.remove books id
    | clear =>
        obtain rfl := Option.some.inj stepped
        exact ⟨by simp, by simp⟩
  refine ⟨filterBooks.filters, books.nodup_getAll filterBooks, fun mqttTopic => ?_⟩
  rw [books.mem_getAll_iff, filterBooks.filters]

theorem filters_of_two :
    ∃ h : SubscriptionHistory Unit,
      Run step (fun h event => FreshIds h event ∧ FiltersApart h event)
        (SubscriptionHistory.initial vehicleFormat)
        [.add (stateSubscription "1" "first"), .add (stateSubscription "2" "second"),
          .remove "1"] h ∧
      filterOf h.manager (stateSubscription "2" "second").path ∈ h.filters := by
  obtain ⟨h, run, passed⟩ := exists_run_of_execute
    (show ((execute step (fun h event => FreshIds h event ∧ FiltersApart h event)
      (SubscriptionHistory.initial vehicleFormat)
      [.add (stateSubscription "1" "first"), .add (stateSubscription "2" "second"),
        .remove "1"]).any fun h => decide (stateSubscription "2" "second" ∈ h.live)) = true
      by decide)
  have live : stateSubscription "2" "second" ∈ h.live := of_decide_eq_true passed
  exact ⟨h, run, ((filters_of_filtersApart run).1 _).mpr ⟨_, live, rfl⟩⟩

/-- A format without a level for the manufacturer. -/
def topicFormatOnly : TopicFormat where
  levels := ["%topic%"]
  interfaceName := "uagv"
  majorVersion := "v2"
  separated := by decide
  hasTopic := by decide

/-- The filter of the second manufacturer is unsubscribed with the first one's. -/
theorem not_filters_of_sharedTopic :
    compileMqttTopic "%topic%" "uagv" "2.0.0" = .ok topicFormatOnly ∧
      ∃ h : SubscriptionHistory Unit,
        Run step FreshIds (SubscriptionHistory.initial topicFormatOnly)
          [.add (stateSubscription "1" "first"), .add (stateSubscription "2" "second"),
            .remove "1"] h ∧
        h.live = [stateSubscription "2" "second"] ∧
        filterOf h.manager (stateSubscription "2" "second").path = "state" ∧
        "state" ∉ h.filters ∧ h.manager.getAll = ["state"] := by
  constructor
  · have levels : splitLevels "%topic%" = topicFormatOnly.levels := by
      rw [splitLevels_eq]
      decide
    unfold compileMqttTopic
    simp only [levels]
    rfl
  · obtain ⟨h, run, passed⟩ := exists_run_of_execute
      (show ((execute step FreshIds (SubscriptionHistory.initial topicFormatOnly)
        [.add (stateSubscription "1" "first"), .add (stateSubscription "2" "second"),
          .remove "1"]).any fun h => decide (h.live = [stateSubscription "2" "second"] ∧
            filterOf h.manager (stateSubscription "2" "second").path = "state" ∧
            "state" ∉ h.filters ∧ h.manager.getAll = ["state"])) = true by decide)
    exact ⟨h, run, of_decide_eq_true passed⟩

end SubscriptionHistory

end Vda5050
