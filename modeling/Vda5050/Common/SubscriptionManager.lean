import Vda5050.Common.MqttTopic
import Vda5050.Library.NestedMap
import Vda5050.Library.Run
import Vda5050.Types
import Mathlib.Data.Finset.Basic

/-!
# The subscription manager

Subscription handlers in nested maps with a level for the topic, the serial
number and the manufacturer each, where `none` is the key of a wildcard.
-/

set_option autoImplicit false

namespace Vda5050

/-- `Partial<AgvId>` -/
structure PartialAgvId where
  manufacturer : Option String
  serialNumber : Option String
  deriving DecidableEq, Repr

def AgvId.toPartial (agvId : AgvId) : PartialAgvId where
  manufacturer := some agvId.manufacturer
  serialNumber := some agvId.serialNumber

/-- The keys of a subscription in the order of the levels. -/
abbrev SubscriptionPath := Library.KeyPath (Option String) 3

def subscriptionPath (topic : Option String) (subject : PartialAgvId) : SubscriptionPath :=
  (topic, subject.serialNumber, subject.manufacturer, ())

/-- The subscriptions with the same topic and subject, and their MQTT topic. -/
structure SubscriptionIds (Handler : Type) where
  mqttTopic : Option String := none
  handlers : List (String × Handler) := []

structure SubscriptionManager (Handler : Type) where
  format : TopicFormat
  subscriptions : Library.NestedMap (Option String) (SubscriptionIds Handler) 3 := []
  subscriptionIds : List (String × SubscriptionPath) := []

/-- The result of `add`. -/
structure AddedSubscription where
  id : String
  mqttTopic : Option String
  requiresSubscribe : Bool
  deriving DecidableEq, Repr

/-- The result of `remove`. -/
structure RemovedSubscription where
  mqttTopic : Option String
  requiresUnsubscribe : Bool
  deriving DecidableEq, Repr

def maxMqttTopicUtf8Count : Nat := 65535

namespace SubscriptionManager

variable {Handler : Type} (manager : SubscriptionManager Handler)

def getMqttTopic (topic : Option String) (subject : PartialAgvId) : String :=
  manager.format.constructMqttTopic (subject.manufacturer.getD "+") (subject.serialNumber.getD "+")
    (topic.getD "+")

def getMqttTopicUtf8Length (topic : Option String) (subject : PartialAgvId) : Nat :=
  manager.format.getMqttTopicUtf8Length (subject.manufacturer.getD "+")
    (subject.serialNumber.getD "+") (topic.getD "+")

def clear : SubscriptionManager Handler :=
  { manager with subscriptions := [], subscriptionIds := [] }

/-- `map.set(id, handler)` on the map at the end of a path. -/
def addHandler (mqttTopic id : String) (handler : Handler) (ids : SubscriptionIds Handler) :
    SubscriptionIds Handler :=
  let handlers := Library.put id handler ids.handlers
  { mqttTopic := if handlers.length = 1 then some mqttTopic else ids.mqttTopic
    handlers := handlers }

/-- `add`, with the UUID created for the subscription. -/
def add (id : String) (topic : Option String) (subject : PartialAgvId) (handler : Handler) :
    Except String (SubscriptionManager Handler × AddedSubscription) :=
  if maxMqttTopicUtf8Count < manager.getMqttTopicUtf8Length topic subject then
    .error "MQTT topic exceeds maximum allowed UTF-8 byte length"
  else
    let path := subscriptionPath topic subject
    let change := addHandler (manager.getMqttTopic topic subject) id handler
    let ids := change ((manager.subscriptions.leafAt path).getD {})
    .ok
      ({ manager with
          subscriptions := manager.subscriptions.update {} change path
          subscriptionIds := Library.put id path manager.subscriptionIds },
        { id := id
          mqttTopic := ids.mqttTopic
          requiresSubscribe := ids.handlers.length = 1 })

def removeHandler (id : String) (ids : SubscriptionIds Handler) : SubscriptionIds Handler :=
  { ids with handlers := ids.handlers.filter (·.1 ≠ id) }

/-- `remove`, with `none` for `undefined`. The entry of `_subscriptionIds` stays. -/
def remove (id : String) : SubscriptionManager Handler × Option RemovedSubscription :=
  match manager.subscriptionIds.lookup id with
  | none => (manager, none)
  | some path =>
      match manager.subscriptions.leafAt path with
      | none => (manager, none)
      | some ids =>
          if ids.handlers.any (·.1 = id) then
            ({ manager with subscriptions := manager.subscriptions.update {} (removeHandler id) path },
              some
                { mqttTopic := ids.mqttTopic
                  requiresUnsubscribe := (removeHandler id ids).handlers.isEmpty })
          else (manager, none)

/-- `getAll`, by a walk through all levels. -/
def getAll : List String :=
  manager.subscriptions.leaves.filterMap fun found =>
    if found.2.handlers.isEmpty then none else found.2.mqttTopic

/-- `find`, where each level is looked up with its key and with the wildcard. -/
def find (mqttTopic : String) (subject : AgvId) : List (String × Handler) × Option String :=
  let deconstructed := manager.format.deconstructMqttTopic mqttTopic
  let path : SubscriptionPath :=
    (deconstructed.topic, some (deconstructed.serialNumber.getD subject.serialNumber),
      some (deconstructed.manufacturer.getD subject.manufacturer), ())
  ((manager.subscriptions.matching none path).flatMap (·.handlers), deconstructed.topic)

end SubscriptionManager

/-! ## Histories -/

structure Subscription (Handler : Type) where
  id : String
  topic : Option String
  subject : PartialAgvId
  handler : Handler
  deriving DecidableEq

namespace Subscription

variable {Handler : Type} (subscription : Subscription Handler)

def path : SubscriptionPath := subscriptionPath subscription.topic subscription.subject

/-- Every part of the subscription is a wildcard or the given value. -/
def Covers (topic : String) (subject : AgvId) : Prop :=
  (subscription.topic = some topic ∨ subscription.topic = none) ∧
    (subscription.subject.serialNumber = some subject.serialNumber ∨
      subscription.subject.serialNumber = none) ∧
    (subscription.subject.manufacturer = some subject.manufacturer ∨
      subscription.subject.manufacturer = none)

end Subscription

/-- A subscription manager in use: the ids it has issued, the subscriptions
added and neither removed nor cleared since, and the MQTT topics subscribed at
the broker. -/
structure SubscriptionHistory (Handler : Type) where
  manager : SubscriptionManager Handler
  issued : List String := []
  live : List (Subscription Handler) := []
  filters : Finset String := ∅

inductive SubscriptionEvent (Handler : Type) where
  | add (subscription : Subscription Handler)
  | remove (id : String)
  | clear

namespace SubscriptionHistory

variable {Handler : Type}

def subscribe (filters : Finset String) (added : AddedSubscription) : Finset String :=
  if added.requiresSubscribe then added.mqttTopic.elim filters (insert · filters) else filters

def unsubscribe (filters : Finset String) : Option RemovedSubscription → Finset String
  | none => filters
  | some removed =>
      if removed.requiresUnsubscribe then removed.mqttTopic.elim filters (filters.erase ·)
      else filters

/-- A call of the subscription manager, `none` if it throws. -/
def step (h : SubscriptionHistory Handler) :
    SubscriptionEvent Handler → Option (SubscriptionHistory Handler)
  | .add subscription =>
      match h.manager.add subscription.id subscription.topic subscription.subject
          subscription.handler with
      | .error _ => none
      | .ok (manager, added) =>
          some
            { manager := manager
              issued := h.issued ++ [subscription.id]
              live := h.live ++ [subscription]
              filters := subscribe h.filters added }
  | .remove id =>
      some
        { h with
          manager := (h.manager.remove id).1
          live := h.live.filter (·.id ≠ id)
          filters := unsubscribe h.filters (h.manager.remove id).2 }
  | .clear => some { h with manager := h.manager.clear, live := [], filters := ∅ }

/-- Every subscription gets a new id. -/
def FreshIds (h : SubscriptionHistory Handler) : SubscriptionEvent Handler → Prop
  | .add subscription => subscription.id ∉ h.issued
  | .remove _ | .clear => True

def initial (format : TopicFormat) : SubscriptionHistory Handler :=
  { manager := { format := format } }

end SubscriptionHistory

end Vda5050
