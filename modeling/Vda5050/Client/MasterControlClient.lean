import Vda5050.Client.AgvClient
import Vda5050.Common.AgvIdMap
import Vda5050.Library.RetainedMessages

/-!
# The master control client

What the class of a master control client adds to the client: the directions of its
topics, and the connection states of all vehicles as far as they have been received.
-/

set_option autoImplicit false

namespace Vda5050

open Library

namespace AgvIdMap

theorem get_set {Value : Type} (m : AgvIdMap Value) (agvId other : AgvId) (value : Value) :
    (m.set agvId value).get other = if other = agvId then some value else m.get other := by
  obtain ⟨manufacturer, serialNumber⟩ := agvId
  obtain ⟨otherManufacturer, otherSerialNumber⟩ := other
  unfold get set serialNumbers
  dsimp only
  rw [lookup_put]
  by_cases same : otherManufacturer = manufacturer
  · subst same
    rw [if_pos rfl, Option.bind_some, lookup_put]
    simp only [AgvId.mk.injEq, true_and]
    cases m.map.lookup otherManufacturer <;> rfl
  · simp [same]

end AgvIdMap

/-- A connection state with its timestamp, as it is passed to handlers and returned. -/
structure TrackedState where
  subject : AgvId
  state : Option Json
  timestamp : String
  deriving DecidableEq

/-- The tracking of a master control client. The handler called is the composition of those
registered, in their order. Its calls are recorded with the handler they reach. -/
structure MasterControlClient where
  connectionStates : AgvIdMap (Vda5050Object Properties) := {}
  trackHandlers : List Nat := []
  notifications : List (Nat × TrackedState) := []

inductive TrackingEvent where
  | connection (agvId : AgvId) (connection : Vda5050Object Properties)
  | trackAgvs (handler : Nat)
  | reset

namespace MasterControlClient

/-- `validateTopicDirection` -/
def validateTopicDirection : String → Bool → Except String Unit :=
  validateDirection "MasterControlClient" masterControlTopics vehicleTopics

def trackedState (agvId : AgvId) (connection : Vda5050Object Properties) : TrackedState where
  subject := agvId
  state := connection.toJson.property? "connectionState"
  timestamp := connection.timestamp

variable (client : MasterControlClient)

/-- The handler of the subscription made by `onStarted`. -/
def onConnection (agvId : AgvId) (connection : Vda5050Object Properties) : MasterControlClient where
  connectionStates := client.connectionStates.set agvId connection
  trackHandlers := client.trackHandlers
  notifications := client.notifications ++
    client.trackHandlers.map fun handler => (handler, trackedState agvId connection)

def getTrackedState (subject : AgvId) : Option TrackedState :=
  (client.connectionStates.get subject).map (trackedState subject)

def getTrackedStates : List TrackedState :=
  client.connectionStates.entries.map fun entry => trackedState entry.1 entry.2

def trackAgvs (handler : Nat) : MasterControlClient :=
  { client with
    trackHandlers := client.trackHandlers ++ [handler]
    notifications := client.notifications ++ client.getTrackedStates.map fun state =>
      (handler, state) }

/-- `reset`, as far as it concerns the tracking. -/
def reset : MasterControlClient :=
  { client with connectionStates := client.connectionStates.clear, trackHandlers := [] }

def perform : TrackingEvent → MasterControlClient
  | .connection agvId connection => client.onConnection agvId connection
  | .trackAgvs handler => client.trackAgvs handler
  | .reset => client.reset

/-- Handlers are told apart. -/
def FreshHandler : TrackingEvent → Prop
  | .trackAgvs handler => handler ∉ client.trackHandlers ∧
      ∀ notification ∈ client.notifications, notification.1 ≠ handler
  | .connection .. | .reset => True

/-! ## What handlers have been told -/

/-- The last state of a vehicle of which a handler has been told. -/
def lastTold (handler : Nat) (agvId : AgvId) : Option TrackedState :=
  (latest (fun notification : Nat × TrackedState =>
    some (notification.1, notification.2.subject)) (handler, agvId) client.notifications).map (·.2)

variable {client}

private theorem getTrackedState_onConnection (agvId other : AgvId)
    (connection : Vda5050Object Properties) :
    (client.onConnection agvId connection).getTrackedState other =
      if other = agvId then some (trackedState agvId connection)
      else client.getTrackedState other := by
  unfold getTrackedState onConnection
  rw [AgvIdMap.get_set]
  split
  · next same => rw [same, Option.map_some]
  · rfl

private theorem mem_getTrackedStates {state : TrackedState} :
    state ∈ client.getTrackedStates ↔ client.getTrackedState state.subject = some state := by
  unfold getTrackedStates getTrackedState
  rw [List.mem_map, Option.map_eq_some_iff]
  constructor
  · rintro ⟨⟨agvId, connection⟩, member, rfl⟩
    exact ⟨connection, AgvIdMap.mem_entries_iff.mp member, rfl⟩
  · rintro ⟨connection, found, same⟩
    exact ⟨(state.subject, connection), AgvIdMap.mem_entries_iff.mpr found, same⟩

private theorem nodup_getTrackedStates (client : MasterControlClient) :
    (client.getTrackedStates.map (·.subject)).Nodup := by
  unfold getTrackedStates
  rw [List.map_map]
  exact client.connectionStates.nodup_entries

/-- What a handler is told by a call of the composed handler. -/
private theorem latest_told {handlers : List Nat} (distinct : handlers.Nodup) {handler : Nat}
    (registered : handler ∈ handlers) {agvId : AgvId} {state : TrackedState}
    (subject : state.subject = agvId) :
    latest (fun notification : Nat × TrackedState =>
        some (notification.1, notification.2.subject)) (handler, agvId)
      (handlers.map fun handler => (handler, state)) = some (handler, state) := by
  refine latest_of_mem ?_ (List.mem_map_of_mem registered) (by rw [subject])
  rw [List.map_map]
  refine distinct.map fun one other same => ?_
  simpa using same

/-- Handlers are registered once, and have been told the state of every vehicle. -/
structure Informed (client : MasterControlClient) : Prop where
  distinct : client.trackHandlers.Nodup
  told : ∀ handler ∈ client.trackHandlers, ∀ agvId,
    client.lastTold handler agvId = client.getTrackedState agvId

private theorem lastTold_append (notifications : List (Nat × TrackedState)) (handler : Nat)
    (agvId : AgvId) :
    ({ client with notifications := client.notifications ++ notifications }).lastTold handler agvId =
      ((latest (fun notification : Nat × TrackedState =>
        some (notification.1, notification.2.subject)) (handler, agvId) notifications).map (·.2)).or
          (client.lastTold handler agvId) := by
  unfold lastTold
  rw [latest_append, Option.map_or]

theorem Informed.onConnection (informed : client.Informed) (agvId : AgvId)
    (connection : Vda5050Object Properties) : (client.onConnection agvId connection).Informed where
  distinct := informed.distinct
  told handler registered other := by
    have told := informed.told handler registered other
    rw [getTrackedState_onConnection, ← told]
    refine (lastTold_append _ handler other).trans ?_
    split
    · next same =>
      subst same
      have subject : (trackedState other connection).subject = other := rfl
      rw [latest_told informed.distinct registered subject]
      rfl
    · next different =>
      rw [latest_eq_none_iff.mpr, Option.map_none, Option.none_or]
      intro notification member about
      obtain ⟨handler', -, rfl⟩ := List.mem_map.mp member
      simp only [Option.some.injEq, Prod.mk.injEq] at about
      exact different about.2.symm

theorem Informed.trackAgvs (informed : client.Informed) {handler : Nat}
    (fresh : client.FreshHandler (.trackAgvs handler)) : (client.trackAgvs handler).Informed where
  distinct := by
    refine List.nodup_append.mpr ⟨informed.distinct, by simp, fun known member new added same => ?_⟩
    obtain rfl := List.mem_singleton.mp added
    exact fresh.1 (same ▸ member)
  told other registered agvId := by
    refine (lastTold_append _ other agvId).trans ?_
    rcases List.mem_append.mp registered with known | new
    · have different : other ≠ handler := fun same => fresh.1 (same ▸ known)
      rw [latest_eq_none_iff.mpr, Option.map_none, Option.none_or]
      · exact informed.told other known agvId
      · intro notification member about
        obtain ⟨state, -, rfl⟩ := List.mem_map.mp member
        simp only [Option.some.injEq, Prod.mk.injEq] at about
        exact different about.1.symm
    · obtain rfl := List.mem_singleton.mp new
      have untold : client.lastTold other agvId = none := by
        unfold lastTold
        rw [Option.map_eq_none_iff, latest_eq_none_iff]
        intro notification member about
        simp only [Option.some.injEq, Prod.mk.injEq] at about
        exact fresh.2 notification member about.1
      rw [untold, Option.or_none]
      change _ = client.getTrackedState agvId
      cases tracked : client.getTrackedState agvId with
      | some state =>
          have subject : state.subject = agvId := by
            obtain ⟨connection, -, rfl⟩ := Option.map_eq_some_iff.mp tracked
            rfl
          have member := mem_getTrackedStates.mpr (subject.symm ▸ tracked)
          have notified : (other, state) ∈ client.getTrackedStates.map fun state => (other, state) :=
            List.mem_map_of_mem member
          rw [latest_of_mem ?_ notified (by rw [subject])]
          · rfl
          · have keys : (client.getTrackedStates.map fun state => (other, state)).map
                (fun notification => some (notification.1, notification.2.subject)) =
                (client.getTrackedStates.map (·.subject)).map fun agvId => some (other, agvId) := by
              simp
            rw [keys]
            refine client.nodup_getTrackedStates.map fun one another same => ?_
            simpa using same
      | none =>
          rw [Option.map_eq_none_iff, latest_eq_none_iff]
          intro notification member about
          obtain ⟨state, listed, rfl⟩ := List.mem_map.mp member
          simp only [Option.some.injEq, Prod.mk.injEq] at about
          rw [mem_getTrackedStates, about.2, tracked] at listed
          cases listed

theorem Informed.perform (informed : client.Informed) {event : TrackingEvent}
    (fresh : client.FreshHandler event) : (client.perform event).Informed := by
  cases event with
  | connection agvId connection => exact informed.onConnection agvId connection
  | trackAgvs handler => exact informed.trackAgvs fresh
  | reset => exact ⟨List.nodup_nil, nofun⟩

theorem Informed.initial : Informed {} := ⟨List.nodup_nil, nofun⟩

/-- Whenever handlers are registered and connections are received, every handler has last been
told the state of each vehicle that is returned for it, which is the one listed for it. -/
theorem told_trackedStates {events : List TrackingEvent}
    (run : Run (fun client event => some (perform client event)) FreshHandler {} events client) :
    (∀ handler ∈ client.trackHandlers, ∀ agvId,
        client.lastTold handler agvId = client.getTrackedState agvId) ∧
      (client.getTrackedStates.map (·.subject)).Nodup ∧
      ∀ state, state ∈ client.getTrackedStates ↔
        client.getTrackedState state.subject = some state := by
  have informed : client.Informed := by
    refine run.invariant Informed .initial fun _ informed fresh stepped => ?_
    obtain rfl := Option.some.inj stepped
    exact informed.perform fresh
  exact ⟨informed.told, client.nodup_getTrackedStates, fun _ => mem_getTrackedStates⟩

/-- The connection of a vehicle, in a state. -/
def sampleConnection (state : ConnectionState) : Vda5050Object Properties where
  headerId := ⟨0, by decide⟩
  timestamp := "2021-06-01T12:00:00.000Z"
  manufacturer := some "first"
  serialNumber := some "001"
  version := "1.1.0"
  payload := connectionProperties state

/-- A handler that is registered late is told at once. -/
theorem told_trackedStates_late :
    ∃ client : MasterControlClient,
      Run (fun client event => some (perform client event)) FreshHandler {}
        [.connection SubscriptionHistory.firstVehicle (sampleConnection .online),
          .trackAgvs 0] client ∧
      client.lastTold 0 SubscriptionHistory.firstVehicle =
        some (trackedState SubscriptionHistory.firstVehicle (sampleConnection .online)) := by
  have run : Run (fun client event => some (perform client event)) FreshHandler {}
      [.connection SubscriptionHistory.firstVehicle (sampleConnection .online), .trackAgvs 0]
      (trackAgvs (onConnection {} SubscriptionHistory.firstVehicle (sampleConnection .online)) 0) :=
    (Run.advance (.advance .start trivial rfl) ⟨by simp [onConnection], by simp [onConnection]⟩
      rfl)
  exact ⟨_, run, (told_trackedStates run).1 0 (by simp [onConnection, trackAgvs]) _⟩

end MasterControlClient

end Vda5050
