import Vda5050.Common.ClientCalls

/-!
# The life cycle of a client

A client that awaits nothing is started and has an MQTT connection, or is not
started and has none. A failure to connect or of `onStarted` leaves it in such a
state, while a failure of `onStopping` leaves it stopping for good.
-/

set_option autoImplicit false

namespace Vda5050

open Library
open SubscriptionHistory (vehicleFormat)

namespace ClientHistory

variable {Payload Handler : Type} {settings : ClientSettings Payload}
  {h next : ClientHistory Payload Handler} {event : ClientEvent Payload Handler}

/-- The client is not stopping, and is started if and only if it has a connection. -/
def Consistent (h : ClientHistory Payload Handler) : Prop :=
  h.client.isStopping = false ∧ h.client.isStarted = h.client.mqtt.isSome

/-- A started client is disconnected by `stop`, and one that is not started is
connected by `start`, unless they fail. -/
structure Recovers (settings : ClientSettings Payload) (h : ClientHistory Payload Handler) :
    Prop where
  stop : h.client.isStarted = true → ∃ next,
    Run (step settings) (fun _ _ => True) h [.stop, .hookSettled true, .disconnected] next ∧
      next.awaiting = none ∧ next.client.isStarted = false ∧ next.client.mqtt = none
  start : h.client.isStarted = false → ∃ next,
    Run (step settings) (fun _ _ => True) h
        [.start, .connectSettled true, .hookSettled true] next ∧
      next.awaiting = none ∧ next.client.isStarted = true ∧ next.client.isConnected = true

/-- `onStopping` does not fail. -/
def StopsSucceed (h : ClientHistory Payload Handler) : ClientEvent Payload Handler → Prop
  | .hookSettled false => h.awaiting ≠ some .onStopping
  | _ => True

instance (h : ClientHistory Payload Handler) (event : ClientEvent Payload Handler) :
    Decidable (StopsSucceed h event) :=
  match event with
  | .hookSettled false => inferInstanceAs (Decidable (h.awaiting ≠ some .onStopping))
  | .start | .stop | .connectSettled _ | .hookSettled true | .disconnected | .online | .offline
  | .registerExtensionTopic _ _ | .publishTopic _ | .subscribeTopic _ | .subscribeSettled _ _
  | .unsubscribe _ => isTrue trivial

/-- The flags and the connection go with what is awaited. -/
def InStep (h : ClientHistory Payload Handler) : Prop :=
  match h.awaiting with
  | none => h.Consistent
  | some .connection =>
      h.client.isStarted = false ∧ h.client.isStopping = false ∧ h.client.mqtt.isSome = true
  | some .onStarted =>
      h.client.isStarted = true ∧ h.client.isStopping = false ∧ h.client.mqtt.isSome = true
  | some .onStopping =>
      h.client.isStarted = true ∧ h.client.isStopping = true ∧ h.client.mqtt.isSome = true
  | some .disconnection =>
      h.client.isStarted = false ∧ h.client.isStopping = false ∧ h.client.mqtt.isSome = false

/-- No call is underway, and `stop` does nothing although the client is started. -/
structure Stuck (h : ClientHistory Payload Handler) : Prop where
  awaiting : h.awaiting = none
  isStarted : h.client.isStarted = true
  isStopping : h.client.isStopping = true
  connection : h.client.mqtt.isSome = true

theorem InStep.of_same (inStep : InStep h) (same : SameLifeCycle h next) : InStep next := by
  unfold InStep Consistent at inStep ⊢
  rw [same.awaiting, same.connection.isStarted, same.connection.isStopping,
    same.connection.isSome]
  exact inStep

theorem Stuck.of_same (stuck : Stuck h) (same : SameLifeCycle h next) : Stuck next where
  awaiting := same.awaiting.trans stuck.awaiting
  isStarted := same.connection.isStarted.trans stuck.isStarted
  isStopping := same.connection.isStopping.trans stuck.isStopping
  connection := same.connection.isSome.trans stuck.connection

theorem connect_frame (settings : ClientSettings Payload) (client : Client Payload Handler) :
    (client.connect settings).isStarted = client.isStarted ∧
      (client.connect settings).isStopping = client.isStopping ∧
      (client.connect settings).mqtt = some {} ∧
      (client.connect settings).subscriptionManager = client.subscriptionManager := by
  unfold Client.connect
  cases settings.lastWill <;> exact ⟨rfl, rfl, rfl, rfl⟩

theorem InStep.step (inStep : InStep h) (succeeds : StopsSucceed h event)
    (stepped : h.step settings event = some next) : InStep next := by
  by_cases other : IsLifeCycle event
  swap
  · exact inStep.of_same (step_sameLifeCycle other stepped)
  cases event with
  | registerExtensionTopic | publishTopic | subscribeTopic | subscribeSettled | unsubscribe =>
      exact other.elim
  | start =>
      simp only [ClientHistory.step, Option.ite_none_right_eq_some, Option.some.injEq] at stepped
      obtain ⟨idle, rfl⟩ := stepped
      unfold start
      split
      · exact inStep
      · next stopped =>
        simp only [InStep, idle, Consistent] at inStep
        obtain ⟨started, stopping, connection, -⟩ := connect_frame settings h.client
        simp only [InStep, started, stopping, connection]
        exact ⟨by simpa using stopped, inStep.1, rfl⟩
  | stop =>
      simp only [ClientHistory.step, Option.ite_none_right_eq_some, Option.some.injEq] at stepped
      obtain ⟨idle, rfl⟩ := stepped
      unfold stop
      split
      · exact inStep
      · next started =>
        simp only [InStep, idle, Consistent] at inStep
        simp only [Bool.or_eq_true, Bool.not_eq_true', not_or, Bool.not_eq_false] at started
        exact ⟨started.1, rfl, inStep.2.symm.trans started.1⟩
  | connectSettled succeeded =>
      simp only [ClientHistory.step, Option.ite_none_right_eq_some, Option.some.injEq] at stepped
      obtain ⟨connecting, rfl⟩ := stepped
      simp only [InStep, connecting] at inStep
      obtain ⟨started, stopping, connection⟩ := inStep
      cases succeeded with
      | true =>
          refine ⟨rfl, stopping, ?_⟩
          simp [connectSettled, Client.connected, connection]
      | false => exact ⟨stopping, started⟩
  | hookSettled succeeded =>
      simp only [ClientHistory.step] at stepped
      split at stepped
      · next starting =>
        simp only [InStep, starting] at inStep
        obtain rfl := Option.some.inj stepped
        exact ⟨inStep.2.1, inStep.1.trans inStep.2.2.symm⟩
      · next stopping =>
        simp only [InStep, stopping] at inStep
        cases succeeded with
        | true =>
            obtain rfl := Option.some.inj stepped
            simp only [stopped, inStep.2.2, if_true]
            exact ⟨rfl, rfl, rfl⟩
        | false => exact absurd stopping succeeds
      all_goals cases stepped
  | disconnected =>
      simp only [ClientHistory.step, Option.ite_none_right_eq_some, Option.some.injEq] at stepped
      obtain ⟨disconnecting, rfl⟩ := stepped
      simp only [InStep, disconnecting] at inStep
      exact ⟨inStep.2.1, inStep.1.trans inStep.2.2.symm⟩
  | online =>
      simp only [ClientHistory.step, Option.ite_none_right_eq_some, Option.some.injEq] at stepped
      obtain ⟨-, rfl⟩ := stepped
      simp only [InStep, Consistent, Client.connected, Option.isSome_map] at inStep ⊢
      exact inStep
  | offline =>
      simp only [ClientHistory.step, Option.ite_none_right_eq_some, Option.some.injEq] at stepped
      obtain ⟨-, rfl⟩ := stepped
      simp only [InStep, Consistent, Option.isSome_map] at inStep ⊢
      exact inStep

/-- A failure of `onStopping`. -/
theorem InStep.stuck (inStep : InStep h) (fails : ¬ StopsSucceed h event)
    (stepped : h.step settings event = some next) : Stuck next := by
  unfold StopsSucceed at fails
  split at fails
  · next =>
    have stopping : h.awaiting = some .onStopping := by simpa using fails
    simp only [InStep, stopping] at inStep
    simp only [ClientHistory.step, stopping, Bool.false_eq_true, if_false,
      Option.some.injEq] at stepped
    obtain rfl := stepped
    exact ⟨rfl, inStep.1, inStep.2.1, inStep.2.2⟩
  · exact absurd trivial fails

/-- Nothing but going offline and online happens to a client that is stuck. -/
theorem Stuck.step (stuck : Stuck h) (stepped : h.step settings event = some next) :
    Stuck next := by
  by_cases other : IsLifeCycle event
  swap
  · exact stuck.of_same (step_sameLifeCycle other stepped)
  cases event with
  | registerExtensionTopic | publishTopic | subscribeTopic | subscribeSettled | unsubscribe =>
      exact other.elim
  | start =>
      simp only [ClientHistory.step, Option.ite_none_right_eq_some, Option.some.injEq] at stepped
      obtain ⟨-, rfl⟩ := stepped
      simpa only [start, stuck.isStarted, if_true] using stuck
  | stop =>
      simp only [ClientHistory.step, Option.ite_none_right_eq_some, Option.some.injEq] at stepped
      obtain ⟨-, rfl⟩ := stepped
      simpa only [stop, stuck.isStopping, Bool.or_true, if_true] using stuck
  | connectSettled | hookSettled | disconnected =>
      simp [ClientHistory.step, stuck.awaiting] at stepped
  | online =>
      simp only [ClientHistory.step, Option.ite_none_right_eq_some, Option.some.injEq] at stepped
      obtain ⟨-, rfl⟩ := stepped
      exact ⟨stuck.awaiting, stuck.isStarted, stuck.isStopping, by
        simpa only [Client.connected, Option.isSome_map] using stuck.connection⟩
  | offline =>
      simp only [ClientHistory.step, Option.ite_none_right_eq_some, Option.some.injEq] at stepped
      obtain ⟨-, rfl⟩ := stepped
      exact ⟨stuck.awaiting, stuck.isStarted, stuck.isStopping, by
        simpa only [Option.isSome_map] using stuck.connection⟩

theorem InStep.initial (format : TopicFormat) :
    InStep (ClientHistory.initial format : ClientHistory Payload Handler) := ⟨rfl, rfl⟩

theorem inStep_of_run {format : TopicFormat} {events : List (ClientEvent Payload Handler)}
    (run : Run (step settings) StopsSucceed (initial format) events h) : InStep h :=
  run.invariant InStep (.initial format) fun _ inStep succeeds stepped =>
    inStep.step succeeds stepped

/-- A client is in step as long as the `onStopping` hooks succeed, and stuck after
the first one that fails. -/
theorem inStep_or_stuck {allowed : ClientHistory Payload Handler →
      ClientEvent Payload Handler → Prop} {format : TopicFormat}
    {events : List (ClientEvent Payload Handler)}
    (run : Run (step settings) allowed (initial format) events h) :
    Run (step settings) StopsSucceed (initial format) events h ∨ Stuck h := by
  induction run with
  | start => exact .inl .start
  | @advance events h next event _ _ stepped ih =>
      rcases ih with succeeding | stuck
      · by_cases succeeds : StopsSucceed h event
        · exact .inl (succeeding.advance succeeds stepped)
        · exact .inr ((inStep_of_run succeeding).stuck succeeds stepped)
      · exact .inr (stuck.step stepped)

/-- A started client has a connection in any run. -/
theorem isSome_of_isStarted {allowed : ClientHistory Payload Handler →
      ClientEvent Payload Handler → Prop} {format : TopicFormat}
    {events : List (ClientEvent Payload Handler)}
    (run : Run (step settings) allowed (initial format) events h)
    (started : h.client.isStarted = true) : h.client.mqtt.isSome = true := by
  rcases inStep_or_stuck run with succeeding | stuck
  · have inStep := inStep_of_run succeeding
    unfold InStep at inStep
    split at inStep
    · exact inStep.2.symm.trans started
    · exact inStep.2.2
    · exact inStep.2.2
    · exact inStep.2.2
    · simp [started] at inStep
  · exact stuck.connection

private theorem Consistent.recovers (consistent : Consistent h) (settled : h.awaiting = none) :
    Recovers settings h where
  stop started := by
    have connection := consistent.2.symm.trans started
    have executed : execute (step settings) (fun _ _ => True) h
        [.stop, .hookSettled true, .disconnected] =
          some { h with
            client := { h.client with
              isStarted := false, isStopping := false, mqtt := none,
              subscriptionManager := h.client.subscriptionManager.clear }
            awaiting := none
            live := [] } := by
      simp [execute, step, settled, ClientHistory.stop, started, consistent.1, stopped,
        connection, Client.reset, Client.withManager]
    exact ⟨_, Run.of_execute .start executed, rfl, rfl, rfl⟩
  start stopped := by
    obtain ⟨-, -, connection, -⟩ := connect_frame settings h.client
    have executed : execute (step settings) (fun _ _ => True) h
        [.start, .connectSettled true, .hookSettled true] =
          some { h with
            client := { (h.client.connect settings).connected with isStarted := true }
            awaiting := none } := by
      simp [execute, step, settled, ClientHistory.start, stopped, connectSettled]
    exact ⟨_, Run.of_execute .start executed, rfl, rfl, by
      simp [Client.isConnected, Client.connected, connection, MqttClient.resubscribed]⟩

/-- After every settled call the client is consistent and can be stopped and
started again, if and only if no `onStopping` hook has failed. -/
theorem consistent_iff_stopsSucceed {format : TopicFormat}
    {events : List (ClientEvent Payload Handler)}
    (run : Run (step settings) (fun _ _ => True) (initial format) events h)
    (settled : h.awaiting = none) :
    (Consistent h ∧ Recovers settings h) ↔
      Run (step settings) StopsSucceed (initial format) events h := by
  constructor
  · rintro ⟨consistent, -⟩
    refine (inStep_or_stuck run).resolve_right fun stuck => ?_
    exact absurd (stuck.isStopping.symm.trans consistent.1) (by decide)
  · intro succeeding
    have consistent := inStep_of_run succeeding
    rw [InStep, settled] at consistent
    exact ⟨consistent, consistent.recovers settled⟩

/-! ## Failures -/

/-- The settings of a client whose checks all succeed. -/
def permissiveSettings : ClientSettings Unit where
  validateTopicDirection := fun _ _ => .ok ()
  validateCoreObject := fun _ _ => .ok ()
  stringify := fun _ => .ok "null"

/-- A client that has just been started. -/
def started : ClientHistory Payload Handler where
  client :=
    { isStarted := true
      mqtt := some { connected := true }
      subscriptionManager := { format := vehicleFormat } }

theorem run_started {allowed : ClientHistory Payload Handler →
      ClientEvent Payload Handler → Prop} (noWill : settings.lastWill = none)
    (permitted : ∀ h event, IsLifeCycle event → allowed h event) :
    Run (step settings) allowed (initial vehicleFormat)
      [.start, .connectSettled true, .hookSettled true] started := by
  have first : (initial vehicleFormat : ClientHistory Payload Handler).step settings .start =
      some { (initial vehicleFormat : ClientHistory Payload Handler) with
        client := { subscriptionManager := { format := vehicleFormat }, mqtt := some {} }
        awaiting := some .connection } := by
    simp [step, start, initial, Client.connect, noWill]
  exact ((Run.start.advance (permitted _ .start trivial) first).advance
    (permitted _ (.connectSettled true) trivial) rfl).advance
      (permitted _ (.hookSettled true) trivial) rfl

/-- The connection fails at first, then `onStarted`. -/
theorem consistent_of_failedStarts :
    ∃ h : ClientHistory Unit Unit,
      Run (step permissiveSettings) (fun _ _ => True) (initial vehicleFormat)
        [.start, .connectSettled false, .start, .connectSettled true, .hookSettled false] h ∧
      h.awaiting = none ∧ Consistent h ∧ Recovers permissiveSettings h := by
  obtain ⟨h, run, passed⟩ := exists_run_of_execute
    (show ((execute (step permissiveSettings) StopsSucceed (initial vehicleFormat)
      [.start, .connectSettled false, .start, .connectSettled true,
        .hookSettled false]).any fun h : ClientHistory Unit Unit =>
          decide (h.awaiting = none)) = true by decide)
  have settled := of_decide_eq_true passed
  have unrestricted := run.weaken fun _ _ _ => trivial
  exact ⟨h, unrestricted, settled, (consistent_iff_stopsSucceed unrestricted settled).mpr run⟩

/-- After `onStopping` has failed, a further `stop` does not disconnect. -/
theorem not_consistent_of_failedStop :
    ∃ h : ClientHistory Unit Unit,
      Run (step permissiveSettings) (fun _ _ => True) (initial vehicleFormat)
        [.start, .connectSettled true, .hookSettled true, .stop, .hookSettled false] h ∧
      h.awaiting = none ∧ ¬ Consistent h ∧ h.client.isConnected = true ∧
      h.step permissiveSettings .stop = some h := by
  obtain ⟨h, run, passed⟩ := exists_run_of_execute
    (show ((execute (step permissiveSettings) (fun _ _ => True) (initial vehicleFormat)
      [.start, .connectSettled true, .hookSettled true, .stop,
        .hookSettled false]).any fun h : ClientHistory Unit Unit =>
          decide (h.awaiting = none ∧ h.client.isStopping = true ∧
            h.client.isConnected = true)) = true by decide)
  obtain ⟨settled, stopping, connected⟩ := of_decide_eq_true passed
  refine ⟨h, run, settled, fun consistent => ?_, connected, ?_⟩
  · exact absurd (stopping.symm.trans consistent.1) (by decide)
  · simp [step, settled, stop, stopping]

end ClientHistory

end Vda5050
