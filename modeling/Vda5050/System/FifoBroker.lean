import Vda5050.System.Connections
import Vda5050.Library.EntryList

/-!
# A broker

A network that is as documented: every connection is accepted, the messages that have been
kept are sent in the order of their topics, and all messages arrive in the order in which
they have been published.
-/

set_option autoImplicit false

namespace Vda5050

open Library

/-- A broker that keeps messages by their topics, and sends all messages in one order. -/
structure FifoBroker where
  links : VehicleId → Link := fun _ => {}
  retained : { entries : List (String × MqttMessage Properties) // (entries.map (·.1)).Nodup } :=
    ⟨[], List.nodup_nil⟩
  inbound : Option (List (MqttMessage Properties)) := none

namespace FifoBroker

variable (broker : FifoBroker)

def setLink (vehicle : VehicleId) (link : Link) : FifoBroker :=
  { broker with links := Function.update broker.links vehicle link }

def publish (message : MqttMessage Properties) : FifoBroker :=
  { broker with
    retained :=
      if message.retain then
        ⟨put message.mqttTopic message broker.retained.val,
          nodup_keys_put message broker.retained.property⟩
      else broker.retained
    inbound := broker.inbound.map (· ++ [message]) }

def step (broker : FifoBroker) : NetworkEvent → Option FifoBroker
  | .connect vehicle will =>
      some (broker.setLink vehicle { broker.links vehicle with will := some will })
  | .connected vehicle =>
      let link := broker.links vehicle
      some ((link.session.elim broker (broker.publish ·.will)).setLink vehicle
        { link with
          queued := []
          session := link.will.map fun will =>
            { will := will, packets := link.queued.map .publish } })
  | .publish vehicle online message =>
      let link := broker.links vehicle
      some (broker.setLink vehicle
        (if online then
          { link with
            session := link.session.map fun session =>
              { session with packets := session.packets ++ [.publish message] } }
        else { link with queued := link.queued ++ [message] }))
  | .disconnect vehicle online =>
      let link := broker.links vehicle
      some (broker.setLink vehicle
        (if online then
          { link with
            queued := []
            session := link.session.map fun session =>
              { session with packets := session.packets ++ [.disconnect] } }
        else { link with queued := [] }))
  | .receive vehicle =>
      (broker.links vehicle).session.bind fun session =>
        match session.packets with
        | [] => none
        | .publish message :: packets =>
            some ((broker.publish message).setLink vehicle
              { broker.links vehicle with session := some { session with packets := packets } })
        | .disconnect :: _ =>
            some (broker.setLink vehicle { broker.links vehicle with session := none })
  | .broken vehicle =>
      (broker.links vehicle).session.map fun session =>
        (broker.publish session.will).setLink vehicle
          { broker.links vehicle with session := none }
  | .subscribe => some { broker with inbound := some (broker.retained.val.map (·.2)) }
  | .deliver position =>
      if position = 0 then
        broker.inbound.bind fun inbound =>
          match inbound with
          | [] => none
          | _ :: messages => some { broker with inbound := some messages }
      else none
  | .unsubscribe => some { broker with inbound := none }

/-- The broker with its MQTT clients. -/
def network : MqttNetwork FifoBroker where
  initial := {}
  step := step
  link := links
  retained := fun broker topic => broker.retained.val.lookup topic
  inbound := inbound

variable {broker : FifoBroker}

private theorem setLink_same (broker : FifoBroker) (vehicle : VehicleId) (link : Link) :
    (broker.setLink vehicle link).links vehicle = link :=
  Function.update_self ..

private theorem setLink_other (broker : FifoBroker) {vehicle other : VehicleId} (link : Link)
    (different : other ≠ vehicle) :
    (broker.setLink vehicle link).links other = broker.links other :=
  Function.update_of_ne different ..

private theorem publish_retained (broker : FifoBroker) (message : MqttMessage Properties)
    (topic : String) :
    (broker.publish message).retained.val.lookup topic =
      if message.retain = true ∧ topic = message.mqttTopic then some message
      else broker.retained.val.lookup topic := by
  unfold publish
  dsimp only
  split
  · next retain =>
    simp only [retain, true_and]
    exact lookup_put ..
  · next retain =>
    rw [if_neg fun both => retain both.1]

/-- The broker publishes a message, whatever becomes of the connection. -/
theorem publishes (broker : FifoBroker) (message : MqttMessage Properties) (vehicle : VehicleId)
    (link : Link) :
    network.Publishes broker ((broker.publish message).setLink vehicle link) message where
  retained := publish_retained broker message
  inbound := rfl

/-- The last will of a session that is taken over. -/
private theorem publishesWill (broker : FifoBroker) (session : Option Session) (vehicle : VehicleId)
    (link : Link) :
    network.PublishesWill broker
      ((session.elim broker (broker.publish ·.will)).setLink vehicle link)
      (session.map (·.will)) := by
  cases session with
  | none => exact ⟨rfl, rfl⟩
  | some session => exact publishes broker session.will vehicle link

/-- A vehicle takes no part in the steps of another one. -/
theorem isolated {after : FifoBroker} {event : NetworkEvent} {vehicle : VehicleId}
    (stepped : broker.step event = some after) (other : event.vehicle? ≠ some vehicle) :
    after.links vehicle = broker.links vehicle := by
  have apart {actor : VehicleId} (acts : event.vehicle? = some actor) : vehicle ≠ actor :=
    fun same => other (acts.trans (congrArg some same.symm))
  cases event with
  | connect actor will | publish actor online message | disconnect actor online =>
      obtain rfl := Option.some.inj stepped
      exact setLink_other broker _ (apart rfl)
  | connected actor =>
      obtain rfl := Option.some.inj stepped
      refine (setLink_other _ _ (apart rfl)).trans ?_
      cases (broker.links actor).session <;> rfl
  | receive actor =>
      obtain ⟨session, -, received⟩ := Option.bind_eq_some_iff.mp stepped
      dsimp only at received
      split at received
      · cases received
      · obtain rfl := Option.some.inj received
        exact setLink_other _ _ (apart rfl)
      · obtain rfl := Option.some.inj received
        exact setLink_other _ _ (apart rfl)
  | broken actor =>
      obtain ⟨session, -, rfl⟩ := Option.map_eq_some_iff.mp stepped
      exact setLink_other _ _ (apart rfl)
  | subscribe | unsubscribe =>
      obtain rfl := Option.some.inj stepped
      rfl
  | deliver position =>
      obtain ⟨-, delivered⟩ := Option.ite_none_right_eq_some.mp stepped
      obtain ⟨inbound, -, delivered⟩ := Option.bind_eq_some_iff.mp delivered
      split at delivered
      · cases delivered
      · obtain rfl := Option.some.inj delivered
        rfl

theorem documented : network.Documented where
  initial_link _ := rfl
  initial_retained _ := rfl
  initial_inbound := rfl
  isolated := isolated
  call {before after event} stepped call := by
    cases event with
    | connect | publish | disconnect =>
        obtain rfl := Option.some.inj stepped
        exact ⟨rfl, rfl⟩
    | connected | receive | broken | subscribe | deliver | unsubscribe => exact call.elim
  connect stepped := by
    obtain rfl := Option.some.inj stepped
    exact setLink_same ..
  connected stepped := by
    obtain rfl := Option.some.inj stepped
    exact setLink_same ..
  takenOver stepped := by
    obtain rfl := Option.some.inj stepped
    exact publishesWill ..
  publish_online stepped := by
    obtain rfl := Option.some.inj stepped
    exact setLink_same ..
  publish_offline stepped := by
    obtain rfl := Option.some.inj stepped
    exact setLink_same ..
  disconnect_online stepped := by
    obtain rfl := Option.some.inj stepped
    exact setLink_same ..
  disconnect_offline stepped := by
    obtain rfl := Option.some.inj stepped
    exact setLink_same ..
  receive stepped := by
    obtain ⟨session, opened, received⟩ := Option.bind_eq_some_iff.mp stepped
    dsimp only at received
    refine ⟨session, opened, ?_⟩
    split at received
    · cases received
    · next message packets first =>
      obtain rfl := Option.some.inj received
      exact .inl ⟨message, packets, first, publishes .., setLink_same ..⟩
    · next packets first =>
      obtain rfl := Option.some.inj received
      exact .inr ⟨⟨packets, first⟩, ⟨rfl, rfl⟩, setLink_same ..⟩
  broken stepped := by
    obtain ⟨session, opened, rfl⟩ := Option.map_eq_some_iff.mp stepped
    exact ⟨session, opened, publishes .., setLink_same ..⟩
  subscribe {before after} stepped := by
    obtain rfl := Option.some.inj stepped
    refine ⟨rfl, _, rfl, fun message => ?_⟩
    have kept (topic : String) := lookup_eq_some_iff before.retained.property topic message
    simp only [List.mem_map, Prod.exists, exists_eq_right, network, kept]
  deliver {before after position} stepped := by
    obtain ⟨rfl, delivered⟩ := Option.ite_none_right_eq_some.mp stepped
    obtain ⟨inbound, arriving, delivered⟩ := Option.bind_eq_some_iff.mp delivered
    split at delivered
    · cases delivered
    · next message messages =>
      obtain rfl := Option.some.inj delivered
      exact ⟨rfl, _, message, arriving, rfl, by simp, rfl⟩
  unsubscribe stepped := by
    obtain rfl := Option.some.inj stepped
    exact ⟨rfl, rfl⟩

end FifoBroker

end Vda5050
