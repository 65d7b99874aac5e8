import Vda5050.AgvController.ErrorObjects
import Vda5050.MasterController.InstantActions
import Vda5050.System.Basic

/-!
# States underway

The States that have been published are dispatched one after the other. The
first one of those underway is the one being dispatched, if there is one.
-/

set_option autoImplicit false

namespace Vda5050

namespace System

open MasterController

/-- The States whose dispatch has not been completed. -/
def underway (sys : System) : List State :=
  (sys.master.dispatching.map (·.state)).toList ++ sys.vehicle.published.drop sys.dispatched

/-- Only published States of the vehicle are dispatched. -/
structure Channels (agvId : AgvId) (sys : System) : Prop where
  dispatched : sys.dispatched ≤ sys.vehicle.published.length
  dispatching : ∀ current, sys.master.dispatching = some current → current.agvId = agvId

theorem Channels.initial (agvId : AgvId) (limit : Nat) : Channels agvId (System.initial limit) where
  dispatched := Nat.zero_le _
  dispatching := by simp [System.initial]

/-- What a step does to the States underway: the vehicle publishes some, the
dispatch of the first one is completed, or none of both. -/
inductive Moves (agvId : AgvId) (sys next : System) (event : SystemEvent) : Prop
  | vehicle (happened : Event) (states : List State) :
      sys.vehicleEvent event = some happened → next.vehicle = sys.vehicle.perform happened →
      next.vehicle.published = sys.vehicle.published ++ states →
      next.underway = sys.underway ++ states → next.master = sys.master →
      Moves agvId sys next event
  | completed (current : Dispatching) :
      event = .continueDispatch → sys.master.enabled .continueDispatch →
      sys.master.dispatching = some current → current.errors = [] →
      sys.underway = current.state :: next.underway → next.vehicle = sys.vehicle →
      next.master = sys.master.continueDispatch → Moves agvId sys next event
  | master (happened : MasterEvent) :
      sys.masterEvent agvId event = some happened → sys.master.enabled happened →
      (happened = .continueDispatch →
        ∀ current, sys.master.dispatching = some current → current.errors ≠ []) →
      next.underway = sys.underway → next.vehicle = sys.vehicle →
      next.master = sys.master.perform happened → Moves agvId sys next event

variable {agvId : AgvId} {sys next : System}

/-- No State is being dispatched when all errors have been looked at. -/
theorem continueDispatch_dispatching {m : MasterController} {current : Dispatching}
    (dispatching : m.dispatching = some current) :
    m.continueDispatch.dispatching =
      match current.errors with
      | [] => none
      | _ :: errors => some { current with errors := errors } := by
  rcases continueDispatch_cases dispatching with ⟨error, errors, remaining, looking⟩ |
    ⟨finished, ends⟩
  · rw [remaining]
    exact looking.dispatching
  · rw [finished]
    have order := (orderDispatched_same m current).dispatching
    rcases ends with ⟨crashed, -⟩ | dispatched
    · rw [crashed]
      exact order
    · rw [dispatched, (dispatchInstantActions_rest _ _ _).dispatching,
        updateInstantActionsValidationError_set]
      exact order

theorem send_vehicle (agvId : AgvId) (sys : System) (event : SystemEvent) :
    (sys.send agvId event).vehicle = sys.vehicle := by
  cases event with
  | assignOrder message sent =>
      simp only [send, sendOrder]
      split
      · split <;> rfl
      · rfl
  | _ => rfl

theorem send_dispatched (agvId : AgvId) (sys : System) (event : SystemEvent) :
    (sys.send agvId event).dispatched =
      match event with
      | .dispatchState => sys.dispatched + 1
      | _ => sys.dispatched := by
  cases event with
  | assignOrder message sent =>
      simp only [send, sendOrder]
      split
      · split <;> rfl
      · rfl
  | _ => rfl

theorem receive_dispatched (sys : System) (vehicle : Config) (event : SystemEvent) :
    (sys.receive vehicle event).dispatched = sys.dispatched := by
  cases event with
  | receiveOrder => simp only [receive]; split <;> rfl
  | receiveInstantActions => simp only [receive]; split <;> rfl
  | _ => rfl

/-- The event does not belong to the dispatch of a State. -/
def isCall : MasterEvent → Bool
  | .state .. | .continueDispatch => false
  | _ => true

/-- Calls of the application leave the State being dispatched as it is. -/
theorem call_dispatching (m : MasterController) {event : MasterEvent} (call : isCall event) :
    (m.perform event).dispatching = m.dispatching := by
  cases event with
  | assignOrder target order handler => exact (assignOrder_same m target order handler).dispatching
  | orderPublished ref succeeded => exact (orderPublished_same m ref succeeded).dispatching
  | initiateInstantActions target actions handler =>
      simp only [perform, initiateInstantActions]
      split <;> rfl
  | instantActionsPublished pending succeeded =>
      exact (instantActionsPublished_rest m pending succeeded).1
  | state | continueDispatch => cases call

theorem masterEvent_continueDispatch {event : SystemEvent}
    (atMaster : sys.masterEvent agvId event = some .continueDispatch) :
    event = .continueDispatch := by
  cases event with
  | continueDispatch => rfl
  | dispatchState =>
      obtain ⟨state, -, other⟩ := Option.map_eq_some_iff.mp atMaster
      cases other
  | assignOrder | orderPublished | initiateInstantActions | instantActionsPublished
  | receiveOrder | receiveInstantActions | vehicle => cases atMaster

theorem step_moves (channels : Channels agvId sys) {event : SystemEvent}
    (stepped : sys.step agvId event = some next) :
    Channels agvId next ∧ Moves agvId sys next event := by
  rcases step_cases stepped with ⟨happened, atMaster, enabled, rfl⟩ | ⟨happened, atVehicle, -, rfl⟩
  · have vehicle := send_vehicle agvId sys event
    have dispatched := send_dispatched agvId sys event
    -- A call of the application neither starts nor continues a dispatch.
    have called : isCall happened → (sys.send agvId event).dispatched = sys.dispatched →
        Channels agvId { sys.send agvId event with master := sys.master.perform happened } ∧
          Moves agvId sys { sys.send agvId event with master := sys.master.perform happened }
            event := by
      intro call same
      have dispatching := call_dispatching sys.master call
      constructor
      · constructor
        · rw [vehicle, same]
          exact channels.dispatched
        · rw [dispatching]
          exact channels.dispatching
      · apply Moves.master happened atMaster enabled
        · rintro rfl
          cases call
        · simp only [underway, dispatching, vehicle, same]
        · exact vehicle
        · rfl
    cases event with
    | assignOrder message sent =>
        obtain rfl := Option.some.inj atMaster
        exact called rfl dispatched
    | orderPublished ref succeeded =>
        obtain rfl := Option.some.inj atMaster
        exact called rfl dispatched
    | initiateInstantActions message sent =>
        obtain rfl := Option.some.inj atMaster
        exact called rfl dispatched
    | instantActionsPublished pending succeeded =>
        obtain rfl := Option.some.inj atMaster
        exact called rfl dispatched
    | dispatchState =>
        obtain ⟨state, published, rfl⟩ := Option.map_eq_some_iff.mp atMaster
        obtain ⟨bound, same⟩ := List.getElem?_eq_some_iff.mp published
        have idle : sys.master.dispatching = none := by
          simp only [MasterController.enabled, Bool.and_eq_true, Option.isNone_iff_eq_none] at enabled
          exact enabled.2
        constructor
        · constructor
          · exact bound
          · intro current found
            rw [← Option.some.inj found]
        · apply Moves.master (.state agvId state) atMaster enabled
          · intro same
            cases same
          · simp only [underway, idle, perform, MasterController.dispatchState, send,
              Option.map_none, Option.map_some, Option.toList_none, Option.toList_some,
              List.nil_append, List.singleton_append]
            rw [List.drop_eq_getElem_cons bound, same]
          · rfl
          · rfl
    | continueDispatch =>
        obtain rfl := Option.some.inj atMaster
        cases dispatching : sys.master.dispatching with
        | none => simp [MasterController.enabled, dispatching] at enabled
        | some current =>
            have after := continueDispatch_dispatching dispatching
            have agv := channels.dispatching current dispatching
            cases remaining : current.errors with
            | nil =>
                rw [remaining] at after
                constructor
                · constructor
                  · exact channels.dispatched
                  · intro later found
                    cases found.symm.trans after
                · apply Moves.completed current rfl enabled dispatching remaining
                  · simp [underway, dispatching, send, perform, after]
                  · rfl
                  · rfl
            | cons error errors =>
                rw [remaining] at after
                constructor
                · constructor
                  · exact channels.dispatched
                  · intro later found
                    obtain rfl := Option.some.inj (after.symm.trans found)
                    exact agv
                · apply Moves.master .continueDispatch rfl enabled
                  · intro _ other found
                    obtain rfl := Option.some.inj (dispatching.symm.trans found)
                    simp [remaining]
                  · simp [underway, dispatching, send, perform, after]
                  · rfl
                  · rfl
    | receiveOrder | receiveInstantActions | vehicle => cases atMaster
  · have dispatched := receive_dispatched sys (sys.vehicle.perform happened) event
    have master := receive_master sys (sys.vehicle.perform happened) event
    obtain ⟨states, published, -⟩ := (sys.vehicle.perform_errorsMove happened).published
    constructor
    · constructor
      · rw [dispatched, published, List.length_append]
        exact channels.dispatched.trans (Nat.le_add_right _ _)
      · rw [master]
        exact channels.dispatching
    · apply Moves.vehicle happened states atVehicle rfl published
      · simp only [underway, dispatched, master, published]
        rw [List.drop_append_of_le_length channels.dispatched, List.append_assoc]
      · exact master

end System

/-- The channels of a run. -/
theorem SystemRun.channels {condition : System → SystemEvent → Prop} {agvId : AgvId} {limit : Nat}
    {events : List SystemEvent} {sys : System}
    (run : SystemRun condition agvId limit events sys) : System.Channels agvId sys :=
  run.invariant _ (.initial agvId limit) fun _ channels _ stepped =>
    (System.step_moves channels stepped).1

end Vda5050
